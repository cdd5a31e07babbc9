/-!
# Reading text from bytes

Bytes that should hold UTF-8 text may be damaged.  Reading never fails: each
longest start of a character that breaks off becomes one replacement
character, and so does each byte that no character starts with.
-/

namespace Cardfile.Text.Utf8

/-- What stands for damaged bytes. -/
def replacement : Char := '\uFFFD'

/-- How a character goes on after its first byte: how many bytes follow, the
range of the next one, and the bits that the first byte brings. -/
structure Lead where
  following : Nat
  low : UInt8
  high : UInt8
  bits : Nat

/-- The continuation that a first byte announces, if a character can start
with it. -/
def lead? (byte : UInt8) : Option Lead :=
  let bits := byte.toNat
  if byte < 0x80 then some ⟨0, 0x80, 0xBF, bits⟩
  else if byte < 0xC2 then none
  else if byte < 0xE0 then some ⟨1, 0x80, 0xBF, bits % 32⟩
  else if byte = 0xE0 then some ⟨2, 0xA0, 0xBF, 0⟩
  else if byte = 0xED then some ⟨2, 0x80, 0x9F, 13⟩
  else if byte < 0xF0 then some ⟨2, 0x80, 0xBF, bits % 16⟩
  else if byte = 0xF0 then some ⟨3, 0x90, 0xBF, 0⟩
  else if byte < 0xF4 then some ⟨3, 0x80, 0xBF, bits % 8⟩
  else if byte = 0xF4 then some ⟨3, 0x80, 0x8F, 4⟩
  else none

/-- Collects the bytes that a character still owes, the first of them between
`low` and `high`.  The bytes that are left come with the code point, if the
character was complete. -/
def follow (low high : UInt8) (bits : Nat) :
    Nat → List UInt8 → Option Nat × List UInt8
  | 0, rest => (some bits, rest)
  | _ + 1, [] => (none, [])
  | owed + 1, byte :: rest =>
      if low ≤ byte ∧ byte ≤ high then
        follow 0x80 0xBF (bits * 64 + byte.toNat % 64) owed rest
      else (none, byte :: rest)

/-- Reads one character and the bytes after it. -/
def readChar (byte : UInt8) (rest : List UInt8) : Char × List UInt8 :=
  match lead? byte with
  | none => (replacement, rest)
  | some lead =>
      match follow lead.low lead.high lead.bits lead.following rest with
      | (some code, rest) => (Char.ofNat code, rest)
      | (none, rest) => (replacement, rest)

/-- Reads at most `count` characters. -/
def readChars : Nat → List UInt8 → List Char
  | 0, _ => []
  | _ + 1, [] => []
  | count + 1, byte :: rest =>
      let (c, rest) := readChar byte rest
      c :: readChars count rest

/-- The text that the bytes hold, damaged places replaced. -/
def decode (bytes : List UInt8) : String :=
  String.ofList (readChars bytes.length bytes)

/-- The bytes of a text. -/
def encode (text : String) : List UInt8 :=
  text.toList.flatMap String.utf8EncodeChar

/-- The text that the bytes hold, if they are undamaged. -/
def decode? (bytes : List UInt8) : Option String :=
  let text := decode bytes
  if encode text = bytes then some text else none

end Cardfile.Text.Utf8
