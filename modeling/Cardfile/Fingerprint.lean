import Cardfile.Text.Utf8

/-!
# Fingerprints of text

A fingerprint is a 64-bit digest of bytes.  Eight bytes at a time are mixed
into four lanes in turn, and the lanes are folded together with the length.
Different texts may share a fingerprint.
-/

namespace Cardfile.Fingerprint

/-- Spreads each bit of a word over the whole word. -/
def diffuse (word : UInt64) : UInt64 :=
  let spread := word * 0x6eed0e9da4d94a4f
  let folded := spread ^^^ ((spread >>> 32) >>> (spread >>> 60))
  folded * 0x6eed0e9da4d94a4f

/-- The word whose low byte comes first. -/
def wordOfBytes : List UInt8 → UInt64
  | [] => 0
  | byte :: rest => byte.toUInt64 + 256 * wordOfBytes rest

/-- The four lanes, the one that takes the next word first. -/
structure Lanes where
  first : UInt64 := 0x16f11fe89b0d677c
  second : UInt64 := 0xb480a793d8e6c86c
  third : UInt64 := 0x6fe2e5aaf078ebc9
  fourth : UInt64 := 0x14f994a4c5259381

/-- Mixes a word into the first lane and moves that lane to the end. -/
def Lanes.take (lanes : Lanes) (word : UInt64) : Lanes :=
  ⟨lanes.second, lanes.third, lanes.fourth, diffuse (lanes.first ^^^ word)⟩

/-- Cuts bytes into pieces of eight, the last of which may be shorter. -/
def pieces : List UInt8 → List (List UInt8)
  | a :: b :: c :: d :: e :: f :: g :: h :: rest =>
      [a, b, c, d, e, f, g, h] :: pieces rest
  | [] => []
  | rest => [rest]

/-- The fingerprint of a list of bytes. -/
def ofBytes (bytes : List UInt8) : UInt64 :=
  let lanes := ((pieces bytes).map wordOfBytes).foldl Lanes.take {}
  diffuse (lanes.first ^^^ lanes.second ^^^ lanes.third ^^^ lanes.fourth ^^^
    UInt64.ofNat bytes.length)

/-- The fingerprint of a text. -/
def ofText (text : String) : UInt64 :=
  ofBytes (Text.Utf8.encode text)

end Cardfile.Fingerprint
