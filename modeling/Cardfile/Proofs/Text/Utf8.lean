import Mathlib.Tactic.Common
import Cardfile.Text.Utf8

/-!
# Text that was read from bytes

ASCII bytes are read character by character.  A byte outside ASCII begins a
character outside ASCII, be it a whole one or the one that stands for damaged
bytes.  So only ASCII bytes are read as a text in ASCII.
-/

namespace Cardfile.Text.Utf8

theorem toNat_ofNat {code : Nat} (valid : code.isValidChar) :
    (Char.ofNat code).toNat = code := by
  rw [Char.ofNat, dif_pos valid]
  rfl

theorem toNat_ofNat_ascii {byte : UInt8} (ascii : byte < 0x80) :
    (Char.ofNat byte.toNat).toNat = byte.toNat := by
  apply toNat_ofNat
  simp only [UInt8.lt_iff_toNat_lt, UInt8.reduceToNat] at ascii
  rw [Nat.isValidChar]
  omega

/-- The first code point that a first byte can lead to. -/
def Lead.least (lead : Lead) : Nat :=
  (lead.bits * 64 + lead.low.toNat % 64) * Nat.pow 64 (lead.following - 1)

/-- The code point behind the last that a first byte can lead to. -/
def Lead.bound (lead : Lead) : Nat :=
  (lead.bits * 64 + lead.high.toNat % 64 + 1) * Nat.pow 64 (lead.following - 1)

/-- Further bytes have to follow, and all code points that they can lead to
are characters outside ASCII. -/
structure Lead.Outside (lead : Lead) : Prop where
  goesOn : 0 < lead.following
  low : 0x80 ≤ lead.low
  high : lead.high ≤ 0xBF
  ascii : 128 ≤ lead.least
  surrogates : lead.bound ≤ 0xD800 ∨ 0xDFFF < lead.least
  most : lead.bound ≤ 0x110000

theorem outside_of_lead? {byte : UInt8} (high : 0x80 ≤ byte) {lead : Lead}
    (found : lead? byte = some lead) : lead.Outside := by
  have wide := byte.toNat_lt
  simp only [lead?, UInt8.lt_iff_toNat_lt, UInt8.le_iff_toNat_le,
    ← UInt8.toNat_inj, UInt8.reduceToNat] at high found
  split at found
  · omega
  split at found
  · cases found
  repeat' split at found
  all_goals cases found
  all_goals constructor <;> simp [Lead.least, Lead.bound] <;> omega

/-- Bytes that may be any continuation add six bits each. -/
theorem follow_bounds {owed bits code : Nat} {bytes rest : List UInt8}
    (complete : follow 0x80 0xBF bits owed bytes = (some code, rest)) :
    bits * Nat.pow 64 owed ≤ code ∧ code < (bits + 1) * Nat.pow 64 owed := by
  induction owed generalizing bits bytes with
  | zero =>
      simp only [follow, Prod.mk.injEq, Option.some.injEq] at complete
      have one : Nat.pow 64 0 = 1 := rfl
      rw [one]
      omega
  | succ owed ih =>
      cases bytes with
      | nil => simp [follow] at complete
      | cons byte bytes =>
          simp only [follow] at complete
          split at complete
          · obtain ⟨least, most⟩ := ih complete
            have six := Nat.mod_lt byte.toNat (show 0 < 64 by decide)
            have width (bits : Nat) :
                bits * Nat.pow 64 (owed + 1) = bits * 64 * Nat.pow 64 owed := by
              rw [Nat.mul_assoc, Nat.mul_comm 64]
              rfl
            constructor
            · calc bits * Nat.pow 64 (owed + 1)
                  = bits * 64 * Nat.pow 64 owed := width bits
                _ ≤ (bits * 64 + byte.toNat % 64) * Nat.pow 64 owed :=
                  Nat.mul_le_mul_right _ (Nat.le_add_right _ _)
                _ ≤ code := least
            · calc code
                  < (bits * 64 + byte.toNat % 64 + 1) * Nat.pow 64 owed := most
                _ ≤ (bits + 1) * 64 * Nat.pow 64 owed :=
                  Nat.mul_le_mul_right _ (by omega)
                _ = (bits + 1) * Nat.pow 64 (owed + 1) := (width _).symm
          · cases complete

theorem Lead.Outside.code_bounds {lead : Lead} (outside : lead.Outside)
    {code : Nat} {bytes rest : List UInt8}
    (complete : follow lead.low lead.high lead.bits lead.following bytes =
      (some code, rest)) : lead.least ≤ code ∧ code < lead.bound := by
  obtain ⟨owed, following⟩ := Nat.exists_eq_add_one.mpr outside.goesOn
  have low := UInt8.le_iff_toNat_le.mp outside.low
  have high := UInt8.le_iff_toNat_le.mp outside.high
  rw [following] at complete
  rw [Lead.least, Lead.bound, following, Nat.add_sub_cancel]
  cases bytes with
  | nil => simp [follow] at complete
  | cons byte bytes =>
      simp only [follow] at complete
      split at complete
      · next inside =>
          obtain ⟨least, most⟩ := follow_bounds complete
          rw [UInt8.le_iff_toNat_le, UInt8.le_iff_toNat_le] at inside
          simp only [UInt8.reduceToNat] at low high
          constructor
          · apply Nat.le_trans _ least
            apply Nat.mul_le_mul_right
            omega
          · apply Nat.lt_of_lt_of_le most
            apply Nat.mul_le_mul_right
            omega
      · cases complete

/-- A byte outside ASCII is read as the start of a character outside ASCII,
or of a damaged place. -/
theorem le_toNat_readChar {byte : UInt8} (high : 0x80 ≤ byte)
    (rest : List UInt8) : 128 ≤ (readChar byte rest).1.toNat := by
  have damaged : 128 ≤ replacement.toNat := by decide
  cases found : lead? byte with
  | none => simpa only [readChar, found] using damaged
  | some lead =>
      have outside := outside_of_lead? high found
      rcases read : follow lead.low lead.high lead.bits lead.following rest
        with ⟨code?, left⟩
      cases code? with
      | none => simpa only [readChar, found, read] using damaged
      | some code =>
          obtain ⟨least, bound⟩ := outside.code_bounds read
          have ascii := outside.ascii
          have surrogates := outside.surrogates
          have most := outside.most
          have valid : code.isValidChar := by
            rw [Nat.isValidChar]
            omega
          simp only [readChar, found, read, toNat_ofNat valid]
          omega

theorem readChar_ascii {byte : UInt8} (ascii : byte < 0x80)
    (rest : List UInt8) :
    readChar byte rest = (Char.ofNat byte.toNat, rest) := by
  simp [readChar, lead?, ascii, follow]

theorem decode_ascii {bytes : List UInt8}
    (ascii : ∀ byte ∈ bytes, byte < 0x80) :
    decode bytes = String.ofList (bytes.map fun byte =>
      Char.ofNat byte.toNat) := by
  suffices chars : readChars bytes.length bytes =
      bytes.map fun byte => Char.ofNat byte.toNat by
    rw [decode, chars]
  induction bytes with
  | nil => rfl
  | cons byte bytes ih =>
      have first : byte < 0x80 := ascii byte List.mem_cons_self
      have rest := ih fun other member =>
        ascii other (List.mem_cons_of_mem _ member)
      simp only [List.length_cons, readChars, readChar_ascii first, rest,
        List.map_cons]

theorem ascii_of_readChars {count : Nat} {bytes : List UInt8}
    (enough : bytes.length ≤ count)
    (ascii : ∀ c ∈ readChars count bytes, c.toNat < 128) :
    ∀ byte ∈ bytes, byte < 0x80 := by
  induction count generalizing bytes with
  | zero =>
      rw [List.length_eq_zero_iff.mp (Nat.le_zero.mp enough)]
      simp
  | succ count ih =>
      cases bytes with
      | nil => simp
      | cons byte bytes =>
          simp only [readChars, List.forall_mem_cons] at ascii ⊢
          obtain ⟨first, others⟩ := ascii
          have low : byte < 0x80 := by
            refine UInt8.not_le.mp ?_
            intro high
            have outside := le_toNat_readChar high bytes
            omega
          refine ⟨low, ?_⟩
          rw [readChar_ascii low] at others
          exact ih (Nat.le_of_succ_le_succ enough) others

theorem ascii_of_decode {bytes : List UInt8}
    (ascii : ∀ c ∈ (decode bytes).toList, c.toNat < 128) :
    ∀ byte ∈ bytes, byte < 0x80 := by
  rw [decode, String.toList_ofList] at ascii
  exact ascii_of_readChars (Nat.le_refl _) ascii

end Cardfile.Text.Utf8
