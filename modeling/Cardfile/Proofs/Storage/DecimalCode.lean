import Cardfile.Proofs.Decimal.Value
import Cardfile.Proofs.Storage.StorageForm

/-!
# What sixteen bytes keep of a number

Sixteen bytes hold a number exactly if it has no more than 28 places, and
otherwise the nearest number that has 28.  Numbers keep their order, and what
the bytes hold has the same bytes again.
-/

namespace Cardfile.Decimal

variable {number : Decimal} {bytes : List UInt8}

theorem encode?_eq (number : Decimal) :
    number.encode? =
      if number.brought.mantissa.natAbs < 2 ^ 96 then
        some number.brought.toBytes
      else none := by
  have width : 1 <<< 96 = 2 ^ 96 := Nat.one_shiftLeft 96
  rw [encode?, stored?_eq, width]
  split
  · rfl
  · rfl

/-- The bytes of a number hold what it is brought to, and are its bytes as
well. -/
theorem of_encode? (encoded : number.encode? = some bytes) :
    bytes.length = 16 ∧ decode bytes = number.brought ∧
      number.brought.encode? = some bytes := by
  obtain ⟨kept, found, rfl⟩ := Option.map_eq_some_iff.mp encoded
  have stored := Stored.of_stored? found
  obtain rfl : kept = number.brought := by
    rw [stored?_eq] at found
    split at found
    · exact (Option.some.inj found).symm
    · cases found
  refine ⟨length_toBytes _, stored.decode_toBytes, ?_⟩
  rw [encode?, stored.stored?]
  rfl

/-- A number has bytes exactly if it fits into 96 bits at its scale.  They
keep its value if it has at most 28 places, and otherwise the nearest multiple
of the 28th place, the even one of two.  What they hold has the same bytes,
and numbers keep their order. -/
theorem encode?_keeps_nearest :
    (∀ number : Decimal, ∃ kept,
      (∀ other, number.BroughtTo other ↔ other = kept) ∧
      if kept.mantissa.natAbs < 2 ^ 96 then
        ∃ bytes, number.encode? = some bytes ∧ bytes.length = 16 ∧
          decode bytes = kept ∧ kept.encode? = some bytes ∧
          if number.scale ≤ 28 then kept.value = number.value
          else kept.scale = 28 ∧
            NearestMultiple number.value ((10 : ℚ) ^ (-28 : ℤ)) kept.mantissa
      else number.encode? = none) ∧
    ∀ (left right : Decimal) (leftBytes rightBytes : List UInt8),
      left.encode? = some leftBytes → right.encode? = some rightBytes →
      left.value ≤ right.value →
      (decode leftBytes).value ≤ (decode rightBytes).value := by
  constructor
  · intro number
    have brought := number.broughtTo_brought
    refine ⟨number.brought, ?_, ?_⟩
    · intro other
      constructor
      · intro found
        exact found.unique brought
      · rintro rfl
        exact brought
    · split
      · next fits =>
          have encoded : number.encode? = some number.brought.toBytes := by
            rw [encode?_eq, if_pos fits]
          obtain ⟨length, decoded, again⟩ := of_encode? encoded
          refine ⟨_, encoded, length, decoded, again, ?_⟩
          split
          · next few => exact brought.value_eq few
          · next many => exact brought.nearestMultiple (Int.not_le.mp many)
      · next wide => rw [encode?_eq, if_neg wide]
  · intro left right leftBytes rightBytes leftEncoded rightEncoded ordered
    rw [(of_encode? leftEncoded).2.1, (of_encode? rightEncoded).2.1]
    exact left.broughtTo_brought.value_le right.broughtTo_brought ordered

/-- Half of the last place below zero becomes zero, and two and a half of it
become two. -/
theorem encode?_keeps_nearest_of_ties :
    ∃ low high, encode? ⟨-5, 29⟩ = some low ∧ encode? ⟨25, 29⟩ = some high ∧
      decode low = ⟨0, 28⟩ ∧ decode high = ⟨2, 28⟩ ∧
      value ⟨-5, 29⟩ ≤ value ⟨25, 29⟩ ∧
      (decode low).value ≤ (decode high).value := by
  have lowEncoded : encode? ⟨-5, 29⟩ = some (toBytes ⟨0, 28⟩) := by
    decide +kernel
  have highEncoded : encode? ⟨25, 29⟩ = some (toBytes ⟨2, 28⟩) := by
    decide +kernel
  have ordered : value ⟨-5, 29⟩ ≤ value ⟨25, 29⟩ := by
    rw [value, value]
    gcongr
    decide
  exact ⟨_, _, lowEncoded, highEncoded, by decide, by decide, ordered,
    encode?_keeps_nearest.2 _ _ _ _ lowEncoded highEncoded ordered⟩

end Cardfile.Decimal
