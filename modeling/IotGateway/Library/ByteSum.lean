import Mathlib.Algebra.BigOperators.Group.List.Basic
import Mathlib.Algebra.GroupWithZero.Nat
import Mathlib.Tactic.Common

/-!
# Sums of bytes

The additive checksum of a list of bytes, accumulated in a byte that wraps
around, and the sum of their values modulo 256 which it computes.
-/

namespace ByteSum

def accumulate (start : UInt8) (bytes : List UInt8) : UInt8 :=
  bytes.foldl (· + ·) start

def sumMod (bytes : List UInt8) : ℕ := (bytes.map UInt8.toNat).sum % 256

@[simp] theorem accumulate_nil (start : UInt8) : accumulate start [] = start := rfl

@[simp] theorem accumulate_cons (start byte : UInt8) (bytes : List UInt8) :
    accumulate start (byte :: bytes) = accumulate (start + byte) bytes := rfl

/-- The wrapping accumulator computes the sum modulo 256. -/
theorem toNat_accumulate (start : UInt8) (bytes : List UInt8) :
    (accumulate start bytes).toNat =
      (start.toNat + (bytes.map UInt8.toNat).sum) % 256 := by
  induction bytes generalizing start with
  | nil =>
      have hbound := start.toNat_lt
      simp only [accumulate_nil, List.map_nil, List.sum_nil, Nat.add_zero]
      omega
  | cons byte bytes ih =>
      rw [accumulate_cons, ih, UInt8.toNat_add]
      simp only [List.map_cons, List.sum_cons]
      omega

theorem toNat_accumulate_zero (bytes : List UInt8) :
    (accumulate 0 bytes).toNat = sumMod bytes := by
  rw [toNat_accumulate]
  simp [sumMod]

theorem eq_accumulate_iff (byte : UInt8) (bytes : List UInt8) :
    byte = accumulate 0 bytes ↔ byte.toNat = sumMod bytes := by
  rw [← toNat_accumulate_zero, UInt8.toNat_inj]

/-- A byte can be replaced by no other byte without a change of the sum. -/
theorem sumMod_append_cons_inj {front back : List UInt8} {first second : UInt8} :
    sumMod (front ++ first :: back) = sumMod (front ++ second :: back) ↔ first = second := by
  constructor
  · intro hsum
    have hfirst := first.toNat_lt
    have hsecond := second.toNat_lt
    simp only [sumMod, List.map_append, List.map_cons, List.sum_append, List.sum_cons] at hsum
    apply UInt8.toNat_inj.mp
    omega
  · exact fun hbyte => by rw [hbyte]

theorem sumMod_set_ne {bytes : List UInt8} {position : ℕ} {value : UInt8}
    (hposition : position < bytes.length) (hvalue : bytes[position]? ≠ some value) :
    sumMod (bytes.set position value) ≠ sumMod bytes := by
  have hwhole : bytes.take position ++ bytes[position] :: bytes.drop (position + 1) = bytes := by
    rw [List.getElem_cons_drop, List.take_append_drop]
  have hset : bytes.set position value =
      bytes.take position ++ value :: bytes.drop (position + 1) := by
    rw [List.set_eq_take_append_cons_drop, if_pos hposition]
  intro hsum
  have hsame : value = bytes[position] := by
    apply sumMod_append_cons_inj.mp
    rw [← hset, hsum, hwhole]
  apply hvalue
  rw [List.getElem?_eq_getElem hposition, hsame]

end ByteSum
