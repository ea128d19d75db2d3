import IotGateway.Library.Histories
import Mathlib.Algebra.Ring.Int.Defs
import Mathlib.Algebra.Ring.Nat
import Mathlib.Data.List.Induction

/-!
# Interval timers

A timer that fires when more than an interval has passed since it fired last.
It reads a clock with signed values and keeps the reading of its last firing in
an unsigned word, so that it computes the elapsed time modulo 2^64.  A clock
that is set back makes it fire early.
-/

namespace IntervalTimer

open Histories

def isDue (interval : UInt64) (now : Int64) (last : UInt64) : Bool :=
  now.toUInt64 - last > interval

/-- A reading of the clock and whether the timer fires at it. -/
abbrev Entry := Int64 × Bool

def record (interval : UInt64) (last : UInt64) : List Int64 → List Entry
  | [] => []
  | now :: readings =>
      (now, isDue interval now last) ::
        record interval (if isDue interval now last then now.toUInt64 else last) readings

/-- The word that the timer keeps after some readings. -/
def stored (interval : UInt64) (last : UInt64) (readings : List Int64) : UInt64 :=
  readings.foldl (fun last now => if isDue interval now last then now.toUInt64 else last) last

/-- The reading at the last firing, or zero. -/
def lastFiring (entries : List Entry) : Int64 :=
  entries.foldl (fun last entry => if entry.2 then entry.1 else last) 0

def elapsed (now last : Int64) : ℤ := now.toInt - last.toInt

def OnTime (interval : UInt64) (before : List Entry) (entry : Entry) : Prop :=
  entry.2 = true ↔ interval.toNat < elapsed entry.1 (lastFiring before)

/-- The reading at the last firing of a timer which is on time. -/
def lastDue (interval : UInt64) (readings : List Int64) : Int64 :=
  readings.foldl (fun last now => if interval.toNat < elapsed now last then now else last) 0

/-- The clock is not behind the last firing, or by so much that the word has
wrapped around to a short time. -/
def NotSetBack (interval : UInt64) (before : List Int64) (now : Int64) : Prop :=
  0 ≤ elapsed now (lastDue interval before) ∨
    elapsed now (lastDue interval before) + 2 ^ 64 ≤ interval.toNat

/-! ## One reading -/

theorem toInt_eq_ite (number : Int64) :
    number.toInt =
      if 2 * number.toUInt64.toNat < 2 ^ 64 then (number.toUInt64.toNat : ℤ)
      else (number.toUInt64.toNat : ℤ) - 2 ^ 64 :=
  BitVec.toInt_eq_toNat_cond number.toBitVec

theorem isDue_iff (interval : UInt64) (now last : Int64) :
    isDue interval now last.toUInt64 = true ↔
      interval.toNat < elapsed now last ∨
        elapsed now last < 0 ∧ interval.toNat < elapsed now last + 2 ^ 64 := by
  have hnow := toInt_eq_ite now
  have hlast := toInt_eq_ite last
  have hnow_lt := now.toUInt64.toNat_lt
  have hlast_lt := last.toUInt64.toNat_lt
  have hinterval := interval.toNat_lt
  unfold isDue elapsed
  rw [decide_eq_true_eq, gt_iff_lt, UInt64.lt_iff_toNat_lt, UInt64.toNat_sub]
  omega

/-- The timer is on time at a reading iff the clock is not behind. -/
theorem isDue_iff_elapsed (interval : UInt64) (now last : Int64) :
    (isDue interval now last.toUInt64 = true ↔ interval.toNat < elapsed now last) ↔
      0 ≤ elapsed now last ∨ elapsed now last + 2 ^ 64 ≤ interval.toNat := by
  rw [isDue_iff]
  omega

/-- A clock that is not behind makes the timer fire on time. -/
theorem isDue_iff_of_le (interval : UInt64) {now last : Int64} (hle : last.toInt ≤ now.toInt) :
    isDue interval now last.toUInt64 = true ↔ interval.toNat < elapsed now last :=
  (isDue_iff_elapsed interval now last).mpr (.inl (Int.sub_nonneg.mpr hle))

/-- A slow timer that has fired last is not due before a fast one. -/
theorem isDue_of_isDue {fast slow : UInt64} {first second now : Int64} (hintervals : fast ≤ slow)
    (hfirst : first.toInt ≤ second.toInt) (hsecond : second.toInt ≤ now.toInt)
    (hdue : isDue slow now second.toUInt64 = true) : isDue fast now first.toUInt64 = true := by
  rw [isDue_iff_of_le slow hsecond] at hdue
  rw [isDue_iff_of_le fast (Int.le_trans hfirst hsecond)]
  have hle := UInt64.le_iff_toNat_le.mp hintervals
  unfold elapsed at *
  omega

/-! ## Readings in a row -/

theorem stored_concat (interval : UInt64) (last : UInt64) (readings : List Int64) (now : Int64) :
    stored interval last (readings ++ [now]) =
      if isDue interval now (stored interval last readings) then now.toUInt64
      else stored interval last readings := by
  unfold stored
  rw [List.foldl_append]
  rfl

theorem lastFiring_concat (entries : List Entry) (entry : Entry) :
    lastFiring (entries ++ [entry]) = if entry.2 then entry.1 else lastFiring entries := by
  unfold lastFiring
  rw [List.foldl_append]
  rfl

theorem lastDue_concat (interval : UInt64) (readings : List Int64) (now : Int64) :
    lastDue interval (readings ++ [now]) =
      if interval.toNat < elapsed now (lastDue interval readings) then now
      else lastDue interval readings := by
  unfold lastDue
  rw [List.foldl_append]
  rfl

theorem record_concat (interval : UInt64) (last : UInt64) (readings : List Int64) (now : Int64) :
    record interval last (readings ++ [now]) =
      record interval last readings ++
        [(now, isDue interval now (stored interval last readings))] := by
  induction readings generalizing last with
  | nil => rfl
  | cons first readings ih => exact congrArg (_ :: ·) (ih _)

theorem stored_eq (interval : UInt64) (readings : List Int64) :
    stored interval 0 readings = (lastFiring (record interval 0 readings)).toUInt64 := by
  induction readings using List.reverseRecOn with
  | nil => rfl
  | append_singleton readings now ih =>
      rw [stored_concat, record_concat, lastFiring_concat, ih]
      exact (apply_ite Int64.toUInt64 _ _ _).symm

/-- A timer that is on time fires when it should. -/
theorem lastFiring_of_onTime {interval : UInt64} {readings : List Int64}
    (honTime : Throughout (OnTime interval) (record interval 0 readings)) :
    lastFiring (record interval 0 readings) = lastDue interval readings := by
  induction readings using List.reverseRecOn with
  | nil => rfl
  | append_singleton readings now ih =>
      rw [record_concat, throughout_concat_iff] at honTime
      obtain ⟨hbefore, hnow⟩ := honTime
      have hlast := ih hbefore
      unfold OnTime at hnow
      rw [record_concat, lastFiring_concat, lastDue_concat, ← hlast]
      exact if_congr hnow rfl rfl

/-- The timer is on time at all readings iff the clock is never behind the last
firing. -/
theorem onTime_iff (interval : UInt64) (readings : List Int64) :
    Throughout (OnTime interval) (record interval 0 readings) ↔
      Throughout (NotSetBack interval) readings := by
  induction readings using List.reverseRecOn with
  | nil => exact iff_of_true (throughout_nil _) (throughout_nil _)
  | append_singleton readings now ih =>
      rw [record_concat, throughout_concat_iff, throughout_concat_iff, ← ih]
      apply and_congr_right
      intro honTime
      unfold OnTime NotSetBack
      rw [stored_eq, ← lastFiring_of_onTime honTime]
      exact isDue_iff_elapsed interval now _

end IntervalTimer
