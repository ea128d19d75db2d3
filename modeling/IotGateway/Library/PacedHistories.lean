import IotGateway.Library.Histories
import Mathlib.Algebra.Order.Ring.Int
import Mathlib.Tactic.Ring

/-!
# Paced histories

The entries of a history carry times that never decrease, and its events keep
a gap.  The number of events between two entries then bounds the time between
them.
-/

namespace Histories

variable {α : Type*} (event : α → Bool) (time : α → ℤ) (gap : ℤ)

def Paced (history : List α) : Prop :=
  history.Pairwise fun earlier later => time earlier ≤ time later ∧
    (event earlier = true → event later = true → time earlier + gap ≤ time later)

variable {event time gap}

theorem Paced.concat {history : List α} {entry : α} (hpaced : Paced event time gap history)
    (htime : ∀ other ∈ history, time other ≤ time entry)
    (hgap : event entry = true →
      ∀ other ∈ history, event other = true → time other + gap ≤ time entry) :
    Paced event time gap (history ++ [entry]) := by
  unfold Paced
  rw [List.pairwise_append]
  refine ⟨hpaced, List.pairwise_singleton _ _, ?_⟩
  intro other hmem later hlater
  rw [List.mem_singleton.mp hlater]
  exact ⟨htime other hmem, fun hother hentry => hgap hentry other hmem hother⟩

theorem Paced.of_append {front back : List α} (hpaced : Paced event time gap (front ++ back)) :
    Paced event time gap front := (List.pairwise_append.mp hpaced).1

/-- The events behind an entry are counted backwards from a later event. -/
theorem elapsed_of_paced {first : α} {middle : List α} {bound : ℤ}
    (hpaced : Paced event time gap (first :: middle)) (hfirst : time first ≤ bound)
    (hbound : ∀ entry ∈ middle, event entry = true → time entry + gap ≤ bound) :
    time first + gap * middle.countP event ≤ bound := by
  induction middle using List.reverseRecOn generalizing bound with
  | nil => simpa using hfirst
  | append_singleton middle last ih =>
      have hinit : Paced event time gap (first :: middle) := Paced.of_append hpaced
      obtain ⟨_, _, hpairs⟩ := List.pairwise_append.mp
        (show ((first :: middle) ++ [last]).Pairwise _ from hpaced)
      rw [List.countP_append, List.countP_singleton]
      by_cases hlast : event last = true
      · have hbefore := @ih (time last) hinit
          (hpairs first List.mem_cons_self last List.mem_cons_self).1
          (fun entry hmem hentry =>
            (hpairs entry (List.mem_cons_of_mem _ hmem) last List.mem_cons_self).2 hentry hlast)
        have hgap := hbound last (by simp) hlast
        rw [if_pos hlast]
        calc time first + gap * ((middle.countP event + 1 : ℕ) : ℤ)
            = time first + gap * middle.countP event + gap := by
              push_cast
              ring
          _ ≤ bound := by omega
      · rw [if_neg hlast]
        exact ih hinit hfirst fun entry hmem => hbound entry (List.mem_append_left _ hmem)

theorem Paced.elapsed {front middle back : List α} {first last : α}
    (hpaced : Paced event time gap (front ++ first :: middle ++ last :: back))
    (hlast : event last = true) : time first + gap * middle.countP event ≤ time last := by
  rw [List.append_assoc] at hpaced
  have hrest : ((first :: middle) ++ last :: back).Pairwise _ :=
    (List.pairwise_append.mp hpaced).2.1
  obtain ⟨hmiddle, _, hpairs⟩ := List.pairwise_append.mp hrest
  apply elapsed_of_paced hmiddle
  · exact (hpairs first List.mem_cons_self last List.mem_cons_self).1
  · intro entry hmem hentry
    exact (hpairs entry (List.mem_cons_of_mem _ hmem) last List.mem_cons_self).2 hentry hlast

/-! ## Counting behind an entry -/

variable {reset : α → Bool}

theorem countSince_append_le (event : α → Bool) (front middle : List α) {entry : α}
    (hreset : reset entry = true) :
    countSince reset event (front ++ entry :: middle) ≤ middle.countP event := by
  induction middle using List.reverseRecOn with
  | nil => exact Nat.le_of_eq (countSince_concat_of_reset event front hreset)
  | append_singleton middle last ih =>
      have hsplit : front ++ entry :: (middle ++ [last]) =
          (front ++ entry :: middle) ++ [last] := by simp
      rw [hsplit, List.countP_append, List.countP_singleton]
      by_cases hlast : reset last = true
      · rw [countSince_concat_of_reset event _ hlast]
        exact Nat.zero_le _
      · rw [countSince_concat event _ (Bool.eq_false_iff.mpr hlast)]
        exact Nat.add_le_add_right ih _

theorem le_countSince (event : α → Bool) (front : List α) {back : List α}
    (hreset : ∀ entry ∈ back, reset entry = false) :
    back.countP event ≤ countSince reset event (front ++ back) := by
  induction back using List.reverseRecOn with
  | nil => exact Nat.zero_le _
  | append_singleton back last ih =>
      rw [← List.append_assoc, countSince_concat event _ (hreset last (by simp)),
        List.countP_append, List.countP_singleton]
      exact Nat.add_le_add_right (ih fun entry hmem => hreset entry (by simp [hmem])) _

theorem exists_last_event {history : List α} {count : ℕ}
    (hcount : count < history.countP event) :
    ∃ before entry after, history = before ++ entry :: after ∧ event entry = true ∧
      count ≤ before.countP event := by
  induction history using List.reverseRecOn with
  | nil => exact absurd hcount (Nat.not_lt_zero _)
  | append_singleton history last ih =>
      rw [List.countP_append, List.countP_singleton] at hcount
      by_cases hlast : event last = true
      · rw [if_pos hlast] at hcount
        exact ⟨history, last, [], rfl, hlast, Nat.le_of_lt_succ hcount⟩
      · rw [if_neg hlast] at hcount
        obtain ⟨before, entry, after, rfl, hentry, hbefore⟩ := ih hcount
        exact ⟨before, entry, after ++ [last], by simp, hentry, hbefore⟩

end Histories
