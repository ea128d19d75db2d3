import Mathlib.Data.List.Induction

/-!
# Histories

A history lists the entries of a run, the latest one last.  A property of an
entry may refer to the entries before it, such as the number of events since
the latest reset.
-/

namespace Histories

variable {α : Type*}

/-- How many events there are behind the latest reset. -/
def countSince (reset event : α → Bool) (history : List α) : ℕ :=
  (history.reverse.takeWhile fun entry => !reset entry).countP event

theorem countSince_concat_of_reset
    {reset : α → Bool} {entry : α} (event : α → Bool) (history : List α)
    (hreset : reset entry = true) :
    countSince reset event (history ++ [entry]) = 0 := by
  simp [countSince, hreset]

theorem countSince_concat
    {reset : α → Bool} {entry : α} (event : α → Bool) (history : List α)
    (hreset : reset entry = false) :
    countSince reset event (history ++ [entry]) =
      countSince reset event history + if event entry then 1 else 0 := by
  simp [countSince, hreset, List.countP_cons]

theorem countSince_le (reset event : α → Bool) (history : List α) :
    countSince reset event history ≤ history.countP event := by
  have hsublist : List.Sublist (history.reverse.takeWhile fun entry => !reset entry)
      history.reverse := List.takeWhile_sublist _
  calc countSince reset event history ≤ history.reverse.countP event := hsublist.countP_le
    _ = history.countP event := List.countP_reverse

/-- Every entry has the property, given the entries before it. -/
def Throughout (Holds : List α → α → Prop) (history : List α) : Prop :=
  ∀ before entry after, history = before ++ entry :: after → Holds before entry

theorem throughout_nil (Holds : List α → α → Prop) : Throughout Holds [] := by
  intro before entry after hsplit
  simp at hsplit

theorem Throughout.concat
    {Holds : List α → α → Prop} {history : List α} {entry : α}
    (hhistory : Throughout Holds history) (hentry : Holds history entry) :
    Throughout Holds (history ++ [entry]) := by
  intro before other after hsplit
  rcases List.eq_nil_or_concat after with rfl | ⟨front, last, rfl⟩
  · obtain ⟨rfl, hlast⟩ := List.append_inj' hsplit rfl
    cases hlast
    exact hentry
  · have hfront : history ++ [entry] = (before ++ other :: front) ++ [last] := by
      rw [hsplit]
      simp
    obtain ⟨hinit, _⟩ := List.append_inj' hfront rfl
    exact hhistory before other front hinit

theorem throughout_concat_iff
    {Holds : List α → α → Prop} {history : List α} {entry : α} :
    Throughout Holds (history ++ [entry]) ↔
      Throughout Holds history ∧ Holds history entry := by
  constructor
  · intro hhistory
    refine ⟨?_, hhistory history entry [] rfl⟩
    intro before other after hsplit
    apply hhistory before other (after ++ [entry])
    rw [hsplit, List.append_assoc]
    rfl
  · exact fun hboth => hboth.1.concat hboth.2

theorem throughout_map_iff {β : Type*}
    {Holds : List β → β → Prop} {value : α → β} {history : List α} :
    Throughout Holds (history.map value) ↔
      Throughout (fun before entry => Holds (before.map value) (value entry)) history := by
  induction history using List.reverseRecOn with
  | nil => exact iff_of_true (throughout_nil _) (throughout_nil _)
  | append_singleton history entry ih =>
      rw [List.map_append, List.map_singleton, throughout_concat_iff,
        throughout_concat_iff, ih]

theorem throughout_and_iff {Holds Holds' : List α → α → Prop} {history : List α} :
    Throughout (fun before entry => Holds before entry ∧ Holds' before entry) history ↔
      Throughout Holds history ∧ Throughout Holds' history := by
  unfold Throughout
  simp only [imp_and, forall_and]

end Histories
