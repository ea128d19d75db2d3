import Mathlib.Data.List.Basic

/-!
# Deletions from a list

A list is obtained from another one by the deletion of removable entries; all
other entries stay, in their order.
-/

namespace Deletions

variable {α : Type*} {Removable : α → Prop}

inductive Thinned (Removable : α → Prop) : List α → List α → Prop where
  | nil : Thinned Removable [] []
  | keep (entry : α) {short long : List α} (hrest : Thinned Removable short long) :
      Thinned Removable (entry :: short) (entry :: long)
  | drop {entry : α} {short long : List α} (hentry : Removable entry)
      (hrest : Thinned Removable short long) : Thinned Removable short (entry :: long)

theorem Thinned.refl (list : List α) : Thinned Removable list list := by
  induction list with
  | nil => exact .nil
  | cons entry rest ih => exact .keep entry ih

theorem Thinned.append {short long short' long' : List α}
    (hfront : Thinned Removable short long) (hback : Thinned Removable short' long') :
    Thinned Removable (short ++ short') (long ++ long') := by
  induction hfront with
  | nil => exact hback
  | keep entry _ ih => exact .keep entry ih
  | drop hentry _ ih => exact .drop hentry ih

theorem Thinned.of_forall {list : List α} (hlist : ∀ entry ∈ list, Removable entry) :
    Thinned Removable [] list := by
  induction list with
  | nil => exact .nil
  | cons entry rest ih =>
      exact .drop (hlist entry List.mem_cons_self)
        (ih fun other hmem => hlist other (List.mem_cons_of_mem _ hmem))

/-- Removable entries in front of a list. -/
theorem Thinned.append_left {front list : List α} (hfront : ∀ entry ∈ front, Removable entry) :
    Thinned Removable list (front ++ list) :=
  (Thinned.of_forall hfront).append (Thinned.refl list)

end Deletions
