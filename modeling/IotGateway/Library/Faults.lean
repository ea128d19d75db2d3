import Mathlib.Data.List.Basic

/-!
# Computations that may fault

How the fault of a computation in `Except` follows from the faults of its
parts, for sequences and for loops over a list.
-/

namespace Faults

variable {ε α β : Type}

/-- The fault with which a computation stops, if any. -/
def faultOf : Except ε α → Option ε
  | .ok _ => none
  | .error fault => some fault

@[simp] theorem faultOf_ok (value : α) :
    faultOf (.ok value : Except ε α) = none := rfl

@[simp] theorem faultOf_pure (value : α) :
    faultOf (pure value : Except ε α) = none := rfl

@[simp] theorem faultOf_error (fault : ε) :
    faultOf (.error fault : Except ε α) = some fault := rfl

theorem exists_of_faultOf_eq_none {computation : Except ε α}
    (hnone : faultOf computation = none) : ∃ value, computation = .ok value := by
  cases computation with
  | error fault => cases hnone
  | ok value => exact ⟨value, rfl⟩

theorem ok_bind (value : α) (next : α → Except ε β) : (Except.ok value >>= next) = next value :=
  rfl

theorem bind_of_ok {first : Except ε α} {value : α} {next : α → Except ε β}
    (hfirst : first = .ok value) : first >>= next = next value := by
  rw [hfirst]
  rfl

theorem bind_congr_ok {first : Except ε α} {next next' : α → Except ε β}
    (hnext : ∀ value, first = .ok value → next value = next' value) :
    first >>= next = first >>= next' := by
  cases first with
  | error fault => rfl
  | ok value => exact hnext value rfl

theorem faultOf_bind_total (first : Except ε α) {next : α → Except ε β}
    (hnext : ∀ value, faultOf (next value) = none) :
    faultOf (first >>= next) = faultOf first := by
  cases first with
  | error fault => rfl
  | ok value => exact hnext value

/-- A sequence faults in its first or in its second part. -/
theorem faultOf_bind_eq_some {first : Except ε α} {next : α → Except ε β} {fault : ε}
    (hfault : faultOf (first >>= next) = some fault) :
    faultOf first = some fault ∨
      ∃ value, first = .ok value ∧ faultOf (next value) = some fault := by
  cases first with
  | error other => exact .inl hfault
  | ok value => exact .inr ⟨value, rfl, hfault⟩

theorem exists_of_bind_eq_ok {first : Except ε α} {next : α → Except ε β} {result : β}
    (hrun : first >>= next = .ok result) :
    ∃ value, first = .ok value ∧ next value = .ok result := by
  cases first with
  | error fault => cases hrun
  | ok value => exact ⟨value, rfl, hrun⟩

/-! ## Two computations side by side -/

/-- Two computations stop with the same fault or have related results. -/
inductive Agree (Related : α → β → Prop) : Except ε α → Except ε β → Prop where
  | error (fault : ε) : Agree Related (.error fault) (.error fault)
  | ok {first : α} {second : β} (hrelated : Related first second) :
      Agree Related (.ok first) (.ok second)

theorem Agree.refl {Related : α → α → Prop} (hrefl : ∀ value, Related value value)
    (computation : Except ε α) : Agree Related computation computation := by
  cases computation with
  | error fault => exact .error fault
  | ok value => exact .ok (hrefl value)

theorem Agree.bind {γ δ : Type} {Related : α → β → Prop} {Related' : γ → δ → Prop}
    {first : Except ε α} {second : Except ε β} {next : α → Except ε γ}
    {next' : β → Except ε δ} (hagree : Agree Related first second)
    (hnext : ∀ value value', Related value value' →
      Agree Related' (next value) (next' value')) :
    Agree Related' (first >>= next) (second >>= next') := by
  cases hagree with
  | error fault => exact .error fault
  | ok hrelated => exact hnext _ _ hrelated

/-! ## Loops -/

theorem faultOf_mapM_eq_some {list : List α} {step : α → Except ε β} {fault : ε}
    (hfault : faultOf (list.mapM step) = some fault) :
    ∃ item ∈ list, faultOf (step item) = some fault := by
  induction list with
  | nil => cases hfault
  | cons item rest ih =>
      rw [List.mapM_cons] at hfault
      rcases faultOf_bind_eq_some hfault with hitem | ⟨value, _, hrest⟩
      · exact ⟨item, List.mem_cons_self, hitem⟩
      · rw [faultOf_bind_total _ fun _ => rfl] at hrest
        obtain ⟨other, hmem, hother⟩ := ih hrest
        exact ⟨other, List.mem_cons_of_mem _ hmem, hother⟩

theorem mapM_length {list : List α} {step : α → Except ε β} {results : List β}
    (hrun : list.mapM step = .ok results) : results.length = list.length := by
  induction list generalizing results with
  | nil =>
      cases hrun
      rfl
  | cons item rest ih =>
      rw [List.mapM_cons] at hrun
      obtain ⟨value, _, hnext⟩ := exists_of_bind_eq_ok hrun
      obtain ⟨values, hrest, hresult⟩ := exists_of_bind_eq_ok hnext
      cases hresult
      rw [List.length_cons, List.length_cons, ih hrest]

theorem exists_of_mem_mapM {list : List α} {step : α → Except ε β} {results : List β}
    (hrun : list.mapM step = .ok results) :
    ∀ result ∈ results, ∃ item ∈ list, step item = .ok result := by
  induction list generalizing results with
  | nil =>
      cases hrun
      simp
  | cons item rest ih =>
      rw [List.mapM_cons] at hrun
      obtain ⟨value, hitem, hnext⟩ := exists_of_bind_eq_ok hrun
      obtain ⟨values, hrest, hresult⟩ := exists_of_bind_eq_ok hnext
      cases hresult
      intro result hmem
      rcases List.mem_cons.mp hmem with rfl | htail
      · exact ⟨item, List.mem_cons_self, hitem⟩
      · obtain ⟨other, hother, hstep⟩ := ih hrest result htail
        exact ⟨other, List.mem_cons_of_mem _ hother, hstep⟩

theorem mapM_eq_ok_map {list : List α} {step : α → Except ε β} {result : α → β}
    (hstep : ∀ item ∈ list, step item = .ok (result item)) :
    list.mapM step = .ok (list.map result) := by
  induction list with
  | nil => rfl
  | cons item rest ih =>
      have hitem := hstep item List.mem_cons_self
      have hrest := ih fun other hmem => hstep other (List.mem_cons_of_mem _ hmem)
      rw [List.mapM_cons, hitem, hrest]
      rfl

end Faults
