import Mathlib.Data.List.Induction

/-!
# Runs of a step function

A system takes a list of actions, one after the other, until one of them is
not possible.  An invariant that every allowed step preserves holds in all
states that a run of allowed steps visits.
-/

namespace Runs

variable {σ α : Type*} (step : α → σ → Option σ)

def run : List α → σ → Option σ
  | [], state => some state
  | action :: actions, state => step action state >>= run actions

/-- Along `actions` the run is in `state` when `next` is to be taken. -/
def Visits (actions : List α) (start state : σ) (next : α) : Prop :=
  ∃ before, before ++ [next] <+: actions ∧ run step before start = some state

theorem run_append (first second : List α) (state : σ) :
    run step (first ++ second) state = run step first state >>= run step second := by
  induction first generalizing state with
  | nil => rfl
  | cons action actions ih =>
      change step action state >>= run step (actions ++ second) =
        (step action state >>= run step actions) >>= run step second
      cases step action state with
      | none => rfl
      | some next => exact ih next

theorem run_concat (actions : List α) (action : α) (state : σ) :
    run step (actions ++ [action]) state = run step actions state >>= step action := by
  rw [run_append]
  cases run step actions state with
  | none => rfl
  | some middle =>
      change step action middle >>= run step [] = step action middle
      cases step action middle <;> rfl

variable {step}

theorem Visits.mono {first actions : List α} {start state : σ} {next : α}
    (hvisits : Visits step first start state next) (hinitial : first <+: actions) :
    Visits step actions start state next := by
  rcases hvisits with ⟨before, hbefore, hrun⟩
  exact ⟨before, hbefore.trans hinitial, hrun⟩

theorem exists_of_run_concat {actions : List α} {action : α} {start last : σ}
    (hrun : run step (actions ++ [action]) start = some last) :
    ∃ state, run step actions start = some state ∧ step action state = some last := by
  rw [run_concat] at hrun
  exact Option.bind_eq_some_iff.mp hrun

/-- Two systems whose steps keep a relation between their states, or are not
possible together, keep it over runs. -/
theorem rel_run {τ : Type*} {step' : α → τ → Option τ} {Related : σ → τ → Prop}
    {start : σ} {start' : τ} (hstart : Related start start')
    (hstep : ∀ action state state', Related state state' →
      Option.Rel Related (step action state) (step' action state'))
    (actions : List α) :
    Option.Rel Related (run step actions start) (run step' actions start') := by
  induction actions generalizing start start' with
  | nil => exact .some hstart
  | cons action actions ih =>
      have hnext := hstep action start start' hstart
      change Option.Rel Related (step action start >>= run step actions)
        (step' action start' >>= run step' actions)
      generalize step action start = next, step' action start' = next' at hnext
      cases hnext with
      | none => exact .none
      | some hrelated => exact ih hrelated

/-- What every allowed step preserves holds after a run of allowed steps. -/
theorem invariant_run {Invariant : σ → Prop} {Allowed : α → σ → Prop}
    {start last : σ} {actions : List α}
    (hstart : Invariant start)
    (hstep : ∀ action state next, Invariant state → Allowed action state →
      step action state = some next → Invariant next)
    (hallowed : ∀ action state, Visits step actions start state action →
      Allowed action state)
    (hrun : run step actions start = some last) : Invariant last := by
  induction actions using List.reverseRecOn generalizing last with
  | nil =>
      cases hrun
      exact hstart
  | append_singleton actions action ih =>
      obtain ⟨state, hbefore, hlast⟩ := exists_of_run_concat hrun
      have hinvariant : Invariant state := by
        apply ih _ hbefore
        intro other middle hvisits
        exact hallowed other middle (hvisits.mono (List.prefix_append _ _))
      exact hstep action state last hinvariant
        (hallowed action state ⟨actions, List.prefix_rfl, hbefore⟩) hlast

theorem invariant_run_of_step {Invariant : σ → Prop} {start last : σ} {actions : List α}
    (hstart : Invariant start)
    (hstep : ∀ action state next, Invariant state →
      step action state = some next → Invariant next)
    (hrun : run step actions start = some last) : Invariant last :=
  invariant_run hstart
    (fun action state next hinvariant (_ : True) => hstep action state next hinvariant)
    (fun _ _ _ => trivial) hrun

end Runs
