import IotGateway.Library.Runs
import Mathlib.Data.List.Basic
import Mathlib.Logic.Relation

/-!
# A queue with a waiting consumer

A queue is guarded by a mutex.  Producers push to it and may notify a condition
variable; one consumer waits on that variable for the queue to be nonempty,
takes the front item and handles it, all under the mutex.  The queue keeps the
history of what was enqueued and of what was handled.
-/

namespace WaitQueue

/-- Where the consumer is: outside the mutex, about to check the queue, waiting
without and with a notification, or handling an item. -/
inductive Phase (α : Type) where
  | away
  | checking
  | blocked
  | notified
  | holding (item : α)
  deriving DecidableEq, Repr

inductive ConsumerStep where
  | lock
  | check
  | wake
  | handle
  deriving DecidableEq, Repr

structure Monitor (α : Type) where
  queue : List α
  phase : Phase α
  enqueued : List α
  handled : List α
  deriving DecidableEq, Repr

namespace Monitor

variable {α : Type}

def initial : Monitor α := ⟨[], .away, [], []⟩

/-- Whether the consumer has the mutex; while it waits it does not. -/
def locked (monitor : Monitor α) : Bool :=
  match monitor.phase with
  | .checking | .holding _ => true
  | .away | .blocked | .notified => false

def enqueue (items : List α) (monitor : Monitor α) : Option (Monitor α) :=
  if items ≠ [] ∧ monitor.locked then none
  else some { monitor with
    queue := monitor.queue ++ items
    enqueued := monitor.enqueued ++ items }

/-- `notify_one` reaches the consumer only while it waits. -/
def notify (monitor : Monitor α) : Monitor α :=
  match monitor.phase with
  | .blocked => { monitor with phase := .notified }
  | _ => monitor

/-- A step of the consumer.  A wait may end without a notification. -/
def consume (step : ConsumerStep) (monitor : Monitor α) : Option (Monitor α) :=
  match step, monitor.phase with
  | .lock, .away => some { monitor with phase := .checking }
  | .check, .checking =>
      match monitor.queue with
      | [] => some { monitor with phase := .blocked }
      | item :: rest => some { monitor with queue := rest, phase := .holding item }
  | .wake, .blocked => some { monitor with phase := .checking }
  | .wake, .notified => some { monitor with phase := .checking }
  | .handle, .holding item =>
      some { monitor with phase := .away, handled := monitor.handled ++ [item] }
  | _, _ => none

def inHand (monitor : Monitor α) : List α :=
  match monitor.phase with
  | .holding item => [item]
  | _ => []

/-- No item is lost, duplicated or overtaken. -/
def Conserved (monitor : Monitor α) : Prop :=
  monitor.handled ++ monitor.inHand ++ monitor.queue = monitor.enqueued

/-- The consumer waits without a notification only while the queue is empty. -/
def Awake (monitor : Monitor α) : Prop :=
  monitor.phase = .blocked → monitor.queue = []

/-- A consumer that waits without a notification has handled everything. -/
def Quiescent (monitor : Monitor α) : Prop :=
  monitor.phase = .blocked →
    monitor.queue = [] ∧ monitor.handled = monitor.enqueued

theorem quiescent_iff_awake {monitor : Monitor α} (hconserved : monitor.Conserved) :
    monitor.Quiescent ↔ monitor.Awake := by
  constructor
  · exact fun hquiescent hblocked => (hquiescent hblocked).1
  · intro hawake hblocked
    have hqueue := hawake hblocked
    unfold Conserved inHand at hconserved
    rw [hblocked, hqueue] at hconserved
    exact ⟨hqueue, by simpa using hconserved⟩

theorem conserved_initial : (initial : Monitor α).Conserved := rfl

theorem awake_initial : (initial : Monitor α).Awake := fun _ => rfl

/-! ## Producers -/

theorem enqueue_eq_some {items : List α} {monitor next : Monitor α}
    (henqueue : monitor.enqueue items = some next) :
    next = { monitor with
      queue := monitor.queue ++ items
      enqueued := monitor.enqueued ++ items } := by
  unfold enqueue at henqueue
  split at henqueue
  · cases henqueue
  · exact (Option.some.inj henqueue).symm

theorem Conserved.enqueue {items : List α} {monitor next : Monitor α}
    (hconserved : monitor.Conserved) (henqueue : monitor.enqueue items = some next) :
    next.Conserved := by
  rw [enqueue_eq_some henqueue]
  change monitor.handled ++ monitor.inHand ++ (monitor.queue ++ items) = _
  rw [← List.append_assoc, hconserved]

@[simp] theorem notify_queue (monitor : Monitor α) : monitor.notify.queue = monitor.queue := by
  unfold notify
  split <;> rfl

@[simp] theorem notify_enqueued (monitor : Monitor α) :
    monitor.notify.enqueued = monitor.enqueued := by
  unfold notify
  split <;> rfl

@[simp] theorem notify_handled (monitor : Monitor α) :
    monitor.notify.handled = monitor.handled := by
  unfold notify
  split <;> rfl

theorem notify_inHand (monitor : Monitor α) : monitor.notify.inHand = monitor.inHand := by
  cases hphase : monitor.phase <;> simp [notify, inHand, hphase]

theorem Conserved.notify {monitor : Monitor α} (hconserved : monitor.Conserved) :
    monitor.notify.Conserved := by
  unfold Conserved
  rw [notify_handled, notify_inHand, notify_queue, notify_enqueued]
  exact hconserved

theorem awake_notify (monitor : Monitor α) : monitor.notify.Awake := by
  intro hblocked
  unfold Monitor.notify at hblocked
  split at hblocked
  next => cases hblocked
  next hne => exact absurd hblocked hne

theorem awake_enqueue_iff {items : List α} {monitor next : Monitor α}
    (hawake : monitor.Awake) (henqueue : monitor.enqueue items = some next) :
    next.Awake ↔ monitor.phase = .blocked → items = [] := by
  rw [enqueue_eq_some henqueue]
  constructor
  · intro hnext hblocked
    exact (List.append_eq_nil_iff.mp (hnext hblocked)).2
  · intro hitems hblocked
    change monitor.queue ++ items = []
    rw [hawake hblocked, hitems hblocked]
    rfl

/-! ## The consumer -/

theorem Conserved.consume {step : ConsumerStep} {monitor next : Monitor α}
    (hconserved : monitor.Conserved) (hstep : monitor.consume step = some next) :
    next.Conserved := by
  unfold Conserved inHand at hconserved
  unfold Monitor.consume at hstep
  split at hstep
  next hphase =>
    cases hstep
    simpa [Conserved, inHand, hphase] using hconserved
  next hphase =>
    split at hstep
    next hqueue =>
      cases hstep
      simpa [Conserved, inHand, hphase, hqueue] using hconserved
    next item rest hqueue =>
      cases hstep
      simpa [Conserved, inHand, hphase, hqueue] using hconserved
  next hphase =>
    cases hstep
    simpa [Conserved, inHand, hphase] using hconserved
  next hphase =>
    cases hstep
    simpa [Conserved, inHand, hphase] using hconserved
  next item hphase =>
    cases hstep
    simpa [Conserved, inHand, hphase] using hconserved
  next => cases hstep

theorem awake_consume {step : ConsumerStep} {monitor next : Monitor α}
    (hstep : monitor.consume step = some next) : next.Awake := by
  intro hblocked
  unfold Monitor.consume at hstep
  split at hstep
  next =>
    cases hstep
    cases hblocked
  next =>
    split at hstep
    next hqueue =>
      cases hstep
      exact hqueue
    next =>
      cases hstep
      cases hblocked
  next =>
    cases hstep
    cases hblocked
  next =>
    cases hstep
    cases hblocked
  next =>
    cases hstep
    cases hblocked
  next => cases hstep

theorem consume_handled {step : ConsumerStep} {monitor next : Monitor α}
    (hstep : monitor.consume step = some next) :
    next.enqueued = monitor.enqueued ∧
      next.handled =
        monitor.handled ++ if step = .handle then monitor.inHand else [] := by
  unfold Monitor.consume at hstep
  unfold inHand
  split at hstep
  next =>
    cases hstep
    simp
  next =>
    split at hstep <;> cases hstep <;> simp
  next =>
    cases hstep
    simp
  next =>
    cases hstep
    simp
  next item hphase =>
    cases hstep
    simp [hphase]
  next => cases hstep

/-- Nothing is lost, duplicated or overtaken between the queue and the handling. -/
theorem consume_outstanding {step : ConsumerStep} {monitor next : Monitor α}
    (hstep : monitor.consume step = some next) :
    (if step = .handle then monitor.inHand else []) ++ (next.inHand ++ next.queue) =
      monitor.inHand ++ monitor.queue := by
  unfold Monitor.consume at hstep
  unfold inHand
  split at hstep
  next hphase =>
    cases hstep
    simp [hphase]
  next hphase =>
    split at hstep
    next hqueue =>
      cases hstep
      simp [hphase, hqueue]
    next item rest hqueue =>
      cases hstep
      simp [hphase, hqueue]
  next hphase =>
    cases hstep
    simp [hphase]
  next hphase =>
    cases hstep
    simp [hphase]
  next item hphase =>
    cases hstep
    simp [hphase]
  next => cases hstep

/-! ## Runs of the consumer -/

/-- A round in which the consumer handles the front item. -/
theorem exists_round {monitor : Monitor α} {item : α} {rest : List α}
    (hunlocked : monitor.locked = false) (hqueue : monitor.queue = item :: rest) :
    ∃ enter, Runs.run Monitor.consume [enter, .check, .handle] monitor =
      some { monitor with
        queue := rest
        phase := .away
        handled := monitor.handled ++ [item] } := by
  cases hphase : monitor.phase with
  | away => exact ⟨.lock, by simp [Runs.run, Monitor.consume, hphase, hqueue]⟩
  | blocked => exact ⟨.wake, by simp [Runs.run, Monitor.consume, hphase, hqueue]⟩
  | notified => exact ⟨.wake, by simp [Runs.run, Monitor.consume, hphase, hqueue]⟩
  | checking => simp [locked, hphase] at hunlocked
  | holding item => simp [locked, hphase] at hunlocked

/-- A consumer on its own can handle all that is in the queue. -/
theorem exists_drain {monitor : Monitor α} (hunlocked : monitor.locked = false) :
    ∃ steps last, Runs.run Monitor.consume steps monitor = some last ∧
      last.handled = monitor.handled ++ monitor.queue := by
  induction hqueue : monitor.queue generalizing monitor with
  | nil => exact ⟨[], monitor, rfl, (List.append_nil _).symm⟩
  | cons item rest ih =>
      obtain ⟨enter, hround⟩ := exists_round hunlocked hqueue
      obtain ⟨steps, last, hrest, hhandled⟩ := @ih
        { monitor with queue := rest, phase := .away, handled := monitor.handled ++ [item] }
        rfl rfl
      refine ⟨[enter, .check, .handle] ++ steps, last, ?_, ?_⟩
      · rw [Runs.run_append, hround]
        exact hrest
      · rw [hhandled, List.append_assoc]
        rfl

theorem enqueue_of_unlocked (items : List α) {monitor : Monitor α}
    (hunlocked : monitor.locked = false) :
    monitor.enqueue items = some { monitor with
      queue := monitor.queue ++ items
      enqueued := monitor.enqueued ++ items } := by
  unfold enqueue
  rw [if_neg]
  simp [hunlocked]

theorem inHand_of_unlocked {monitor : Monitor α} (hunlocked : monitor.locked = false) :
    monitor.inHand = [] := by
  cases hphase : monitor.phase with
  | holding item => simp [locked, hphase] at hunlocked
  | _ => simp [inHand, hphase]

theorem locked_of_enqueue {items : List α} {monitor next : Monitor α}
    (hitems : items ≠ []) (henqueue : monitor.enqueue items = some next) :
    monitor.locked = false := by
  unfold enqueue at henqueue
  split at henqueue
  next => cases henqueue
  next hunlocked =>
    rw [Bool.eq_false_iff]
    exact fun hlocked => hunlocked ⟨hitems, hlocked⟩

theorem notify_locked (monitor : Monitor α) : monitor.notify.locked = monitor.locked := by
  cases hphase : monitor.phase <;> simp [notify, locked, hphase]

/-! ## A consumer that is woken up by notifications only -/

/-- The consumer waits, or is about to wait, and no notification is pending for
it. -/
def Idle (monitor : Monitor α) : Prop :=
  monitor.phase = .blocked ∨ monitor.phase = .checking ∧ monitor.queue = []

/-- The consumer does not have the mutex and is going to take it. -/
def Ready (monitor : Monitor α) : Prop := monitor.phase = .away ∨ monitor.phase = .notified

/-- A step of the consumer that is no wake-up without a notification. -/
def Consumes (monitor next : Monitor α) : Prop :=
  ∃ step, (step = .wake → monitor.phase = .notified) ∧ monitor.consume step = some next

theorem Ready.unlocked {monitor : Monitor α} (hready : monitor.Ready) :
    monitor.locked = false := by
  unfold locked
  rcases hready with hphase | hphase <;> rw [hphase]

theorem Ready.notify {monitor : Monitor α} (hready : monitor.Ready) : monitor.notify.Ready := by
  unfold Ready Monitor.notify
  rcases hready with hphase | hphase <;> simp [hphase]

theorem ready_notify {monitor : Monitor α} (hunlocked : monitor.locked = false) :
    monitor.notify.Ready := by
  unfold Ready Monitor.notify
  cases hphase : monitor.phase with
  | away => exact .inl hphase
  | blocked => exact .inr rfl
  | notified => exact .inr hphase
  | checking => simp [locked, hphase] at hunlocked
  | holding item => simp [locked, hphase] at hunlocked

theorem inHand_of_idle {monitor : Monitor α} (hidle : monitor.Idle) : monitor.inHand = [] := by
  unfold inHand
  rcases hidle with hphase | ⟨hphase, _⟩ <;> rw [hphase]

theorem Idle.consumes {monitor next : Monitor α} {step : ConsumerStep} (hidle : monitor.Idle)
    (hnotified : step = .wake → monitor.phase = .notified)
    (hstep : monitor.consume step = some next) : next.Idle := by
  unfold consume at hstep
  rcases hidle with hphase | ⟨hphase, hqueue⟩
  · cases step with
    | wake =>
        rw [hnotified rfl] at hphase
        cases hphase
    | _ => simp [hphase] at hstep
  · cases step with
    | check =>
        simp only [hphase, hqueue] at hstep
        cases hstep
        exact .inl rfl
    | _ => simp [hphase] at hstep

theorem consumes_check_handle {monitor : Monitor α} {item : α} {rest : List α}
    (hphase : monitor.phase = .checking) (hqueue : monitor.queue = item :: rest) :
    Relation.ReflTransGen Consumes monitor
      { monitor with queue := rest, phase := .away, handled := monitor.handled ++ [item] } := by
  have hcheck : monitor.Consumes { monitor with queue := rest, phase := .holding item } :=
    ⟨.check, by simp, by simp [consume, hphase, hqueue]⟩
  exact (Relation.ReflTransGen.single hcheck).tail ⟨.handle, by simp, rfl⟩

/-- A consumer that has the mutex gives it up by itself. -/
theorem exists_unlocked (monitor : Monitor α) :
    ∃ last, Relation.ReflTransGen Consumes monitor last ∧ last.locked = false ∧
      (¬ monitor.Idle → last.Ready) := by
  cases hphase : monitor.phase with
  | away => exact ⟨monitor, .refl, by simp [locked, hphase], fun _ => .inl hphase⟩
  | blocked =>
      exact ⟨monitor, .refl, by simp [locked, hphase], fun hbusy => (hbusy (.inl hphase)).elim⟩
  | notified => exact ⟨monitor, .refl, by simp [locked, hphase], fun _ => .inr hphase⟩
  | checking =>
      cases hqueue : monitor.queue with
      | nil =>
          have hcheck : monitor.Consumes { monitor with phase := .blocked } :=
            ⟨.check, by simp, by simp [consume, hphase, hqueue]⟩
          exact ⟨_, .single hcheck, rfl, fun hbusy => (hbusy (.inr ⟨hphase, hqueue⟩)).elim⟩
      | cons item rest => exact ⟨_, consumes_check_handle hphase hqueue, rfl, fun _ => .inl rfl⟩
  | holding item =>
      have hhandle : monitor.Consumes
          { monitor with phase := .away, handled := monitor.handled ++ [item] } :=
        ⟨.handle, by simp, by simp [consume, hphase]⟩
      exact ⟨_, .single hhandle, rfl, fun _ => .inl rfl⟩

/-- A consumer that is going to take the mutex can handle everything by itself. -/
theorem exists_empty {monitor : Monitor α} (hready : monitor.Ready) :
    ∃ last, Relation.ReflTransGen Consumes monitor last ∧ last.inHand ++ last.queue = [] := by
  induction hqueue : monitor.queue generalizing monitor with
  | nil =>
      refine ⟨monitor, .refl, ?_⟩
      rw [inHand_of_unlocked hready.unlocked, hqueue]
      rfl
  | cons item rest ih =>
      have henter : monitor.Consumes { monitor with phase := .checking } := by
        rcases hready with hphase | hphase
        · exact ⟨.lock, by simp, by simp [consume, hphase]⟩
        · exact ⟨.wake, fun _ => hphase, by simp [consume, hphase]⟩
      have hround := @consumes_check_handle α { monitor with phase := .checking } item rest
        rfl hqueue
      obtain ⟨last, hlast, hempty⟩ := @ih
        { monitor with queue := rest, phase := .away, handled := monitor.handled ++ [item] }
        (.inl rfl) rfl
      exact ⟨last, (hround.head henter).trans hlast, hempty⟩

end Monitor

end WaitQueue
