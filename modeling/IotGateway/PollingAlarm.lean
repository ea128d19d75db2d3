import IotGateway.Library.PacedHistories
import IotGateway.MainLoop
import IotGateway.Watchdog
import Mathlib.Data.List.Chain

/-!
# The polling alarm of the main loop

The main loop reports that the board gives no response when it polls for the
twelfth time since the last answer.  As polls are more than seven seconds
apart, it never does so early, and if the rounds of the loop follow each other
closely, it does not do so late.
-/

namespace IotGateway

open GatewayManager Histories IntervalTimer MqttManager MqttTopic Runs WaitQueue

namespace Observation

/-- An answer to a poll has been dispatched. -/
def answersPoll : Observation → Bool
  | .polled .. => false
  | .listened _ _ packet _ => packet.any fun packet => packet.header.command = kPolling

/-- The reading of the clock in the round of the observation. -/
def time : Observation → ℤ
  | .polled now _ => now.toInt
  | .listened now _ _ _ => now.toInt

end Observation

namespace MainLoop

variable {parse : Parser} {build : Build} {action : Action}
  {state next last : MainLoop} {actions : List Action}

/-- How many polls there are since the board last answered one. -/
def unanswered (observed : List Observation) : ℕ :=
  countSince Observation.answersPoll Observation.isPoll observed

/-- What a poll publishes, given what was observed before it. -/
def Reports (before : List Observation) (observation : Observation) : Prop :=
  observation.isPoll = true → observation.published =
    if 11 ≤ unanswered before then [⟨"master/1/polling/error", .text "no response"⟩] else []

structure Counted (state : MainLoop) : Prop where
  shaped : Shaped (temperatureFrames state.board) state.pending
  count : state.board.pollingCount + state.pending.count .increasePollingCount =
    unanswered state.observed
  reports : Throughout Reports state.observed

theorem counted_start {board : MasterBoard} (hfresh : board.pollingCount = 0) :
    (start board).Counted where
  shaped := .idle
  count := hfresh
  reports := throughout_nil _

theorem Tail.count_increasePollingCount {temperature : List (List UInt8)}
    {tail : List Instruction} (htail : Tail temperature tail) :
    tail.count .increasePollingCount = 0 := by
  rw [List.count_eq_zero]
  cases htail with
  | requestTemperature => simp
  | pushes hframes => simp

theorem count_calls (iteration : Iteration) :
    iteration.calls.count .increasePollingCount = 0 := by
  rw [List.count_eq_zero]
  unfold Iteration.calls
  cases iteration.polling <;> cases iteration.requestTemperature <;> simp

/-- The part of `Counted` that a step changes. -/
theorem Counted.step_count (hcounted : state.Counted)
    (hstep : step parse build action state = some next) :
    next.board.pollingCount + next.pending.count .increasePollingCount =
      unanswered next.observed := by
  have hcount := hcounted.count
  have hshaped := hcounted.shaped
  cases effect_of_step hstep with
  | onMessage hidle hpacket =>
      rw [hidle] at hcount
      exact hcount
  | connected hidle =>
      rw [hidle] at hcount
      rw [count_calls]
      exact hcount
  | reconnect hidle => exact hcount
  | polling hpending =>
      rw [hpending] at hcount hshaped
      have hrest := hshaped.of_polling.count_increasePollingCount
      rw [unanswered, countSince_concat _ _ rfl]
      change state.board.pollingCount + List.count _ (_ :: _ :: _) = unanswered _ + 1
      rw [← hcount]
      simp [hrest]
  | @push packet notifies rest packets hpending henqueue =>
      rw [hpending] at hcount
      cases notifies <;> simpa using hcount
  | notify hpending =>
      rw [hpending] at hcount
      simpa using hcount
  | @increasePollingCount rest hpending =>
      rw [hpending, List.count_cons_self] at hcount
      change state.board.pollingCount + 1 + rest.count _ = unanswered state.observed
      rw [← hcount]
      omega
  | requestTemperature hpending hframes =>
      rw [hpending] at hcount
      have hnone : ∀ frames : List (List UInt8),
          (frames.map (Instruction.push · false)).count .increasePollingCount = 0 := by
        intro frames
        rw [List.count_eq_zero]
        simp
      rw [List.count_append, hnone, Nat.zero_add]
      simpa using hcount
  | @listeningMaster rest listened hpending hlistened =>
      rw [hpending] at hcount hshaped
      rw [hshaped.of_listeningMaster] at hcount ⊢
      let observation := Observation.listened state.now (receivePacket state.board.serialPort).1
        (received state.board) listened.published
      have hlast : listened.board.pollingCount =
          if observation.answersPoll then 0 else state.board.pollingCount :=
        listeningMaster_pollingCount hlistened
      change listened.board.pollingCount + 0 = unanswered (state.observed ++ [observation])
      rw [hlast, unanswered]
      cases hanswer : observation.answersPoll with
      | true =>
          rw [countSince_concat_of_reset _ _ hanswer]
          rfl
      | false =>
          rw [countSince_concat _ _ hanswer]
          exact hcount
  | writePacket hconsume =>
      rw [foldl_write_eq]
      exact hcount

theorem Counted.step (hcounted : state.Counted)
    (hstep : step parse build action state = some next) : next.Counted where
  shaped := step_shaped hcounted.shaped hstep
  count := hcounted.step_count hstep
  reports := by
    have hreports := hcounted.reports
    cases effect_of_step hstep with
    | polling hpending =>
        apply hreports.concat
        intro _
        have hcount := hcounted.count
        have hshaped := hcounted.shaped
        rw [hpending] at hcount hshaped
        have hrest := hshaped.of_polling.count_increasePollingCount
        rw [← hcount]
        simp [Observation.published, polling, publishNoResponse, kMaxPollingCount, hrest,
          Nat.lt_iff_add_one_le]
    | listeningMaster hpending hlistened =>
        apply hreports.concat
        intro hpoll
        cases hpoll
    | _ => exact hreports

/-- Whatever the order in which the threads take turns, a poll reports that
there is no response iff at least eleven polls have been made since an answer
to one was last dispatched. -/
theorem reports_of_run {board : MasterBoard} (hfresh : board.pollingCount = 0)
    (hrun : run (step parse build) actions (start board) = some last) :
    Throughout Reports last.observed :=
  (invariant_run_of_step (counted_start hfresh)
    (fun _ _ _ hstate hstep => hstate.step hstep) hrun : last.Counted).reports

/-! ## Times -/

/-- The timer keeps the reading of the latest poll. -/
structure Timed (polling : Int64) (state : MainLoop) : Prop where
  timer : state.timers.pollingInterval = polling.toUInt64
  polling_le : polling.toInt ≤ state.now.toInt
  past : ∀ observation ∈ state.observed, observation.time ≤ state.now.toInt
  polls : ∀ observation ∈ state.observed, observation.isPoll = true →
    observation.time ≤ polling.toInt
  due : .polling ∈ state.pending → polling = state.now ∧
    ∀ observation ∈ state.observed, observation.isPoll = true →
      observation.time + 7001 ≤ state.now.toInt
  paced : Paced Observation.isPoll Observation.time 7001 state.observed

theorem timed_start (board : MasterBoard) : (start board).Timed 0 where
  timer := rfl
  polling_le := le_refl _
  past := fun _ hmem => (List.not_mem_nil hmem).elim
  polls := fun _ hmem => (List.not_mem_nil hmem).elim
  due := fun hmem => (List.not_mem_nil hmem).elim
  paced := List.Pairwise.nil

theorem Timed.of_same {polling : Int64} (htimed : state.Timed polling)
    (htimers : next.timers = state.timers) (hnow : next.now = state.now)
    (hobserved : next.observed = state.observed)
    (hpending : .polling ∈ next.pending → .polling ∈ state.pending) : next.Timed polling where
  timer := htimers ▸ htimed.timer
  polling_le := hnow ▸ htimed.polling_le
  past := hnow ▸ hobserved ▸ htimed.past
  polls := hobserved ▸ htimed.polls
  due := fun hmem => hnow ▸ hobserved ▸ htimed.due (hpending hmem)
  paced := hobserved ▸ htimed.paced

theorem Timed.connected {polling now : Int64} (htimed : state.Timed polling)
    (hforward : state.now.toInt ≤ now.toInt) :
    Timed (if (iterate now state.timers).1.polling then now else polling) { state with
      timers := (iterate now state.timers).2
      now := now
      pending := (iterate now state.timers).1.calls } := by
  have hpolling_le := htimed.polling_le.trans hforward
  have hdue : (iterate now state.timers).1.polling = true ↔
      7000 < now.toInt - polling.toInt := by
    rw [iterate_eq, htimed.timer]
    exact isDue_iff_of_le 7000 hpolling_le
  refine ⟨?_, ?_, ?_, ?_, ?_, htimed.paced⟩
  · rw [iterate_eq, htimed.timer]
    exact (apply_ite Int64.toUInt64 _ _ _).symm
  · split
    · exact le_refl _
    · exact hpolling_le
  · exact fun observation hmem => (htimed.past observation hmem).trans hforward
  · intro observation hmem hpoll
    split
    · exact (htimed.past observation hmem).trans hforward
    · exact htimed.polls observation hmem hpoll
  · intro hmem
    have hpolling : (iterate now state.timers).1.polling = true := by
      by_contra hnot
      unfold Iteration.calls at hmem
      rw [if_neg hnot] at hmem
      cases hrequest : (iterate now state.timers).1.requestTemperature <;>
        simp [hrequest] at hmem
    rw [if_pos hpolling]
    refine ⟨rfl, fun observation hobserved hpoll => ?_⟩
    have hle := htimed.polls observation hobserved hpoll
    have hlt := hdue.mp hpolling
    change observation.time + 7001 ≤ now.toInt
    omega

theorem Timed.observe {polling : Int64} {observation : Observation}
    {rest : List Instruction} {board : MasterBoard} (htimed : state.Timed polling)
    (htime : observation.time = state.now.toInt)
    (hpoll : observation.isPoll = true → .polling ∈ state.pending)
    (hrest : .polling ∉ rest) :
    Timed polling { state with
      board := board, pending := rest, observed := state.observed ++ [observation] } where
  timer := htimed.timer
  polling_le := htimed.polling_le
  past := by
    intro other hmem
    rcases List.mem_append.mp hmem with hold | hnew
    · exact htimed.past other hold
    · rw [List.mem_singleton.mp hnew, htime]
  polls := by
    intro other hmem hother
    rcases List.mem_append.mp hmem with hold | hnew
    · exact htimed.polls other hold hother
    · rw [List.mem_singleton.mp hnew] at hother ⊢
      rw [htime, (htimed.due (hpoll hother)).1]
  due := fun hmem => absurd hmem hrest
  paced := by
    apply htimed.paced.concat
    · rw [htime]
      exact htimed.past
    · intro hentry other hmem hother
      rw [htime]
      exact (htimed.due (hpoll hentry)).2 other hmem hother

theorem Tail.polling_notMem {temperature : List (List UInt8)} {tail : List Instruction}
    (htail : Tail temperature tail) : .polling ∉ tail := by
  cases htail with
  | requestTemperature => simp
  | pushes hframes => simp

theorem Timed.step {polling : Int64} (htimed : state.Timed polling)
    (hshaped : Shaped (temperatureFrames state.board) state.pending)
    (hother : ∀ now, action ≠ .connected now)
    (hstep : step parse build action state = some next) : next.Timed polling := by
  cases effect_of_step hstep with
  | connected hidle => exact absurd rfl (hother _)
  | polling hpending =>
      rw [hpending] at hshaped
      have hrest := hshaped.of_polling.polling_notMem
      exact htimed.observe rfl (by simp [hpending]) (by simp [hrest])
  | listeningMaster hpending hlistened =>
      rw [hpending] at hshaped
      have hrest := hshaped.of_listeningMaster
      exact htimed.observe rfl (fun hpoll => nomatch hpoll) (by simp [hrest])
  | onMessage hidle hpacket => exact htimed.of_same rfl rfl rfl (by simp)
  | reconnect hidle => exact htimed
  | @push packet notifies rest packets hpending henqueue =>
      refine htimed.of_same rfl rfl rfl ?_
      rw [hpending]
      cases notifies <;> simp
  | notify hpending =>
      refine htimed.of_same rfl rfl rfl ?_
      rw [hpending]
      simp
  | increasePollingCount hpending =>
      refine htimed.of_same rfl rfl rfl ?_
      rw [hpending]
      simp
  | requestTemperature hpending hframes =>
      refine htimed.of_same rfl rfl rfl ?_
      rw [hpending]
      simp
  | writePacket hconsume => exact htimed.of_same rfl rfl rfl id

theorem exists_timed_of_step {polling : Int64} (htimed : state.Timed polling)
    (hshaped : Shaped (temperatureFrames state.board) state.pending)
    (hforward : ∀ now, action = .connected now → state.now.toInt ≤ now.toInt)
    (hstep : step parse build action state = some next) : ∃ polling', next.Timed polling' := by
  by_cases hother : ∀ now, action ≠ .connected now
  · exact ⟨polling, htimed.step hshaped hother hstep⟩
  · obtain ⟨now, rfl⟩ := not_forall_not.mp hother
    cases effect_of_step hstep with
    | connected hidle => exact ⟨_, htimed.connected (hforward now rfl)⟩

/-- With a clock that is not set back, an alarm comes more than 77 seconds
after the last dispatched answer, at the earliest. -/
theorem alarm_not_early {board : MasterBoard} {before after : List Observation}
    {alarm answer : Observation} (hfresh : board.pollingCount = 0) (hforward : Forward 0 actions)
    (hrun : run (step parse build) actions (start board) = some last)
    (hsplit : last.observed = before ++ alarm :: after) (hpoll : alarm.isPoll = true)
    (halarm : alarm.published ≠ []) (hanswer : answer ∈ before)
    (hanswers : answer.answersPoll = true) : answer.time + 11 * 7001 ≤ alarm.time := by
  have htimed : (∃ polling, last.Timed polling) ∧
      Shaped (temperatureFrames last.board) last.pending := by
    apply @invariant_run_forward parse build (start board) last actions
      (fun state => (∃ polling, state.Timed polling) ∧
        Shaped (temperatureFrames state.board) state.pending) _ _ hforward hrun
    · exact ⟨⟨0, timed_start board⟩, .idle⟩
    · rintro action state next ⟨⟨polling, hstate⟩, hshaped⟩ hclock hstep
      exact ⟨exists_timed_of_step hstate hshaped hclock hstep, step_shaped hshaped hstep⟩
  obtain ⟨⟨polling, hlast⟩, _⟩ := htimed
  have hreports := reports_of_run hfresh hrun before alarm after hsplit hpoll
  have hmany : 11 ≤ unanswered before := by
    by_contra hfew
    rw [if_neg hfew] at hreports
    exact halarm hreports
  obtain ⟨front, middle, rfl⟩ := List.append_of_mem hanswer
  have hpolls := countSince_append_le Observation.isPoll front middle hanswers
  have hpaced := hlast.paced
  rw [hsplit] at hpaced
  have helapsed := hpaced.elapsed hpoll
  unfold unanswered at hmany
  omega

/-! ## Rounds that follow each other closely -/

/-- The rounds of the loop begin with a clock that is not set back, and at most
`delay` after the round before. -/
def Steady (delay : ℤ) (action : Action) (state : MainLoop) : Prop :=
  ∀ now, action = .connected now → state.now.toInt ≤ now.toInt ∧
    (state.observed ≠ [] → now.toInt ≤ state.now.toInt + delay)

/-- The time that so many polls in a row take at most. -/
def pollingTime (delay : ℤ) (polls : ℕ) : ℤ := polls * (7000 + delay)

theorem pollingTime_succ (delay : ℤ) (polls : ℕ) :
    pollingTime delay (polls + 1) = pollingTime delay polls + (7000 + delay) := by
  unfold pollingTime
  push_cast
  ring

theorem pollingTime_mono {delay : ℤ} (hdelay : 0 ≤ delay) {fewer polls : ℕ}
    (hle : fewer ≤ polls) : pollingTime delay fewer ≤ pollingTime delay polls := by
  unfold pollingTime
  exact mul_le_mul_of_nonneg_right (Int.ofNat_le.mpr hle) (by omega)

/-- The latest poll is recent, and not later than the polls behind an
observation allow. -/
structure Prompt (delay : ℤ) (polling : Int64) (state : MainLoop) : Prop where
  timed : state.Timed polling
  recent : state.now.toInt ≤ polling.toInt + 7000
  latest : ∀ front observation back, state.observed = front ++ observation :: back →
    polling.toInt ≤ observation.time +
      pollingTime delay (back.countP Observation.isPoll + state.pending.count .polling)

theorem Prompt.of_same {delay : ℤ} {polling : Int64} (hprompt : state.Prompt delay polling)
    (htimed : next.Timed polling) (hnow : next.now = state.now)
    (hobserved : next.observed = state.observed)
    (hpending : next.pending.count .polling = state.pending.count .polling) :
    next.Prompt delay polling where
  timed := htimed
  recent := hnow ▸ hprompt.recent
  latest := by
    rw [hobserved, hpending]
    exact hprompt.latest

theorem calls_count_polling (iteration : Iteration) :
    iteration.calls.count .polling = if iteration.polling then 1 else 0 := by
  unfold Iteration.calls
  cases iteration.polling <;> cases iteration.requestTemperature <;> rfl

theorem Prompt.connected {delay : ℤ} {polling now : Int64} (hprompt : state.Prompt delay polling)
    (hidle : state.pending = []) (hsteady : Steady delay (.connected now) state) :
    Prompt delay (if (iterate now state.timers).1.polling then now else polling) { state with
      timers := (iterate now state.timers).2
      now := now
      pending := (iterate now state.timers).1.calls } := by
  obtain ⟨hforward, hclose⟩ := hsteady now rfl
  have htimed := hprompt.timed
  have hrecent := hprompt.recent
  have hdue : (iterate now state.timers).1.polling = true ↔
      7000 < now.toInt - polling.toInt := by
    rw [iterate_eq, htimed.timer]
    exact isDue_iff_of_le 7000 (htimed.polling_le.trans hforward)
  refine ⟨htimed.connected hforward, ?_, ?_⟩
  · change now.toInt ≤ _
    split
    next => omega
    next hnot =>
      have hle := not_lt.mp (mt hdue.mpr hnot)
      omega
  · intro front observation back hsplit
    have hlatest := hprompt.latest front observation back hsplit
    have hne : state.observed ≠ [] := by
      rw [hsplit]
      simp
    have hnow := hclose hne
    rw [hidle] at hlatest
    change polling.toInt ≤ observation.time + pollingTime delay (_ + 0) at hlatest
    rw [calls_count_polling]
    split
    next =>
      rw [pollingTime_succ]
      rw [Nat.add_zero] at hlatest
      omega
    next => exact hlatest

theorem Prompt.observe {delay : ℤ} {polling : Int64} {observation : Observation}
    (hprompt : state.Prompt delay polling) (htimed : next.Timed polling)
    (hnow : next.now = state.now)
    (hobserved : next.observed = state.observed ++ [observation])
    (htime : observation.time = state.now.toInt)
    (hpending : (if observation.isPoll then 1 else 0) + next.pending.count .polling =
      state.pending.count .polling)
    (hlast : next.pending.count .polling = 0) : next.Prompt delay polling where
  timed := htimed
  recent := hnow ▸ hprompt.recent
  latest := by
    intro front other back hsplit
    rw [hobserved] at hsplit
    rcases List.eq_nil_or_concat back with rfl | ⟨middle, entry, rfl⟩
    · obtain ⟨_, hentry⟩ := List.append_inj' hsplit rfl
      obtain ⟨rfl, _⟩ := List.cons.inj hentry
      have hle := htimed.polling_le
      rw [hnow] at hle
      rw [hlast, htime]
      change _ ≤ _ + pollingTime delay 0
      unfold pollingTime
      simpa using hle
    · have hsame : state.observed ++ [observation] = (front ++ other :: middle) ++ [entry] := by
        rw [hsplit]
        simp
      obtain ⟨hfront, hentry⟩ := List.append_inj' hsame rfl
      obtain ⟨rfl, _⟩ := List.cons.inj hentry
      have hlatest := hprompt.latest front other middle hfront
      rw [List.concat_eq_append, List.countP_append, List.countP_singleton, Nat.add_assoc, hpending]
      exact hlatest

theorem Prompt.step {delay : ℤ} {polling : Int64} (hprompt : state.Prompt delay polling)
    (hshaped : Shaped (temperatureFrames state.board) state.pending)
    (hother : ∀ now, action ≠ .connected now)
    (hstep : step parse build action state = some next) : next.Prompt delay polling := by
  have htimed := hprompt.timed.step hshaped hother hstep
  cases effect_of_step hstep with
  | connected hidle => exact absurd rfl (hother _)
  | polling hpending =>
      rw [hpending] at hshaped
      have hrest := List.count_eq_zero.mpr hshaped.of_polling.polling_notMem
      exact hprompt.observe htimed rfl rfl rfl (by simp [hpending, Observation.isPoll, hrest])
        (by simpa using hrest)
  | listeningMaster hpending hlistened =>
      rw [hpending] at hshaped
      have hrest := hshaped.of_listeningMaster
      exact hprompt.observe htimed rfl rfl rfl (by simp [hpending, Observation.isPoll])
        (by simp [hrest])
  | onMessage hidle hpacket =>
      refine hprompt.of_same htimed rfl rfl ?_
      rw [hidle]
      rfl
  | reconnect hidle => exact hprompt
  | @push packet notifies rest packets hpending henqueue =>
      refine hprompt.of_same htimed rfl rfl ?_
      rw [hpending]
      cases notifies <;> simp
  | notify hpending =>
      refine hprompt.of_same htimed rfl rfl ?_
      rw [hpending]
      simp
  | increasePollingCount hpending =>
      refine hprompt.of_same htimed rfl rfl ?_
      rw [hpending]
      simp
  | @requestTemperature rest frames hpending hframes =>
      refine hprompt.of_same htimed rfl rfl ?_
      have hnone : (frames.map (Instruction.push · false)).count .polling = 0 := by
        rw [List.count_eq_zero]
        simp
      rw [hpending, List.count_append, hnone]
      simp
  | writePacket hconsume => exact hprompt.of_same htimed rfl rfl rfl

theorem exists_prompt_of_step {delay : ℤ} {polling : Int64}
    (hprompt : state.Prompt delay polling)
    (hshaped : Shaped (temperatureFrames state.board) state.pending)
    (hsteady : Steady delay action state)
    (hstep : step parse build action state = some next) :
    ∃ polling', next.Prompt delay polling' := by
  by_cases hother : ∀ now, action ≠ .connected now
  · exact ⟨polling, hprompt.step hshaped hother hstep⟩
  · obtain ⟨now, rfl⟩ := not_forall_not.mp hother
    cases effect_of_step hstep with
    | connected hidle => exact ⟨_, hprompt.connected hidle hsteady⟩

theorem prompt_start (board : MasterBoard) (delay : ℤ) : (start board).Prompt delay 0 where
  timed := timed_start board
  recent := by simp [start]
  latest := fun _ _ _ hsplit => by simp [start] at hsplit

/-! ## Rounds and readings -/

/-- Each round begins at most `delay` after the one before. -/
def Close (delay : ℤ) (actions : List Action) : Prop :=
  (readings actions).IsChain fun earlier later => later.toInt ≤ earlier.toInt + delay

/-- No round has begun. -/
def Unstarted (state : MainLoop) : Prop :=
  state.observed = [] ∧
    (state.pending = [] ∨ (∃ packet, state.pending = [.push packet true]) ∨
      state.pending = [.notify])

theorem Unstarted.step (hunstarted : state.Unstarted)
    (hother : ∀ now, action ≠ .connected now)
    (hstep : step parse build action state = some next) : next.Unstarted := by
  obtain ⟨hobserved, hstate⟩ := hunstarted
  cases effect_of_step hstep with
  | onMessage hidle hpacket => exact ⟨hobserved, .inr (.inl ⟨_, rfl⟩)⟩
  | connected hidle => exact absurd rfl (hother _)
  | reconnect hidle => exact ⟨hobserved, hstate⟩
  | @push packet notifies rest packets hpending henqueue =>
      simp only [hpending, List.cons.injEq, Instruction.push.injEq, reduceCtorEq, false_and,
        false_or, or_false, List.cons_ne_nil] at hstate
      obtain ⟨_, ⟨_, rfl⟩, rfl⟩ := hstate
      exact ⟨hobserved, .inr (.inr rfl)⟩
  | notify hpending =>
      simp only [hpending, List.cons.injEq, reduceCtorEq, false_and, exists_const, true_and,
        false_or, List.cons_ne_nil] at hstate
      exact ⟨hobserved, .inl hstate⟩
  | writePacket hconsume => exact ⟨hobserved, hstate⟩
  | _ hpending => simp [hpending] at hstate

theorem readings_append (first second : List Action) :
    readings (first ++ second) = readings first ++ readings second := by
  induction first with
  | nil => rfl
  | cons action actions ih =>
      cases action with
      | connected now => exact congrArg (now :: ·) ih
      | _ => exact ih

theorem now_of_run {board : MasterBoard}
    (hrun : run (step parse build) actions (start board) = some last) :
    last.now = (readings actions).getLastD 0 ∧ (readings actions = [] → last.Unstarted) := by
  induction actions using List.reverseRecOn generalizing last with
  | nil =>
      cases hrun
      exact ⟨rfl, fun _ => ⟨rfl, .inl rfl⟩⟩
  | append_singleton actions action ih =>
      obtain ⟨state, hbefore, hlast⟩ := exists_of_run_concat hrun
      obtain ⟨hnow, hunstarted⟩ := ih hbefore
      rw [readings_append]
      rcases step_now hlast with ⟨now, rfl, hsame⟩ | ⟨hother, hsame⟩
      · refine ⟨?_, fun hnone => ?_⟩
        · rw [hsame]
          simp [readings]
        · simp [readings] at hnone
      · have hnone : readings [action] = [] := by
          cases action with
          | connected now => exact absurd rfl (hother now)
          | _ => rfl
        rw [hnone, List.append_nil, hsame]
        exact ⟨hnow, fun hempty => (hunstarted hempty).step hother hlast⟩

theorem steady_of_readings {board : MasterBoard} {delay : ℤ} (hforward : Forward 0 actions)
    (hclose : Close delay actions)
    (hvisits : Visits (step parse build) actions (start board) state action) :
    Steady delay action state := by
  rintro now rfl
  obtain ⟨before, hinitial, hrun⟩ := hvisits
  obtain ⟨hnow, hunstarted⟩ := now_of_run hrun
  obtain ⟨after, rfl⟩ := hinitial
  have hreadings : readings ((before ++ [.connected now]) ++ after) =
      readings before ++ now :: readings after := by
    rw [readings_append, readings_append, List.append_assoc]
    rfl
  unfold Forward at hforward
  unfold Close at hclose
  rw [hreadings] at hforward hclose
  rcases List.eq_nil_or_concat (readings before) with hnone | ⟨front, latest, hsome⟩
  · rw [hnone] at hnow hforward
    rw [hnow]
    exact ⟨(List.pairwise_cons.mp hforward).1 now (by simp),
      fun hne => absurd (hunstarted hnone).1 hne⟩
  · rw [hsome, List.concat_eq_append, List.append_assoc] at hforward hclose
    rw [hsome, List.concat_eq_append, List.getLastD_concat] at hnow
    rw [hnow]
    have hpairs := (List.pairwise_append.mp (List.pairwise_cons.mp hforward).2).2.1
    have hchain := (List.isChain_append_cons_cons.mp hclose).2.1
    exact ⟨(List.pairwise_cons.mp hpairs).1 now (by simp), fun _ => hchain⟩

/-- When the rounds of the loop follow each other within `delay` and the last one
has been carried out, a board that does not answer is reported when eleven polls
and seven seconds have passed, at the latest. -/
theorem alarm_not_late {board : MasterBoard} {delay : ℤ} {front back : List Observation}
    {observation : Observation} (hdelay : 0 ≤ delay) (hfresh : board.pollingCount = 0)
    (hforward : Forward 0 actions) (hclose : Close delay actions)
    (hrun : run (step parse build) actions (start board) = some last)
    (hidle : last.pending = []) (hsplit : last.observed = front ++ observation :: back)
    (hsilent : ∀ later ∈ back, later.answersPoll = false)
    (hlate : observation.time + pollingTime delay 11 + 7000 < last.now.toInt) :
    ∃ alarm ∈ back, alarm.isPoll = true ∧
      alarm.published = [⟨"master/1/polling/error", .text "no response"⟩] := by
  have hprompt : (∃ polling, last.Prompt delay polling) ∧
      Shaped (temperatureFrames last.board) last.pending := by
    apply @invariant_run MainLoop Action (step parse build)
      (fun state => (∃ polling, state.Prompt delay polling) ∧
        Shaped (temperatureFrames state.board) state.pending)
      (fun action state => Steady delay action state) (start board) last actions _ _
      (fun _ _ => steady_of_readings hforward hclose) hrun
    · exact ⟨⟨0, prompt_start board delay⟩, .idle⟩
    · rintro action state next ⟨⟨polling, hstate⟩, hshaped⟩ hallowed hstep
      exact ⟨exists_prompt_of_step hstate hshaped hallowed hstep, step_shaped hshaped hstep⟩
  obtain ⟨⟨polling, hlast⟩, _⟩ := hprompt
  have hrecent := hlast.recent
  have hlatest := hlast.latest front observation back hsplit
  rw [hidle] at hlatest
  change polling.toInt ≤ observation.time + pollingTime delay (back.countP _) at hlatest
  have hmany : 11 < back.countP Observation.isPoll := by
    by_contra hfew
    have hmono := pollingTime_mono hdelay (not_lt.mp hfew)
    omega
  obtain ⟨before, alarm, after, rfl, hpoll, hbefore⟩ := exists_last_event hmany
  refine ⟨alarm, by simp, hpoll, ?_⟩
  have hreports := reports_of_run hfresh hrun (front ++ observation :: before) alarm after
    (by rw [hsplit]; simp) hpoll
  have hcount :
      before.countP Observation.isPoll ≤ unanswered ((front ++ [observation]) ++ before) :=
    le_countSince Observation.isPoll (front ++ [observation])
      fun later hmem => hsilent later (List.mem_append_left _ hmem)
  have hsame : (front ++ [observation]) ++ before = front ++ observation :: before := by simp
  rw [hsame] at hcount
  rw [hreports, if_pos (hbefore.trans hcount)]

/-! ## A board that stops answering -/

/-- Rounds sixteen seconds apart, in which both timers fire. -/
def quietRounds (count : ℕ) : List Action :=
  (List.range count).flatMap fun index =>
    .connected (Int64.ofNat (16000 * (index + 1))) :: List.replicate 6 .execute

/-- A board that answers the first poll and then no other. -/
def answersOnce : MasterBoard :=
  boardReceiving [0x23, 0x27, 0xff, 0xa0, 0x80, 0x00, 0x69, 0x0d]

def isAlarm (observation : Observation) : Bool :=
  observation.isPoll && !observation.published.isEmpty

theorem alarm_not_early_quiet :
    ∃ last before alarm after answer,
      run (step (fun _ => .ok none) .release) (quietRounds 13) (start answersOnce) = some last ∧
      last.observed = before ++ alarm :: after ∧ alarm.time = 208000 ∧
      answer ∈ before ∧ answer.time = 16000 ∧ answer.time + 11 * 7001 ≤ alarm.time := by
  have hresult : (run (step (fun _ => .ok none) .release) (quietRounds 13) (start answersOnce)).map
      (fun last => ((last.observed.take 24).any fun entry =>
          entry.answersPoll && decide (entry.time = 16000),
        (last.observed.drop 24).map fun entry => (isAlarm entry, entry.time))) =
        some (true, [(true, 208000), (false, 208000)]) := by
    decide +kernel
  obtain ⟨last, hrun, hlast⟩ := Option.map_eq_some_iff.mp hresult
  obtain ⟨hany, hdrop⟩ := Prod.mk.inj hlast
  obtain ⟨answer, hmem, hanswer⟩ := List.any_eq_true.mp hany
  obtain ⟨hanswers, htime⟩ := Bool.and_eq_true_iff.mp hanswer
  obtain ⟨alarm, after, hafter, halarm, _⟩ := List.map_eq_cons_iff.mp hdrop
  obtain ⟨hisAlarm, halarmTime⟩ := Prod.mk.inj halarm
  obtain ⟨hpoll, hpublished⟩ := Bool.and_eq_true_iff.mp hisAlarm
  have hsplit : last.observed = last.observed.take 24 ++ alarm :: after := by
    rw [← hafter, List.take_append_drop]
  refine ⟨last, _, alarm, after, answer, hrun, hsplit, halarmTime, hmem,
    of_decide_eq_true htime, ?_⟩
  exact alarm_not_early rfl (by unfold Forward; decide +kernel) hrun hsplit hpoll
    (by simpa using hpublished) hmem hanswers

theorem alarm_not_late_quiet :
    ∃ last answer back,
      run (step (fun _ => .ok none) .release) (quietRounds 18) (start answersOnce) = some last ∧
      last.observed.drop 1 = answer :: back ∧ answer.answersPoll = true ∧
      ∃ alarm ∈ back, alarm.isPoll = true ∧
        alarm.published = [⟨"master/1/polling/error", .text "no response"⟩] := by
  have hresult : (run (step (fun _ => .ok none) .release) (quietRounds 18) (start answersOnce)).map
      (fun last => (last.pending, last.now,
        (last.observed.drop 1).map fun entry => (entry.answersPoll, entry.time))) =
        some ([], 288000, (true, 16000) ::
          ((List.range 17).flatMap fun index =>
            [(false, (16000 * (index + 2) : ℤ)), (false, (16000 * (index + 2) : ℤ))])) := by
    decide +kernel
  obtain ⟨last, hrun, hlast⟩ := Option.map_eq_some_iff.mp hresult
  obtain ⟨hpending, hrest⟩ := Prod.mk.inj hlast
  obtain ⟨hnow, hdrop⟩ := Prod.mk.inj hrest
  obtain ⟨answer, back, hanswer, hfirst, hback⟩ := List.map_eq_cons_iff.mp hdrop
  obtain ⟨hanswers, htime⟩ := Prod.mk.inj hfirst
  have hsplit : last.observed = last.observed.take 1 ++ answer :: back := by
    rw [← hanswer, List.take_append_drop]
  have hsilent : ∀ later ∈ back, later.answersPoll = false := by
    intro later hmem
    have hpair : (later.answersPoll, later.time) ∈
        back.map fun entry => (entry.answersPoll, entry.time) :=
      List.mem_map.mpr ⟨later, hmem, rfl⟩
    rw [hback] at hpair
    obtain ⟨_, _, hentry⟩ := List.mem_flatMap.mp hpair
    simp only [List.mem_cons, Prod.mk.injEq, List.not_mem_nil, or_false, or_self] at hentry
    exact hentry.1
  have hlate : answer.time + pollingTime 16000 11 + 7000 < last.now.toInt := by
    rw [htime, hnow]
    decide
  exact ⟨last, answer, back, hrun, hanswer, hanswers,
    alarm_not_late (by decide) rfl (by unfold Forward; decide +kernel)
      (by unfold Close; decide +kernel) hrun hpending hsplit hsilent hlate⟩

end MainLoop

end IotGateway
