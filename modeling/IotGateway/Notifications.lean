import IotGateway.PacketFlow

/-!
# Notifications of the writer

The packets of a temperature request are pushed without a notification.  One
that is pushed while the writer waits stays in the queue until the next poll or
message notifies the writer.
-/

namespace IotGateway

open GatewayManager Histories IntervalTimer MqttManager Runs WaitQueue

namespace MainLoop

variable {parse : Parser} {build : Build} {action : Action}
  {state next last : MainLoop} {actions : List Action}

/-- The writer waits for a notification which the main thread is not about to
give, although there are packets in the queue. -/
def Stranded (state : MainLoop) : Prop :=
  state.packets.phase = .blocked ∧ state.packets.queue ≠ [] ∧
    state.pending.head? ≠ some .notify

/-- A packet of a temperature request is pushed while the writer waits. -/
def PushesUnnoticed (action : Action) (state : MainLoop) : Prop :=
  action = .execute ∧ state.packets.phase = .blocked ∧
    ∃ packet rest, state.pending = .push packet false :: rest

/-! ## When packets are stranded -/

theorem phase_of_enqueue {items : List (List UInt8)} {packets after : Monitor (List UInt8)}
    (henqueue : packets.enqueue items = some after) : after.phase = packets.phase := by
  rw [Monitor.enqueue_eq_some henqueue]

theorem Tail.head?_ne_notify {temperature : List (List UInt8)} {tail : List Instruction}
    (htail : Tail temperature tail) : tail.head? ≠ some .notify := by
  cases tail with
  | nil => simp
  | cons first rest =>
      rcases tail_cons htail with ⟨rfl, _⟩ | ⟨rfl, _⟩ | ⟨_, rfl, _⟩
      · simp
      · simp
      · simp

theorem not_stranded_of_awake (hawake : state.packets.Awake) : ¬ state.Stranded :=
  fun hstranded => hstranded.2.1 (hawake hstranded.1)

theorem awake_of_not_stranded (hstate : ¬ state.Stranded)
    (hhead : state.pending.head? ≠ some .notify) : state.packets.Awake := by
  intro hblocked
  by_contra hne
  exact hstate ⟨hblocked, hne, hhead⟩

theorem not_pushesUnnoticed_of_ne (haction : action ≠ .execute) :
    ¬ PushesUnnoticed action state := fun hpushes => haction hpushes.1

theorem not_pushesUnnoticed_of_pending {instruction : Instruction} {rest : List Instruction}
    (hpending : state.pending = instruction :: rest)
    (hinstruction : ∀ packet, instruction ≠ .push packet false) :
    ¬ PushesUnnoticed action state := by
  rintro ⟨_, _, packet, rest', hpush⟩
  rw [hpending] at hpush
  exact hinstruction packet (List.cons.inj hpush).1

/-- Packets get stranded by nothing but a push without a notification. -/
theorem step_stranded_iff (hshaped : Shaped (temperatureFrames state.board) state.pending)
    (hstate : ¬ state.Stranded) (hstep : step parse build action state = some next) :
    next.Stranded ↔ PushesUnnoticed action state := by
  have hawake := awake_of_not_stranded hstate
  cases effect_of_step hstep with
  | onMessage hidle hpacket =>
      have hsame := hawake (by simp [hidle])
      exact iff_of_false (not_stranded_of_awake hsame) (not_pushesUnnoticed_of_ne (by simp))
  | connected hidle =>
      have hsame := hawake (by simp [hidle])
      exact iff_of_false (not_stranded_of_awake hsame) (not_pushesUnnoticed_of_ne (by simp))
  | reconnect hidle => exact iff_of_false hstate (not_pushesUnnoticed_of_ne (by simp))
  | polling hpending =>
      have hsame := hawake (by simp [hpending])
      exact iff_of_false (not_stranded_of_awake hsame)
        (not_pushesUnnoticed_of_pending hpending (by simp))
  | @push packet notifies rest packets hpending henqueue =>
      have hphase := phase_of_enqueue henqueue
      cases notifies with
      | true =>
          apply iff_of_false
          · exact fun hstranded => hstranded.2.2 rfl
          · exact not_pushesUnnoticed_of_pending hpending (by simp)
      | false =>
          rw [hpending] at hshaped
          have hhead := hshaped.of_push_false.head?_ne_notify
          constructor
          · rintro ⟨hblocked, _⟩
            exact ⟨rfl, hphase.symm.trans hblocked, packet, rest, hpending⟩
          · rintro ⟨_, hblocked, _⟩
            refine ⟨hphase.trans hblocked, ?_, hhead⟩
            rw [Monitor.enqueue_eq_some henqueue]
            simp
  | notify hpending =>
      exact iff_of_false (not_stranded_of_awake (Monitor.awake_notify _))
        (not_pushesUnnoticed_of_pending hpending (by simp))
  | increasePollingCount hpending =>
      have hsame := hawake (by simp [hpending])
      exact iff_of_false (not_stranded_of_awake hsame)
        (not_pushesUnnoticed_of_pending hpending (by simp))
  | requestTemperature hpending hframes =>
      have hsame := hawake (by simp [hpending])
      exact iff_of_false (not_stranded_of_awake hsame)
        (not_pushesUnnoticed_of_pending hpending (by simp))
  | listeningMaster hpending hlistened =>
      have hsame := hawake (by simp [hpending])
      exact iff_of_false (not_stranded_of_awake hsame)
        (not_pushesUnnoticed_of_pending hpending (by simp))
  | writePacket hconsume =>
      exact iff_of_false (not_stranded_of_awake (Monitor.awake_consume hconsume))
        (not_pushesUnnoticed_of_ne (by simp))

theorem not_stranded_start (board : MasterBoard) : ¬ (start board).Stranded :=
  not_stranded_of_awake Monitor.awake_initial

/-- A push without a notification is possible whenever the writer waits. -/
theorem exists_step_of_pushesUnnoticed (hpushes : PushesUnnoticed action state) :
    ∃ next, step parse build action state = some next := by
  obtain ⟨rfl, hblocked, packet, rest, hpending⟩ := hpushes
  have hunlocked : state.packets.locked = false := by
    unfold Monitor.locked
    rw [hblocked]
  exact ⟨_, step_push hpending hunlocked⟩

/-- Whatever the order in which the threads take turns, no packet is ever
stranded iff none of a temperature request is pushed while the writer waits;
it does not suffice that the writer is at work when the request begins. -/
theorem not_stranded_iff (board : MasterBoard) (actions : List Action) :
    (∀ before state, before <+: actions →
      run (step parse build) before (start board) = some state → ¬ state.Stranded) ↔
    (∀ action state, Visits (step parse build) actions (start board) state action →
      ¬ PushesUnnoticed action state) := by
  constructor
  · rintro hnever action state ⟨before, hinitial, hrun⟩ hpushes
    obtain ⟨next, hstep⟩ : ∃ next, step parse build action state = some next :=
      exists_step_of_pushesUnnoticed hpushes
    have hnextRun : run (step parse build) (before ++ [action]) (start board) = some next := by
      rw [run_concat, hrun]
      exact hstep
    have hstate := hnever before state ((List.prefix_append _ _).trans hinitial) hrun
    have hnext := hnever _ next hinitial hnextRun
    exact hnext ((step_stranded_iff (shaped_of_run hrun) hstate hstep).mpr hpushes)
  · intro hnoticed before last hinitial hrun
    have hlast : ¬ last.Stranded ∧ Shaped (temperatureFrames last.board) last.pending := by
      apply @invariant_run MainLoop Action (step parse build)
        (fun state => ¬ state.Stranded ∧ Shaped (temperatureFrames state.board) state.pending)
        (fun action state => ¬ PushesUnnoticed action state) (start board) last before _ _ _ hrun
      · exact ⟨not_stranded_start board, .idle⟩
      · intro action state next hstate hallowed hstep
        refine ⟨?_, step_shaped hstate.2 hstep⟩
        rw [step_stranded_iff hstate.2 hstate.1 hstep]
        exact hallowed
      · exact fun action state hvisits => hnoticed action state (hvisits.mono hinitial)
    exact hlast.1

/-! ## What is stranded -/

/-- The packets that will be pushed before the next notification. -/
def silentFrames (temperature : List (List UInt8)) (pending : List Instruction) :
    List (List UInt8) :=
  (pending.takeWhile fun instruction => !instruction.notifies).flatMap
    (Instruction.frames temperature)

theorem silentFrames_pushes (temperature frames : List (List UInt8)) (rest : List Instruction) :
    silentFrames temperature (frames.map (Instruction.push · false) ++ rest) =
      frames ++ silentFrames temperature rest := by
  induction frames with
  | nil => rfl
  | cons frame frames ih => exact congrArg (frame :: ·) ih

theorem silentFrames_tail {temperature : List (List UInt8)} {tail : List Instruction}
    (htail : Tail temperature tail) : silentFrames temperature tail <:+ temperature := by
  cases htail with
  | requestTemperature =>
      change temperature ++ [] <:+ temperature
      exact ⟨[], List.append_nil temperature⟩
  | pushes hframes =>
      rw [silentFrames_pushes]
      change _ ++ [] <:+ temperature
      rw [List.append_nil]
      exact hframes

theorem silentFrames_shaped {temperature : List (List UInt8)} {pending : List Instruction}
    (hshaped : Shaped temperature pending) :
    silentFrames temperature pending <:+ temperature := by
  cases hshaped with
  | @increasePollingCount tail htail =>
      change silentFrames temperature tail <:+ temperature
      exact silentFrames_tail htail
  | tail htail => exact silentFrames_tail htail
  | _ => exact List.nil_suffix

/-- A call of `RequestTemperature` has not ended. -/
def Requesting (pending : List Instruction) : Prop :=
  .requestTemperature ∈ pending ∨ ∃ packet, .push packet false ∈ pending

/-- The timers keep readings of the clock.  While a temperature request is made
or its packets are stranded, the latest poll is not behind it. -/
structure Clocked (polling request : Int64) (state : MainLoop) : Prop where
  timers : state.timers = ⟨polling.toUInt64, request.toUInt64⟩
  polling_le : polling.toInt ≤ state.now.toInt
  request_le : request.toInt ≤ state.now.toInt
  requesting : Requesting state.pending → polling.toInt ≤ request.toInt
  stranded : state.packets.phase = .blocked → state.packets.queue ≠ [] →
    (∃ instruction ∈ state.pending, instruction.notifies = true) ∨
      polling.toInt ≤ request.toInt

/-- What waits unnoticed, together with what is still pushed without a
notification, is the end of one temperature request. -/
structure Confined (state : MainLoop) : Prop where
  shaped : Shaped (temperatureFrames state.board) state.pending
  waiting : state.packets.phase = .blocked → state.pending.head? ≠ some .notify →
    state.packets.queue ++ silentFrames (temperatureFrames state.board) state.pending <:+
      temperatureFrames state.board
  clocked : ∃ polling request, state.Clocked polling request

theorem confined_start (board : MasterBoard) : (start board).Confined where
  shaped := .idle
  waiting := fun _ _ => List.nil_suffix
  clocked := ⟨0, 0, rfl, le_refl _, le_refl _, fun _ => le_refl _, fun _ hne => absurd rfl hne⟩

/-- A step that leaves the timers alone. -/
theorem Clocked.of_same {polling request : Int64} (hclocked : state.Clocked polling request)
    (htimers : next.timers = state.timers) (hnow : next.now = state.now)
    (hrequesting : Requesting next.pending → Requesting state.pending)
    (hstranded : next.packets.phase = .blocked → next.packets.queue ≠ [] →
      (∃ instruction ∈ next.pending, instruction.notifies = true) ∨
        polling.toInt ≤ request.toInt) : next.Clocked polling request where
  timers := htimers.trans hclocked.timers
  polling_le := hnow ▸ hclocked.polling_le
  request_le := hnow ▸ hclocked.request_le
  requesting := fun hnext => hclocked.requesting (hrequesting hnext)
  stranded := hstranded

theorem Requesting.cons {instruction : Instruction} {rest : List Instruction}
    (hrequesting : Requesting rest) : Requesting (instruction :: rest) := by
  rcases hrequesting with hmem | ⟨packet, hmem⟩
  · exact .inl (List.mem_cons_of_mem _ hmem)
  · exact .inr ⟨packet, List.mem_cons_of_mem _ hmem⟩

theorem not_requesting_nil : ¬ Requesting [] := by
  rintro (hmem | ⟨packet, hmem⟩)
  · exact List.not_mem_nil hmem
  · exact List.not_mem_nil hmem

theorem requesting_cons {instruction : Instruction} {rest : List Instruction}
    (hrequesting : Requesting (instruction :: rest)) (hne : instruction ≠ .requestTemperature)
    (hpush : ∀ packet, instruction ≠ .push packet false) : Requesting rest := by
  rcases hrequesting with hmem | ⟨packet, hmem⟩
  · rcases List.mem_cons.mp hmem with hsame | hrest
    · exact absurd hsame.symm hne
    · exact .inl hrest
  · rcases List.mem_cons.mp hmem with hsame | hrest
    · exact absurd hsame.symm (hpush packet)
    · exact .inr ⟨packet, hrest⟩

theorem requesting_calls {iteration : Iteration} (hrequesting : Requesting iteration.calls) :
    iteration.requestTemperature = true := by
  by_contra hnot
  unfold Iteration.calls at hrequesting
  rw [if_neg hnot] at hrequesting
  cases hpolling : iteration.polling with
  | true => simp [Requesting, hpolling] at hrequesting
  | false => simp [Requesting, hpolling] at hrequesting

/-- The packets that wait unnoticed stay with the timers. -/
theorem Clocked.step {polling request : Int64} (hclocked : state.Clocked polling request)
    (hshaped : Shaped (temperatureFrames state.board) state.pending)
    (hother : ∀ now, action ≠ .connected now)
    (hstep : step parse build action state = some next) : next.Clocked polling request := by
  have hstranded := hclocked.stranded
  have hrequesting := hclocked.requesting
  cases effect_of_step hstep with
  | onMessage hidle hpacket =>
      refine hclocked.of_same rfl rfl ?_ ?_
      · exact fun hnext => absurd (requesting_cons hnext (by simp) (by simp)) not_requesting_nil
      · exact fun _ _ => .inl ⟨_, List.mem_cons_self, rfl⟩
  | connected hidle => exact absurd rfl (hother _)
  | reconnect hidle => exact hclocked
  | polling hpending =>
      refine hclocked.of_same rfl rfl ?_ ?_
      · intro hnext
        rw [hpending]
        have hrest := requesting_cons hnext (by simp) (by simp)
        exact (requesting_cons hrest (by simp) (by simp)).cons
      · exact fun _ _ => .inl ⟨_, List.mem_cons_self, rfl⟩
  | @push packet notifies rest packets hpending henqueue =>
      rw [hpending] at hrequesting
      cases notifies with
      | true =>
          refine hclocked.of_same rfl rfl ?_ ?_
          · intro hnext
            rw [hpending]
            exact (requesting_cons hnext (by simp) (by simp)).cons
          · exact fun _ _ => .inl ⟨_, List.mem_cons_self, rfl⟩
      | false =>
          refine hclocked.of_same rfl rfl ?_ ?_
          · intro hnext
            rw [hpending]
            exact hnext.cons
          · exact fun _ _ => .inr (hrequesting (.inr ⟨packet, List.mem_cons_self⟩))
  | notify hpending =>
      refine hclocked.of_same rfl rfl ?_ ?_
      · intro hnext
        rw [hpending]
        exact hnext.cons
      · exact fun hblocked hne => absurd (Monitor.awake_notify _ hblocked) hne
  | increasePollingCount hpending =>
      rw [hpending] at hstranded
      refine hclocked.of_same rfl rfl ?_ ?_
      · intro hnext
        rw [hpending]
        exact hnext.cons
      · intro hblocked hne
        rcases hstranded hblocked hne with ⟨instruction, hmem, hnotifies⟩ | hle
        · rcases List.mem_cons.mp hmem with rfl | hrest
          · cases hnotifies
          · exact .inl ⟨instruction, hrest, hnotifies⟩
        · exact .inr hle
  | requestTemperature hpending hframes =>
      rw [hpending] at hrequesting
      refine hclocked.of_same rfl rfl ?_ ?_
      · intro _
        rw [hpending]
        exact .inl List.mem_cons_self
      · exact fun _ _ => .inr (hrequesting (.inl List.mem_cons_self))
  | listeningMaster hpending hlistened =>
      rw [hpending] at hstranded hshaped
      rw [hshaped.of_listeningMaster] at hstranded ⊢
      refine hclocked.of_same rfl rfl ?_ ?_
      · exact fun hnext => absurd hnext not_requesting_nil
      · intro hblocked hne
        rcases hstranded hblocked hne with ⟨instruction, hmem, hnotifies⟩ | hle
        · rw [List.mem_singleton.mp hmem] at hnotifies
          cases hnotifies
        · exact .inr hle
  | writePacket hconsume =>
      refine hclocked.of_same rfl rfl id ?_
      exact fun hblocked hne => absurd (Monitor.awake_consume hconsume hblocked) hne

/-- The readings that the timers keep after a round. -/
theorem iterate_timers {timers : Timers} {polling request now : Int64}
    (htimers : timers = ⟨polling.toUInt64, request.toUInt64⟩) :
    (iterate now timers).2 =
      ⟨(if (iterate now timers).1.polling then now else polling).toUInt64,
        (if (iterate now timers).1.requestTemperature then now else request).toUInt64⟩ := by
  rw [htimers, iterate_eq]
  simp only [apply_ite Int64.toUInt64]

/-- A round never requests temperatures without a poll when the latest poll is
not behind the latest request. -/
theorem iterate_polling {timers : Timers} {polling request now : Int64}
    (htimers : timers = ⟨polling.toUInt64, request.toUInt64⟩)
    (hle : polling.toInt ≤ request.toInt) (hforward : request.toInt ≤ now.toInt)
    (hrequest : (iterate now timers).1.requestTemperature = true) :
    (iterate now timers).1.polling = true := by
  rw [htimers, iterate_eq] at hrequest ⊢
  exact isDue_of_isDue (by decide) hle hforward hrequest

theorem Clocked.connected {polling request now : Int64}
    (hclocked : state.Clocked polling request) (hidle : state.pending = [])
    (hforward : state.now.toInt ≤ now.toInt) :
    ∃ polling' request', Clocked polling' request' { state with
      timers := (iterate now state.timers).2
      now := now
      pending := (iterate now state.timers).1.calls } := by
  have hpolling_le := hclocked.polling_le.trans hforward
  have hrequest_le := hclocked.request_le.trans hforward
  have hstranded := hclocked.stranded
  rw [hidle] at hstranded
  refine ⟨_, _, iterate_timers hclocked.timers, ?_, ?_, ?_, ?_⟩
  · split
    · exact le_refl _
    · exact hpolling_le
  · split
    · exact le_refl _
    · exact hrequest_le
  · intro hrequesting
    rw [if_pos (requesting_calls hrequesting)]
    split
    · exact le_refl _
    · exact hpolling_le
  · intro hblocked hne
    rcases hstranded hblocked hne with ⟨instruction, hmem, _⟩ | hle
    · exact absurd hmem List.not_mem_nil
    · cases hdue : (iterate now state.timers).1.polling with
      | true =>
          refine .inl ⟨.polling, ?_, rfl⟩
          unfold Iteration.calls
          rw [hdue]
          exact List.mem_cons_self
      | false =>
          right
          rw [if_neg (by simp)]
          split
          · exact hpolling_le
          · exact hle

/-- With a clock that is not set back, the packets of two temperature requests
are never stranded together. -/
theorem Confined.connected {now : Int64} (hconfined : state.Confined)
    (hidle : state.pending = []) (hforward : state.now.toInt ≤ now.toInt)
    (hblocked : state.packets.phase = .blocked) :
    state.packets.queue ++ silentFrames (temperatureFrames state.board)
        (iterate now state.timers).1.calls <:+ temperatureFrames state.board := by
  obtain ⟨polling, request, hclocked⟩ := hconfined.clocked
  have hwaiting := hconfined.waiting hblocked (by simp [hidle])
  rw [hidle] at hwaiting
  by_cases hqueue : state.packets.queue = []
  · rw [hqueue, List.nil_append]
    exact silentFrames_shaped (shaped_calls _ _)
  · have hsilent : silentFrames (temperatureFrames state.board)
        (iterate now state.timers).1.calls = [] := by
      have hstranded := hclocked.stranded hblocked hqueue
      rw [hidle] at hstranded
      rcases hstranded with ⟨instruction, hmem, _⟩ | hle
      · exact absurd hmem List.not_mem_nil
      · have hpolling := @iterate_polling state.timers polling request now hclocked.timers hle
          (hclocked.request_le.trans hforward)
        unfold Iteration.calls
        cases hdue : (iterate now state.timers).1.requestTemperature with
        | true =>
            rw [hpolling hdue]
            rfl
        | false => cases (iterate now state.timers).1.polling <;> rfl
    rw [hsilent]
    exact hwaiting

theorem Confined.step_waiting (hconfined : state.Confined)
    (hforward : ∀ now, action = .connected now → state.now.toInt ≤ now.toInt)
    (hstep : step parse build action state = some next)
    (hblocked : next.packets.phase = .blocked)
    (hhead : next.pending.head? ≠ some .notify) :
    next.packets.queue ++ silentFrames (temperatureFrames state.board) next.pending <:+
      temperatureFrames state.board := by
  have hshaped := hconfined.shaped
  have hwaiting := hconfined.waiting
  cases effect_of_step hstep with
  | onMessage hidle hpacket =>
      have hsame := hwaiting hblocked (by simp [hidle])
      rw [hidle] at hsame
      exact hsame
  | connected hidle => exact hconfined.connected hidle (hforward _ rfl) hblocked
  | reconnect hidle => exact hwaiting hblocked hhead
  | polling hpending =>
      have hsame := hwaiting hblocked (by simp [hpending])
      rw [hpending] at hsame
      exact hsame
  | @push packet notifies rest packets hpending henqueue =>
      cases notifies with
      | true => exact absurd rfl hhead
      | false =>
          have hphase := phase_of_enqueue henqueue
          have hsame := hwaiting (hphase.symm.trans hblocked) (by simp [hpending])
          rw [hpending] at hsame
          rw [Monitor.enqueue_eq_some henqueue]
          change (state.packets.queue ++ [packet]) ++ silentFrames _ rest <:+ _
          rw [List.append_assoc]
          exact hsame
  | @notify rest hpending =>
      have hawake := Monitor.awake_notify state.packets hblocked
      rw [hpending] at hshaped
      have hrest := silentFrames_shaped (hshaped.step_notify)
      rw [hawake, List.nil_append]
      exact hrest
  | increasePollingCount hpending =>
      have hsame := hwaiting hblocked (by simp [hpending])
      rw [hpending] at hsame
      exact hsame
  | @requestTemperature rest frames hpending hframes =>
      have hsame := hwaiting hblocked (by simp [hpending])
      rw [hpending] at hsame
      rw [silentFrames_pushes, ← frames_of_requestTemperature hframes]
      exact hsame
  | listeningMaster hpending hlistened =>
      have hsame := hwaiting hblocked (by simp [hpending])
      rw [hpending] at hsame hshaped
      rw [hshaped.of_listeningMaster] at hsame ⊢
      exact hsame
  | writePacket hconsume =>
      rw [Monitor.awake_consume hconsume hblocked, List.nil_append]
      exact silentFrames_shaped hshaped

theorem Confined.step (hconfined : state.Confined)
    (hforward : ∀ now, action = .connected now → state.now.toInt ≤ now.toInt)
    (hstep : step parse build action state = some next) : next.Confined where
  shaped := step_shaped hconfined.shaped hstep
  waiting := by
    intro hblocked hhead
    rw [step_temperatureFrames hstep]
    exact hconfined.step_waiting hforward hstep hblocked hhead
  clocked := by
    obtain ⟨polling, request, hclocked⟩ := hconfined.clocked
    by_cases hother : ∀ now, action ≠ .connected now
    · exact ⟨polling, request, hclocked.step hconfined.shaped hother hstep⟩
    · obtain ⟨now, rfl⟩ := not_forall_not.mp hother
      cases effect_of_step hstep with
      | connected hidle => exact hclocked.connected hidle (hforward now rfl)

theorem length_temperatureFrames_le (board : MasterBoard) :
    (temperatureFrames board).length ≤ board.slaveCount.toNat := by
  unfold temperatureFrames
  split
  next frames hframes =>
    rw [Faults.mapM_length hframes, List.length_range]
  next => exact Nat.zero_le _

/-- With a clock that is not set back, whatever the order in which the threads
take turns, the packets that are stranded are those of one temperature request
at most, so that they are no more than there are slaves. -/
theorem stranded_confined {board : MasterBoard} (hforward : Forward 0 actions)
    (hrun : run (step parse build) actions (start board) = some last)
    (hstranded : last.Stranded) :
    last.packets.queue <:+: temperatureFrames board ∧
      last.packets.queue.length ≤ board.slaveCount.toNat := by
  have hconfined : last.Confined :=
    invariant_run_forward (confined_start board)
      (fun _ _ _ hstate hclock hstep => hstate.step hclock hstep) hforward hrun
  have hwaiting := hconfined.waiting hstranded.1 hstranded.2.2
  rw [temperatureFrames_of_run hrun] at hwaiting
  have hpart : last.packets.queue <:+: temperatureFrames board :=
    (List.prefix_append _ _).isInfix.trans hwaiting.isInfix
  exact ⟨hpart, hpart.length_le.trans (length_temperatureFrames_le board)⟩

/-- The writer is at work when the request for two slaves begins, and waits
before its second packet is pushed. -/
def strandingActions : List Action :=
  [.connected 15500] ++ List.replicate 5 .execute ++
    [.writePacket .lock, .writePacket .check, .writePacket .handle, .execute,
      .writePacket .lock, .writePacket .check, .writePacket .handle,
      .writePacket .lock, .writePacket .check, .execute]

theorem stranded_confined_second :
    ∃ last, run (step (fun _ => .ok none) .release) strandingActions
        (start ((boardReceiving []).setSlaveCount 2)) = some last ∧ last.Stranded ∧
      last.packets.queue = [temperatureRequest 0] ∧
      last.packets.queue <:+: temperatureFrames ((boardReceiving []).setSlaveCount 2) ∧
      last.packets.queue.length ≤ 2 := by
  have hresult : (run (step (fun _ => .ok none) .release) strandingActions
      (start ((boardReceiving []).setSlaveCount 2))).map
        (fun last => (last.packets.phase, last.packets.queue, last.pending)) =
      some (.blocked, [temperatureRequest 0], [.listeningMaster]) := by
    decide +kernel
  obtain ⟨last, hrun, hlast⟩ := Option.map_eq_some_iff.mp hresult
  obtain ⟨hphase, hqueue, hpending⟩ :
      last.packets.phase = .blocked ∧ last.packets.queue = [temperatureRequest 0] ∧
        last.pending = [.listeningMaster] := by
    simpa only [Prod.mk.injEq] using hlast
  have hstranded : last.Stranded := ⟨hphase, by simp [hqueue], by simp [hpending]⟩
  exact ⟨last, hrun, hstranded, hqueue,
    stranded_confined (by unfold Forward; decide +kernel) hrun hstranded⟩

end MainLoop

end IotGateway
