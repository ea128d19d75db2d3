import IotGateway.MainLoop
import IotGateway.SlaveTable

/-!
# The flow of packets

Every packet that the messages and the timers call for passes from the pending
calls of the main thread through the queue and the hands of the writer to the
serial line.  The steps of the two threads only move it on, so that the order
in which they take turns has no influence on what is written.
-/

namespace IotGateway

open Faults GatewayManager MqttManager Runs WaitQueue

/-- The packets that an instruction will push. -/
def Instruction.frames (temperature : List (List UInt8)) : Instruction → List (List UInt8)
  | .polling => [pollingRequest]
  | .push packet _ => [packet]
  | .requestTemperature => temperature
  | .notify | .increasePollingCount | .listeningMaster => []

/-- Whether the writer will have been notified when the instruction is through. -/
def Instruction.notifies : Instruction → Bool
  | .polling | .notify => true
  | .push _ notifies => notifies
  | .increasePollingCount | .requestTemperature | .listeningMaster => false

namespace MainLoop

variable {parse : Parser} {build : Build} {action : Action}
  {state next last : MainLoop} {actions : List Action}

def Action.isInput : Action → Bool
  | .onMessage _ | .connected _ | .reconnect => true
  | .execute | .writePacket _ => false

/-- The packets that messages and rounds of the loop call for. -/
def requests (parse : Parser) (temperature : List (List UInt8)) :
    Timers → List Action → List (List UInt8)
  | _, [] => []
  | timers, .onMessage message :: actions =>
      match MqttManager.onMessage parse message with
      | .ok packet => packet :: requests parse temperature timers actions
      | .error _ => requests parse temperature timers actions
  | timers, .connected now :: actions =>
      (iterate now timers).1.calls.flatMap (Instruction.frames temperature) ++
        requests parse temperature (iterate now timers).2 actions
  | timers, _ :: actions => requests parse temperature timers actions

def written (state : MainLoop) : List (List UInt8) := state.board.serialPort.written

/-- The packets that have been called for but not written. -/
def outstanding (state : MainLoop) : List (List UInt8) :=
  state.packets.inHand ++ state.packets.queue ++
    state.pending.flatMap (Instruction.frames (temperatureFrames state.board))

theorem flatMap_frames_push (temperature frames : List (List UInt8)) (notifies : Bool) :
    (frames.map (Instruction.push · notifies)).flatMap (Instruction.frames temperature) =
      frames := by
  induction frames with
  | nil => rfl
  | cons frame frames ih => exact congrArg (frame :: ·) ih

/-! ## Steps and runs -/

/-- A step moves packets on, or adds the ones that a message or a round calls
for. -/
theorem step_flow (hstep : step parse build action state = some next) (actions : List Action) :
    state.written ++ state.outstanding ++
        requests parse (temperatureFrames state.board) state.timers (action :: actions) =
      next.written ++ next.outstanding ++
        requests parse (temperatureFrames next.board) next.timers actions := by
  have htemperature := step_temperatureFrames hstep
  unfold outstanding
  rw [htemperature]
  cases effect_of_step hstep with
  | onMessage hidle hpacket =>
      simp [requests, written, hidle, hpacket, Instruction.frames]
  | connected hidle => simp [requests, written, hidle]
  | reconnect hidle => simp [requests]
  | polling hpending => simp [requests, written, hpending, Instruction.frames]
  | @push packet notifies rest packets hpending henqueue =>
      rw [Monitor.enqueue_eq_some henqueue]
      cases notifies with
      | true => simp [requests, written, hpending, Monitor.inHand, Instruction.frames]
      | false => simp [requests, written, hpending, Monitor.inHand, Instruction.frames]
  | notify hpending =>
      simp [requests, written, hpending, Monitor.notify_inHand, Instruction.frames]
  | increasePollingCount hpending =>
      simp [requests, written, hpending, MasterBoard.increasePollingCount, Instruction.frames]
  | requestTemperature hpending hframes =>
      have hsame := frames_of_requestTemperature hframes
      simp only [requests, written, hpending, List.flatMap_append, List.flatMap_cons,
        flatMap_frames_push, Instruction.frames, hsame]
  | listeningMaster hpending hlistened =>
      have hwritten := (listeningMaster_readsOnly hlistened).written
      simp [requests, written, hpending, hwritten, Instruction.frames]
  | @writePacket writerStep packets hconsume =>
      have hmoved := Monitor.consume_outstanding hconsume
      have hover : state.system.handedOver writerStep =
          if writerStep = .handle then state.packets.inHand else [] := rfl
      simp only [requests, written, System.foldl_write_written, hover, ← hmoved,
        List.append_assoc]

theorem run_flow (hrun : run (step parse build) actions state = some last) :
    last.written ++ last.outstanding =
      state.written ++ state.outstanding ++
        requests parse (temperatureFrames state.board) state.timers actions := by
  induction actions generalizing state with
  | nil =>
      cases hrun
      exact (List.append_nil _).symm
  | cons action actions ih =>
      obtain ⟨next, hstep, hrest⟩ := Option.bind_eq_some_iff.mp hrun
      rw [ih hrest, ← step_flow hstep]

theorem requests_filter (temperature : List (List UInt8)) (timers : Timers)
    (actions : List Action) :
    requests parse temperature timers (actions.filter Action.isInput) =
      requests parse temperature timers actions := by
  induction actions generalizing timers with
  | nil => rfl
  | cons action actions ih =>
      cases action with
      | onMessage message =>
          rw [List.filter_cons_of_pos rfl]
          unfold requests
          split
          next => rw [ih]
          next => exact ih timers
      | connected now =>
          rw [List.filter_cons_of_pos rfl]
          unfold requests
          rw [ih]
      | reconnect =>
          rw [List.filter_cons_of_pos rfl]
          exact ih timers
      | execute => exact ih timers
      | writePacket step => exact ih timers

theorem flow_of_run {board : MasterBoard}
    (hrun : run (step parse build) actions (start board) = some last) :
    last.written ++ last.outstanding =
      board.serialPort.written ++ requests parse (temperatureFrames board) {} actions := by
  rw [run_flow hrun]
  congr 1
  exact List.append_nil _

/-- Whatever the order in which the threads take turns, the packets written
since the start followed by the outstanding ones are those that the messages
and the rounds of the loop call for. -/
theorem written_requests {board : MasterBoard}
    (hrun : run (step parse build) actions (start board) = some last) :
    last.written ++ last.outstanding =
      board.serialPort.written ++
        requests parse (temperatureFrames board) {} (actions.filter Action.isInput) := by
  rw [flow_of_run hrun, requests_filter]

/-- A round that polls and requests the temperature of one slave, and in which
the writer comes in before the second packet. -/
def roundActions : List Action :=
  [.writePacket .lock, .writePacket .check, .connected 20000, .execute, .execute, .execute,
    .execute, .execute, .writePacket .wake, .writePacket .check, .writePacket .handle, .execute,
    .execute]

theorem written_requests_round :
    ∃ last, run (step (fun _ => .ok none) .release) roundActions
        (start ((boardReceiving []).setSlaveCount 1)) = some last ∧
      last.written = [pollingRequest] ∧ last.outstanding = [temperatureRequest 0] ∧
      last.written ++ last.outstanding =
        requests (fun _ => .ok none) (temperatureFrames ((boardReceiving []).setSlaveCount 1)) {}
          (roundActions.filter Action.isInput) := by
  have hresult : (run (step (fun _ => .ok none) .release) roundActions
      (start ((boardReceiving []).setSlaveCount 1))).map
        (fun last => (last.written, last.outstanding)) =
      some ([pollingRequest], [temperatureRequest 0]) := by
    decide +kernel
  obtain ⟨last, hrun, hlast⟩ := Option.map_eq_some_iff.mp hresult
  exact ⟨last, hrun, congrArg Prod.fst hlast, congrArg Prod.snd hlast, written_requests hrun⟩

/-! ## The threads on their own -/

/-- A step that the two threads take by themselves: it needs no message and no
round, and the writer does not wake up without a notification. -/
def Own (action : Action) (state : MainLoop) : Prop :=
  action.isInput = false ∧ (action = .writePacket .wake → state.packets.phase = .notified)

def Proceeds (parse : Parser) (build : Build) (state next : MainLoop) : Prop :=
  ∃ action, Own action state ∧ step parse build action state = some next

/-- The two threads by themselves can go on so that the property holds. -/
def CanReach (parse : Parser) (build : Build) (state : MainLoop)
    (Goal : MainLoop → Prop) : Prop :=
  ∃ last, Relation.ReflTransGen (Proceeds parse build) state last ∧ Goal last

theorem CanReach.refl {Goal : MainLoop → Prop} (hgoal : Goal state) :
    CanReach parse build state Goal := ⟨state, .refl, hgoal⟩

theorem CanReach.trans {Middle Goal : MainLoop → Prop}
    (hreach : CanReach parse build state Middle)
    (hnext : ∀ middle, Middle middle → CanReach parse build middle Goal) :
    CanReach parse build state Goal := by
  obtain ⟨middle, hfirst, hmiddle⟩ := hreach
  obtain ⟨last, hsecond, hgoal⟩ := hnext middle hmiddle
  exact ⟨last, hfirst.trans hsecond, hgoal⟩

/-- The next instruction of the main thread is executed. -/
theorem canReach_of_execute {Goal : MainLoop → Prop}
    (hstep : step parse build .execute state = some next) (hgoal : Goal next) :
    CanReach parse build state Goal :=
  ⟨next, .single ⟨.execute, ⟨rfl, by simp⟩, hstep⟩, hgoal⟩

theorem proceeds_flow (hproceeds : Proceeds parse build state next) :
    next.written ++ next.outstanding = state.written ++ state.outstanding := by
  obtain ⟨action, ⟨hinput, _⟩, hstep⟩ := hproceeds
  have hflow := step_flow hstep []
  have hnone : requests parse (temperatureFrames state.board) state.timers [action] = [] := by
    cases action with
    | onMessage message => cases hinput
    | connected now => cases hinput
    | reconnect => cases hinput
    | execute => rfl
    | writePacket step => rfl
  rw [hnone, List.append_nil] at hflow
  exact (hflow.trans (List.append_nil _)).symm

theorem flow_of_proceeds
    (hreach : Relation.ReflTransGen (Proceeds parse build) state last) :
    last.written ++ last.outstanding = state.written ++ state.outstanding := by
  induction hreach with
  | refl => rfl
  | tail _ hproceeds ih => exact (proceeds_flow hproceeds).trans ih

/-- The writer by itself takes the queue where it can go. -/
theorem canReach_of_consumes {packets : Monitor (List UInt8)}
    (hconsumes : Relation.ReflTransGen Monitor.Consumes state.packets packets) :
    CanReach parse build state fun last =>
      last.packets = packets ∧ last.pending = state.pending ∧
        last.board.slaveCount = state.board.slaveCount := by
  induction hconsumes with
  | refl => exact .refl ⟨rfl, rfl, rfl⟩
  | @tail middle packets _ hstep ih =>
      obtain ⟨writerStep, hnotified, hconsume⟩ := hstep
      refine ih.trans ?_
      rintro state' ⟨hpackets, hpending, hcount⟩
      rw [← hpackets] at hnotified hconsume
      have hstep : step parse build (.writePacket writerStep) state' = some { state' with
          board := (state'.system.handedOver writerStep).foldl
            (fun board frame => board.write frame) state'.board
          packets := packets } := by
        unfold step System.writePacket
        change (state'.packets.consume writerStep >>= _) >>= _ = _
        rw [hconsume]
        rfl
      have hown : Own (.writePacket writerStep) state' := by
        refine ⟨rfl, fun hwake => hnotified ?_⟩
        cases hwake
        rfl
      exact ⟨_, .single ⟨_, hown, hstep⟩, rfl, hpending, (step_slaves hstep).1.trans hcount⟩

/-- The main thread gets past the instructions at the front of its pending ones.
They make the writer go on if one of them notifies it. -/
def Passes (parse : Parser) (build : Build) (front : List Instruction) : Prop :=
  ∀ state rest, state.pending = front ++ rest → state.packets.locked = false →
    state.board.slaveCount.toNat ≤ kMaxSlaveCount →
      CanReach parse build state fun last =>
        last.pending = rest ∧ last.packets.locked = false ∧
          last.board.slaveCount = state.board.slaveCount ∧
          (state.packets.Ready ∨ front.any Instruction.notifies = true → last.packets.Ready)

theorem passes_nil : Passes parse build [] := by
  intro state rest hpending hunlocked _
  refine .refl ⟨hpending, hunlocked, rfl, fun hready => ?_⟩
  rcases hready with hready | hnotifies
  · exact hready
  · cases hnotifies

theorem Passes.append {front back : List Instruction} (hfront : Passes parse build front)
    (hback : Passes parse build back) : Passes parse build (front ++ back) := by
  intro state rest hpending hunlocked hcount
  rw [List.append_assoc] at hpending
  refine CanReach.trans (hfront state (back ++ rest) hpending hunlocked hcount) ?_
  rintro middle ⟨hmiddle, hopen, hslaves, hready⟩
  refine CanReach.trans (hback middle rest hmiddle hopen (hslaves ▸ hcount)) ?_
  rintro last ⟨hlast, hlastOpen, hlastSlaves, hlastReady⟩
  refine .refl ⟨hlast, hlastOpen, hlastSlaves.trans hslaves, fun hnotified => hlastReady ?_⟩
  rw [List.any_append, Bool.or_eq_true] at hnotified
  rcases hnotified with hbefore | hnotifies | hnotifies
  · exact .inl (hready (.inl hbefore))
  · exact .inl (hready (.inr hnotifies))
  · exact .inr hnotifies

/-- An instruction that can be executed, and leaves others to do. -/
theorem passes_of_execute {instruction : Instruction}
    (hexecute : ∀ state rest, state.pending = instruction :: rest →
      state.packets.locked = false → state.board.slaveCount.toNat ≤ kMaxSlaveCount →
        ∃ next left, step parse build .execute state = some next ∧
          next.pending = left ++ rest ∧ Passes parse build left ∧
          next.packets.locked = false ∧ (state.packets.Ready → next.packets.Ready) ∧
          (instruction.notifies = true →
            next.packets.Ready ∨ left.any Instruction.notifies = true)) :
    Passes parse build [instruction] := by
  intro state rest hpending hunlocked hcount
  obtain ⟨next, left, hstep, hnext, hleft, hopen, hready, hnotifies⟩ :=
    hexecute state rest hpending hunlocked hcount
  have hslaves := (step_slaves hstep).1
  refine CanReach.trans (canReach_of_execute hstep rfl) ?_
  rintro _ rfl
  refine CanReach.trans (hleft next rest hnext hopen (hslaves ▸ hcount)) ?_
  rintro last ⟨hlast, hlastOpen, hlastSlaves, hlastReady⟩
  refine .refl ⟨hlast, hlastOpen, hlastSlaves.trans hslaves, fun hnotified => hlastReady ?_⟩
  rcases hnotified with hbefore | hone
  · exact .inl (hready hbefore)
  · exact hnotifies (by simpa using hone)

theorem passes_notify : Passes parse build [.notify] := by
  apply passes_of_execute
  intro state rest hpending hunlocked _
  have hnotified := Monitor.ready_notify hunlocked
  exact ⟨_, [], by unfold step execute; rw [hpending], rfl, passes_nil, hnotified.unlocked,
    fun _ => hnotified, fun _ => .inl hnotified⟩

theorem passes_increasePollingCount : Passes parse build [.increasePollingCount] := by
  apply passes_of_execute
  intro state rest hpending hunlocked _
  have hstep : step parse build .execute state = some { state with
      board := state.board.increasePollingCount, pending := rest } := by
    unfold step execute
    rw [hpending]
  exact ⟨_, [], hstep, rfl, passes_nil, hunlocked, id, fun hnotifies => by cases hnotifies⟩

/-- A push is possible when the writer does not have the mutex. -/
theorem step_push {packet : List UInt8} {notifies : Bool} {rest : List Instruction}
    (hpending : state.pending = .push packet notifies :: rest)
    (hunlocked : state.packets.locked = false) :
    step parse build .execute state = some { state with
      packets := { state.packets with
        queue := state.packets.queue ++ [packet]
        enqueued := state.packets.enqueued ++ [packet] }
      pending := if notifies then .notify :: rest else rest } := by
  unfold step execute
  rw [hpending]
  simp only
  rw [Monitor.enqueue_of_unlocked [packet] hunlocked]
  rfl

theorem passes_push (packet : List UInt8) (notifies : Bool) :
    Passes parse build [.push packet notifies] := by
  apply passes_of_execute
  intro state rest hpending hunlocked _
  have hstep : step parse build .execute state = _ := step_push hpending hunlocked
  cases notifies with
  | true => exact ⟨_, [.notify], hstep, rfl, passes_notify, hunlocked, id, fun _ => .inr rfl⟩
  | false =>
      exact ⟨_, [], hstep, rfl, passes_nil, hunlocked, id, fun hnotifies => by cases hnotifies⟩

theorem passes_polling : Passes parse build [.polling] := by
  apply passes_of_execute
  intro state rest hpending hunlocked _
  have hstep : step parse build .execute state = some { state with
      pending := .push pollingRequest true :: .increasePollingCount :: rest
      observed := state.observed ++
        [.polled state.now (GatewayManager.polling state.board).published] } := by
    unfold step execute
    rw [hpending]
    rfl
  exact ⟨_, [.push pollingRequest true, .increasePollingCount], hstep, rfl,
    (passes_push pollingRequest true).append passes_increasePollingCount, hunlocked, id,
    fun _ => .inr rfl⟩

theorem passes_pushes (frames : List (List UInt8)) :
    Passes parse build (frames.map (Instruction.push · false)) := by
  induction frames with
  | nil => exact passes_nil
  | cons frame frames ih => exact (passes_push frame false).append ih

theorem passes_requestTemperature : Passes parse build [.requestTemperature] := by
  apply passes_of_execute
  intro state rest hpending hunlocked hcount
  have hstep : step parse build .execute state = some { state with
      pending := (temperatureFrames state.board).map (Instruction.push · false) ++ rest } := by
    unfold step execute temperatureFrames
    rw [hpending]
    simp only
    rw [requestTemperature_eq hcount]
  exact ⟨_, _, hstep, rfl, passes_pushes _, hunlocked, id, fun hnotifies => by cases hnotifies⟩

/-- The main thread gets past everything but a call of `ListeningMaster`, which
may end with a fault. -/
theorem passes_of_notMem {front : List Instruction}
    (hlistening : Instruction.listeningMaster ∉ front) : Passes parse build front := by
  induction front with
  | nil => exact passes_nil
  | cons instruction front ih =>
      have hrest := ih fun hmem => hlistening (List.mem_cons_of_mem _ hmem)
      have hfirst : Passes parse build [instruction] := by
        cases instruction with
        | polling => exact passes_polling
        | push packet notifies => exact passes_push packet notifies
        | notify => exact passes_notify
        | increasePollingCount => exact passes_increasePollingCount
        | requestTemperature => exact passes_requestTemperature
        | listeningMaster => exact absurd List.mem_cons_self hlistening
      exact hfirst.append hrest

/-! ## Everything gets written -/

/-- The instructions push their packets before they listen to the board. -/
def PushesFirst (pending : List Instruction) : Prop :=
  ∃ front rest, pending = front ++ rest ∧ .listeningMaster ∉ front ∧
    ∀ instruction ∈ rest, instruction = .listeningMaster

theorem PushesFirst.cons {instruction : Instruction} {rest : List Instruction}
    (hrest : PushesFirst rest) (hfirst : instruction ≠ .listeningMaster) :
    PushesFirst (instruction :: rest) := by
  obtain ⟨front, back, rfl, hfront, hback⟩ := hrest
  refine ⟨instruction :: front, back, rfl, ?_, hback⟩
  intro hmem
  rcases List.mem_cons.mp hmem with hsame | hold
  · exact hfirst hsame.symm
  · exact hfront hold

theorem pushesFirst_tail {temperature : List (List UInt8)} {tail : List Instruction}
    (htail : Tail temperature tail) : PushesFirst tail := by
  have hlast : ∀ instruction ∈ [Instruction.listeningMaster], instruction = .listeningMaster :=
    fun _ => List.mem_singleton.mp
  cases htail with
  | requestTemperature => exact ⟨[.requestTemperature], [.listeningMaster], rfl, by simp, hlast⟩
  | pushes hframes => exact ⟨_, [.listeningMaster], rfl, by simp, hlast⟩

theorem pushesFirst_of_shaped {temperature : List (List UInt8)} {pending : List Instruction}
    (hshaped : Shaped temperature pending) : PushesFirst pending := by
  have hidle : PushesFirst [] :=
    ⟨[], [], rfl, by simp, fun _ hmem => (List.not_mem_nil hmem).elim⟩
  cases hshaped with
  | idle => exact hidle
  | message packet => exact hidle.cons (by simp)
  | notifyMessage => exact hidle.cons (by simp)
  | polling htail => exact (pushesFirst_tail htail).cons (by simp)
  | push htail => exact ((pushesFirst_tail htail).cons (by simp)).cons (by simp)
  | notifyPolling htail => exact ((pushesFirst_tail htail).cons (by simp)).cons (by simp)
  | increasePollingCount htail => exact (pushesFirst_tail htail).cons (by simp)
  | tail htail => exact pushesFirst_tail htail

/-- The writer waits for a notification, or is about to, and the main thread is not
going to give it one. -/
def Unattended (state : MainLoop) : Prop :=
  state.packets.Idle ∧ ∀ instruction ∈ state.pending, instruction.notifies = false

/-- The two threads by themselves can write all that is outstanding, unless the
writer is left waiting. -/
theorem canReach_drained (hcount : state.board.slaveCount.toNat ≤ kMaxSlaveCount)
    (hshaped : Shaped (temperatureFrames state.board) state.pending)
    (hattended : ¬ state.Unattended) :
    CanReach parse build state fun last => last.outstanding = [] := by
  obtain ⟨front, rest, hsplit, hfront, hback⟩ := pushesFirst_of_shaped hshaped
  obtain ⟨packets, hconsumes, hunlocked, hbusy⟩ := Monitor.exists_unlocked state.packets
  refine CanReach.trans (canReach_of_consumes hconsumes) ?_
  rintro unlocked ⟨rfl, hpending, hslaves⟩
  have hnotified : unlocked.packets.Ready ∨ front.any Instruction.notifies = true := by
    by_cases hidle : state.packets.Idle
    · right
      by_contra hnone
      refine hattended ⟨hidle, fun instruction hmem => ?_⟩
      rw [hsplit] at hmem
      rcases List.mem_append.mp hmem with hpushed | hlast
      · simp only [List.any_eq_true, not_exists, not_and, Bool.not_eq_true] at hnone
        exact hnone instruction hpushed
      · rw [hback instruction hlast]
        rfl
    · exact .inl (hbusy hidle)
  refine CanReach.trans (passes_of_notMem hfront unlocked rest (hpending.trans hsplit) hunlocked
    (hslaves ▸ hcount)) ?_
  rintro passed ⟨hpassed, _, _, hready⟩
  obtain ⟨packets, hdrain, hempty⟩ := Monitor.exists_empty (hready hnotified)
  refine CanReach.trans (canReach_of_consumes hdrain) ?_
  rintro last ⟨rfl, hlastPending, _⟩
  apply CanReach.refl
  unfold outstanding
  rw [hempty, hlastPending, hpassed, List.nil_append, List.flatMap_eq_nil_iff]
  intro instruction hmem
  rw [hback instruction hmem]
  rfl

/-- A writer that is left waiting writes nothing, and no step of the two threads
changes that. -/
theorem Unattended.proceeds (hunattended : state.Unattended)
    (hproceeds : Proceeds parse build state next) :
    next.Unattended ∧ next.written = state.written := by
  obtain ⟨hidle, hnone⟩ := hunattended
  obtain ⟨action, ⟨hinput, hwake⟩, hstep⟩ := hproceeds
  cases effect_of_step hstep with
  | onMessage => cases hinput
  | connected => cases hinput
  | reconnect => cases hinput
  | polling hpending =>
      have hnotifies := hnone .polling (by rw [hpending]; exact List.mem_cons_self)
      cases hnotifies
  | @push packet notifies rest packets hpending henqueue =>
      rw [hpending] at hnone
      have hnotifies : notifies = false := hnone _ List.mem_cons_self
      have hunlocked := Monitor.locked_of_enqueue (List.cons_ne_nil packet []) henqueue
      have hblocked : state.packets.phase = .blocked := by
        rcases hidle with hphase | ⟨hphase, _⟩
        · exact hphase
        · simp [Monitor.locked, hphase] at hunlocked
      rw [Monitor.enqueue_eq_some henqueue, hnotifies]
      exact ⟨⟨.inl hblocked, fun other hmem => hnone other (List.mem_cons_of_mem _ hmem)⟩, rfl⟩
  | notify hpending =>
      have hnotifies := hnone .notify (by rw [hpending]; exact List.mem_cons_self)
      cases hnotifies
  | increasePollingCount hpending =>
      rw [hpending] at hnone
      exact ⟨⟨hidle, fun other hmem => hnone other (List.mem_cons_of_mem _ hmem)⟩, rfl⟩
  | @requestTemperature rest frames hpending hframes =>
      rw [hpending] at hnone
      refine ⟨⟨hidle, fun other hmem => ?_⟩, rfl⟩
      rcases List.mem_append.mp hmem with hpush | hold
      · obtain ⟨packet, _, rfl⟩ := List.mem_map.mp hpush
        rfl
      · exact hnone other (List.mem_cons_of_mem _ hold)
  | listeningMaster hpending hlistened =>
      rw [hpending] at hnone
      exact ⟨⟨hidle, fun other hmem => hnone other (List.mem_cons_of_mem _ hmem)⟩,
        (listeningMaster_readsOnly hlistened).written⟩
  | @writePacket writerStep packets hconsume =>
      have hnotified : writerStep = .wake → state.packets.phase = .notified :=
        fun hstep => hwake (hstep ▸ rfl)
      have hover : state.system.handedOver writerStep = [] := by
        change (if writerStep = .handle then state.packets.inHand else []) = []
        rw [Monitor.inHand_of_idle hidle, ite_self]
      rw [hover]
      exact ⟨⟨hidle.consumes hnotified hconsume, hnone⟩, rfl⟩

theorem Unattended.written_of_proceeds (hunattended : state.Unattended)
    (hreach : Relation.ReflTransGen (Proceeds parse build) state last) :
    last.Unattended ∧ last.written = state.written := by
  induction hreach with
  | refl => exact ⟨hunattended, rfl⟩
  | tail _ hproceeds ih =>
      obtain ⟨hnext, hsame⟩ := ih.1.proceeds hproceeds
      exact ⟨hnext, hsame.trans ih.2⟩

/-- From every state that the gateway gets to, the two threads can go on by
themselves until all packets called for are written, in the order in which they
were called for, unless packets are outstanding and the writer is left waiting
with no notification to come; then they cannot. -/
theorem all_written {board : MasterBoard}
    (hcount : board.slaveCount.toNat ≤ kMaxSlaveCount)
    (hrun : run (step parse build) actions (start board) = some state) :
    (CanReach parse build state fun last =>
      last.written = board.serialPort.written ++
        requests parse (temperatureFrames board) {} (actions.filter Action.isInput)) ↔
    ¬ (state.Unattended ∧ state.outstanding ≠ []) := by
  have hslaves := (slaves_of_run hrun).1
  have hflow := flow_of_run hrun
  rw [requests_filter, ← hflow]
  constructor
  · rintro ⟨last, hreach, hwritten⟩ ⟨hunattended, houtstanding⟩
    rw [(hunattended.written_of_proceeds hreach).2] at hwritten
    exact houtstanding (List.self_eq_append_right.mp hwritten)
  · intro hstate
    have hdrained : CanReach parse build state fun last => last.outstanding = [] := by
      by_cases houtstanding : state.outstanding = []
      · exact .refl houtstanding
      · exact canReach_drained (hslaves ▸ hcount) (shaped_of_run hrun)
          fun hunattended => hstate ⟨hunattended, houtstanding⟩
    obtain ⟨last, hreach, hnone⟩ := hdrained
    have hlast := flow_of_proceeds hreach
    rw [hnone, List.append_nil] at hlast
    exact ⟨last, hreach, hlast⟩

theorem all_written_round :
    ∃ state, run (step (fun _ => .ok none) .release) roundActions
        (start ((boardReceiving []).setSlaveCount 1)) = some state ∧
      state.written = [pollingRequest] ∧
      CanReach (fun _ => .ok none) .release state fun last =>
        last.written = requests (fun _ => .ok none)
          (temperatureFrames ((boardReceiving []).setSlaveCount 1)) {}
          (roundActions.filter Action.isInput) := by
  have hresult : (run (step (fun _ => .ok none) .release) roundActions
      (start ((boardReceiving []).setSlaveCount 1))).map
        (fun state => (state.written, state.packets.phase)) =
      some ([pollingRequest], .away) := by
    decide +kernel
  obtain ⟨state, hrun, hstate⟩ := Option.map_eq_some_iff.mp hresult
  obtain ⟨hwritten, haway⟩ := Prod.mk.inj hstate
  refine ⟨state, hrun, hwritten, (all_written (by decide) hrun).mpr ?_⟩
  rintro ⟨⟨hblocked | ⟨hchecking, _⟩, _⟩, _⟩
  · rw [haway] at hblocked
    cases hblocked
  · rw [haway] at hchecking
    cases hchecking

end MainLoop

end IotGateway
