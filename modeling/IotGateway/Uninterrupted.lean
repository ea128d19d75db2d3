import IotGateway.PacketFlow

/-!
# Uninterrupted calls

In the model `System` a call of the main thread is one step.  Its runs are also
runs of the main loop, in which the writer does not come in before a call has
ended.
-/

namespace IotGateway

open Faults GatewayManager MqttManager Runs WaitQueue

/-- The call that an instruction begins. -/
def Instruction.call? (build : Build) : Instruction → Option Action
  | .polling => some .polling
  | .requestTemperature => some .requestTemperature
  | .listeningMaster => some (.listeningMaster build)
  | .push _ _ | .notify | .increasePollingCount => none

/-- What one of the threads does without an interruption. -/
inductive Block where
  | onMessage (message : Message)
  | connected (now : Int64)
  | writePacket (step : ConsumerStep)

namespace Block

def calls (build : Build) (timers : Timers) : Block → List Action
  | .onMessage message => [.onMessage message]
  | .connected now => (iterate now timers).1.calls.filterMap (Instruction.call? build)
  | .writePacket step => [.writePacket step]

def timers (timers : Timers) : Block → Timers
  | .connected now => (iterate now timers).2
  | .onMessage _ | .writePacket _ => timers

/-- The steps of `System` in a list of blocks. -/
def allCalls (build : Build) : Timers → List Block → List Action
  | _, [] => []
  | timers, block :: blocks =>
      block.calls build timers ++ allCalls build (block.timers timers) blocks

/-- The message, the round or the step of the writer that a block begins with. -/
def begin_ : Block → MainLoop.Action
  | .onMessage message => .onMessage message
  | .connected now => .connected now
  | .writePacket step => .writePacket step

end Block

namespace MainLoop

variable {parse : Parser} {build : Build}
  {state next last : MainLoop} {reached : System}

/-- The main thread executes instructions, and the clock is not read. -/
def Executes (parse : Parser) (build : Build) (state next : MainLoop) : Prop :=
  (∃ count, run (step parse build) (List.replicate count .execute) state = some next) ∧
    next.timers = state.timers

theorem Executes.refl (state : MainLoop) : Executes parse build state state :=
  ⟨⟨0, rfl⟩, rfl⟩

theorem Executes.trans (hfirst : Executes parse build state next)
    (hsecond : Executes parse build next last) : Executes parse build state last := by
  obtain ⟨⟨first, hfirstRun⟩, hfirstTimers⟩ := hfirst
  obtain ⟨⟨second, hsecondRun⟩, hsecondTimers⟩ := hsecond
  refine ⟨⟨first + second, ?_⟩, hsecondTimers.trans hfirstTimers⟩
  rw [List.replicate_add, run_append, hfirstRun]
  exact hsecondRun

theorem executes_of_step (hstep : step parse build .execute state = some next)
    (htimers : next.timers = state.timers) : Executes parse build state next := by
  refine ⟨⟨1, ?_⟩, htimers⟩
  change step parse build .execute state >>= run _ [] = _
  rw [hstep]
  rfl

/-! ## One call -/

theorem executes_push {packet : List UInt8} {notifies : Bool} {rest : List Instruction}
    {packets : Monitor (List UInt8)} (hpending : state.pending = .push packet notifies :: rest)
    (henqueue : state.packets.enqueue [packet] = some packets) :
    Executes parse build state { state with
      packets := packets, pending := if notifies then .notify :: rest else rest } := by
  refine executes_of_step ?_ rfl
  unfold step execute
  rw [hpending]
  simp only
  rw [henqueue]
  rfl

theorem executes_notify {rest : List Instruction} (hpending : state.pending = .notify :: rest) :
    Executes parse build state { state with
      packets := state.packets.notify, pending := rest } := by
  refine executes_of_step ?_ rfl
  unfold step execute
  rw [hpending]

/-- A push with its notification. -/
theorem executes_pushAndNotify {packet : List UInt8} {rest : List Instruction}
    {packets : Monitor (List UInt8)} (hpending : state.pending = .push packet true :: rest)
    (henqueue : state.packets.enqueue [packet] = some packets) :
    Executes parse build state { state with packets := packets.notify, pending := rest } :=
  (executes_push hpending henqueue).trans (executes_notify rfl)

theorem executes_polling {rest : List Instruction} {packets : Monitor (List UInt8)}
    (hpending : state.pending = .polling :: rest)
    (henqueue : state.packets.enqueue [pollingRequest] = some packets) :
    ∃ next, Executes parse build state next ∧ next.pending = rest ∧
      next.system = ⟨.running, state.board.increasePollingCount, packets.notify⟩ := by
  have hpoll : step parse build .execute state = some { state with
      pending := .push pollingRequest true :: .increasePollingCount :: rest
      observed := state.observed ++
        [.polled state.now (GatewayManager.polling state.board).published] } := by
    unfold step execute
    rw [hpending]
    rfl
  have hpush : Executes parse build _ _ :=
    (executes_of_step hpoll rfl).trans (executes_pushAndNotify rfl henqueue)
  have hincrease : step parse build .execute { state with
      packets := packets.notify
      pending := .increasePollingCount :: rest
      observed := state.observed ++
        [.polled state.now (GatewayManager.polling state.board).published] } =
      some { state with
        board := state.board.increasePollingCount
        packets := packets.notify
        pending := rest
        observed := state.observed ++
          [.polled state.now (GatewayManager.polling state.board).published] } := rfl
  exact ⟨_, hpush.trans (executes_of_step hincrease rfl), rfl, rfl⟩

/-- Packets that are pushed one by one are in the queue like packets that are
pushed together. -/
theorem executes_pushes {frames : List (List UInt8)} {rest : List Instruction}
    {packets : Monitor (List UInt8)}
    (hpending : state.pending = frames.map (.push · false) ++ rest)
    (henqueue : state.packets.enqueue frames = some packets) :
    Executes parse build state { state with packets := packets, pending := rest } := by
  induction frames generalizing state with
  | nil =>
      have hsame := Monitor.enqueue_eq_some henqueue
      simp only [List.append_nil] at hsame
      rw [hsame, show rest = state.pending from hpending.symm]
      exact .refl state
  | cons frame frames ih =>
      have hunlocked := Monitor.locked_of_enqueue (List.cons_ne_nil _ _) henqueue
      have hfirst : Executes parse build state _ :=
        executes_push hpending (Monitor.enqueue_of_unlocked [frame] hunlocked)
      refine hfirst.trans (ih rfl ?_)
      rw [Monitor.enqueue_of_unlocked (frame :: frames) hunlocked] at henqueue
      have hmiddle : ({ state.packets with
          queue := state.packets.queue ++ [frame]
          enqueued := state.packets.enqueued ++ [frame] } : Monitor _).locked = false := hunlocked
      refine (Monitor.enqueue_of_unlocked frames hmiddle).trans ?_
      rw [← henqueue]
      simp

theorem executes_requestTemperature {rest : List Instruction} {frames : List (List UInt8)}
    {packets : Monitor (List UInt8)} (hpending : state.pending = .requestTemperature :: rest)
    (hframes : GatewayManager.requestTemperature state.board = .ok frames)
    (henqueue : state.packets.enqueue frames = some packets) :
    Executes parse build state { state with packets := packets, pending := rest } := by
  have hrequest : step parse build .execute state = some { state with
      pending := frames.map (Instruction.push · false) ++ rest } := by
    unfold step execute
    rw [hpending]
    simp only
    rw [hframes]
  exact (executes_of_step hrequest rfl).trans (executes_pushes rfl henqueue)

/-- A call that is one step of `System` ends in the same state when it is
executed without an interruption. -/
theorem executes_call {instruction : Instruction} {action : IotGateway.Action}
    {rest : List Instruction} (hcall : instruction.call? build = some action)
    (hpending : state.pending = instruction :: rest)
    (hstep : System.step parse action state.system = some reached) :
    ∃ next, Executes parse build state next ∧ next.pending = rest ∧ next.system = reached := by
  cases instruction with
  | polling =>
      cases hcall
      obtain ⟨packets, henqueue, rfl⟩ := System.pushAndNotify_eq_some hstep
      exact executes_polling hpending henqueue
  | requestTemperature =>
      cases hcall
      unfold System.step MainLoop.system at hstep
      simp only at hstep
      split at hstep
      next => cases hstep
      next frames hframes =>
        obtain ⟨packets, henqueue, hresult⟩ := Option.bind_eq_some_iff.mp hstep
        cases hresult
        exact ⟨_, executes_requestTemperature hpending hframes henqueue, rfl, rfl⟩
  | listeningMaster =>
      cases hcall
      unfold System.step MainLoop.system at hstep
      simp only at hstep
      split at hstep
      next => cases hstep
      next listened hlistened =>
        cases hstep
        have hlisten : step parse build .execute state = some { state with
            board := listened.board
            pending := rest
            observed := state.observed ++
              [.listened state.now (receivePacket state.board.serialPort).1
                (received state.board) listened.published] } := by
          unfold step execute
          rw [hpending]
          simp only
          rw [hlistened]
        exact ⟨_, executes_of_step hlisten rfl, rfl, rfl⟩
  | push packet notifies => cases hcall
  | notify => cases hcall
  | increasePollingCount => cases hcall

theorem executes_calls {instructions : List Instruction}
    (hcalls : ∀ instruction ∈ instructions, ∃ action, instruction.call? build = some action)
    (hpending : state.pending = instructions)
    (hrun : run (System.step parse) (instructions.filterMap (Instruction.call? build))
      state.system = some reached) :
    ∃ next, Executes parse build state next ∧ next.pending = [] ∧ next.system = reached := by
  induction instructions generalizing state with
  | nil =>
      cases hrun
      exact ⟨state, .refl state, hpending, rfl⟩
  | cons instruction instructions ih =>
      obtain ⟨action, hcall⟩ := hcalls instruction List.mem_cons_self
      rw [List.filterMap_cons_some hcall] at hrun
      obtain ⟨middle, hstep, hrest⟩ := Option.bind_eq_some_iff.mp hrun
      obtain ⟨next, hfirst, hnext, rfl⟩ := executes_call hcall hpending hstep
      obtain ⟨last, hsecond, hlast, hsystem⟩ :=
        ih (fun other hmem => hcalls other (List.mem_cons_of_mem _ hmem)) hnext hrest
      exact ⟨last, hfirst.trans hsecond, hlast, hsystem⟩

theorem call?_of_mem_calls (build : Build) {iteration : Iteration} {instruction : Instruction}
    (hmem : instruction ∈ iteration.calls) : ∃ action, instruction.call? build = some action := by
  have hcases : instruction = .polling ∨ instruction = .requestTemperature ∨
      instruction = .listeningMaster := by
    unfold Iteration.calls at hmem
    cases hpolling : iteration.polling <;> cases hrequest : iteration.requestTemperature <;>
      simp [hpolling, hrequest] at hmem <;> tauto
  rcases hcases with rfl | rfl | rfl
  · exact ⟨_, rfl⟩
  · exact ⟨_, rfl⟩
  · exact ⟨_, rfl⟩

/-! ## Blocks -/

theorem run_block {block : Block} (hidle : state.pending = [])
    (hrun : run (System.step parse) (block.calls build state.timers) state.system =
      some reached) :
    ∃ count last, run (step parse build) (block.begin_ :: List.replicate count .execute) state =
        some last ∧
      last.pending = [] ∧ last.system = reached ∧ last.timers = block.timers state.timers := by
  cases block with
  | onMessage message =>
      obtain ⟨middle, hstep, hlast⟩ := Option.bind_eq_some_iff.mp hrun
      cases hlast
      unfold System.step MainLoop.system at hstep
      simp only at hstep
      split at hstep
      next => cases hstep
      next packet hpacket =>
        obtain ⟨packets, henqueue, rfl⟩ := System.pushAndNotify_eq_some hstep
        have hbegin : step parse build (.onMessage message) state =
            some { state with pending := [.push packet true] } := by
          unfold step
          simp only
          rw [hidle, hpacket]
        have hpush : Executes parse build { state with pending := [.push packet true] } _ :=
          executes_pushAndNotify rfl henqueue
        obtain ⟨⟨count, hexecute⟩, htimers⟩ := hpush
        refine ⟨count, _, ?_, rfl, rfl, htimers⟩
        change step parse build (.onMessage message) state >>= run _ _ = _
        rw [hbegin]
        exact hexecute
  | connected now =>
      have hbegin : step parse build (.connected now) state = some { state with
          timers := (iterate now state.timers).2
          now := now
          pending := (iterate now state.timers).1.calls } := by
        unfold step
        rw [hidle]
      obtain ⟨last, ⟨⟨count, hexecute⟩, htimers⟩, hpending, hsystem⟩ :=
        @executes_calls parse build { state with
          timers := (iterate now state.timers).2
          now := now
          pending := (iterate now state.timers).1.calls } reached _
          (fun _ hmem => call?_of_mem_calls build hmem) rfl hrun
      refine ⟨count, last, ?_, hpending, hsystem, htimers⟩
      change step parse build (.connected now) state >>= run _ _ = _
      rw [hbegin]
      exact hexecute
  | writePacket writerStep =>
      obtain ⟨middle, hstep, hlast⟩ := Option.bind_eq_some_iff.mp hrun
      cases hlast
      have hwrite : state.system.writePacket writerStep = some reached := hstep
      obtain ⟨packets, hconsume, hresult⟩ := Option.bind_eq_some_iff.mp hwrite
      cases hresult
      have hbegin : step parse build (.writePacket writerStep) state = some { state with
          board := (state.system.handedOver writerStep).foldl
            (fun board frame => board.write frame) state.board
          packets := packets } := by
        unfold step
        simp only
        rw [hwrite]
        rfl
      refine ⟨0, { state with
        board := (state.system.handedOver writerStep).foldl
          (fun board frame => board.write frame) state.board
        packets := packets }, ?_, hidle, rfl, rfl⟩
      change step parse build (.writePacket writerStep) state >>= run _ [] = _
      rw [hbegin]
      rfl

/-- Whether the action may begin a block. -/
def Action.begins : Action → Bool
  | .execute => false
  | _ => true

/-- Every run of `System` whose calls are those of the rounds of the loop is a
run of the main loop, in which the same messages, rounds and steps of the writer
follow each other. -/
theorem system_run_uninterrupted {blocks : List Block} (hidle : state.pending = [])
    (hrun : run (System.step parse) (Block.allCalls build state.timers blocks) state.system =
      some reached) :
    ∃ actions last, run (step parse build) actions state = some last ∧
      last.system = reached ∧ last.pending = [] ∧
      actions.filter Action.begins = blocks.map Block.begin_ := by
  induction blocks generalizing state with
  | nil =>
      cases hrun
      exact ⟨[], state, rfl, rfl, hidle, rfl⟩
  | cons block blocks ih =>
      unfold Block.allCalls at hrun
      rw [run_append] at hrun
      obtain ⟨middle, hfirst, hrest⟩ := Option.bind_eq_some_iff.mp hrun
      obtain ⟨count, next, hblock, hnext, rfl, htimers⟩ := run_block hidle hfirst
      rw [← htimers] at hrest
      obtain ⟨actions, last, hactions, hsystem, hlast, hbegin⟩ := ih hnext hrest
      refine ⟨(block.begin_ :: List.replicate count .execute) ++ actions, last, ?_, hsystem,
        hlast, ?_⟩
      · rw [run_append, hblock]
        exact hactions
      · have hnone : (List.replicate count Action.execute).filter Action.begins = [] := by
          simp [Action.begins]
        have hkeep : block.begin_.begins = true := by
          cases block <;> rfl
        rw [List.cons_append, List.filter_cons_of_pos hkeep, List.filter_append, hnone, hbegin]
        rfl

theorem system_run_uninterrupted_round :
    ∃ reached actions last,
      run (System.step fun _ => .ok none)
        [.writePacket .lock, .writePacket .check, .polling, .requestTemperature,
          .listeningMaster .release, .writePacket .wake]
        (System.started ((boardReceiving []).setSlaveCount 2)) = some reached ∧
      run (step (fun _ => .ok none) .release) actions
        (start ((boardReceiving []).setSlaveCount 2)) = some last ∧ last.system = reached ∧
      last.packets.queue = pollingRequest :: List.replicate 2 (temperatureRequest 0) ∧
      actions.filter Action.begins =
        [.writePacket .lock, .writePacket .check, .connected 20000, .writePacket .wake] := by
  have hresult : (run (System.step fun _ => .ok none)
      [.writePacket .lock, .writePacket .check, .polling, .requestTemperature,
        .listeningMaster .release, .writePacket .wake]
      (System.started ((boardReceiving []).setSlaveCount 2))).map
        (fun reached => reached.packets.queue) =
      some (pollingRequest :: List.replicate 2 (temperatureRequest 0)) := by
    decide +kernel
  obtain ⟨reached, hrun, hqueue⟩ := Option.map_eq_some_iff.mp hresult
  obtain ⟨actions, last, hactions, rfl, _, hbegins⟩ :=
    @system_run_uninterrupted (fun _ => .ok none) .release
      (start ((boardReceiving []).setSlaveCount 2)) reached
      [.writePacket .lock, .writePacket .check, .connected 20000, .writePacket .wake] rfl hrun
  exact ⟨last.system, actions, last, hrun, hactions, rfl, hqueue, hbegins⟩

end MainLoop

end IotGateway
