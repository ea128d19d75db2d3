import IotGateway.Library.Deletions
import IotGateway.PacketLog

/-!
# What the log tells

Although the threads create their rows at any time after what they have done,
the rows of each direction, with those still to come, give back what happened.
-/

namespace IotGateway

open Deletions GatewayManager MqttManager Runs WaitQueue

namespace LoggedLoop

variable {parse : Parser} {print : Payload → List UInt8} {build : Build}
  {action : Action} {actions : List Action} {state next last : LoggedLoop} {board : MasterBoard}

/-! ## The rows of a direction -/

section Directions

variable {direction : String} {logs : List PacketLog}

theorem ofDirection_append (direction : String) (first second : List PacketLog) :
    ofDirection direction (first ++ second) =
      ofDirection direction first ++ ofDirection direction second := List.filter_append ..

theorem ofDirection_eq_self (hlogs : ∀ log ∈ logs, log.direction = direction) :
    ofDirection direction logs = logs := by
  apply List.filter_eq_self.mpr
  intro log hmem
  exact decide_eq_true (hlogs log hmem)

theorem ofDirection_eq_nil (hlogs : ∀ log ∈ logs, log.direction ≠ direction) :
    ofDirection direction logs = [] := by
  apply List.filter_eq_nil_iff.mpr
  intro log hmem
  simpa using hlogs log hmem

theorem makePacketLogs_direction {message : Message} {log : PacketLog}
    (hmem : log ∈ makePacketLogs parse message) : log.direction = "MQTT_TO_GATEWAY" := by
  unfold makePacketLogs at hmem
  split at hmem
  next => cases hmem
  next =>
    split at hmem
    next => cases hmem
    next =>
      split at hmem
      · rw [List.mem_singleton.mp hmem]
      · cases hmem

theorem failLogs_direction {observation : Observation} {log : PacketLog}
    (hmem : log ∈ observation.failLogs) : log.direction = "MASTER_TO_GATEWAY" := by
  unfold Observation.failLogs at hmem
  split at hmem
  next => cases hmem
  next => cases hmem
  next =>
    split at hmem
    · split at hmem
      · rw [List.mem_singleton.mp hmem]
        rfl
      · cases hmem
    · cases hmem

theorem publishTopicLogs_direction {published : List Publication} {log : PacketLog}
    (hmem : log ∈ published.map (publishTopicLog print)) :
    log.direction = "GATEWAY_TO_MQTT" := by
  obtain ⟨publication, _, rfl⟩ := List.mem_map.mp hmem
  rfl

theorem ofDirection_failLogs (observed : List Observation) :
    ofDirection "MASTER_TO_GATEWAY" (observed.flatMap (Observation.logs print)) =
      observed.flatMap Observation.failLogs := by
  unfold ofDirection
  rw [List.filter_flatMap]
  congr 1
  funext observation
  change ofDirection _ (observation.failLogs ++ _) = _
  rw [ofDirection_append, ofDirection_eq_self fun log hmem => failLogs_direction hmem,
    ofDirection_eq_nil, List.append_nil]
  intro log hmem
  rw [publishTopicLogs_direction hmem]
  decide

theorem ofDirection_publishTopicLogs (observed : List Observation) :
    ofDirection "GATEWAY_TO_MQTT" (observed.flatMap (Observation.logs print)) =
      (observed.flatMap Observation.published).map (publishTopicLog print) := by
  unfold ofDirection
  rw [List.filter_flatMap, List.map_flatMap]
  congr 1
  funext observation
  change ofDirection _ (observation.failLogs ++ _) = _
  rw [ofDirection_append, ofDirection_eq_self fun log hmem => publishTopicLogs_direction hmem,
    ofDirection_eq_nil, List.nil_append]
  intro log hmem
  rw [failLogs_direction hmem]
  decide

theorem logs_direction {observed : List Observation} {log : PacketLog}
    (hmem : log ∈ observed.flatMap (Observation.logs print)) :
    log.direction = "MASTER_TO_GATEWAY" ∨ log.direction = "GATEWAY_TO_MQTT" := by
  obtain ⟨observation, _, hlog⟩ := List.mem_flatMap.mp hmem
  rcases List.mem_append.mp hlog with hfail | hpublished
  · exact .inl (failLogs_direction hfail)
  · exact .inr (publishTopicLogs_direction hpublished)

end Directions

/-! ## The account of a run -/

/-- The main thread is about to push the packet of a message, or to notify the
writer of it. -/
def handlesMessage : List Instruction → Bool
  | [.push _ true] | [.notify] => true
  | _ => false

@[simp] theorem handlesMessage_nil : handlesMessage [] = false := rfl

@[simp] theorem handlesMessage_push (packet : List UInt8) :
    handlesMessage [.push packet true] = true := rfl

/-- The row of a message that is still to come. -/
def unlogged (state : LoggedLoop) : List PacketLog :=
  if handlesMessage state.loop.pending then [receiveMessageLog state.received] else []

def mainRows (direction : String) (state : LoggedLoop) : List PacketLog :=
  ofDirection direction (state.table ++ state.mainLogs)

def writerRows (state : LoggedLoop) : List PacketLog :=
  ofDirection "GATEWAY_TO_MASTER" state.table ++ state.writerLogs

/-- The rows that a message calls for. -/
def Action.messageLogs (parse : Parser) : Action → List PacketLog
  | .step (.onMessage message) =>
      makePacketLogs parse message ++
        match MqttManager.onMessage parse message with
        | .ok packet => [receiveMessageLog packet]
        | .error _ => []
  | _ => []

/-- The row of a connection that is lost. -/
def disconnectLog (print : Payload → List UInt8) : PacketLog :=
  ⟨"GATEWAY_TO_MQTT", literal "dis/1", print (.text "disconnect")⟩

def Action.isDisconnect : Action → Bool
  | .onDisconnect => true
  | .step _ | .createMainLog | .createWriterLog => false

/-- The rows of the table and those to come give back what has been done. -/
structure Accounted (parse : Parser) (print : Payload → List UInt8)
    (board : MasterBoard) (actions : List Action) (state : LoggedLoop) : Prop where
  shaped : MainLoop.Shaped (temperatureFrames state.loop.board) state.loop.pending
  mainLogs : ∀ log ∈ state.mainLogs, log.direction ≠ "GATEWAY_TO_MASTER"
  writerLogs : ∀ log ∈ state.writerLogs, log.direction = "GATEWAY_TO_MASTER"
  written : state.loop.written =
    board.serialPort.written ++ state.writerRows.map PacketLog.rawPacket
  published : Thinned (· = disconnectLog print)
    ((state.loop.observed.flatMap Observation.published).map (publishTopicLog print))
    (state.mainRows "GATEWAY_TO_MQTT")
  disconnects : (state.mainRows "GATEWAY_TO_MQTT").length =
    (state.loop.observed.flatMap Observation.published).length +
      actions.countP Action.isDisconnect
  failures : state.mainRows "MASTER_TO_GATEWAY" =
    state.loop.observed.flatMap Observation.failLogs
  messages : state.mainRows "MQTT_TO_GATEWAY" ++ state.unlogged =
    actions.flatMap (Action.messageLogs parse)

theorem accounted_start : (start board).Accounted parse print board [] where
  shaped := .idle
  mainLogs := fun _ hmem => (List.not_mem_nil hmem).elim
  writerLogs := fun _ hmem => (List.not_mem_nil hmem).elim
  written := (List.append_nil _).symm
  published := .nil
  disconnects := rfl
  failures := rfl
  messages := rfl

theorem rawPacket_serialWriteLog (packet : List UInt8) :
    (serialWriteLog packet).rawPacket = packet := by
  unfold PacketLog.rawPacket
  change (Numerals.read 0 (Numerals.print (packet.map UInt8.toNat))).map UInt8.ofNat = packet
  rw [Numerals.read_print, List.map_map]
  conv_rhs => rw [← List.map_id packet]
  congr 1
  funext byte
  exact UInt8.ofNat_toNat

theorem mainRows_of_empty {direction : String} {logs : List PacketLog}
    (hlogs : state.mainLogs = []) :
    ofDirection direction (state.table ++ logs) =
      state.mainRows direction ++ ofDirection direction logs := by
  unfold mainRows
  rw [hlogs, List.append_nil, ofDirection_append]

theorem handlesMessage_tail {temperature : List (List UInt8)} {tail : List Instruction}
    (htail : MainLoop.Tail temperature tail) : handlesMessage tail = false := by
  cases htail with
  | requestTemperature => rfl
  | @pushes frames hframes =>
      cases frames with
      | nil => rfl
      | cons frame frames => rfl

theorem handlesMessage_calls (iteration : Iteration) :
    handlesMessage iteration.calls = false := by
  unfold Iteration.calls
  cases iteration.polling <;> cases iteration.requestTemperature <;> rfl

/-! ### Steps of the loop -/

section Loop

variable {loop loop' : MainLoop} {act : MainLoop.Action}

theorem written_of_main (haction : ∀ writerStep, act ≠ .writePacket writerStep)
    (hstep : loop.step parse build act = some loop') : loop'.written = loop.written := by
  cases MainLoop.effect_of_step hstep with
  | listeningMaster hpending hlistened => exact (listeningMaster_readsOnly hlistened).written
  | writePacket hconsume => exact absurd rfl (haction _)
  | _ => rfl

theorem written_of_writer {writerStep : ConsumerStep}
    (hstep : loop.step parse build (.writePacket writerStep) = some loop') :
    loop'.written = loop.written ++ loop.system.handedOver writerStep ∧
      loop'.pending = loop.pending ∧ loop'.observed = loop.observed := by
  cases MainLoop.effect_of_step hstep with
  | writePacket hconsume => exact ⟨System.foldl_write_written _ _, rfl, rfl⟩

theorem observed_of_step (hstep : loop.step parse build act = some loop') :
    (∃ observed, loop'.observed = loop.observed ++ observed) ∧
      (act ≠ .execute → loop'.observed = loop.observed) := by
  cases MainLoop.effect_of_step hstep with
  | polling hpending => exact ⟨⟨_, rfl⟩, fun hother => absurd rfl hother⟩
  | listeningMaster hpending hlistened => exact ⟨⟨_, rfl⟩, fun hother => absurd rfl hother⟩
  | _ => exact ⟨⟨[], (List.append_nil _).symm⟩, fun _ => rfl⟩

/-- An instruction ends the handling of a message only if it notifies the writer
and is the last one. -/
theorem handlesMessage_of_execute
    (hshaped : MainLoop.Shaped (temperatureFrames loop.board) loop.pending)
    (hstep : loop.step parse build .execute = some loop') :
    if loop.pending = [.notify] then handlesMessage loop'.pending = false
    else handlesMessage loop'.pending = handlesMessage loop.pending := by
  cases MainLoop.effect_of_step hstep with
  | polling hpending =>
      rw [hpending, if_neg (by simp)]
      rfl
  | @push packet notifies rest packets hpending henqueue =>
      rw [hpending] at hshaped ⊢
      rw [if_neg (by simp)]
      cases notifies with
      | true => cases rest <;> rfl
      | false => exact handlesMessage_tail hshaped.of_push_false
  | notify hpending =>
      rw [hpending] at hshaped ⊢
      rcases hshaped.of_notify with hrest | ⟨tail, hrest, htail⟩
      · rw [hrest, if_pos rfl]
        rfl
      · rw [hrest, if_neg (by simp)]
        rfl
  | increasePollingCount hpending =>
      rw [hpending] at hshaped ⊢
      rw [if_neg (by simp)]
      exact handlesMessage_tail hshaped.of_increasePollingCount
  | @requestTemperature rest frames hpending hframes =>
      rw [hpending] at hshaped ⊢
      rw [if_neg (by simp), hshaped.of_requestTemperature]
      cases frames <;> rfl
  | listeningMaster hpending hlistened =>
      rw [hpending] at hshaped ⊢
      rw [if_neg (by simp), hshaped.of_listeningMaster]
      rfl

end Loop

/-! ### Steps of the logged loop -/

theorem logsOf_directions {act : MainLoop.Action} {loop : MainLoop} {log : PacketLog}
    (hmem : log ∈ logsOf parse print act state loop) :
    log.direction ≠ "GATEWAY_TO_MASTER" := by
  cases act with
  | onMessage message =>
      rw [makePacketLogs_direction hmem]
      decide
  | execute =>
      rcases List.mem_append.mp hmem with hobserved | hmessage
      · rcases logs_direction hobserved with hdirection | hdirection
        · rw [hdirection]
          decide
        · rw [hdirection]
          decide
      · split at hmessage
        · rw [List.mem_singleton.mp hmessage]
          change "MQTT_TO_GATEWAY" ≠ "GATEWAY_TO_MASTER"
          decide
        · cases hmessage
  | connected now => cases hmem
  | reconnect => cases hmem
  | writePacket writerStep => cases hmem

/-- A direction of the rows of an instruction. -/
theorem ofDirection_execute {loop : MainLoop} {observed : List Observation}
    (hobserved : loop.observed = state.loop.observed ++ observed) (direction : String) :
    ofDirection direction (logsOf parse print .execute state loop) =
      ofDirection direction (observed.flatMap (Observation.logs print)) ++
        ofDirection direction
          (if state.loop.pending = [.notify] then [receiveMessageLog state.received] else []) := by
  unfold logsOf
  simp only
  rw [hobserved, List.drop_left, ofDirection_append]

theorem ofDirection_message_of_ne {direction : String} (condition : Prop) [Decidable condition]
    (packet : List UInt8) (hdirection : direction ≠ "MQTT_TO_GATEWAY") :
    ofDirection direction (if condition then [receiveMessageLog packet] else []) = [] := by
  apply ofDirection_eq_nil
  intro log hmem
  split at hmem
  · rw [List.mem_singleton.mp hmem]
    exact hdirection.symm
  · cases hmem

theorem Accounted.execute {loop : MainLoop} (haccounted : state.Accounted parse print board actions)
    (hlogs : state.mainLogs = [])
    (hstep : state.loop.step parse build .execute = some loop) :
    Accounted parse print board (actions ++ [.step .execute])
      { state with
        loop := loop
        received := receivedBy parse .execute state.received
        mainLogs := logsOf parse print .execute state loop } := by
  obtain ⟨observed, hobserved⟩ := (observed_of_step hstep).1
  have hhandles := handlesMessage_of_execute haccounted.shaped hstep
  have hrows : mainRows "GATEWAY_TO_MQTT" { state with
      loop := loop
      received := receivedBy parse .execute state.received
      mainLogs := logsOf parse print .execute state loop } =
        state.mainRows "GATEWAY_TO_MQTT" ++
          (observed.flatMap Observation.published).map (publishTopicLog print) := by
    refine (mainRows_of_empty hlogs).trans ?_
    rw [ofDirection_execute hobserved, ofDirection_publishTopicLogs,
      ofDirection_message_of_ne _ _ (by decide), List.append_nil]
  constructor
  case shaped => exact MainLoop.step_shaped haccounted.shaped hstep
  case mainLogs =>
    intro log hmem
    have hlog : log ∈ logsOf parse print .execute state loop := hmem
    exact logsOf_directions hlog
  case writerLogs => exact haccounted.writerLogs
  case written => exact (written_of_main (by simp) hstep).trans haccounted.written
  case published =>
    change Thinned _ ((loop.observed.flatMap _).map _) _
    rw [hobserved, List.flatMap_append, List.map_append, hrows]
    exact haccounted.published.append (.refl _)
  case disconnects =>
    change _ = (loop.observed.flatMap _).length + _
    rw [hobserved, List.flatMap_append, List.length_append, hrows, List.length_append,
      haccounted.disconnects, List.length_map, List.countP_append]
    exact Nat.add_right_comm _ _ _
  case failures =>
    refine (mainRows_of_empty hlogs).trans ?_
    rw [haccounted.failures, ofDirection_execute hobserved, ofDirection_failLogs,
      ofDirection_message_of_ne _ _ (by decide), List.append_nil]
    change _ = loop.observed.flatMap _
    rw [hobserved, List.flatMap_append]
  case messages =>
    have hnone :
        ofDirection "MQTT_TO_GATEWAY" (observed.flatMap (Observation.logs print)) = [] := by
      apply ofDirection_eq_nil
      intro log hmem
      rcases logs_direction hmem with hdirection | hdirection
      · rw [hdirection]
        decide
      · rw [hdirection]
        decide
    rw [List.flatMap_append, ← haccounted.messages]
    refine (congrArg (· ++ _) (mainRows_of_empty hlogs)).trans ?_
    rw [ofDirection_execute hobserved, hnone, List.nil_append, List.append_assoc,
      List.append_assoc]
    congr 1
    change _ = state.unlogged ++ []
    unfold unlogged
    split at hhandles
    next hnotify =>
      rw [if_pos hnotify, hhandles, hnotify]
      rfl
    next hnotify =>
      rw [if_neg hnotify, hhandles]
      exact (List.append_nil _).symm

/-- A step of the main thread that is not an instruction. -/
theorem Accounted.input {act : MainLoop.Action} {loop : MainLoop}
    (haccounted : state.Accounted parse print board actions) (hlogs : state.mainLogs = [])
    (hexecute : act ≠ .execute) (haction : ∀ writerStep, act ≠ .writePacket writerStep)
    (hstep : state.loop.step parse build act = some loop) :
    Accounted parse print board (actions ++ [.step act])
      { state with
        loop := loop
        received := receivedBy parse act state.received
        mainLogs := logsOf parse print act state loop } := by
  have hobserved := (observed_of_step hstep).2 hexecute
  have hmessages : ∀ log ∈ logsOf parse print act state loop,
      log.direction = "MQTT_TO_GATEWAY" := by
    intro log hmem
    cases act with
    | onMessage message => exact makePacketLogs_direction hmem
    | execute => exact absurd rfl hexecute
    | connected now => cases hmem
    | reconnect => cases hmem
    | writePacket writerStep => cases hmem
  have hother : ∀ direction, direction ≠ "MQTT_TO_GATEWAY" →
      ofDirection direction (logsOf parse print act state loop) = [] := by
    intro direction hdirection
    apply ofDirection_eq_nil
    intro log hmem
    rw [hmessages log hmem]
    exact hdirection.symm
  have hrows : mainRows "GATEWAY_TO_MQTT" { state with
      loop := loop
      received := receivedBy parse act state.received
      mainLogs := logsOf parse print act state loop } = state.mainRows "GATEWAY_TO_MQTT" := by
    refine (mainRows_of_empty hlogs).trans ?_
    rw [hother _ (by decide), List.append_nil]
  constructor
  case shaped => exact MainLoop.step_shaped haccounted.shaped hstep
  case mainLogs =>
    intro log hmem
    have hlog : log ∈ logsOf parse print act state loop := hmem
    exact logsOf_directions hlog
  case writerLogs => exact haccounted.writerLogs
  case written => exact (written_of_main haction hstep).trans haccounted.written
  case published =>
    change Thinned _ ((loop.observed.flatMap _).map _) _
    rw [hobserved, hrows]
    exact haccounted.published
  case disconnects =>
    change _ = (loop.observed.flatMap _).length + _
    rw [hobserved, hrows, haccounted.disconnects, List.countP_append]
    rfl
  case failures =>
    refine (mainRows_of_empty hlogs).trans ?_
    rw [haccounted.failures, hother _ (by decide), List.append_nil]
    change _ = loop.observed.flatMap _
    rw [hobserved]
  case messages =>
    rw [List.flatMap_append, ← haccounted.messages]
    refine (congrArg (· ++ _) (mainRows_of_empty hlogs)).trans ?_
    rw [ofDirection_eq_self hmessages, List.append_assoc, List.append_assoc]
    congr 1
    cases MainLoop.effect_of_step hstep with
    | @onMessage message packet hidle hpacket =>
        simp [unlogged, hidle, Action.messageLogs, receivedBy, hpacket, logsOf]
    | connected hidle =>
        simp [unlogged, handlesMessage_calls, hidle, Action.messageLogs, logsOf]
    | reconnect hidle => simp [unlogged, Action.messageLogs, logsOf, receivedBy]
    | writePacket hconsume => exact absurd rfl (haction _)
    | _ => exact absurd rfl hexecute

theorem Accounted.writer {writerStep : ConsumerStep} {loop : MainLoop}
    (haccounted : state.Accounted parse print board actions) (hlogs : state.writerLogs = [])
    (hstep : state.loop.step parse build (.writePacket writerStep) = some loop) :
    Accounted parse print board (actions ++ [.step (.writePacket writerStep)])
      { state with
        loop := loop
        writerLogs := (state.loop.system.handedOver writerStep).map serialWriteLog } := by
  obtain ⟨hwritten, hpending, hobserved⟩ := written_of_writer hstep
  constructor
  case shaped => exact MainLoop.step_shaped haccounted.shaped hstep
  case mainLogs => exact haccounted.mainLogs
  case writerLogs =>
    intro log hmem
    obtain ⟨packet, _, rfl⟩ := List.mem_map.mp hmem
    rfl
  case written =>
    have hread : (state.loop.system.handedOver writerStep).map
        (PacketLog.rawPacket ∘ serialWriteLog) = state.loop.system.handedOver writerStep := by
      rw [show PacketLog.rawPacket ∘ serialWriteLog = id from funext rawPacket_serialWriteLog]
      exact List.map_id _
    have hbefore := haccounted.written
    unfold writerRows at hbefore ⊢
    rw [hlogs, List.append_nil] at hbefore
    simp only
    rw [hwritten, hbefore, List.map_append, List.map_map, hread, List.append_assoc]
  case published =>
    change Thinned _ ((loop.observed.flatMap _).map _) _
    rw [hobserved]
    exact haccounted.published
  case disconnects =>
    change _ = (loop.observed.flatMap _).length + _
    rw [hobserved, List.countP_append]
    exact haccounted.disconnects
  case failures =>
    refine haccounted.failures.trans ?_
    change _ = loop.observed.flatMap _
    rw [hobserved]
  case messages =>
    have hsame := haccounted.messages
    unfold unlogged at hsame ⊢
    simp only
    rw [hpending, List.flatMap_append, ← hsame]
    exact (List.append_nil _).symm

/-- The connection is lost: one row more of what is published. -/
theorem Accounted.onDisconnect (haccounted : state.Accounted parse print board actions)
    (hlogs : state.mainLogs = []) :
    Accounted parse print board (actions ++ [.onDisconnect])
      { state with mainLogs := MqttManager.onDisconnect.map (publishTopicLog print) } := by
  have hlog : MqttManager.onDisconnect.map (publishTopicLog print) = [disconnectLog print] := rfl
  rw [hlog]
  have hother : ∀ direction, direction ≠ "GATEWAY_TO_MQTT" →
      mainRows direction { state with mainLogs := [disconnectLog print] } =
        state.mainRows direction := by
    intro direction hdirection
    refine (mainRows_of_empty hlogs).trans ?_
    rw [ofDirection_eq_nil, List.append_nil]
    intro log hmem
    rw [List.mem_singleton.mp hmem]
    exact hdirection.symm
  have hrows : mainRows "GATEWAY_TO_MQTT" { state with mainLogs := [disconnectLog print] } =
      state.mainRows "GATEWAY_TO_MQTT" ++ [disconnectLog print] := mainRows_of_empty hlogs
  constructor
  case shaped => exact haccounted.shaped
  case mainLogs =>
    intro log hmem
    have hsame : log = disconnectLog print := List.mem_singleton.mp hmem
    rw [hsame]
    change "GATEWAY_TO_MQTT" ≠ "GATEWAY_TO_MASTER"
    decide
  case writerLogs => exact haccounted.writerLogs
  case written => exact haccounted.written
  case published =>
    have hlast : Thinned (· = disconnectLog print) [] [disconnectLog print] :=
      .of_forall fun log hmem => List.mem_singleton.mp hmem
    have hall := haccounted.published.append hlast
    rw [List.append_nil, ← hrows] at hall
    exact hall
  case disconnects =>
    rw [hrows, List.length_append, haccounted.disconnects, List.countP_append]
    rfl
  case failures => exact (hother _ (by decide)).trans haccounted.failures
  case messages =>
    rw [hother _ (by decide), List.flatMap_append, ← haccounted.messages]
    exact (List.append_nil _).symm

theorem Accounted.createMainLog {log : PacketLog} {logs : List PacketLog}
    (haccounted : state.Accounted parse print board actions)
    (hlogs : state.mainLogs = log :: logs) :
    Accounted parse print board (actions ++ [.createMainLog])
      { state with mainLogs := logs, table := state.table ++ [log] } := by
  have hrows : ∀ direction,
      mainRows direction { state with mainLogs := logs, table := state.table ++ [log] } =
        state.mainRows direction := by
    intro direction
    unfold mainRows
    rw [hlogs, List.append_assoc, List.singleton_append]
  have hlog := haccounted.mainLogs log (hlogs ▸ List.mem_cons_self)
  constructor
  case shaped => exact haccounted.shaped
  case mainLogs =>
    intro other hmem
    exact haccounted.mainLogs other (hlogs ▸ List.mem_cons_of_mem log hmem)
  case writerLogs => exact haccounted.writerLogs
  case written =>
    refine haccounted.written.trans ?_
    unfold writerRows
    simp only
    have hnone : ofDirection "GATEWAY_TO_MASTER" [log] = [] := by
      apply ofDirection_eq_nil
      intro other hmem
      rw [List.mem_singleton.mp hmem]
      exact hlog
    rw [ofDirection_append, hnone, List.append_nil]
  case published =>
    rw [hrows]
    exact haccounted.published
  case disconnects =>
    rw [hrows, haccounted.disconnects, List.countP_append]
    rfl
  case failures => exact (hrows _).trans haccounted.failures
  case messages =>
    rw [hrows, List.flatMap_append, ← haccounted.messages]
    exact (List.append_nil _).symm

theorem Accounted.createWriterLog {log : PacketLog} {logs : List PacketLog}
    (haccounted : state.Accounted parse print board actions)
    (hlogs : state.writerLogs = log :: logs) :
    Accounted parse print board (actions ++ [.createWriterLog])
      { state with writerLogs := logs, table := state.table ++ [log] } := by
  have hlog := haccounted.writerLogs log (hlogs ▸ List.mem_cons_self)
  have hrows : ∀ direction, direction ≠ "GATEWAY_TO_MASTER" →
      mainRows direction { state with writerLogs := logs, table := state.table ++ [log] } =
        state.mainRows direction := by
    intro direction hdirection
    have hnone : ofDirection direction [log] = [] := by
      apply ofDirection_eq_nil
      intro other hmem
      rw [List.mem_singleton.mp hmem, hlog]
      exact hdirection.symm
    unfold mainRows
    simp only [ofDirection_append, hnone, List.append_nil]
  constructor
  case shaped => exact haccounted.shaped
  case mainLogs => exact haccounted.mainLogs
  case writerLogs =>
    intro other hmem
    exact haccounted.writerLogs other (hlogs ▸ List.mem_cons_of_mem log hmem)
  case written =>
    refine haccounted.written.trans ?_
    have hself : ofDirection "GATEWAY_TO_MASTER" [log] = [log] := by
      apply ofDirection_eq_self
      intro other hmem
      rw [List.mem_singleton.mp hmem]
      exact hlog
    unfold writerRows
    simp only [hlogs, ofDirection_append, hself, List.append_assoc, List.singleton_append]
  case published =>
    rw [hrows _ (by decide)]
    exact haccounted.published
  case disconnects =>
    rw [hrows _ (by decide), haccounted.disconnects, List.countP_append]
    rfl
  case failures => exact (hrows _ (by decide)).trans haccounted.failures
  case messages =>
    rw [hrows _ (by decide), List.flatMap_append, ← haccounted.messages]
    exact (List.append_nil _).symm

theorem Accounted.step (haccounted : state.Accounted parse print board actions)
    (hstep : LoggedLoop.step parse print build action state = some next) :
    next.Accounted parse print board (actions ++ [action]) := by
  cases effect_of_step hstep with
  | @main act loop haction hlogs hloop =>
      by_cases hexecute : act = .execute
      · subst hexecute
        exact haccounted.execute hlogs hloop
      · exact haccounted.input hlogs hexecute haction hloop
  | writer hlogs hloop => exact haccounted.writer hlogs hloop
  | onDisconnect hidle hlogs => exact haccounted.onDisconnect hlogs
  | createMainLog hlogs => exact haccounted.createMainLog hlogs
  | createWriterLog hlogs => exact haccounted.createWriterLog hlogs

theorem accounted_of_run
    (hrun : run (LoggedLoop.step parse print build) actions (start board) = some last) :
    last.Accounted parse print board actions := by
  induction actions using List.reverseRecOn generalizing last with
  | nil =>
      cases hrun
      exact accounted_start
  | append_singleton actions action ih =>
      obtain ⟨state, hbefore, hlast⟩ := exists_of_run_concat hrun
      exact (ih hbefore).step hlast

/-- In whatever order the threads create their rows, these rows and those still
to come tell what has been written to the board, what has been published, which
frames could not be received, and which messages there were.  Among the rows of
what has been published, there is one for each connection that was lost. -/
theorem log_accounts
    (hrun : run (LoggedLoop.step parse print build) actions (start board) = some last) :
    last.loop.written =
        board.serialPort.written ++ last.writerRows.map PacketLog.rawPacket ∧
      Thinned (· = disconnectLog print)
        ((last.loop.observed.flatMap Observation.published).map (publishTopicLog print))
        (last.mainRows "GATEWAY_TO_MQTT") ∧
      (last.mainRows "GATEWAY_TO_MQTT").length =
        (last.loop.observed.flatMap Observation.published).length +
          actions.countP Action.isDisconnect ∧
      last.mainRows "MASTER_TO_GATEWAY" = last.loop.observed.flatMap Observation.failLogs ∧
      last.mainRows "MQTT_TO_GATEWAY" ++ last.unlogged =
        actions.flatMap (Action.messageLogs parse) := by
  have haccounted : last.Accounted parse print board actions := accounted_of_run hrun
  exact ⟨haccounted.written, haccounted.published, haccounted.disconnects, haccounted.failures,
    haccounted.messages⟩

/-! ## Where the written packets come from -/

theorem mem_calls {iteration : Iteration} {instruction : Instruction}
    (hmem : instruction ∈ iteration.calls) :
    instruction = .polling ∨ instruction = .requestTemperature ∨
      instruction = .listeningMaster := by
  unfold Iteration.calls at hmem
  cases hpolling : iteration.polling <;> cases htemperature : iteration.requestTemperature <;>
    simp [hpolling, htemperature] at hmem <;> tauto

theorem mem_requests {temperature : List (List UInt8)} {timers : Timers}
    {acts : List MainLoop.Action} {packet : List UInt8}
    (hmem : packet ∈ MainLoop.requests parse temperature timers acts) :
    packet = pollingRequest ∨ packet ∈ temperature ∨
      ∃ message, .onMessage message ∈ acts ∧ MqttManager.onMessage parse message = .ok packet := by
  induction acts generalizing timers with
  | nil => cases hmem
  | cons act acts ih =>
      have hlater : ∀ timers, packet ∈ MainLoop.requests parse temperature timers acts →
          packet = pollingRequest ∨ packet ∈ temperature ∨
            ∃ message, .onMessage message ∈ act :: acts ∧
              MqttManager.onMessage parse message = .ok packet := by
        intro timers hrest
        rcases ih hrest with hpolling | htemperature | ⟨message, hmessage, hpacket⟩
        · exact .inl hpolling
        · exact .inr (.inl htemperature)
        · exact .inr (.inr ⟨message, List.mem_cons_of_mem _ hmessage, hpacket⟩)
      cases act with
      | onMessage message =>
          unfold MainLoop.requests at hmem
          split at hmem
          next other hpacket =>
            rcases List.mem_cons.mp hmem with hsame | hrest
            · exact .inr (.inr ⟨message, List.mem_cons_self, hsame ▸ hpacket⟩)
            · exact hlater timers hrest
          next => exact hlater timers hmem
      | connected now =>
          unfold MainLoop.requests at hmem
          rcases List.mem_append.mp hmem with hround | hrest
          · obtain ⟨instruction, hcall, hframe⟩ := List.mem_flatMap.mp hround
            rcases mem_calls hcall with rfl | rfl | rfl
            · exact .inl (List.mem_singleton.mp hframe)
            · exact .inr (.inl hframe)
            · cases hframe
          · exact hlater _ hrest
      | _ => exact hlater timers hmem

/-- Each packet that the table says was written is a poll, the temperature
request for a slave of the board, or the packet of a message, whose row is in
the table or is the next of the main thread. -/
theorem writes_explained {log : PacketLog}
    (hrun : run (LoggedLoop.step parse print build) actions (start board) = some last)
    (hlog : log ∈ last.writerRows) :
    log.rawPacket = pollingRequest ∨ log.rawPacket ∈ temperatureFrames board ∨
      receiveMessageLog log.rawPacket ∈ last.mainRows "MQTT_TO_GATEWAY" ++ last.unlogged := by
  have haccounted : last.Accounted parse print board actions := accounted_of_run hrun
  have hflow := MainLoop.flow_of_run (run_loop hrun)
  rw [haccounted.written, List.append_assoc] at hflow
  have hrequests := List.append_cancel_left hflow
  have hmem : log.rawPacket ∈ MainLoop.requests parse (temperatureFrames board) {}
      (actions.filterMap Action.ofLoop) := by
    rw [← hrequests]
    exact List.mem_append_left _ (List.mem_map.mpr ⟨log, hlog, rfl⟩)
  rcases mem_requests hmem with hpolling | htemperature | ⟨message, hmessage, hpacket⟩
  · exact .inl hpolling
  · exact .inr (.inl htemperature)
  · refine .inr (.inr ?_)
    rw [haccounted.messages, List.mem_flatMap]
    obtain ⟨action, haction, hstep⟩ := List.mem_filterMap.mp hmessage
    refine ⟨action, haction, ?_⟩
    cases action with
    | step act =>
        cases hstep
        unfold Action.messageLogs
        simp [hpacket]
    | onDisconnect => cases hstep
    | createMainLog => cases hstep
    | createWriterLog => cases hstep

/-- A message whose packet is written, and logged as such, before the main thread
logs the message; a lost connection; and a message that describes no request. -/
def overtakenActions : List Action :=
  [.step (.onMessage ⟨literal "master/1/led", some (examplePayload (toString 193))⟩),
    .step .execute, .step (.writePacket .lock), .step (.writePacket .check),
    .step (.writePacket .handle), .createWriterLog, .step .execute, .createMainLog,
    .onDisconnect, .createMainLog, .step .reconnect,
    .step (.onMessage ⟨literal "master/1/led", some (literal "on")⟩), .createMainLog]

def overtakenRun : Option LoggedLoop :=
  run (LoggedLoop.step (exampleParse 193) Network.examplePrint .release) overtakenActions
    (start (boardReceiving []))

theorem log_accounts_overtaken :
    ∃ last, overtakenRun = some last ∧
      last.table.map PacketLog.eventName =
        [literal "SERIAL_WRITE", literal "RECEIVE_MSG", literal "dis/1",
          literal "master/1/led"] ∧
      last.loop.written = last.writerRows.map PacketLog.rawPacket ∧
      (last.mainRows "GATEWAY_TO_MQTT").length =
        (last.loop.observed.flatMap Observation.published).length + 1 ∧
      last.mainRows "MQTT_TO_GATEWAY" ++ last.unlogged =
        overtakenActions.flatMap (Action.messageLogs (exampleParse 193)) := by
  have hresult : overtakenRun.map (fun last => last.table.map PacketLog.eventName) =
      some [literal "SERIAL_WRITE", literal "RECEIVE_MSG", literal "dis/1",
        literal "master/1/led"] := by
    decide +kernel
  obtain ⟨last, hrun, hevents⟩ := Option.map_eq_some_iff.mp hresult
  have haccounts := log_accounts hrun
  exact ⟨last, hrun, hevents, haccounts.1, haccounts.2.2.1, haccounts.2.2.2.2⟩

theorem writes_explained_overtaken :
    ∃ last log, overtakenRun = some last ∧ log ∈ last.writerRows ∧
      (log.rawPacket = pollingRequest ∨
        log.rawPacket ∈ temperatureFrames (boardReceiving []) ∨
        receiveMessageLog log.rawPacket ∈ last.mainRows "MQTT_TO_GATEWAY" ++ last.unlogged) := by
  have hresult : overtakenRun.map (fun last => last.writerRows.map PacketLog.rawPacket) =
      some [[0x23, 0x21, 0x11, 0xc1, 0x02, 0x07, 0xd0, 0x01, 0x02, 0xf2, 0x0d]] := by
    decide +kernel
  obtain ⟨last, hrun, hrows⟩ := Option.map_eq_some_iff.mp hresult
  obtain ⟨log, rest, hlogs, _, _⟩ := List.map_eq_cons_iff.mp hrows
  have hlog : log ∈ last.writerRows := hlogs ▸ List.mem_cons_self
  exact ⟨last, log, hrun, hlog, writes_explained hrun hlog⟩

end LoggedLoop

end IotGateway
