import IotGateway.Library.Numerals
import IotGateway.PacketFlow

/-!
# The log of the packets

Both threads add rows to a table of logs: what they write to the board, what
they publish, the messages and the frames that could not be received.  A thread
creates the rows of what it has done before it goes on, while the other thread
goes on.
-/

namespace IotGateway

open Faults GatewayManager MqttManager Runs WaitQueue

/-- A row of the table, without the number and the time that the database adds. -/
structure PacketLog where
  direction : String
  eventName : List UInt8
  packet : List UInt8
  deriving DecidableEq, Repr

def rawPacketToString (packet : List UInt8) : List UInt8 :=
  Numerals.print (packet.map UInt8.toNat)

def EReceiveErrorCode.code : EReceiveErrorCode → ℕ
  | .kSuccessReceive => 0
  | .kFailReceiveHeader => 1
  | .kFailOverMaxSlaveCount => 2
  | .kFailReceiveBodyData => 3
  | .kFailReceiveTail => 4

def serialWriteLog (packet : List UInt8) : PacketLog :=
  ⟨"GATEWAY_TO_MASTER", literal "SERIAL_WRITE", rawPacketToString packet⟩

def receiveFailLog (receiveFail : EReceiveErrorCode) : PacketLog :=
  ⟨"MASTER_TO_GATEWAY", literal "RECEIVE_FAIL",
    literal "CODE: " ++ Numerals.numeral receiveFail.code⟩

def receiveMessageLog (packet : List UInt8) : PacketLog :=
  ⟨"MQTT_TO_GATEWAY", literal "RECEIVE_MSG", rawPacketToString packet⟩

def publishTopicLog (print : Payload → List UInt8) (publication : Publication) : PacketLog :=
  ⟨"GATEWAY_TO_MQTT", literal publication.topic, print publication.payload⟩

/-- The row of `MakePacket`, for a message that does not describe a request. -/
def makePacketLogs (parse : Parser) (message : Message) : List PacketLog :=
  match message.payload with
  | none => []
  | some payload =>
      match parseMqttMessage parse (cString message.topic) (cString payload) with
      | .error _ => []
      | .ok (packet, parseFail) =>
          if parseFail ≠ .kSuccessParse then
            [⟨"MQTT_TO_GATEWAY", cString message.topic, rawPacketToString packet⟩]
          else []

/-- The row of `ListeningMaster` for a failure.  Nothing is logged when there was
no header to receive. -/
def Observation.failLogs : Observation → List PacketLog
  | .polled .. => []
  | .listened _ (.error _) _ _ => []
  | .listened _ (.ok (packet, receiveFail)) _ _ =>
      if receiveFail ≠ .kSuccessReceive ∨ packet.validChecksum = false then
        if receiveFail ≠ .kFailReceiveHeader then [receiveFailLog receiveFail] else []
      else []

def Observation.logs (print : Payload → List UInt8) (observation : Observation) :
    List PacketLog :=
  observation.failLogs ++ observation.published.map (publishTopicLog print)

/-- The packet that a row was made of. -/
def PacketLog.rawPacket (log : PacketLog) : List UInt8 :=
  (Numerals.read 0 log.packet).map UInt8.ofNat

def ofDirection (direction : String) (logs : List PacketLog) : List PacketLog :=
  logs.filter fun log => log.direction = direction

/-- The main loop with its table.  The logs of a thread are the rows that it has
to create before it goes on, and `received` is the packet that `on_message`
logs when it has notified the writer. -/
structure LoggedLoop where
  loop : MainLoop
  received : List UInt8
  mainLogs : List PacketLog
  writerLogs : List PacketLog
  table : List PacketLog

namespace LoggedLoop

/-- `loop()` also calls `on_disconnect`, when it loses the connection. -/
inductive Action where
  | step (action : MainLoop.Action)
  | onDisconnect
  | createMainLog
  | createWriterLog

def start (board : MasterBoard) : LoggedLoop := ⟨.start board, [], [], [], []⟩

variable (parse : Parser) (print : Payload → List UInt8) (build : Build)

/-- The packet of the message that the main thread handles. -/
def receivedBy (action : MainLoop.Action) (received : List UInt8) : List UInt8 :=
  match action with
  | .onMessage message =>
      match MqttManager.onMessage parse message with
      | .ok packet => packet
      | .error _ => received
  | _ => received

/-- The rows that the main thread has to create after a step. -/
def logsOf (action : MainLoop.Action) (state : LoggedLoop) (loop : MainLoop) :
    List PacketLog :=
  match action with
  | .onMessage message => makePacketLogs parse message
  | .execute =>
      (loop.observed.drop state.loop.observed.length).flatMap (Observation.logs print) ++
        if state.loop.pending = [.notify] then [receiveMessageLog state.received] else []
  | .connected _ | .reconnect | .writePacket _ => []

def step (action : Action) (state : LoggedLoop) : Option LoggedLoop :=
  match action with
  | .step (.writePacket writerStep) =>
      match state.writerLogs with
      | _ :: _ => none
      | [] => do
          let loop ← state.loop.step parse build (.writePacket writerStep)
          return { state with
            loop := loop
            writerLogs := (state.loop.system.handedOver writerStep).map serialWriteLog }
  | .step action =>
      match state.mainLogs with
      | _ :: _ => none
      | [] => do
          let loop ← state.loop.step parse build action
          return { state with
            loop := loop
            received := receivedBy parse action state.received
            mainLogs := logsOf parse print action state loop }
  | .onDisconnect =>
      match state.loop.pending, state.mainLogs with
      | [], [] => some { state with
          mainLogs := MqttManager.onDisconnect.map (publishTopicLog print) }
      | _, _ => none
  | .createMainLog =>
      match state.mainLogs with
      | [] => none
      | log :: logs => some { state with mainLogs := logs, table := state.table ++ [log] }
  | .createWriterLog =>
      match state.writerLogs with
      | [] => none
      | log :: logs => some { state with writerLogs := logs, table := state.table ++ [log] }

/-- What a step does. -/
inductive Effect (state : LoggedLoop) : Action → LoggedLoop → Prop where
  | main {action : MainLoop.Action} {loop : MainLoop}
      (haction : ∀ writerStep, action ≠ .writePacket writerStep) (hlogs : state.mainLogs = [])
      (hstep : state.loop.step parse build action = some loop) :
      Effect state (.step action)
        { state with
          loop := loop
          received := receivedBy parse action state.received
          mainLogs := logsOf parse print action state loop }
  | writer {writerStep : ConsumerStep} {loop : MainLoop} (hlogs : state.writerLogs = [])
      (hstep : state.loop.step parse build (.writePacket writerStep) = some loop) :
      Effect state (.step (.writePacket writerStep))
        { state with
          loop := loop
          writerLogs := (state.loop.system.handedOver writerStep).map serialWriteLog }
  | onDisconnect (hidle : state.loop.pending = []) (hlogs : state.mainLogs = []) :
      Effect state .onDisconnect
        { state with mainLogs := MqttManager.onDisconnect.map (publishTopicLog print) }
  | createMainLog {log : PacketLog} {logs : List PacketLog}
      (hlogs : state.mainLogs = log :: logs) :
      Effect state .createMainLog
        { state with mainLogs := logs, table := state.table ++ [log] }
  | createWriterLog {log : PacketLog} {logs : List PacketLog}
      (hlogs : state.writerLogs = log :: logs) :
      Effect state .createWriterLog
        { state with writerLogs := logs, table := state.table ++ [log] }

variable {parse print build} {action : Action} {actions : List Action}
  {state next last : LoggedLoop} {board : MasterBoard}

theorem effect_of_step (hstep : step parse print build action state = some next) :
    Effect parse print build state action next := by
  unfold step at hstep
  split at hstep
  next writerStep =>
    split at hstep
    next => cases hstep
    next hlogs =>
      obtain ⟨loop, hloop, hresult⟩ := Option.bind_eq_some_iff.mp hstep
      cases hresult
      exact .writer hlogs hloop
  next action haction =>
    split at hstep
    next => cases hstep
    next hlogs =>
      obtain ⟨loop, hloop, hresult⟩ := Option.bind_eq_some_iff.mp hstep
      cases hresult
      exact .main (fun writerStep hsame => haction writerStep hsame) hlogs hloop
  next =>
    split at hstep
    next hidle hlogs =>
      cases hstep
      exact .onDisconnect hidle hlogs
    next => cases hstep
  next =>
    split at hstep
    next => cases hstep
    next log logs hlogs =>
      cases hstep
      exact .createMainLog hlogs
  next =>
    split at hstep
    next => cases hstep
    next log logs hlogs =>
      cases hstep
      exact .createWriterLog hlogs

/-! ## The loop without its table -/

def Action.ofLoop : Action → Option MainLoop.Action
  | .step action => some action
  | .onDisconnect | .createMainLog | .createWriterLog => none

theorem run_loop (hrun : run (step parse print build) actions state = some last) :
    run (MainLoop.step parse build) (actions.filterMap Action.ofLoop) state.loop =
      some last.loop := by
  induction actions generalizing state with
  | nil =>
      cases hrun
      rfl
  | cons action actions ih =>
      obtain ⟨next, hfirst, hrest⟩ := Option.bind_eq_some_iff.mp hrun
      have hnext := ih hrest
      cases effect_of_step hfirst with
      | main haction hlogs hstep =>
          change MainLoop.step parse build _ state.loop >>= _ = some last.loop
          rw [hstep]
          exact hnext
      | writer hlogs hstep =>
          change MainLoop.step parse build _ state.loop >>= _ = some last.loop
          rw [hstep]
          exact hnext
      | onDisconnect hidle hlogs => exact hnext
      | createMainLog hlogs => exact hnext
      | createWriterLog hlogs => exact hnext

end LoggedLoop

end IotGateway
