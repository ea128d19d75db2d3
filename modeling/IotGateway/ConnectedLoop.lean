import IotGateway.MainLoop
import IotGateway.MessageDelivery

/-!
# The main loop and its connection

Between the rounds of the loop the main thread reads packets from the connection to
the broker, and `on_message` gets the messages among them.  A call that fails closes
the connection.  The next connection begins without anything of the last one.
-/

namespace IotGateway

open Mosquitto MqttManager Runs WaitQueue

namespace Mosquitto

def cmdConnack : UInt8 := 0x20

/-- What the handling of a packet returns, whether the client is active afterwards,
and the message for `on_message`. -/
structure Handled where
  code : ReturnCode
  active : Bool
  message : Option Publish

def handleConnack (packet : Packet) : ReturnCode :=
  if packet.command ≠ cmdConnack then .malformedPacket
  else
    match packet.payload with
    | _ :: reasonCode :: _ =>
        if reasonCode = 0 then .success
        else if reasonCode ≤ 5 then .connRefused
        else .protocol
    | _ => .malformedPacket

/-- The codes of the other packets and of the acknowledgements of messages come from
`handle`. -/
def handlePacket (handle : Bool → Packet → ReturnCode) (active : Bool) (packet : Packet) :
    Handled :=
  if packet.command &&& 0xF0 = cmdPublish then
    if ! active then ⟨.protocol, active, none⟩
    else
      match handlePublish packet with
      | .error code => ⟨code, active, none⟩
      | .ok publish =>
          if publish.qos = 0 then ⟨.success, active, some publish⟩
          else if publish.qos = 1 then ⟨handle active packet, active, some publish⟩
          else ⟨handle active packet, active, none⟩
  else if packet.command &&& 0xF0 = cmdConnack then
    let code := handleConnack packet
    ⟨code, active || code = .success, none⟩
  else ⟨handle active packet, active, none⟩

/-- The message as `on_message` gets it. -/
def Publish.message (publish : Publish) : Message :=
  ⟨publish.topic, if publish.payload = [] then none else some publish.payload⟩

variable {handle : Bool → Packet → ReturnCode} {active : Bool} {packet : Packet}

/-- A packet is handled without its message only if the handling fails. -/
theorem handlePacket_message (hqos : ∀ publish ∈ packet.publish?, publish.qos = 0) :
    (handlePacket handle active packet).message = packet.publish? ∨
      (handlePacket handle active packet).message = none ∧
        (handlePacket handle active packet).code ≠ .success := by
  unfold Packet.publish? at hqos ⊢
  unfold handlePacket
  by_cases hcommand : packet.command &&& 0xF0 = cmdPublish
  · simp only [if_pos hcommand] at hqos ⊢
    cases active with
    | false => exact .inr ⟨rfl, fun hcode => by cases hcode⟩
    | true =>
        generalize hhandled : handlePublish packet = result at hqos
        cases result with
        | ok publish =>
            have hzero : publish.qos = 0 := hqos publish rfl
            refine .inl ?_
            simp only [if_pos hzero]
            rfl
        | error code => exact .inl rfl
  · simp only [if_neg hcommand]
    refine .inl ?_
    split <;> rfl

/-- An active client hands over the message and goes on. -/
theorem handlePacket_publish {publish : Publish} (hpublish : packet.publish? = some publish)
    (hqos : publish.qos = 0) :
    handlePacket handle true packet = ⟨.success, true, some publish⟩ := by
  unfold Packet.publish? at hpublish
  unfold handlePacket
  split at hpublish
  next hcommand =>
    rw [if_pos hcommand]
    generalize handlePublish packet = result at hpublish
    cases result with
    | error code => cases hpublish
    | ok other =>
        cases hpublish
        simp only [if_pos hqos]
        rfl
  next => cases hpublish

theorem handlePacket_active : (handlePacket handle true packet).active = true := by
  unfold handlePacket
  split
  · rw [if_neg (by decide : ¬(!true) = true)]
    cases handlePublish packet with
    | error code => rfl
    | ok publish =>
        simp only
        split
        · rfl
        · split <;> rfl
  · split <;> rfl

end Mosquitto

/-- A connection that is open. -/
structure Connection where
  incoming : Incoming
  active : Bool

structure ConnectedLoop where
  connection : Option Connection
  mainLoop : MainLoop

namespace ConnectedLoop

/-- The arrivals of a new connection are what its reads will find.  There are none when
`reconnect()` fails. -/
inductive Action where
  | reconnect (arrivals : Option (List Arrival))
  | loopRead
  | connected (now : Int64)
  | execute
  | writePacket (step : ConsumerStep)
  deriving DecidableEq

def start (board : MasterBoard) : ConnectedLoop := ⟨none, .start board⟩

variable (parse : Parser) (build : Build)
  (handle : Bool → Packet → ReturnCode)

/-- A step of the threads of the main loop. -/
def perform (action : MainLoop.Action) (connection : Option Connection) (state : ConnectedLoop) :
    Option ConnectedLoop := do
  let mainLoop ← state.mainLoop.step parse build action
  return ⟨connection, mainLoop⟩

/-- A call of `packet__read` by an idle main thread. -/
def loopRead (state : ConnectedLoop) : Option ConnectedLoop :=
  match state.connection with
  | none => some state
  | some connection =>
      match packetRead connection.incoming with
      | .error (code, incoming) =>
          some { state with
            connection := if code = .success then some ⟨incoming, connection.active⟩ else none }
      | .ok (packet, incoming) =>
          let handled := handlePacket handle connection.active packet
          let next := if handled.code = .success then some ⟨incoming, handled.active⟩ else none
          match handled.message with
          | none => some { state with connection := next }
          | some publish => state.perform parse build (.onMessage publish.message) next

def step (action : Action) (state : ConnectedLoop) : Option ConnectedLoop :=
  match action with
  | .reconnect arrivals =>
      state.perform parse build .reconnect (arrivals.map fun arrivals => ⟨⟨{}, arrivals⟩, false⟩)
  | .loopRead =>
      match state.mainLoop.pending with
      | [] => state.loopRead parse build handle
      | _ => none
  | .connected now => state.perform parse build (.connected now) state.connection
  | .execute => state.perform parse build .execute state.connection
  | .writePacket step => state.perform parse build (.writePacket step) state.connection

/-! ## Calls of `packet__read` -/

/-- `packets` are still to come on the connection, apart from `missing` bytes that do not
arrive. -/
def Expects (connection : Connection) (packets : List Packet) (missing : List UInt8) : Prop :=
  Awaiting packets (received connection.incoming.arrivals ++ missing) connection.incoming.inPacket

/-- The connection behind a call. -/
def keep (code : ReturnCode) (connection : Connection) : Option Connection :=
  if code = .success then some connection else none

/-- What becomes of the message of a packet. -/
inductive Delivery (state next : ConnectedLoop) : Option Publish → Prop where
  | none (hsame : next.mainLoop = state.mainLoop) : Delivery state next none
  | some {publish : Publish}
      (hmessage : MainLoop.step parse build (.onMessage publish.message) state.mainLoop =
        some next.mainLoop) : Delivery state next (some publish)

/-- What a call does on an open connection. -/
inductive ReadEffect (connection : Connection) (missing : List UInt8)
    (state next : ConnectedLoop) : List Packet → Prop where
  | packet {packet : Packet} {packets : List Packet} {later : List Arrival}
      (hexpects : Expects ⟨⟨{}, later⟩, (handlePacket handle connection.active packet).active⟩
        packets missing)
      (hconnection : next.connection = keep (handlePacket handle connection.active packet).code
        ⟨⟨{}, later⟩, (handlePacket handle connection.active packet).active⟩)
      (hdelivery : Delivery parse build state next
        (handlePacket handle connection.active packet).message)
      (herrors : errors later = errors connection.incoming.arrivals) :
      ReadEffect connection missing state next (packet :: packets)
  | paused {packets : List Packet} {code : ReturnCode} {incoming : Incoming}
      (hexpects : Expects ⟨incoming, connection.active⟩ packets missing)
      (hconnection : next.connection = keep code ⟨incoming, connection.active⟩)
      (hsame : next.mainLoop = state.mainLoop)
      (hcause : missing = [] → packets ≠ [] → ∃ error,
        (code = headerCode error ∨ code = payloadCode error) ∧
          errors connection.incoming.arrivals = error :: errors incoming.arrivals) :
      ReadEffect connection missing state next packets

section Reading

variable {parse build handle} {state next last : ConnectedLoop} {connection : Connection}
  {packets : List Packet} {missing : List UInt8}

theorem mainLoop_of_perform {action : MainLoop.Action} {open_ : Option Connection}
    (hstep : perform parse build action open_ state = some next) :
    MainLoop.step parse build action state.mainLoop = some next.mainLoop ∧
      next.connection = open_ := by
  obtain ⟨mainLoop, hmain, hnext⟩ := Option.bind_eq_some_iff.mp hstep
  cases hnext
  exact ⟨hmain, rfl⟩

theorem readEffect_of_loopRead (hconnection : state.connection = some connection)
    (hexpects : Expects connection packets missing)
    (hread : loopRead parse build handle state = some next) :
    ReadEffect parse build handle connection missing state next packets := by
  unfold loopRead at hread
  rw [hconnection] at hread
  simp only at hread
  rcases packetRead_awaiting hexpects with
    ⟨packet, rest, later, rfl, hpacket, hrest, herrors⟩ | ⟨code, incoming, hpacket, hrest, hcause⟩
  · rw [hpacket] at hread
    simp only at hread
    generalize hmessage : (handlePacket handle connection.active packet).message = message at hread
    cases message with
    | none =>
        cases hread
        exact .packet hrest rfl (hmessage ▸ .none rfl) herrors
    | some publish =>
        obtain ⟨hmain, hnext⟩ := mainLoop_of_perform hread
        exact .packet hrest hnext (hmessage ▸ .some hmain) herrors
  · rw [hpacket] at hread
    cases hread
    exact .paused hrest rfl rfl hcause

end Reading

end ConnectedLoop

end IotGateway
