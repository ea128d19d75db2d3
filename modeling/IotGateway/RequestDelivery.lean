import IotGateway.ConnectedLoop
import IotGateway.MessageText

/-!
# Delivery of requests

The broker sends the messages of clients on the connections of the gateway, as PUBLISH
packets between other packets.  Each connection hands over the first ones of its
requests, and the frames of these are written to the serial line.
-/

namespace IotGateway

open Mosquitto MqttManager Runs

namespace ConnectedLoop

/-! ## Requests -/

structure Request where
  topic : List UInt8
  pattern : List UInt8
  header : RequestHeader
  body : PacketBody

def Request.message (request : Request) : Message :=
  requestMessage request.topic request.pattern request.header request.body

def Request.input (request : Request) : MainLoop.Input :=
  .request request.topic request.pattern request.header request.body

def request? : MainLoop.Input → Option Request
  | .request topic pattern header body => some ⟨topic, pattern, header, body⟩
  | _ => none

def reading? : MainLoop.Input → Option Int64
  | .connected now => some now
  | _ => none

/-- The messages of the packets are the requests, each to be sent at most once. -/
structure Carries (packets : List Packet) (requests : List Request) : Prop where
  qos : ∀ publish ∈ packets.filterMap Packet.publish?, publish.qos = 0
  messages : (packets.filterMap Packet.publish?).map Publish.message =
    requests.map Request.message

variable (build : Build) (decimal : List UInt8 → Option ℚ) (stack : ℕ)

/-- The main loop gets from one state to another with these requests and the rounds at
these readings of the clock. -/
def Reaches (requests : List Request) (readings : List Int64) (first last : MainLoop) : Prop :=
  ∃ (actions : List MainLoop.Action) (inputs : List MainLoop.Input),
    run (MainLoop.step (Document.parse decimal (stack + 2)) build) actions first = some last ∧
    actions.filter MainLoop.Action.isInput = inputs.map MainLoop.Input.action ∧
    inputs.filterMap request? = requests ∧ inputs.filterMap reading? = readings

section Requests

variable {build decimal stack} {packet : Packet} {packets : List Packet}
  {requests others : List Request} {readings more : List Int64} {first middle last : MainLoop}

theorem Carries.of_none (hcarries : Carries (packet :: packets) requests)
    (hpublish : packet.publish? = none) : Carries packets requests := by
  obtain ⟨hqos, hmessages⟩ := hcarries
  rw [List.filterMap_cons_none hpublish] at hqos hmessages
  exact ⟨hqos, hmessages⟩

theorem Carries.of_some {publish : Publish} (hcarries : Carries (packet :: packets) requests)
    (hpublish : packet.publish? = some publish) :
    ∃ request rest, requests = request :: rest ∧ publish.qos = 0 ∧
      publish.message = request.message ∧ Carries packets rest := by
  obtain ⟨hqos, hmessages⟩ := hcarries
  rw [List.filterMap_cons_some hpublish] at hqos hmessages
  obtain ⟨hzero, hqos⟩ := List.forall_mem_cons.mp hqos
  cases requests with
  | nil => cases hmessages
  | cons request rest =>
      obtain ⟨hmessage, hmessages⟩ := List.cons.inj hmessages
      exact ⟨request, rest, rfl, hzero, hmessage, hqos, hmessages⟩

theorem Carries.qos_of_cons (hcarries : Carries (packet :: packets) requests) :
    ∀ publish ∈ packet.publish?, publish.qos = 0 := by
  intro publish hpublish
  obtain ⟨-, -, -, hzero, -⟩ := hcarries.of_some hpublish
  exact hzero

theorem Reaches.refl (first : MainLoop) : Reaches build decimal stack [] [] first first :=
  ⟨[], [], rfl, rfl, rfl, rfl⟩

theorem Reaches.trans (hfirst : Reaches build decimal stack requests readings first middle)
    (hlast : Reaches build decimal stack others more middle last) :
    Reaches build decimal stack (requests ++ others) (readings ++ more) first last := by
  obtain ⟨actions, inputs, hrun, hinputs, rfl, rfl⟩ := hfirst
  obtain ⟨actions', inputs', hrun', hinputs', rfl, rfl⟩ := hlast
  refine ⟨actions ++ actions', inputs ++ inputs', ?_, ?_, List.filterMap_append,
    List.filterMap_append⟩
  · rw [run_append, hrun]
    exact hrun'
  · rw [List.filter_append, hinputs, hinputs', List.map_append]

theorem reaches_of_step {action : MainLoop.Action} {inputs : List MainLoop.Input}
    (hstep : MainLoop.step (Document.parse decimal (stack + 2)) build action first = some last)
    (hinputs : [action].filter MainLoop.Action.isInput = inputs.map MainLoop.Input.action) :
    Reaches build decimal stack (inputs.filterMap request?) (inputs.filterMap reading?) first
      last :=
  ⟨[action], inputs, Option.bind_eq_some_iff.mpr ⟨last, hstep, rfl⟩, hinputs, rfl, rfl⟩

/-- The packets that are written are those that the requests and the rounds call for. -/
theorem Reaches.written (hreaches : Reaches build decimal stack requests readings first last) :
    ∃ inputs, inputs.filterMap request? = requests ∧ inputs.filterMap reading? = readings ∧
      last.written ++ last.outstanding = first.written ++ first.outstanding ++
        MainLoop.calledFor (temperatureFrames first.board) first.timers inputs := by
  obtain ⟨actions, inputs, hrun, hinputs, hrequests, hreadings⟩ := hreaches
  refine ⟨inputs, hrequests, hreadings, ?_⟩
  rw [MainLoop.run_flow hrun, ← MainLoop.requests_filter, hinputs, MainLoop.requests_action]

end Requests

/-! ## Runs -/

/-- The arrivals on the connection that the action opens. -/
def Action.opened? : Action → Option (List Arrival)
  | .reconnect arrivals => arrivals
  | _ => none

def Action.reading? : Action → Option Int64
  | .connected now => some now
  | _ => none

/-- The broker sends the requests on a connection.  The last bytes of them may be lost. -/
def Sends (arrivals : List Arrival) (requests : List Request) : Prop :=
  ∃ packets missing, Streams packets (received arrivals ++ missing) ∧ Carries packets requests

/-- The requests are still to come on the connection, if it is open. -/
def Awaits (connection : Option Connection) (requests : List Request) : Prop :=
  ∀ opened ∈ connection, ∃ packets missing, Expects opened packets missing ∧
    Carries packets requests

section Runs

variable {build decimal stack} {handle : Bool → Packet → ReturnCode}
  {state next last : ConnectedLoop} {action : Action}
  {actions : List Action} {requests : List Request} {streams : List (List Request)}

theorem eq_of_mem_keep {code : ReturnCode} {connection opened : Connection}
    (hmem : opened ∈ keep code connection) : opened = connection ∧ code = .success := by
  unfold keep at hmem
  split at hmem
  next hcode => exact ⟨(Option.mem_some.mp hmem).symm, hcode⟩
  next => cases hmem

/-- The message of a packet is that of the next request. -/
theorem Delivery.reaches {packet : Packet} {packets : List Packet}
    (hdelivery : Delivery (Document.parse decimal (stack + 2)) build state next packet.publish?)
    (hcarries : Carries (packet :: packets) requests) :
    ∃ taken left, requests = taken ++ left ∧
      Reaches build decimal stack taken [] state.mainLoop next.mainLoop ∧ Carries packets left := by
  generalize hpublish : packet.publish? = message at hdelivery
  cases hdelivery with
  | none hsame => exact ⟨[], requests, rfl, hsame ▸ .refl _, hcarries.of_none hpublish⟩
  | @some publish hmain =>
      obtain ⟨request, rest, rfl, -, hrequest, hrest⟩ := hcarries.of_some hpublish
      rw [hrequest] at hmain
      exact ⟨[request], rest, rfl, @reaches_of_step _ _ _ _ _ _ [request.input] hmain rfl, hrest⟩

theorem loopRead_reaches (hawaits : Awaits state.connection requests)
    (hread : loopRead (Document.parse decimal (stack + 2)) build handle state = some next) :
    ∃ taken left, requests = taken ++ left ∧
      Reaches build decimal stack taken [] state.mainLoop next.mainLoop ∧
      Awaits next.connection left := by
  cases hconnection : state.connection with
  | none =>
      unfold loopRead at hread
      rw [hconnection] at hread
      cases hread
      exact ⟨[], requests, rfl, .refl _, hawaits⟩
  | some connection =>
      obtain ⟨packets, missing, hexpects, hcarries⟩ := hawaits connection hconnection
      cases readEffect_of_loopRead hconnection hexpects hread with
      | paused hexpects hnext hsame _ =>
          refine ⟨[], requests, rfl, hsame ▸ .refl _, fun opened hmem => ?_⟩
          rw [hnext] at hmem
          obtain ⟨rfl, -⟩ := eq_of_mem_keep hmem
          exact ⟨packets, missing, hexpects, hcarries⟩
      | @packet packet packets later hleft hnext hdelivery _ =>
          rw [hnext]
          rcases handlePacket_message hcarries.qos_of_cons with hmessage | ⟨hmessage, hfailed⟩
          · rw [hmessage] at hdelivery
            obtain ⟨taken, left, hrequests, hreaches, hrest⟩ := hdelivery.reaches hcarries
            refine ⟨taken, left, hrequests, hreaches, fun opened hmem => ?_⟩
            obtain ⟨rfl, -⟩ := eq_of_mem_keep hmem
            exact ⟨packets, missing, hleft, hrest⟩
          · rw [hmessage] at hdelivery
            cases hdelivery with
            | none hsame =>
                refine ⟨[], requests, rfl, hsame ▸ .refl _, fun opened hmem => ?_⟩
                exact absurd (eq_of_mem_keep hmem).2 hfailed

theorem reaches_of_perform {action : MainLoop.Action} {inputs : List MainLoop.Input}
    {opened : Option Connection}
    (hstep : perform (Document.parse decimal (stack + 2)) build action opened state = some next)
    (hinputs : [action].filter MainLoop.Action.isInput = inputs.map MainLoop.Input.action) :
    Reaches build decimal stack (inputs.filterMap request?) (inputs.filterMap reading?)
        state.mainLoop next.mainLoop ∧
      next.connection = opened := by
  obtain ⟨hmain, hnext⟩ := mainLoop_of_perform hstep
  exact ⟨reaches_of_step hmain hinputs, hnext⟩

/-- A step that neither reads nor reconnects. -/
theorem step_reaches
    (hstep : step (Document.parse decimal (stack + 2)) build handle action state = some next)
    (hread : action ≠ .loopRead) (hopen : ∀ arrivals, action ≠ .reconnect arrivals) :
    Reaches build decimal stack [] action.reading?.toList state.mainLoop next.mainLoop ∧
      next.connection = state.connection := by
  cases action with
  | reconnect arrivals => exact absurd rfl (hopen arrivals)
  | loopRead => exact absurd rfl hread
  | connected now => exact @reaches_of_perform _ _ _ _ _ _ [.connected now] _ hstep rfl
  | execute => exact @reaches_of_perform _ _ _ _ _ _ [] _ hstep rfl
  | writePacket writerStep => exact @reaches_of_perform _ _ _ _ _ _ [] _ hstep rfl

theorem loopRead_of_step
    (hstep : step (Document.parse decimal (stack + 2)) build handle .loopRead state = some next) :
    loopRead (Document.parse decimal (stack + 2)) build handle state = some next := by
  unfold step at hstep
  simp only at hstep
  split at hstep
  next => exact hstep
  next => cases hstep

theorem filterMap_reading_cons (action : Action) (actions : List Action) :
    (action :: actions).filterMap Action.reading? =
      action.reading?.toList ++ actions.filterMap Action.reading? := by
  rw [← List.singleton_append, List.filterMap_append]
  congr 1

theorem awaits_none (requests : List Request) : Awaits none requests := fun _ hmem => by cases hmem

theorem Sends.awaits {arrivals : List Arrival} (hsends : Sends arrivals requests) :
    Awaits (some ⟨⟨{}, arrivals⟩, false⟩) requests := by
  obtain ⟨packets, missing, hstreams, hcarries⟩ := hsends
  rintro opened ⟨⟩
  exact ⟨packets, missing, hstreams.awaiting, hcarries⟩

/-- In every run the main loop gets first parts of what was sent on the connections. -/
theorem run_reaches
    (hrun : run (step (Document.parse decimal (stack + 2)) build handle) actions state = some last)
    (hawaits : Awaits state.connection requests)
    (hsends : List.Forall₂ Sends (actions.filterMap Action.opened?) streams) :
    ∃ taken delivered, taken <+: requests ∧ List.Forall₂ (· <+: ·) delivered streams ∧
      Reaches build decimal stack (taken ++ delivered.flatten) (actions.filterMap Action.reading?)
        state.mainLoop last.mainLoop := by
  induction actions generalizing state requests streams with
  | nil =>
      cases hrun
      cases hsends
      exact ⟨[], [], List.nil_prefix, .nil, .refl _⟩
  | cons action actions ih =>
      obtain ⟨next, hstep, hrest⟩ := Option.bind_eq_some_iff.mp hrun
      rw [filterMap_reading_cons]
      cases action with
      | reconnect arrivals =>
          obtain ⟨hreaches, hnext⟩ := @reaches_of_perform _ _ _ _ _ _ [.reconnect] _ hstep rfl
          cases arrivals with
          | none =>
              have hawaits : Awaits next.connection [] := hnext ▸ awaits_none []
              obtain ⟨taken, delivered, htaken, hdelivered, hlast⟩ := ih hrest hawaits hsends
              rw [List.prefix_nil.mp htaken] at hlast
              exact ⟨[], delivered, List.nil_prefix, hdelivered, hreaches.trans hlast⟩
          | some arrivals =>
              have hopened : (Action.reconnect (some arrivals)).opened? = some arrivals := rfl
              rw [List.filterMap_cons_some hopened] at hsends
              cases hsends with
              | @cons _ sent _ _ hsent hsends =>
                  have hawaits : Awaits next.connection sent := hnext.symm ▸ hsent.awaits
                  obtain ⟨taken, delivered, htaken, hdelivered, hlast⟩ := ih hrest hawaits hsends
                  exact ⟨[], taken :: delivered, List.nil_prefix, .cons htaken hdelivered,
                    hreaches.trans hlast⟩
      | loopRead =>
          obtain ⟨taken, left, rfl, hreaches, hleft⟩ :=
            loopRead_reaches hawaits (loopRead_of_step hstep)
          obtain ⟨more, delivered, hmore, hdelivered, hlast⟩ := ih hrest hleft hsends
          refine ⟨taken ++ more, delivered, (List.prefix_append_right_inj taken).mpr hmore,
            hdelivered, ?_⟩
          rw [List.append_assoc]
          exact hreaches.trans hlast
      | _ =>
          obtain ⟨hreaches, hnext⟩ :=
            step_reaches hstep Action.noConfusion fun _ => Action.noConfusion
          obtain ⟨taken, delivered, htaken, hdelivered, hlast⟩ := ih hrest (hnext ▸ hawaits) hsends
          exact ⟨taken, delivered, htaken, hdelivered, hreaches.trans hlast⟩

/-- Whatever happens on the connections and in whatever order the threads take turns,
each connection hands over the first ones of the requests that the broker sends on it, in
order and each once; and their frames are written, with the requests of the rounds
between them. -/
theorem requests_delivered {board : MasterBoard}
    (hrun : run (step (Document.parse decimal (stack + 2)) build handle) actions (start board) =
      some last)
    (hsends : List.Forall₂ Sends (actions.filterMap Action.opened?) streams) :
    ∃ delivered inputs, List.Forall₂ (· <+: ·) delivered streams ∧
      inputs.filterMap request? = delivered.flatten ∧
      inputs.filterMap reading? = actions.filterMap Action.reading? ∧
      last.mainLoop.written ++ last.mainLoop.outstanding =
        board.serialPort.written ++
          MainLoop.calledFor (temperatureFrames board) {} inputs := by
  obtain ⟨taken, delivered, htaken, hdelivered, hreaches⟩ :=
    run_reaches hrun (awaits_none []) hsends
  rw [List.prefix_nil.mp htaken] at hreaches
  obtain ⟨inputs, hrequests, hreadings, hwritten⟩ := hreaches.written
  refine ⟨delivered, inputs, hdelivered, hrequests, hreadings, hwritten.trans ?_⟩
  exact congrArg (· ++ _) (List.append_nil _)

def ledRequest : Request where
  topic := literal "master/1/led"
  pattern := literal "led"
  header := ⟨0x23, 0x21, 0x11, 0xc2, 0x04⟩
  body := ⟨0x0f, 0xac, [0x00, 0x01]⟩

def ledFrame : List UInt8 :=
  [0x23, 0x21, 0x11, 0xc2, 0x04, 0x0f, 0xac, 0x00, 0x01, 0xd7, 0x0d]

def ledPublish : Publish :=
  atMostOnce ledRequest.topic (messageText ledRequest.pattern ledRequest.header ledRequest.body)

def ledPacket : Packet := ⟨0x30, writeString ledPublish.topic ++ ledPublish.payload⟩

def connack : Packet := ⟨0x20, [0x00, 0x00]⟩

def ledBytes : List UInt8 :=
  [0x20, 0x02, 0x00, 0x00] ++
    0x30 :: (Base128.digitsOf 5 ledPacket.payload.length ++ ledPacket.payload)

theorem streams_ledBytes : Streams [connack, ledPacket] ledBytes := by
  have hconnack : Encodes connack [0x20, 0x02, 0x00, 0x00] :=
    @Encodes.packet connack [0x02] (by decide) (.last rfl) (by decide) rfl
  have hlt : ledPacket.payload.length < 128 ^ 5 := by decide +kernel
  obtain ⟨hdigits, hvalue⟩ := Base128.numeral_digitsOf hlt (by decide)
  have hpacket : Encodes ledPacket
      (0x30 :: (Base128.digitsOf 5 ledPacket.payload.length ++ ledPacket.payload)) :=
    @Encodes.packet ledPacket _ (by decide) hdigits (by decide +kernel) hvalue
  have hstreams := Streams.cons hconnack (.cons hpacket .nil)
  rwa [List.append_nil] at hstreams

theorem carries_ledPacket : Carries [ledPacket] [ledRequest] := by
  have hpublish : [ledPacket].filterMap Packet.publish? = [ledPublish] := by decide +kernel
  refine ⟨?_, ?_⟩
  · rw [hpublish]
    exact List.forall_mem_singleton.mpr rfl
  · have hne : ledPublish.payload ≠ [] := by decide +kernel
    rw [hpublish, List.map_singleton, Publish.message, if_neg hne]
    rfl

theorem carries_connack : Carries [connack, ledPacket] [ledRequest] := by
  have hnone : connack.publish? = none := by decide
  obtain ⟨hqos, hmessages⟩ := carries_ledPacket
  rw [← List.filterMap_cons_none hnone] at hqos hmessages
  exact ⟨hqos, hmessages⟩

/-- The bytes in two pieces, with a pause between them. -/
def ledArrivals : List Arrival :=
  unread (ledBytes.take 30) (.error .again :: unread (ledBytes.drop 30) [])

theorem received_ledArrivals : received ledArrivals = ledBytes :=
  received_unread_pause 30 .again ledBytes

/-- A connection that ends in the middle of the packet. -/
def brokenArrivals : List Arrival := unread (ledBytes.take 30) [.error .closed]

theorem received_brokenArrivals : received brokenArrivals ++ ledBytes.drop 30 = ledBytes := by
  unfold brokenArrivals
  rw [received_unread, received, received, List.append_nil, List.take_append_drop]

/-- Two connections, the first of which breaks, and the way of the request to the line. -/
def ledActions : List Action :=
  [.writePacket .lock, .writePacket .check, .reconnect (some brokenArrivals), .loopRead, .loopRead,
    .reconnect none, .reconnect (some ledArrivals), .loopRead, .loopRead, .loopRead, .execute,
    .execute, .writePacket .wake, .writePacket .check, .writePacket .handle]

theorem requests_delivered_led :
    ∃ last, run (step (Document.parse (fun _ => none) 2) .release fun _ _ => .success) ledActions
        (start (boardReceiving [])) = some last ∧
      last.mainLoop.written = [ledFrame] ∧
      ∃ delivered inputs, List.Forall₂ (· <+: ·) delivered [[ledRequest], [ledRequest]] ∧
        inputs.filterMap request? = delivered.flatten ∧
        inputs.filterMap reading? = ledActions.filterMap Action.reading? ∧
        last.mainLoop.written ++ last.mainLoop.outstanding =
          (boardReceiving []).serialPort.written ++
            MainLoop.calledFor (temperatureFrames (boardReceiving [])) {} inputs := by
  have hresult : (run (step (Document.parse (fun _ => none) 2) .release fun _ _ => .success)
      ledActions (start (boardReceiving []))).map (fun last => last.mainLoop.written) = some [ledFrame] := by
    decide +kernel
  obtain ⟨last, hrun, hlast⟩ := Option.map_eq_some_iff.mp hresult
  have hbroken : Sends brokenArrivals [ledRequest] :=
    ⟨_, _, received_brokenArrivals ▸ streams_ledBytes, carries_connack⟩
  have hwhole : Sends ledArrivals [ledRequest] := by
    refine ⟨_, [], ?_, carries_connack⟩
    rw [List.append_nil, received_ledArrivals]
    exact streams_ledBytes
  exact ⟨last, hrun, hlast, requests_delivered hrun (.cons hbroken (.cons hwhole .nil))⟩

/-! ## Connections that stay open -/

/-- Every packet is handled without an error. -/
inductive Succeeds (handle : Bool → Packet → ReturnCode) : Bool → List Packet → Prop where
  | nil {active : Bool} : Succeeds handle active []
  | cons {active : Bool} {packet : Packet} {packets : List Packet}
      (hcode : (handlePacket handle active packet).code = .success)
      (hmore : Succeeds handle (handlePacket handle active packet).active packets) :
      Succeeds handle active (packet :: packets)

/-- The broker accepts the connection and sends the requests.  All bytes arrive, and there
are enough calls to read them. -/
inductive Serves (handle : Bool → Packet → ReturnCode) (calls : ℕ) (arrivals : List Arrival)
    (requests : List Request) : Prop where
  | stream {connack : Packet} {packets : List Packet}
      (hstream : Streams (connack :: packets) (received arrivals))
      (hconnack : handleConnack connack = .success) (hcarries : Carries packets requests)
      (hothers : ∀ packet ∈ packets, packet.publish? = none →
        (handlePacket handle true packet).code = .success)
      (htransient : ∀ error ∈ errors arrivals, error.Transient)
      (hcalls : packets.length + 1 + (errors arrivals).length ≤ calls) :
      Serves handle calls arrivals requests

variable {packets : List Packet} {connection : Connection} {arrivals : List Arrival}

theorem succeeds_of_carries (hcarries : Carries packets requests)
    (hothers : ∀ packet ∈ packets, packet.publish? = none →
      (handlePacket handle true packet).code = .success) :
    Succeeds handle true packets := by
  induction packets generalizing requests with
  | nil => exact .nil
  | cons packet packets ih =>
      obtain ⟨hpacket, hothers⟩ := List.forall_mem_cons.mp hothers
      cases hpublish : packet.publish? with
      | none =>
          refine .cons (hpacket hpublish) ?_
          rw [handlePacket_active]
          exact ih (hcarries.of_none hpublish) hothers
      | some publish =>
          obtain ⟨request, rest, -, hqos, -, hrest⟩ := hcarries.of_some hpublish
          have hhandled := @handlePacket_publish handle packet publish hpublish hqos
          refine .cons (congrArg Handled.code hhandled) ?_
          rw [handlePacket_active]
          exact ih hrest hothers

theorem handlePacket_connack {connack : Packet} (hconnack : handleConnack connack = .success) :
    handlePacket handle false connack = ⟨.success, true, none⟩ ∧ connack.publish? = none := by
  have hcommand : connack.command = cmdConnack := by
    unfold handleConnack at hconnack
    split at hconnack
    next => cases hconnack
    next hcommand => exact not_not.mp hcommand
  have hkind : connack.command &&& 0xF0 ≠ cmdPublish ∧ connack.command &&& 0xF0 = cmdConnack := by
    rw [hcommand]
    decide
  refine ⟨?_, if_neg hkind.1⟩
  unfold handlePacket
  rw [if_neg hkind.1, if_pos hkind.2, hconnack]
  rfl

/-- `calls` calls are enough for the requests that are still to come. -/
inductive Serving (handle : Bool → Packet → ReturnCode) (calls : ℕ) :
    List Request → Option Connection → Prop where
  | done {connection : Option Connection} (hawaits : Awaits connection []) :
      Serving handle calls [] connection
  | opened {packets : List Packet} {requests : List Request} {connection : Connection}
      (hexpects : Expects connection packets []) (hcarries : Carries packets requests)
      (hsucceeds : Succeeds handle connection.active packets)
      (htransient : ∀ error ∈ errors connection.incoming.arrivals, error.Transient)
      (hcalls : packets.length + (errors connection.incoming.arrivals).length ≤ calls) :
      Serving handle calls requests (some connection)

variable {calls : ℕ}

theorem Carries.eq_nil (hcarries : Carries [] requests) : requests = [] :=
  List.map_eq_nil_iff.mp hcarries.messages.symm

theorem Serving.awaits {opened : Option Connection}
    (hserving : Serving handle calls requests opened) : Awaits opened requests := by
  cases hserving with
  | done hawaits => exact hawaits
  | opened hexpects hcarries =>
      rintro connection ⟨⟩
      exact ⟨_, [], hexpects, hcarries⟩

theorem Serving.eq_nil {opened : Option Connection} (hserving : Serving handle 0 requests opened) :
    requests = [] := by
  cases hserving with
  | done => rfl
  | @opened packets _ _ _ hcarries _ _ hcalls =>
      have hnone : packets.length = 0 := Nat.eq_zero_of_le_zero (Nat.le_of_add_right_le hcalls)
      rw [List.length_eq_zero_iff.mp hnone] at hcarries
      exact hcarries.eq_nil

theorem loopRead_serving (hserving : Serving handle (calls + 1) requests state.connection)
    (hread : loopRead (Document.parse decimal (stack + 2)) build handle state = some next) :
    ∃ taken left, requests = taken ++ left ∧
      Reaches build decimal stack taken [] state.mainLoop next.mainLoop ∧
      Serving handle calls left next.connection := by
  by_cases hrequests : requests = []
  · obtain ⟨taken, left, hnil, hreaches, hawaits⟩ := loopRead_reaches hserving.awaits hread
    refine ⟨taken, left, hnil, hreaches, ?_⟩
    obtain ⟨-, rfl⟩ := List.append_eq_nil_iff.mp (hnil.symm.trans hrequests)
    exact .done hawaits
  · generalize hconnection : state.connection = opened at hserving
    cases hserving with
    | done => exact absurd rfl hrequests
    | @opened packets _ connection hexpects hcarries hsucceeds htransient hcalls =>
        cases readEffect_of_loopRead hconnection hexpects hread with
        | @paused _ code incoming hleft hnext hsame hcause =>
            have hne : packets ≠ [] := by
              rintro rfl
              exact hrequests hcarries.eq_nil
            obtain ⟨error, hcode, herrors⟩ := hcause rfl hne
            rw [herrors] at htransient hcalls
            obtain ⟨herror, hmore⟩ := List.forall_mem_cons.mp htransient
            refine ⟨[], requests, rfl, hsame ▸ .refl _, ?_⟩
            rw [hnext, keep, if_pos (code_of_transient herror hcode)]
            rw [List.length_cons] at hcalls
            exact .opened hleft hcarries hsucceeds hmore (Nat.le_of_succ_le_succ hcalls)
        | @packet packet packets later hleft hnext hdelivery herrors =>
            cases hsucceeds with
            | cons hcode hmore =>
                rw [List.length_cons, ← herrors] at hcalls
                rw [← herrors] at htransient
                have hfewer : packets.length + (errors later).length ≤ calls := by omega
                rw [hnext, keep, if_pos hcode]
                rcases handlePacket_message hcarries.qos_of_cons with hmessage | ⟨-, hfailed⟩
                · rw [hmessage] at hdelivery
                  obtain ⟨taken, left, hrequests, hreaches, hrest⟩ := hdelivery.reaches hcarries
                  exact ⟨taken, left, hrequests, hreaches,
                    .opened hleft hrest hmore htransient hfewer⟩
                · exact absurd hcode hfailed

theorem run_serving
    (hrun : run (step (Document.parse decimal (stack + 2)) build handle) actions state = some last)
    (hserving : Serving handle (actions.count .loopRead) requests state.connection)
    (hopen : ∀ arrivals, Action.reconnect arrivals ∉ actions) :
    Reaches build decimal stack requests (actions.filterMap Action.reading?) state.mainLoop
      last.mainLoop := by
  induction actions generalizing state requests with
  | nil =>
      cases hrun
      rw [hserving.eq_nil]
      exact .refl _
  | cons action actions ih =>
      obtain ⟨next, hstep, hrest⟩ := Option.bind_eq_some_iff.mp hrun
      have hothers : ∀ arrivals, Action.reconnect arrivals ∉ actions := fun arrivals hmem =>
        hopen arrivals (List.mem_cons_of_mem _ hmem)
      rw [filterMap_reading_cons]
      by_cases hread : action = .loopRead
      · subst hread
        rw [List.count_cons_self] at hserving
        obtain ⟨taken, left, rfl, hreaches, hleft⟩ :=
          loopRead_serving hserving (loopRead_of_step hstep)
        exact hreaches.trans (ih hrest hleft hothers)
      · have hstays : ∀ arrivals, action ≠ .reconnect arrivals := by
          rintro arrivals rfl
          exact hopen arrivals List.mem_cons_self
        obtain ⟨hreaches, hnext⟩ := step_reaches hstep hread hstays
        rw [List.count_cons_of_ne hread, ← hnext] at hserving
        exact hreaches.trans (ih hrest hserving hothers)

/-- When the broker accepts the connection and all bytes of the requests arrive, with
enough calls to read them, every one of the requests is handed over. -/
theorem requests_all_delivered
    (hrun : run (step (Document.parse decimal (stack + 2)) build handle) actions state = some last)
    (hconnection : state.connection = some ⟨⟨{}, arrivals⟩, false⟩)
    (hserves : Serves handle (actions.count .loopRead) arrivals requests)
    (hopen : ∀ arrivals, Action.reconnect arrivals ∉ actions) :
    ∃ inputs, inputs.filterMap request? = requests ∧
      inputs.filterMap reading? = actions.filterMap Action.reading? ∧
      last.mainLoop.written ++ last.mainLoop.outstanding =
        state.mainLoop.written ++ state.mainLoop.outstanding ++
          MainLoop.calledFor (temperatureFrames state.mainLoop.board) state.mainLoop.timers
            inputs := by
  cases hserves with
  | @stream connack packets hstream hconnack hcarries hothers htransient hcalls =>
      obtain ⟨hhandled, hpublish⟩ := @handlePacket_connack handle connack hconnack
      have hsucceeds : Succeeds handle false (connack :: packets) := by
        refine .cons (congrArg Handled.code hhandled) ?_
        rw [hhandled]
        exact succeeds_of_carries hcarries hothers
      have hall : Carries (connack :: packets) requests := by
        obtain ⟨hqos, hmessages⟩ := hcarries
        rw [← List.filterMap_cons_none hpublish] at hqos hmessages
        exact ⟨hqos, hmessages⟩
      have hexpects : Expects ⟨⟨{}, arrivals⟩, false⟩ (connack :: packets) [] := by
        unfold Expects
        rw [List.append_nil]
        exact hstream.awaiting
      have hserving : Serving handle (actions.count .loopRead) requests state.connection :=
        hconnection ▸ .opened hexpects hall hsucceeds htransient hcalls
      exact (run_serving hrun hserving hopen).written

/-- The request on a connection that has just been opened. -/
theorem requests_all_delivered_led :
    ∃ last, run (step (Document.parse (fun _ => none) 2) .release fun _ _ => .success)
        [.loopRead, .loopRead, .loopRead, .execute]
        ⟨some ⟨⟨{}, ledArrivals⟩, false⟩, .start (boardReceiving [])⟩ = some last ∧
      ∃ inputs, inputs.filterMap request? = [ledRequest] ∧ inputs.filterMap reading? = [] ∧
        last.mainLoop.written ++ last.mainLoop.outstanding =
          (boardReceiving []).serialPort.written ++ [] ++
            MainLoop.calledFor (temperatureFrames (boardReceiving [])) {} inputs := by
  have hresult : (run (step (Document.parse (fun _ => none) 2) .release fun _ _ => .success)
      [.loopRead, .loopRead, .loopRead, .execute]
      ⟨some ⟨⟨{}, ledArrivals⟩, false⟩, .start (boardReceiving [])⟩).map
        (fun last => last.mainLoop.outstanding) = some [ledFrame] := by
    decide +kernel
  obtain ⟨last, hrun, -⟩ := Option.map_eq_some_iff.mp hresult
  have hserves : Serves (fun _ _ => .success) 3 ledArrivals [ledRequest] := by
    have herrors : errors ledArrivals = [.again] := by decide +kernel
    have hstream : Streams [connack, ledPacket] (received ledArrivals) :=
      received_ledArrivals ▸ streams_ledBytes
    refine .stream hstream (by decide) carries_ledPacket ?_ ?_ (by rw [herrors]; decide)
    · intro packet hmem hnone
      have hpublish : ledPacket.publish? = some ledPublish := by decide +kernel
      rw [List.mem_singleton.mp hmem, hpublish] at hnone
      cases hnone
    · intro error hmem
      rw [herrors] at hmem
      exact .inl (List.mem_singleton.mp hmem)
  refine ⟨last, hrun, requests_all_delivered hrun rfl hserves ?_⟩
  intro arrivals hmem
  simp at hmem

end Runs

end ConnectedLoop

end IotGateway
