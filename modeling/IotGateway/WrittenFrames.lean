import IotGateway.System
import IotGateway.Translation

/-!
# Frames on the serial line

Every frame that the gateway writes on its own account is well formed.  A
message of the broker leads to a well-formed frame iff it is accepted and its
first integer is a start byte; a rejected one leads to an empty vector, which
is written all the same.
-/

namespace IotGateway

open ByteSum Faults GatewayManager MqttManager RequestPacket Runs WaitQueue

structure WellFormedRequest (frame : List UInt8) : Prop where
  length : 7 ≤ frame.length
  start : frame.head? = some kStart
  checksum : ∃ byte, frame[frame.length - 2]? = some byte ∧
    byte.toNat = sumMod (frame.take (frame.length - 2))
  end_ : frame.getLast? = some kEnd

theorem wellFormed_content_iff (header : RequestHeader) (body : PacketBody) :
    WellFormedRequest
        (content header body ++ [accumulate 0 (content header body), kEnd]) ↔
      header.start = kStart := by
  have hlength := content_length header body
  have hhead : (content header body).head? = some header.start := by
    simp [content, RequestHeader.bytes]
  constructor
  · intro hframe
    have hstart := hframe.start
    rw [List.head?_append, hhead] at hstart
    exact Option.some.inj hstart
  · intro hstart
    constructor
    · rw [List.length_append]
      change 7 ≤ _ + 2
      omega
    · rw [List.head?_append, hhead, hstart]
      rfl
    · refine ⟨accumulate 0 (content header body), by simp, ?_⟩
      simp [toNat_accumulate_zero]
    · simp

theorem wellFormed_memoryReadRequest
    (idx targetId dataLength highAddress lowAddress : UInt8) :
    WellFormedRequest (memoryReadRequest idx targetId dataLength highAddress lowAddress) := by
  unfold memoryReadRequest
  rw [packet_ofBody, wellFormed_content_iff]

theorem wellFormed_pollingRequest : WellFormedRequest pollingRequest := by
  unfold pollingRequest
  rw [packet_ofHeader, wellFormed_content_iff]

theorem wellFormed_setupRequest {request : List UInt8} (hrequest : SetupRequest request) :
    WellFormedRequest request := by
  cases hrequest with
  | masterId => exact wellFormed_memoryReadRequest _ _ _ _ _
  | slaveCount => exact wellFormed_memoryReadRequest _ _ _ _ _
  | slaveIds => exact wellFormed_memoryReadRequest _ _ _ _ _

theorem not_wellFormed_nil : ¬ WellFormedRequest [] := by
  intro hframe
  exact absurd hframe.length (by decide)

theorem wellFormed_of_requestTemperature {board : MasterBoard} {frames : List (List UInt8)}
    (hframes : requestTemperature board = .ok frames) :
    ∀ frame ∈ frames, WellFormedRequest frame := by
  intro frame hmem
  obtain ⟨index, _, hround⟩ := exists_of_mem_mapM hframes frame hmem
  obtain ⟨slaveId, _, hresult⟩ := exists_of_bind_eq_ok hround
  cases hresult
  exact wellFormed_memoryReadRequest _ _ _ _ _

/-! ## Frames from messages -/

/-- The finding is a request whose first integer is narrowed to a start byte. -/
def BeginsFrame : Finding → Prop
  | .notJson => False
  | .notObject => False
  | .header _ fields => fields.start % 256 = kStart.toNat
  | .body _ fields _ => fields.start % 256 = kStart.toNat

theorem wellFormed_result_iff (finding : Finding) :
    WellFormedRequest finding.result.1 ↔ BeginsFrame finding := by
  have hstart : ∀ fields : RequestFields,
      (RequestFields.header fields).start = kStart ↔ fields.start % 256 = kStart.toNat := by
    intro fields
    rw [← UInt8.toNat_inj]
    change (UInt8.ofNat fields.start).toNat = _ ↔ _
    rw [UInt8.toNat_ofNat']
  cases finding with
  | notJson => exact iff_of_false not_wellFormed_nil id
  | notObject => exact iff_of_false not_wellFormed_nil id
  | header members fields =>
      change WellFormedRequest (RequestPacket.ofHeader _).packet.1 ↔ _
      rw [packet_ofHeader, wellFormed_content_iff, hstart]
      rfl
  | body members fields dataList =>
      change WellFormedRequest (RequestPacket.ofBody _ _).packet.1 ↔ _
      rw [packet_ofBody, wellFormed_content_iff, hstart]
      rfl

/-- The message is accepted and describes a request that begins like a frame. -/
def RequestsFrame (parse : Parser) (message : Message) : Prop :=
  ∃ payload finding, message.payload = some payload ∧
    Describes parse (cString payload) finding ∧ BeginsFrame finding

/-- The vector pushed for a message is well formed iff the message requests a
frame. -/
theorem wellFormed_onMessage_iff
    {parse : Parser} {message : Message} {packet : List UInt8}
    (hpacket : onMessage parse message = .ok packet) :
    WellFormedRequest packet ↔ RequestsFrame parse message := by
  obtain ⟨payload, finding, hpayload, hdescribes, rfl⟩ := onMessage_eq_ok_iff.mp hpacket
  constructor
  · intro hframe
    exact ⟨payload, finding, hpayload, hdescribes, (wellFormed_result_iff finding).mp hframe⟩
  · rintro ⟨other, request, hother, hrequest, hbegins⟩
    rw [hpayload] at hother
    cases hother
    rw [hdescribes.result_unique hrequest]
    exact (wellFormed_result_iff request).mpr hbegins

/-! ## Runs of the gateway -/

namespace System

/-- The requests that the gateway makes of its own accord. -/
inductive OwnRequest : List UInt8 → Prop where
  | setup {request : List UInt8} (hrequest : SetupRequest request) : OwnRequest request
  | polling : OwnRequest pollingRequest
  | temperature {board : MasterBoard} {frames : List (List UInt8)} {frame : List UInt8}
      (hframes : requestTemperature board = .ok frames) (hmem : frame ∈ frames) :
      OwnRequest frame

theorem OwnRequest.wellFormed {frame : List UInt8} (hown : OwnRequest frame) :
    WellFormedRequest frame := by
  cases hown with
  | setup hrequest => exact wellFormed_setupRequest hrequest
  | polling => exact wellFormed_pollingRequest
  | temperature hframes hmem => exact wellFormed_of_requestTemperature hframes frame hmem

/-- All frames that were or will be written are allowed. -/
structure OnlyFrames (Allowed : List UInt8 → Prop) (system : System) : Prop where
  conserved : system.packets.Conserved
  enqueued : ∀ frame ∈ system.packets.enqueued, Allowed frame
  written : ∀ frame ∈ system.written, Allowed frame

section OnlyFrames

variable {Allowed : List UInt8 → Prop}

theorem onlyFrames_initial {board : MasterBoard}
    (hboard : ∀ frame ∈ board.serialPort.written, Allowed frame) :
    (initial board).OnlyFrames Allowed where
  conserved := Monitor.conserved_initial
  enqueued := fun _ hmem => (List.not_mem_nil hmem).elim
  written := hboard

theorem OnlyFrames.mono
    {Allowed' : List UInt8 → Prop} {system : System} (hsystem : system.OnlyFrames Allowed)
    (hallowed : ∀ frame, Allowed frame → Allowed' frame) : system.OnlyFrames Allowed' where
  conserved := hsystem.conserved
  enqueued := fun frame hmem => hallowed frame (hsystem.enqueued frame hmem)
  written := fun frame hmem => hallowed frame (hsystem.written frame hmem)

theorem mem_enqueued_of_mem_handedOver
    {step : ConsumerStep} {system : System} {frame : List UInt8}
    (hconserved : system.packets.Conserved) (hmem : frame ∈ system.handedOver step) :
    frame ∈ system.packets.enqueued := by
  rw [← hconserved]
  unfold handedOver at hmem
  split at hmem
  · simp [hmem]
  · exact (List.not_mem_nil hmem).elim

theorem OnlyFrames.enqueue
    {system next : System} {frames : List (List UInt8)} {packets : Monitor (List UInt8)}
    (hsystem : system.OnlyFrames Allowed)
    (hframes : ∀ frame ∈ frames, Allowed frame)
    (henqueue : system.packets.enqueue frames = some packets)
    (hpackets : next.packets = packets ∨ next.packets = packets.notify)
    (hwritten : next.written = system.written) : next.OnlyFrames Allowed := by
  have hconserved := hsystem.conserved.enqueue henqueue
  have henqueued : next.packets.enqueued = system.packets.enqueued ++ frames := by
    have hmonitor := congrArg Monitor.enqueued (Monitor.enqueue_eq_some henqueue)
    rcases hpackets with hpackets | hpackets
    · rw [hpackets, hmonitor]
    · rw [hpackets, Monitor.notify_enqueued, hmonitor]
  constructor
  · rcases hpackets with hpackets | hpackets
    · rw [hpackets]
      exact hconserved
    · rw [hpackets]
      exact hconserved.notify
  · rw [henqueued]
    intro frame hmem
    rcases List.mem_append.mp hmem with hold | hnew
    · exact hsystem.enqueued frame hold
    · exact hframes frame hnew
  · rw [hwritten]
    exact hsystem.written

/-- A step adds own requests and what `onMessage` makes of a message. -/
theorem OnlyFrames.step
    {parse : Parser} {action : Action} {system next : System}
    (hsystem : system.OnlyFrames Allowed)
    (hown : ∀ frame, OwnRequest frame → Allowed frame)
    (hmessage : ∀ message frame, action = .onMessage message →
      MqttManager.onMessage parse message = .ok frame → Allowed frame)
    (hstep : step parse action system = some next) : next.OnlyFrames Allowed := by
  cases effect_of_step hstep with
  | setup hstage hrequests hpackets hwritten =>
      constructor
      · rw [hpackets]
        exact hsystem.conserved
      · rw [hpackets]
        exact hsystem.enqueued
      · rw [hwritten]
        intro frame hmem
        rcases List.mem_append.mp hmem with hold | hnew
        · exact hsystem.written frame hold
        · exact hown frame (.setup (hrequests frame hnew))
  | onMessage hstage hpacket henqueue hpackets hwritten =>
      apply hsystem.enqueue _ henqueue (.inr hpackets) hwritten
      intro frame hmem
      rw [List.mem_singleton.mp hmem]
      exact hmessage _ _ rfl hpacket
  | polling hstage henqueue hpackets hwritten =>
      apply hsystem.enqueue _ henqueue (.inr hpackets) hwritten
      intro frame hmem
      rw [List.mem_singleton.mp hmem]
      exact hown _ .polling
  | requestTemperature hstage hframes henqueue hwritten =>
      exact hsystem.enqueue (fun frame hmem => hown frame (.temperature hframes hmem))
        henqueue (.inl rfl) hwritten
  | listeningMaster hstage hpackets hwritten =>
      constructor
      · rw [hpackets]
        exact hsystem.conserved
      · rw [hpackets]
        exact hsystem.enqueued
      · rw [hwritten]
        exact hsystem.written
  | writePacket hstage hconsume hwritten =>
      constructor
      · exact hsystem.conserved.consume hconsume
      · rw [(Monitor.consume_handled hconsume).1]
        exact hsystem.enqueued
      · rw [hwritten]
        intro frame hmem
        rcases List.mem_append.mp hmem with hold | hnew
        · exact hsystem.written frame hold
        · exact hsystem.enqueued frame
            (mem_enqueued_of_mem_handedOver hsystem.conserved hnew)

end OnlyFrames

/-- In every run of the gateway from the beginning of `run`, in which all
messages that are handled request a frame, all vectors written are well
formed. -/
theorem written_wellFormed
    {parse : Parser} {board : MasterBoard} {actions : List Action}
    {system : System} (hboard : board.serialPort.written = [])
    (hmessages : ∀ message, Action.onMessage message ∈ actions → RequestsFrame parse message)
    (hrun : run (step parse) actions (initial board) = some system) :
    ∀ frame ∈ system.written, WellFormedRequest frame := by
  have hallowed : ∀ action state, Visits (step parse) actions (initial board) state action →
      ∀ message, action = .onMessage message → RequestsFrame parse message := by
    rintro action state ⟨before, hinitial, _⟩ message rfl
    exact hmessages message (hinitial.subset (by simp))
  have hinitial : (initial board).OnlyFrames WellFormedRequest := by
    apply onlyFrames_initial
    rw [hboard]
    exact fun _ hmem => absurd hmem List.not_mem_nil
  have honly : system.OnlyFrames WellFormedRequest := by
    refine invariant_run hinitial (fun action state next hstate hmessage hstep => ?_)
      hallowed hrun
    apply hstate.step (fun _ hown => hown.wellFormed) _ hstep
    intro message frame haction hpacket
    exact (wellFormed_onMessage_iff hpacket).mpr (hmessage message haction)
  exact honly.written

/-- The port of a board that has answered the three requests of the set-up: its
id is 1, and its only slave has id 17. -/
def answeredBoard : MasterBoard :=
  boardReceiving
    [0x23, 0x27, 0xff, 0xc1, 0x80, 0x04, 0x1f, 0xa5, 0x00, 0x01, 0x53, 0x0d,
      0x23, 0x21, 0xff, 0xc1, 0x80, 0x03, 0x20, 0x6c, 0x01, 0x14, 0x0d,
      0x23, 0x27, 0xff, 0xc1, 0x80, 0x03, 0x20, 0x6d, 0x11, 0x2b, 0x0d]

theorem written_wellFormed_example :
    ∃ system, run (step (exampleParse 193))
        [.setup, .setup, .onMessage ⟨[], some (examplePayload (toString 193))⟩,
          .writePacket .lock, .writePacket .check, .writePacket .handle]
        (initial answeredBoard) = some system ∧
      system.written.length = 4 ∧ ∀ frame ∈ system.written, WellFormedRequest frame := by
  have hpacket : onMessage (exampleParse 193) ⟨[], some (examplePayload (toString 193))⟩ =
      .ok [0x23, 0x21, 0x11, 0xc1, 0x02, 0x07, 0xd0, 0x01, 0x02, 0xf2, 0x0d] := by
    decide +kernel
  have hframe : WellFormedRequest
      [0x23, 0x21, 0x11, 0xc1, 0x02, 0x07, 0xd0, 0x01, 0x02, 0xf2, 0x0d] :=
    ⟨by decide, rfl, ⟨0xf2, rfl, by decide⟩, rfl⟩
  have hwritten : (run (step (exampleParse 193))
        [.setup, .setup, .onMessage ⟨[], some (examplePayload (toString 193))⟩,
          .writePacket .lock, .writePacket .check, .writePacket .handle]
        (initial answeredBoard)).map (fun system => system.written.length) = some 4 := by
    decide +kernel
  obtain ⟨system, hrun, hlength⟩ := Option.map_eq_some_iff.mp hwritten
  refine ⟨system, hrun, hlength, written_wellFormed rfl ?_ hrun⟩
  intro message hmem
  have hmessage : message = ⟨[], some (examplePayload (toString 193))⟩ := by
    simpa using hmem
  rw [hmessage]
  exact (wellFormed_onMessage_iff hpacket).mp hframe

theorem rejectedMessage_written :
    ¬ ∀ (parse : Parser) (board : MasterBoard) (actions : List Action)
      (system : System), board.serialPort.written = [] →
        run (step parse) actions (initial board) = some system →
          ∀ frame ∈ system.written, WellFormedRequest frame := by
  intro hall
  have hwritten : (run (step fun _ => .ok none)
        [.setup, .setup, .onMessage ⟨literal "master/1/led", some (literal "on")⟩,
          .writePacket .lock, .writePacket .check, .writePacket .handle]
        (initial answeredBoard)).map (fun system => decide ([] ∈ system.written)) =
      some true := by
    decide +kernel
  obtain ⟨system, hrun, hmem⟩ := Option.map_eq_some_iff.mp hwritten
  exact not_wellFormed_nil (hall _ _ _ system rfl hrun [] (of_decide_eq_true hmem))

end System

end IotGateway
