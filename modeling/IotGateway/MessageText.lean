import IotGateway.JsonDepth
import IotGateway.JsonPrinting
import IotGateway.PacketFlow
import IotGateway.Translation

/-!
# The texts of requests

A client prints the object that describes a request, and the object of a message
with this text in it.  `on_message` parses both texts and pushes the frame of
the request.
-/

namespace IotGateway

open ByteSum Json MqttManager Runs

def byteMember (name : String) (byte : UInt8) : List UInt8 × Json :=
  (literal name, .int byte.toNat)

def requestMembers (header : RequestHeader) (body : PacketBody) : List (List UInt8 × Json) :=
  [byteMember "start" header.start, byteMember "index" header.idx,
    byteMember "target_id" header.targetId, byteMember "command" header.command,
    byteMember "data_length" header.dataLength, byteMember "address_high" body.highAddress,
    byteMember "address_low" body.lowAddress,
    (literal "data_list", .array (ofNumbers (body.data.map UInt8.toNat)))]

def requestText (header : RequestHeader) (body : PacketBody) : List UInt8 :=
  (Json.object (requestMembers header body)).print

def messageMembers (pattern : List UInt8) (header : RequestHeader) (body : PacketBody) :
    List (List UInt8 × Json) :=
  [(literal "pattern", .string pattern), (literal "data", .string (requestText header body))]

def messageText (pattern : List UInt8) (header : RequestHeader) (body : PacketBody) :
    List UInt8 :=
  (Json.object (messageMembers pattern header body)).print

/-- The message that a client publishes to have a request written. -/
def requestMessage (topic pattern : List UInt8) (header : RequestHeader) (body : PacketBody) :
    Message :=
  ⟨topic, some (messageText pattern header body)⟩

def requestFields (header : RequestHeader) (body : PacketBody) : RequestFields where
  start := header.start.toNat
  index := header.idx.toNat
  targetId := header.targetId.toNat
  command := header.command.toNat
  dataLength := header.dataLength.toNat
  addressHigh := body.highAddress.toNat
  addressLow := body.lowAddress.toNat

variable {decimal : List UInt8 → Option ℚ} {stack : ℕ} {topic pattern : List UInt8}
  {header : RequestHeader} {body : PacketBody}

theorem byte_le_limit (byte : UInt8) : Json.Printable (.int byte.toNat) := by
  change ((byte.toNat : ℤ)).natAbs ≤ JsonText.limit (decide ((byte.toNat : ℤ) < 0))
  have hlt := byte.toNat_lt
  have hle : ∀ minus, 256 ≤ JsonText.limit minus := by decide
  exact Nat.le_trans (Nat.le_of_lt hlt) (hle _)

theorem printableElements_ofNumbers (bytes : List UInt8) :
    PrintableElements (ofNumbers (bytes.map UInt8.toNat)) := by
  induction bytes with
  | nil => trivial
  | cons byte bytes ih => exact ⟨byte_le_limit byte, ih⟩

theorem nestingOfElements_ofNumbers (numbers : List ℕ) :
    nestingOfElements (ofNumbers numbers) = 0 := by
  induction numbers with
  | nil => rfl
  | cons number numbers ih => exact (Nat.zero_max _).trans ih

/-- The list of the data is nested in the object. -/
theorem nesting_requestMembers (header : RequestHeader) (body : PacketBody) :
    (Json.object (requestMembers header body)).nesting = 2 := by
  change max 0 (max 0 (max 0 (max 0 (max 0 (max 0 (max 0 (max
    (nestingOfElements (ofNumbers (body.data.map UInt8.toNat)) + 1) 0))))))) + 1 = 2
  rw [nestingOfElements_ofNumbers]
  rfl

theorem parse_requestText :
    Document.parse decimal (stack + 2) (cString (requestText header body)) =
      .ok (some (.object (requestMembers header body))) := by
  unfold requestText
  rw [cString_print]
  exact parse_print decimal ⟨byte_le_limit _, byte_le_limit _, byte_le_limit _, byte_le_limit _,
    byte_le_limit _, byte_le_limit _, byte_le_limit _, printableElements_ofNumbers body.data,
    trivial⟩ ((nesting_requestMembers header body).trans_le (Nat.le_add_left 2 stack))

theorem carriesText_messageText :
    CarriesText (Document.parse decimal (stack + 2)) (cString (messageText pattern header body))
      (requestText header body) := by
  refine ⟨messageMembers pattern header body, ?_, rfl⟩
  unfold messageText
  rw [cString_print, cString_print]
  exact parse_print decimal ⟨trivial, trivial, trivial⟩ (Nat.le_add_left 1 (stack + 1))

theorem hasUint_byte {members : List (List UInt8 × Json)} {name : List UInt8} {byte : UInt8}
    (hlookup : members.lookup name = some (.int byte.toNat)) :
    Json.HasUint members name byte.toNat :=
  ⟨hlookup, Nat.lt_trans byte.toNat_lt (by decide)⟩

theorem hasFields_requestMembers :
    HasFields (requestMembers header body) (requestFields header body) where
  start := hasUint_byte rfl
  index := hasUint_byte rfl
  targetId := hasUint_byte rfl
  command := hasUint_byte rfl
  dataLength := hasUint_byte rfl
  addressHigh := hasUint_byte rfl
  addressLow := hasUint_byte rfl

theorem hasDataList_requestMembers :
    HasDataList (requestMembers header body) (body.data.map UInt8.toNat) := by
  refine .inr ⟨rfl, ?_⟩
  intro number hmem
  obtain ⟨byte, -, rfl⟩ := List.mem_map.mp hmem
  exact Nat.lt_trans byte.toNat_lt (by decide)

theorem header_requestFields : RequestFields.header (requestFields header body) = header := by
  unfold RequestFields.header requestFields
  simp only [UInt8.ofNat_toNat]

theorem body_requestFields :
    RequestFields.body (requestFields header body) (body.data.map UInt8.toNat) = body := by
  have hdata : (body.data.map UInt8.toNat).map UInt8.ofNat = body.data := by
    rw [List.map_map]
    exact List.map_id'' (fun _ => UInt8.ofNat_toNat) body.data
  unfold RequestFields.body requestFields
  simp only [UInt8.ofNat_toNat, hdata]

/-- Without a length the body is not sent. -/
theorem packet_ofHeader_eq (body : PacketBody) (hlength : ¬header.dataLength > 0) :
    (RequestPacket.ofHeader header).packet.1 = (RequestPacket.ofBody header body).packet.1 := by
  have hcontent : RequestPacket.content header {} = RequestPacket.content header body := by
    unfold RequestPacket.content
    rw [if_neg hlength, if_neg hlength]
  rw [RequestPacket.packet_ofHeader, RequestPacket.packet_ofBody, hcontent]

theorem onMessage_requestMessage :
    onMessage (Document.parse decimal (stack + 2)) (requestMessage topic pattern header body) =
      .ok (RequestPacket.ofBody header body).packet.1 := by
  apply onMessage_eq_ok_iff.mpr
  by_cases hlength : header.dataLength > 0
  · refine ⟨_, .body (requestMembers header body) (requestFields header body)
      (body.data.map UInt8.toNat), rfl, .body carriesText_messageText parse_requestText
        hasFields_requestMembers ?_ hasDataList_requestMembers, ?_⟩
    · rw [← header_dataLength_pos_iff, header_requestFields]
      exact hlength
    · change (RequestPacket.ofBody (RequestFields.header _) _).packet.1 = _
      rw [header_requestFields, body_requestFields]
  · refine ⟨_, .header (requestMembers header body) (requestFields header body), rfl,
      .header carriesText_messageText parse_requestText hasFields_requestMembers ?_, ?_⟩
    · by_contra hne
      rw [← ne_eq, ← header_dataLength_pos_iff, header_requestFields] at hne
      exact hlength hne
    · change (RequestPacket.ofHeader (RequestFields.header _)).packet.1 = _
      rw [header_requestFields]
      exact packet_ofHeader_eq body hlength

/-- The frame that `on_message` makes of the text of a request reads back as the
request, whatever its bytes are. -/
theorem requestMessage_recoverable (decimal : List UInt8 → Option ℚ) (stack : ℕ)
    (topic pattern : List UInt8) (header : RequestHeader) (body : PacketBody) :
    ∃ packet,
      onMessage (Document.parse decimal (stack + 2)) (requestMessage topic pattern header body) =
        .ok packet ∧
      readRequest packet = some ⟨header, if header.dataLength > 0 then some body else none,
        ⟨accumulate 0 (RequestPacket.content header body), kEnd⟩⟩ :=
  ⟨_, onMessage_requestMessage, readRequest_ofBody header body⟩

/-- A payload that opens one array more than the stack has room for is not tolerated,
although it is not empty and is no JSON. -/
theorem not_tolerated_brackets (decimal : List UInt8 → Option ℚ) (stack : ℕ)
    (topic : List UInt8) :
    ¬ Tolerated (Document.parse decimal stack)
      ⟨topic, some (List.replicate (stack + 1) Reader.openBracket)⟩ := by
  rintro ⟨payload, finding, hpayload, hdescribes⟩
  obtain rfl := Option.some.inj hpayload
  have hwhole : cString (List.replicate (stack + 1) Reader.openBracket) =
      List.replicate (stack + 1) Reader.openBracket := by
    apply List.takeWhile_eq_self_iff.mpr
    intro byte hmem
    rw [List.eq_of_mem_replicate hmem]
    rfl
  have hrun : parseMqttMessage (Document.parse decimal stack) topic
      (cString (List.replicate (stack + 1) Reader.openBracket)) = .ok finding.result :=
    parseMqttMessage_eq_ok_iff.mpr ⟨finding, hdescribes, rfl⟩
  unfold parseMqttMessage at hrun
  rw [hwhole, hwhole, Document.parse_brackets] at hrun
  cases hrun

/-! ## From the texts to the line -/

namespace MainLoop

variable {build : Build} {actions : List Action} {last : MainLoop} {board : MasterBoard}

/-- A message with the text of a request, or a round of the loop. -/
inductive Input where
  | request (topic pattern : List UInt8) (header : RequestHeader) (body : PacketBody)
  | connected (now : Int64)
  | reconnect

def Input.action : Input → Action
  | .request topic pattern header body => .onMessage (requestMessage topic pattern header body)
  | .connected now => .connected now
  | .reconnect => .reconnect

/-- The packets that the inputs call for. -/
def calledFor (temperature : List (List UInt8)) : Timers → List Input → List (List UInt8)
  | _, [] => []
  | timers, .request _ _ header body :: inputs =>
      (RequestPacket.ofBody header body).packet.1 :: calledFor temperature timers inputs
  | timers, .connected now :: inputs =>
      (iterate now timers).1.calls.flatMap (Instruction.frames temperature) ++
        calledFor temperature (iterate now timers).2 inputs
  | timers, .reconnect :: inputs => calledFor temperature timers inputs

theorem requests_action (temperature : List (List UInt8)) (timers : Timers)
    (inputs : List Input) :
    requests (Document.parse decimal (stack + 2)) temperature timers (inputs.map Input.action) =
      calledFor temperature timers inputs := by
  induction inputs generalizing timers with
  | nil => rfl
  | cons input inputs ih =>
      cases input with
      | request topic pattern header body =>
          rw [List.map_cons, Input.action, requests, onMessage_requestMessage, calledFor]
          exact congrArg (_ :: ·) (ih timers)
      | connected now =>
          rw [List.map_cons, Input.action, requests, calledFor, ih]
      | reconnect => exact ih timers

/-- What clients publish as texts of requests is written to the line frame by
frame, with the requests of the rounds between them. -/
theorem request_texts_written {inputs : List Input}
    (hrun : run (step (Document.parse decimal (stack + 2)) build) actions (start board) = some last)
    (hinputs : actions.filter Action.isInput = inputs.map Input.action) :
    last.written ++ last.outstanding =
      board.serialPort.written ++ calledFor (temperatureFrames board) {} inputs := by
  rw [flow_of_run hrun, ← requests_filter, hinputs, requests_action]

/-- A message while the writer waits, and its way to the line. -/
def messageActions (message : Message) : List Action :=
  [.writePacket .lock, .writePacket .check, .onMessage message, .execute, .execute,
    .writePacket .wake, .writePacket .check, .writePacket .handle]

theorem request_texts_written_led :
    ∃ last, run (step (Document.parse (fun _ => none) 2) .release)
        (messageActions (requestMessage (literal "master/1/led") (literal "master/1/led")
          ⟨0x23, 0x21, 0x11, 0xc2, 0x04⟩ ⟨0x0f, 0xac, [0x00, 0x01]⟩))
        (start (boardReceiving [])) = some last ∧
      last.written = [[0x23, 0x21, 0x11, 0xc2, 0x04, 0x0f, 0xac, 0x00, 0x01, 0xd7, 0x0d]] ∧
      last.written ++ last.outstanding =
        (boardReceiving []).serialPort.written ++ calledFor (temperatureFrames (boardReceiving []))
          {} [.request (literal "master/1/led") (literal "master/1/led")
            ⟨0x23, 0x21, 0x11, 0xc2, 0x04⟩ ⟨0x0f, 0xac, [0x00, 0x01]⟩] := by
  have hresult : (run (step (Document.parse (fun _ => none) 2) .release)
      (messageActions (requestMessage (literal "master/1/led") (literal "master/1/led")
        ⟨0x23, 0x21, 0x11, 0xc2, 0x04⟩ ⟨0x0f, 0xac, [0x00, 0x01]⟩))
      (start (boardReceiving []))).map written =
        some [[0x23, 0x21, 0x11, 0xc2, 0x04, 0x0f, 0xac, 0x00, 0x01, 0xd7, 0x0d]] := by
    decide +kernel
  obtain ⟨last, hrun, hlast⟩ := Option.map_eq_some_iff.mp hresult
  exact ⟨last, hrun, hlast, request_texts_written hrun rfl⟩

end MainLoop

end IotGateway
