import IotGateway.MqttManager
import Mathlib.Algebra.Order.Group.Nat

/-!
# Translation of messages

For which messages `on_message` returns at all, and for which accepted
messages the frame that it builds says what the message says.
-/

namespace IotGateway

open ByteSum MqttManager

/-! ## Reading a request frame back -/

structure RequestFrame where
  header : RequestHeader
  body : Option PacketBody
  tail : PacketTail
  deriving DecidableEq, Repr

/-- The body, which is present for a nonzero length byte, followed by the tail. -/
def readBody (dataLength : UInt8) (bytes : List UInt8) :
    Option (Option PacketBody × PacketTail) :=
  if dataLength > 0 then
    match bytes with
    | highAddress :: lowAddress :: rest =>
        match rest.drop (rest.length - 2) with
        | [checksum, end_] =>
            some (some ⟨highAddress, lowAddress, rest.take (rest.length - 2)⟩,
              ⟨checksum, end_⟩)
        | _ => none
    | _ => none
  else
    match bytes with
    | [checksum, end_] => some (none, ⟨checksum, end_⟩)
    | _ => none

def readRequest : List UInt8 → Option RequestFrame
  | start :: idx :: targetId :: command :: dataLength :: rest => do
      let (body, tail) ← readBody dataLength rest
      return ⟨{ start, idx, targetId, command, dataLength }, body, tail⟩
  | _ => none

theorem readRequest_content (header : RequestHeader) (body : PacketBody)
    (checksum end_ : UInt8) :
    readRequest (RequestPacket.content header body ++ [checksum, end_]) =
      some ⟨header, if header.dataLength > 0 then some body else none,
        ⟨checksum, end_⟩⟩ := by
  unfold RequestPacket.content
  by_cases hpos : header.dataLength > 0
  · have htake : (body.data ++ [checksum, end_]).take
        ((body.data ++ [checksum, end_]).length - 2) = body.data := by
      simp
    have hdrop : (body.data ++ [checksum, end_]).drop
        ((body.data ++ [checksum, end_]).length - 2) = [checksum, end_] := by
      simp
    rw [if_pos hpos, if_pos hpos]
    simp only [RequestHeader.bytes, PacketBody.bytes, List.cons_append, List.nil_append,
      readRequest, readBody, if_pos hpos, hdrop, htake]
    rfl
  · rw [if_neg hpos, if_neg hpos]
    simp only [RequestHeader.bytes, List.cons_append, List.nil_append, readRequest,
      readBody, if_neg hpos]
    rfl

theorem readRequest_ofHeader (header : RequestHeader) :
    readRequest (RequestPacket.ofHeader header).packet.1 =
      some ⟨header, if header.dataLength > 0 then some {} else none,
        ⟨accumulate 0 (RequestPacket.content header {}), kEnd⟩⟩ := by
  rw [RequestPacket.packet_ofHeader]
  exact readRequest_content header {} _ _

theorem readRequest_ofBody (header : RequestHeader) (body : PacketBody) :
    readRequest (RequestPacket.ofBody header body).packet.1 =
      some ⟨header, if header.dataLength > 0 then some body else none,
        ⟨accumulate 0 (RequestPacket.content header body), kEnd⟩⟩ := by
  rw [RequestPacket.packet_ofBody]
  exact readRequest_content header body _ _

/-! ## Messages without faults -/

/-- `on_message` runs to completion, and the payload yields a frame or one of
the failure codes. -/
inductive Completes (parse : Parser) (message : Message) : Prop where
  | frame {payload packet : List UInt8} {frame : RequestFrame}
      (hpayload : message.payload = some payload)
      (hparse : parseMqttMessage parse (cString message.topic) (cString payload) =
        .ok (packet, .kSuccessParse))
      (hframe : readRequest packet = some frame)
      (hpushed : onMessage parse message = .ok packet) : Completes parse message
  | failure {payload : List UInt8} {code : EParseJsonErrorCode}
      (hpayload : message.payload = some payload)
      (hcode : code = .kFailParsePayload ∨ code = .kFailIsNotObject)
      (hparse : parseMqttMessage parse (cString message.topic) (cString payload) =
        .ok ([], code))
      (hpushed : onMessage parse message = .ok []) : Completes parse message

/-- The payload is not empty and has one of the shapes that are told apart. -/
def Tolerated (parse : Parser) (message : Message) : Prop :=
  ∃ payload finding, message.payload = some payload ∧
    Describes parse (cString payload) finding

theorem Completes.onMessage_eq {parse : Parser} {message : Message}
    (hcompletes : Completes parse message) :
    ∃ packet, onMessage parse message = .ok packet := by
  cases hcompletes with
  | frame hpayload hparse hframe hpushed => exact ⟨_, hpushed⟩
  | failure hpayload hcode hparse hpushed => exact ⟨_, hpushed⟩

theorem completes_of_describes
    {parse : Parser} {message : Message} {payload : List UInt8}
    {finding : Finding} (hpayload : message.payload = some payload)
    (hdescribes : Describes parse (cString payload) finding) :
    Completes parse message := by
  have hparse : parseMqttMessage parse (cString message.topic) (cString payload) =
      .ok finding.result :=
    parseMqttMessage_eq_ok_iff.mpr ⟨finding, hdescribes, rfl⟩
  have hpushed : onMessage parse message = .ok finding.result.1 :=
    onMessage_eq_ok_iff.mpr ⟨payload, finding, hpayload, hdescribes, rfl⟩
  cases finding with
  | notJson => exact .failure hpayload (.inl rfl) hparse hpushed
  | notObject => exact .failure hpayload (.inr rfl) hparse hpushed
  | header members fields =>
      exact .frame hpayload hparse (readRequest_ofHeader _) hpushed
  | body members fields dataList =>
      exact .frame hpayload hparse (readRequest_ofBody _ _) hpushed

/-- `on_message` completes iff the message is tolerated. -/
theorem completes_iff (parse : Parser) (message : Message) :
    Completes parse message ↔ Tolerated parse message := by
  constructor
  · intro hcompletes
    obtain ⟨packet, hpushed⟩ := hcompletes.onMessage_eq
    obtain ⟨payload, finding, hpayload, hdescribes, _⟩ := onMessage_eq_ok_iff.mp hpushed
    exact ⟨payload, finding, hpayload, hdescribes⟩
  · rintro ⟨payload, finding, hpayload, hdescribes⟩
    exact completes_of_describes hpayload hdescribes

theorem emptyPayload_not_completes :
    ¬ ∀ (parse : Parser) (message : Message), Completes parse message := by
  intro hall
  obtain ⟨packet, hpushed⟩ :=
    (hall (fun _ => .ok none) ⟨literal "master/1/led", none⟩).onMessage_eq
  cases hpushed

/-! ## Faithful translation -/

/-- The object that describes the request of a payload. -/
def MessageObject (parse : Parser) (payload : List UInt8)
    (members : List (List UInt8 × Json)) : Prop :=
  ∃ text, CarriesText parse payload text ∧ parse (cString text) = .ok (some (.object members))

def IsByte (members : List (List UInt8 × Json)) (name : List UInt8) (byte : UInt8) : Prop :=
  members.lookup name = some (.int byte.toNat)

/-- The member `data_list` is the list of the bytes, or it is missing and there
are none. -/
def IsByteList (members : List (List UInt8 × Json)) (bytes : List UInt8) : Prop :=
  (members.lookup (literal "data_list") = none ∧ bytes = []) ∨
    members.lookup (literal "data_list") =
      some (.array (Json.ofNumbers (bytes.map UInt8.toNat)))

/-- The request has something to send besides its header. -/
def CarriesBody (members : List (List UInt8 × Json)) : Prop :=
  members.lookup (literal "data_length") ≠ some (.int 0) ∨
    ∃ dataList, members.lookup (literal "data_list") = some dataList ∧
      dataList ≠ .array []

/-- The frame consists of exactly the integers of the message. -/
structure SaysSame (members : List (List UInt8 × Json)) (frame : RequestFrame) : Prop where
  start : IsByte members (literal "start") frame.header.start
  index : IsByte members (literal "index") frame.header.idx
  targetId : IsByte members (literal "target_id") frame.header.targetId
  command : IsByte members (literal "command") frame.header.command
  dataLength : IsByte members (literal "data_length") frame.header.dataLength
  body : CarriesBody members → ∃ body, frame.body = some body ∧
    IsByte members (literal "address_high") body.highAddress ∧
    IsByte members (literal "address_low") body.lowAddress ∧
    IsByteList members body.data

/-- Every integer that has to be sent fits into a byte, and a request with
something to send has a nonzero length. -/
structure Representable (members : List (List UInt8 × Json)) : Prop where
  start : ∃ byte, IsByte members (literal "start") byte
  index : ∃ byte, IsByte members (literal "index") byte
  targetId : ∃ byte, IsByte members (literal "target_id") byte
  command : ∃ byte, IsByte members (literal "command") byte
  dataLength : ∃ byte, IsByte members (literal "data_length") byte
  body : CarriesBody members →
    members.lookup (literal "data_length") ≠ some (.int 0) ∧
    (∃ byte, IsByte members (literal "address_high") byte) ∧
    (∃ byte, IsByte members (literal "address_low") byte) ∧
    ∃ bytes, IsByteList members bytes

theorem IsByte.eq_ofNat
    {members : List (List UInt8 × Json)} {name : List UInt8} {byte : UInt8} {number : ℕ}
    (hbyte : IsByte members name byte) (huint : Json.HasUint members name number) :
    byte = UInt8.ofNat number := by
  have hlookup := huint.1
  rw [hbyte] at hlookup
  have hnumber : (byte.toNat : ℤ) = number := Json.int.inj (Option.some.inj hlookup)
  rw [← Int.ofNat_inj.mp hnumber, UInt8.ofNat_toNat]

theorem IsByteList.eq_map
    {members : List (List UInt8 × Json)} {bytes : List UInt8} {numbers : List ℕ}
    (hbytes : IsByteList members bytes) (hlist : HasDataList members numbers) :
    bytes = numbers.map UInt8.ofNat := by
  rcases hbytes with ⟨hnone, rfl⟩ | hsome
  · rcases hlist with ⟨_, rfl⟩ | ⟨hsome, _⟩
    · rfl
    · rw [hnone] at hsome
      cases hsome
  · rcases hlist with ⟨hnone, _⟩ | ⟨hnumbers, _⟩
    · rw [hnone] at hsome
      cases hsome
    · rw [hsome] at hnumbers
      have hsame : bytes.map UInt8.toNat = numbers :=
        Json.ofNumbers_injective (Json.array.inj (Option.some.inj hnumbers))
      rw [← hsame, List.map_map]
      exact (List.map_id' bytes).symm.trans
        (List.map_congr_left fun byte _ => (UInt8.ofNat_toNat).symm)

theorem Json.HasUint.eq_zero
    {members : List (List UInt8 × Json)} {name : List UInt8} {number : ℕ}
    (huint : Json.HasUint members name number)
    (hzero : members.lookup name = some (.int 0)) : number = 0 := by
  have hlookup := huint.1
  rw [hzero] at hlookup
  have hnumber : (0 : ℤ) = number := Json.int.inj (Option.some.inj hlookup)
  omega

/-- The frame holds what its fields are narrowed to. -/
structure NarrowedFrame (members : List (List UInt8 × Json)) (fields : RequestFields)
    (frame : RequestFrame) : Prop where
  described : HasFields members fields
  header : frame.header = RequestFields.header fields
  body : (fields.dataLength % 256 = 0 ∧ frame.body = none) ∨
    (fields.dataLength % 256 ≠ 0 ∧ ∃ dataList, HasDataList members dataList ∧
      frame.body = some (RequestFields.body fields dataList))

theorem representable_of_saysSame
    {members : List (List UInt8 × Json)} {fields : RequestFields} {frame : RequestFrame}
    (hframe : NarrowedFrame members fields frame) (hsame : SaysSame members frame) :
    Representable members where
  start := ⟨_, hsame.start⟩
  index := ⟨_, hsame.index⟩
  targetId := ⟨_, hsame.targetId⟩
  command := ⟨_, hsame.command⟩
  dataLength := ⟨_, hsame.dataLength⟩
  body := by
    intro hcarries
    obtain ⟨body, hbody, hhigh, hlow, hlist⟩ := hsame.body hcarries
    refine ⟨?_, ⟨_, hhigh⟩, ⟨_, hlow⟩, ⟨_, hlist⟩⟩
    intro hzero
    have hlength := hframe.described.dataLength.eq_zero hzero
    rcases hframe.body with ⟨_, hnone⟩ | ⟨hne, _⟩
    · rw [hnone] at hbody
      cases hbody
    · exact hne (by rw [hlength])

theorem saysSame_of_representable
    {members : List (List UInt8 × Json)} {fields : RequestFields} {frame : RequestFrame}
    (hframe : NarrowedFrame members fields frame)
    (hrepresentable : Representable members) : SaysSame members frame := by
  have hnarrow : ∀ {name : List UInt8} {number : ℕ},
      (∃ byte, IsByte members name byte) → Json.HasUint members name number →
        IsByte members name (UInt8.ofNat number) := by
    rintro name number ⟨byte, hbyte⟩ huint
    rwa [← hbyte.eq_ofNat huint]
  have hfields := hframe.described
  constructor
  case body =>
    intro hcarries
    obtain ⟨hne, hhigh, hlow, bytes, hbytes⟩ := hrepresentable.body hcarries
    obtain ⟨lengthByte, hlength⟩ := hrepresentable.dataLength
    have hsmall : fields.dataLength % 256 ≠ 0 := by
      have hlookup := hfields.dataLength.1
      rw [hlength] at hlookup hne
      have hvalue : (lengthByte.toNat : ℤ) = fields.dataLength :=
        Json.int.inj (Option.some.inj hlookup)
      have hpos : lengthByte.toNat ≠ 0 := by
        intro hzero
        exact hne (by rw [hzero]; rfl)
      have hlt := lengthByte.toNat_lt
      omega
    rcases hframe.body with ⟨hzero, _⟩ | ⟨_, dataList, hlist, hbody⟩
    · exact absurd hzero hsmall
    · refine ⟨_, hbody, hnarrow hhigh hfields.addressHigh, hnarrow hlow hfields.addressLow, ?_⟩
      change IsByteList members (dataList.map UInt8.ofNat)
      rwa [← hbytes.eq_map hlist]
  all_goals rw [hframe.header]
  case start => exact hnarrow hrepresentable.start hfields.start
  case index => exact hnarrow hrepresentable.index hfields.index
  case targetId => exact hnarrow hrepresentable.targetId hfields.targetId
  case command => exact hnarrow hrepresentable.command hfields.command
  case dataLength => exact hnarrow hrepresentable.dataLength hfields.dataLength

theorem MessageObject.unique
    {parse : Parser} {payload : List UInt8}
    {first second : List (List UInt8 × Json)}
    (hfirst : MessageObject parse payload first)
    (hsecond : MessageObject parse payload second) : first = second := by
  rcases hfirst with ⟨text, ⟨outer, houter, hdata⟩, hparse⟩
  rcases hsecond with ⟨text', ⟨outer', houter', hdata'⟩, hparse'⟩
  rw [houter] at houter'
  cases houter'
  rw [hdata] at hdata'
  cases hdata'
  rw [hparse] at hparse'
  cases hparse'
  rfl

theorem exists_narrowedFrame
    {parse : Parser} {topic payload packet : List UInt8}
    {members : List (List UInt8 × Json)}
    (hrun : parseMqttMessage parse topic payload = .ok (packet, .kSuccessParse))
    (hmembers : MessageObject parse payload members) :
    ∃ fields frame, readRequest packet = some frame ∧
      NarrowedFrame members fields frame := by
  obtain ⟨finding, hdescribes, hresult⟩ := parseMqttMessage_eq_ok_iff.mp hrun
  cases hdescribes with
  | unparsed | noData | unparsedData | notObject => cases hresult
  | header hcarries hparse hfields hlength =>
      have hobject := hmembers.unique ⟨_, hcarries, hparse⟩
      subst hobject
      cases hresult
      have hzero := fun hpos => (header_dataLength_pos_iff _).mp hpos hlength
      exact ⟨_, _, readRequest_ofHeader _, hfields, rfl, .inl ⟨hlength, if_neg hzero⟩⟩
  | body hcarries hparse hfields hlength hlist =>
      have hobject := hmembers.unique ⟨_, hcarries, hparse⟩
      subst hobject
      cases hresult
      have hpos := (header_dataLength_pos_iff _).mpr hlength
      exact ⟨_, _, readRequest_ofBody _ _, hfields, rfl,
        .inr ⟨hlength, _, hlist, if_pos hpos⟩⟩

/-- The bytes of an accepted message read back as the integers of the message
iff these are representable. -/
theorem readRequest_saysSame_iff
    {parse : Parser} {topic payload packet : List UInt8}
    {members : List (List UInt8 × Json)}
    (hrun : parseMqttMessage parse topic payload = .ok (packet, .kSuccessParse))
    (hmembers : MessageObject parse payload members) :
    (∃ frame, readRequest packet = some frame ∧ SaysSame members frame) ↔
      Representable members := by
  obtain ⟨fields, frame, hread, hframe⟩ := exists_narrowedFrame hrun hmembers
  constructor
  · rintro ⟨other, hother, hsame⟩
    rw [hread] at hother
    cases hother
    exact representable_of_saysSame hframe hsame
  · intro hrepresentable
    exact ⟨frame, hread, saysSame_of_representable hframe hrepresentable⟩

def exampleText (command : String) : List UInt8 :=
  literal ("\x7b\"start\":35,\"index\":33,\"target_id\":17,\"command\":" ++ command ++
    ",\"data_length\":2,\"address_high\":7,\"address_low\":208,\"data_list\":[1,2]\x7d")

def examplePayload (command : String) : List UInt8 :=
  literal ("\x7b\"pattern\":\"master/1/temperature\",\"data\":\"\x7b\\\"start\\\":35," ++
    "\\\"index\\\":33,\\\"target_id\\\":17,\\\"command\\\":" ++ command ++
    ",\\\"data_length\\\":2,\\\"address_high\\\":7,\\\"address_low\\\":208," ++
    "\\\"data_list\\\":[1,2]\x7d\"\x7d")

def exampleMembers (command : ℕ) : List (List UInt8 × Json) :=
  [(literal "start", .int 35), (literal "index", .int 33), (literal "target_id", .int 17),
    (literal "command", .int command), (literal "data_length", .int 2),
    (literal "address_high", .int 7), (literal "address_low", .int 208),
    (literal "data_list", .array [.int 1, .int 2])]

def exampleParse (command : ℕ) (text : List UInt8) : Except Fault (Option Json) :=
  if text = examplePayload (toString command) then
    .ok (some (.object [(literal "pattern", .string (literal "master/1/temperature")),
      (literal "data", .string (exampleText (toString command)))]))
  else if text = exampleText (toString command) then
    .ok (some (.object (exampleMembers command)))
  else .ok none

theorem messageObject_example {command : ℕ}
    (hpayload :
      cString (examplePayload (toString command)) = examplePayload (toString command))
    (htext : cString (exampleText (toString command)) = exampleText (toString command))
    (hne : exampleText (toString command) ≠ examplePayload (toString command)) :
    MessageObject (exampleParse command) (examplePayload (toString command))
      (exampleMembers command) := by
  refine ⟨exampleText (toString command),
    ⟨[(literal "pattern", .string (literal "master/1/temperature")),
      (literal "data", .string (exampleText (toString command)))], ?_, ?_⟩, ?_⟩
  · rw [hpayload]
    exact if_pos rfl
  · rfl
  · rw [htext]
    exact (if_neg hne).trans (if_pos rfl)

theorem readRequest_saysSame_iff_example :
    ∃ frame,
      readRequest [0x23, 0x21, 0x11, 0xc1, 0x02, 0x07, 0xd0, 0x01, 0x02, 0xf2, 0x0d] =
        some frame ∧
      SaysSame (exampleMembers 193) frame := by
  have hrun : parseMqttMessage (exampleParse 193) [] (examplePayload (toString 193)) =
      .ok ([0x23, 0x21, 0x11, 0xc1, 0x02, 0x07, 0xd0, 0x01, 0x02, 0xf2, 0x0d],
        .kSuccessParse) := by
    decide +kernel
  have hobject := messageObject_example (by decide +kernel : cString
    (examplePayload (toString 193)) = examplePayload (toString 193))
    (by decide +kernel) (by decide +kernel)
  refine (readRequest_saysSame_iff hrun hobject).mpr
    ⟨⟨35, rfl⟩, ⟨33, rfl⟩, ⟨17, rfl⟩, ⟨193, rfl⟩, ⟨2, rfl⟩, fun _ => ⟨?_, ⟨7, rfl⟩,
      ⟨208, rfl⟩, [1, 2], .inr rfl⟩⟩
  intro hzero
  cases hzero

theorem wrappedCommand_changed :
    ¬ ∀ (parse : Parser) (topic payload packet : List UInt8)
      (members : List (List UInt8 × Json)),
      parseMqttMessage parse topic payload = .ok (packet, .kSuccessParse) →
        MessageObject parse payload members →
          ∃ frame, readRequest packet = some frame ∧ SaysSame members frame := by
  have hrun : parseMqttMessage (exampleParse 449) [] (examplePayload (toString 449)) =
      .ok ([0x23, 0x21, 0x11, 0xc1, 0x02, 0x07, 0xd0, 0x01, 0x02, 0xf2, 0x0d],
        .kSuccessParse) := by
    decide +kernel
  have hobject := messageObject_example (by decide +kernel : cString
    (examplePayload (toString 449)) = examplePayload (toString 449))
    (by decide +kernel) (by decide +kernel)
  intro hall
  obtain ⟨frame, _, hsame⟩ := hall _ _ _ _ _ hrun hobject
  have hcommand : (449 : ℤ) = frame.header.command.toNat :=
    Json.int.inj (Option.some.inj hsame.command)
  have hlt := frame.header.command.toNat_lt
  omega

end IotGateway
