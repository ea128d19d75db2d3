import IotGateway.Json
import IotGateway.RequestPacket

/-!
# Messages from the broker

A message carries a JSON object whose member `data` is a string that is JSON
again and describes a request.  `onMessage` translates it and hands the bytes
of the request to the packet queue.  The JSON parser is a parameter, and may
run out of stack.
-/

namespace IotGateway

open Faults

/-- A message that the broker delivers.  An empty payload is a null pointer. -/
structure Message where
  topic : List UInt8
  payload : Option (List UInt8)

structure RequestFields where
  start : ℕ
  index : ℕ
  targetId : ℕ
  command : ℕ
  dataLength : ℕ
  addressHigh : ℕ
  addressLow : ℕ
  deriving DecidableEq, Repr

namespace MqttManager

variable (parse : Parser)

def readFields (document : Json) : Except Fault RequestFields := do
  let start ← document.uintMember (literal "start")
  let index ← document.uintMember (literal "index")
  let targetId ← document.uintMember (literal "target_id")
  let command ← document.uintMember (literal "command")
  let dataLength ← document.uintMember (literal "data_length")
  let addressHigh ← document.uintMember (literal "address_high")
  let addressLow ← document.uintMember (literal "address_low")
  return { start, index, targetId, command, dataLength, addressHigh, addressLow }

/-- The elements of `data_list`, if there is such a member. -/
def readDataList (document : Json) : Except Fault (List ℕ) := do
  if ← document.hasMember (literal "data_list") then
    let dataList ← document.member (literal "data_list")
    let elements ← dataList.getArray
    elements.mapM Json.getUint
  else return []

def RequestFields.header (fields : RequestFields) : RequestHeader where
  start := UInt8.ofNat fields.start
  idx := UInt8.ofNat fields.index
  targetId := UInt8.ofNat fields.targetId
  command := UInt8.ofNat fields.command
  dataLength := UInt8.ofNat fields.dataLength

def RequestFields.body (fields : RequestFields) (dataList : List ℕ) : PacketBody where
  highAddress := UInt8.ofNat fields.addressHigh
  lowAddress := UInt8.ofNat fields.addressLow
  data := dataList.map UInt8.ofNat

/-- The part of `ParseMqttMessage` behind the test for an object. -/
def parseRequest (document : Json) : Except Fault (List UInt8) := do
  let fields ← readFields document
  let header := RequestFields.header fields
  if header.dataLength > 0 then
    let dataList ← readDataList document
    return (RequestPacket.ofBody header (RequestFields.body fields dataList)).packet.1
  else
    return (RequestPacket.ofHeader header).packet.1

def parseMqttMessage (_topic payload : List UInt8) :
    Except Fault (List UInt8 × EParseJsonErrorCode) := do
  match ← parse (cString payload) with
  | none => return ([], .kFailParsePayload)
  | some document =>
      if ! (← document.hasMember (literal "data")) then
        return ([], .kFailParsePayload)
      let parsedPayload ← document.member (literal "data")
      let text ← parsedPayload.getString
      match ← parse (cString text) with
      | none => return ([], .kFailParsePayload)
      | some document =>
          if ! document.isObject then return ([], .kFailIsNotObject)
          let packet ← parseRequest document
          return (packet, .kSuccessParse)

def makePacket (topic payload : List UInt8) : Except Fault (List UInt8) := do
  let (packet, parseFail) ← parseMqttMessage parse topic payload
  if parseFail ≠ .kSuccessParse then return []
  return packet

/-- The vector that `on_message` pushes to the packet queue. -/
def onMessage (message : Message) : Except Fault (List UInt8) :=
  match message.payload with
  | none => .error .nullPayload
  | some payload => makePacket parse (cString message.topic) (cString payload)

/-! ## What a message describes -/

structure HasFields (members : List (List UInt8 × Json)) (fields : RequestFields) : Prop where
  start : Json.HasUint members (literal "start") fields.start
  index : Json.HasUint members (literal "index") fields.index
  targetId : Json.HasUint members (literal "target_id") fields.targetId
  command : Json.HasUint members (literal "command") fields.command
  dataLength : Json.HasUint members (literal "data_length") fields.dataLength
  addressHigh : Json.HasUint members (literal "address_high") fields.addressHigh
  addressLow : Json.HasUint members (literal "address_low") fields.addressLow

/-- An object has the list of integers `dataList`; an object without a list has
the empty one. -/
def HasDataList (members : List (List UInt8 × Json)) (dataList : List ℕ) : Prop :=
  (members.lookup (literal "data_list") = none ∧ dataList = []) ∨
    (members.lookup (literal "data_list") =
        some (.array (Json.ofNumbers dataList)) ∧
      ∀ number ∈ dataList, number < 2 ^ 32)

inductive Finding where
  | notJson
  | notObject
  | header (members : List (List UInt8 × Json)) (fields : RequestFields)
  | body (members : List (List UInt8 × Json)) (fields : RequestFields)
      (dataList : List ℕ)

def CarriesText (payload text : List UInt8) : Prop :=
  ∃ members, parse (cString payload) = .ok (some (.object members)) ∧
    members.lookup (literal "data") = some (.string text)

/-- The shapes of a payload that `ParseMqttMessage` tells apart. -/
inductive Describes (payload : List UInt8) : Finding → Prop where
  | unparsed (hparse : parse (cString payload) = .ok none) : Describes payload .notJson
  | noData {members : List (List UInt8 × Json)}
      (hparse : parse (cString payload) = .ok (some (.object members)))
      (hdata : members.lookup (literal "data") = none) : Describes payload .notJson
  | unparsedData {text : List UInt8} (hcarries : CarriesText parse payload text)
      (hparse : parse (cString text) = .ok none) : Describes payload .notJson
  | notObject {text : List UInt8} {value : Json}
      (hcarries : CarriesText parse payload text)
      (hparse : parse (cString text) = .ok (some value))
      (hvalue : value.isObject = false) : Describes payload .notObject
  | header {text : List UInt8} {members : List (List UInt8 × Json)}
      {fields : RequestFields} (hcarries : CarriesText parse payload text)
      (hparse : parse (cString text) = .ok (some (.object members)))
      (hfields : HasFields members fields)
      (hlength : fields.dataLength % 256 = 0) :
      Describes payload (.header members fields)
  | body {text : List UInt8} {members : List (List UInt8 × Json)}
      {fields : RequestFields} {dataList : List ℕ}
      (hcarries : CarriesText parse payload text)
      (hparse : parse (cString text) = .ok (some (.object members)))
      (hfields : HasFields members fields)
      (hlength : fields.dataLength % 256 ≠ 0)
      (hlist : HasDataList members dataList) :
      Describes payload (.body members fields dataList)

/-- What `ParseMqttMessage` makes of a finding. -/
def Finding.result : Finding → List UInt8 × EParseJsonErrorCode
  | .notJson => ([], .kFailParsePayload)
  | .notObject => ([], .kFailIsNotObject)
  | .header _ fields =>
      ((RequestPacket.ofHeader (RequestFields.header fields)).packet.1, .kSuccessParse)
  | .body _ fields dataList =>
      ((RequestPacket.ofBody (RequestFields.header fields)
        (RequestFields.body fields dataList)).packet.1, .kSuccessParse)

theorem readFields_eq_ok_iff
    {members : List (List UInt8 × Json)} {fields : RequestFields} :
    readFields (.object members) = .ok fields ↔ HasFields members fields := by
  constructor
  · intro hrun
    obtain ⟨start, hstart, hrun⟩ := exists_of_bind_eq_ok hrun
    obtain ⟨index, hindex, hrun⟩ := exists_of_bind_eq_ok hrun
    obtain ⟨targetId, htargetId, hrun⟩ := exists_of_bind_eq_ok hrun
    obtain ⟨command, hcommand, hrun⟩ := exists_of_bind_eq_ok hrun
    obtain ⟨dataLength, hdataLength, hrun⟩ := exists_of_bind_eq_ok hrun
    obtain ⟨addressHigh, haddressHigh, hrun⟩ := exists_of_bind_eq_ok hrun
    obtain ⟨addressLow, haddressLow, hrun⟩ := exists_of_bind_eq_ok hrun
    cases hrun
    exact ⟨Json.uintMember_eq_ok_iff.mp hstart, Json.uintMember_eq_ok_iff.mp hindex,
      Json.uintMember_eq_ok_iff.mp htargetId, Json.uintMember_eq_ok_iff.mp hcommand,
      Json.uintMember_eq_ok_iff.mp hdataLength,
      Json.uintMember_eq_ok_iff.mp haddressHigh,
      Json.uintMember_eq_ok_iff.mp haddressLow⟩
  · intro hfields
    unfold readFields
    rw [bind_of_ok (Json.uintMember_eq_ok_iff.mpr hfields.start),
      bind_of_ok (Json.uintMember_eq_ok_iff.mpr hfields.index),
      bind_of_ok (Json.uintMember_eq_ok_iff.mpr hfields.targetId),
      bind_of_ok (Json.uintMember_eq_ok_iff.mpr hfields.command),
      bind_of_ok (Json.uintMember_eq_ok_iff.mpr hfields.dataLength),
      bind_of_ok (Json.uintMember_eq_ok_iff.mpr hfields.addressHigh),
      bind_of_ok (Json.uintMember_eq_ok_iff.mpr hfields.addressLow)]
    rfl

theorem readDataList_eq_ok_iff
    {members : List (List UInt8 × Json)} {dataList : List ℕ} :
    readDataList (.object members) = .ok dataList ↔ HasDataList members dataList := by
  unfold readDataList HasDataList
  have hhas : (Json.object members).hasMember (literal "data_list") =
      .ok (members.lookup (literal "data_list")).isSome := rfl
  rw [bind_of_ok hhas]
  cases hlookup : members.lookup (literal "data_list") with
  | none =>
      simp [pure, Except.pure, eq_comm]
  | some value =>
      have hmember : (Json.object members).member (literal "data_list") = .ok value :=
        Json.member_eq_ok_iff.mpr ⟨members, rfl, hlookup⟩
      simp only [Option.isSome_some, if_true, bind_of_ok hmember, reduceCtorEq,
        false_and, false_or, Option.some.injEq]
      constructor
      · intro hrun
        obtain ⟨elements, harray, helements⟩ := exists_of_bind_eq_ok hrun
        have hvalue := Json.getArray_eq_ok_iff.mp harray
        obtain ⟨hnumbers, hall⟩ := Json.mapM_getUint_eq_ok_iff.mp helements
        exact ⟨hvalue.trans (congrArg Json.array hnumbers), hall⟩
      · rintro ⟨hvalue, hall⟩
        rw [bind_of_ok (Json.getArray_eq_ok_iff.mpr hvalue)]
        exact Json.mapM_getUint_eq_ok_iff.mpr ⟨rfl, hall⟩

theorem header_dataLength_pos_iff (fields : RequestFields) :
    (RequestFields.header fields).dataLength > 0 ↔ fields.dataLength % 256 ≠ 0 := by
  change (0 : UInt8) < UInt8.ofNat fields.dataLength ↔ _
  rw [UInt8.lt_iff_toNat_lt, UInt8.toNat_ofNat', UInt8.toNat_zero]
  exact Nat.pos_iff_ne_zero

/-- The frames that `parseRequest` makes of an object. -/
inductive RequestOf (members : List (List UInt8 × Json)) : List UInt8 → Prop where
  | header {fields : RequestFields} (hfields : HasFields members fields)
      (hlength : fields.dataLength % 256 = 0) :
      RequestOf members (Finding.header members fields).result.1
  | body {fields : RequestFields} {dataList : List ℕ}
      (hfields : HasFields members fields) (hlength : fields.dataLength % 256 ≠ 0)
      (hlist : HasDataList members dataList) :
      RequestOf members (Finding.body members fields dataList).result.1

theorem parseRequest_eq_ok_iff
    {members : List (List UInt8 × Json)} {packet : List UInt8} :
    parseRequest (.object members) = .ok packet ↔ RequestOf members packet := by
  constructor
  · intro hrun
    obtain ⟨fields, hread, hrun⟩ := exists_of_bind_eq_ok hrun
    have hfields := readFields_eq_ok_iff.mp hread
    simp only at hrun
    split at hrun
    next hpos =>
      obtain ⟨dataList, hlist, hrun⟩ := exists_of_bind_eq_ok hrun
      cases hrun
      exact .body hfields ((header_dataLength_pos_iff fields).mp hpos)
        (readDataList_eq_ok_iff.mp hlist)
    next hzero =>
      cases hrun
      refine .header hfields ?_
      by_contra hne
      exact hzero ((header_dataLength_pos_iff fields).mpr hne)
  · intro hrequest
    unfold parseRequest
    cases hrequest with
    | header hfields hlength =>
        rw [bind_of_ok (readFields_eq_ok_iff.mpr hfields)]
        simp only
        rw [if_neg fun hpos => (header_dataLength_pos_iff _).mp hpos hlength]
        rfl
    | body hfields hlength hlist =>
        rw [bind_of_ok (readFields_eq_ok_iff.mpr hfields)]
        simp only
        rw [if_pos ((header_dataLength_pos_iff _).mpr hlength),
          bind_of_ok (readDataList_eq_ok_iff.mpr hlist)]
        rfl

variable {parse}

theorem carriesText_iff {payload text : List UInt8} {document : Json}
    (hparse : parse (cString payload) = .ok (some document)) :
    CarriesText parse payload text ↔
      document.hasMember (literal "data") = .ok true ∧
        ∃ value, document.member (literal "data") = .ok value ∧
          value.getString = .ok text := by
  constructor
  · rintro ⟨members, hobject, hlookup⟩
    rw [hparse] at hobject
    cases hobject
    exact ⟨Json.hasMember_eq_ok_iff.mpr ⟨members, rfl, by rw [hlookup]; rfl⟩, _,
      Json.member_eq_ok_iff.mpr ⟨members, rfl, hlookup⟩, rfl⟩
  · rintro ⟨_, value, hmember, hstring⟩
    obtain ⟨members, rfl, hlookup⟩ := Json.member_eq_ok_iff.mp hmember
    exact ⟨members, hparse, by rw [hlookup, Json.getString_eq_ok_iff.mp hstring]⟩

/-- The part of `ParseMqttMessage` behind the text of `data`. -/
theorem parseMqttMessage_of_carriesText
    {topic payload text : List UInt8} (hcarries : CarriesText parse payload text) :
    parseMqttMessage parse topic payload =
      match parse (cString text) with
      | .error fault => .error fault
      | .ok none => .ok ([], .kFailParsePayload)
      | .ok (some document) =>
          if document.isObject = false then .ok ([], .kFailIsNotObject)
          else (parseRequest document).map fun packet => (packet, .kSuccessParse) := by
  obtain ⟨members, hparse, hlookup⟩ := id hcarries
  obtain ⟨hhas, value, hmember, hstring⟩ := (carriesText_iff hparse).mp hcarries
  unfold parseMqttMessage
  rw [bind_of_ok hparse]
  simp only [bind_of_ok hhas, Bool.not_true, Bool.false_eq_true, if_false,
    bind_of_ok hmember, bind_of_ok hstring]
  rcases parse (cString text) with fault | document
  · rfl
  cases document with
  | none => rfl
  | some document =>
      rw [bind_of_ok rfl]
      cases hobject : document.isObject with
      | false => simp [hobject, pure, Except.pure]
      | true =>
          simp only [hobject, Bool.not_true, Bool.false_eq_true, if_false,
            reduceCtorEq]
          cases parseRequest document <;> rfl

theorem exists_carriesText_of_ok
    {topic payload : List UInt8} {document : Json}
    {result : List UInt8 × EParseJsonErrorCode}
    (hparse : parse (cString payload) = .ok (some document))
    (hrun : parseMqttMessage parse topic payload = .ok result) :
    (Describes parse payload .notJson ∧ result = Finding.notJson.result) ∨
      ∃ text, CarriesText parse payload text := by
  unfold parseMqttMessage at hrun
  rw [bind_of_ok hparse] at hrun
  obtain ⟨found, hhas, hrun⟩ := exists_of_bind_eq_ok hrun
  cases found with
  | false =>
      obtain ⟨members, rfl, hnone⟩ := Json.hasMember_eq_ok_iff.mp hhas
      cases hrun
      refine .inl ⟨.noData hparse ?_, rfl⟩
      simpa using hnone.symm
  | true =>
      obtain ⟨value, hmember, hrun⟩ := exists_of_bind_eq_ok hrun
      obtain ⟨text, hstring, _⟩ := exists_of_bind_eq_ok hrun
      exact .inr ⟨text, (carriesText_iff hparse).mpr ⟨hhas, value, hmember, hstring⟩⟩

theorem describes_request
    {payload text packet : List UInt8} {members : List (List UInt8 × Json)}
    (hcarries : CarriesText parse payload text)
    (hparse : parse (cString text) = .ok (some (.object members)))
    (hrequest : RequestOf members packet) :
    ∃ finding, Describes parse payload finding ∧
      finding.result = (packet, .kSuccessParse) := by
  cases hrequest with
  | header hfields hlength =>
      exact ⟨_, .header hcarries hparse hfields hlength, rfl⟩
  | body hfields hlength hlist =>
      exact ⟨_, .body hcarries hparse hfields hlength hlist, rfl⟩

/-- `ParseMqttMessage` returns exactly for the payloads that have one of the
shapes it tells apart. -/
theorem parseMqttMessage_eq_ok_iff
    {topic payload : List UInt8} {result : List UInt8 × EParseJsonErrorCode} :
    parseMqttMessage parse topic payload = .ok result ↔
      ∃ finding, Describes parse payload finding ∧ finding.result = result := by
  constructor
  · intro hrun
    obtain ⟨document, hparse, -⟩ := exists_of_bind_eq_ok hrun
    cases document with
    | none =>
        unfold parseMqttMessage at hrun
        rw [bind_of_ok hparse] at hrun
        exact ⟨.notJson, .unparsed hparse, Except.ok.inj hrun⟩
    | some document =>
        rcases exists_carriesText_of_ok hparse hrun with ⟨hdescribes, hresult⟩ | ⟨text, hcarries⟩
        · exact ⟨_, hdescribes, hresult.symm⟩
        · rw [parseMqttMessage_of_carriesText hcarries] at hrun
          rcases htext : parse (cString text) with fault | inner
          · rw [htext] at hrun
            cases hrun
          cases inner with
          | none =>
              rw [htext] at hrun
              exact ⟨_, .unparsedData hcarries htext, Except.ok.inj hrun⟩
          | some inner =>
              rw [htext] at hrun
              simp only at hrun
              split at hrun
              next hobject =>
                exact ⟨_, .notObject hcarries htext hobject, Except.ok.inj hrun⟩
              next hobject =>
                obtain ⟨members, rfl⟩ := Json.isObject_iff.mp (by simpa using hobject)
                cases hrequest : parseRequest (.object members) with
                | error fault =>
                    rw [hrequest] at hrun
                    cases hrun
                | ok packet =>
                    rw [hrequest] at hrun
                    cases hrun
                    exact describes_request hcarries htext
                      (parseRequest_eq_ok_iff.mp hrequest)
  · rintro ⟨finding, hdescribes, rfl⟩
    cases hdescribes with
    | unparsed hparse =>
        unfold parseMqttMessage
        rw [bind_of_ok hparse]
        rfl
    | noData hparse hdata =>
        have hhas : (Json.object _).hasMember (literal "data") = .ok false :=
          Json.hasMember_eq_ok_iff.mpr ⟨_, rfl, by rw [hdata]; rfl⟩
        unfold parseMqttMessage
        rw [bind_of_ok hparse]
        simp only [bind_of_ok hhas]
        rfl
    | unparsedData hcarries hparse =>
        rw [parseMqttMessage_of_carriesText hcarries, hparse]
        rfl
    | notObject hcarries hparse hvalue =>
        rw [parseMqttMessage_of_carriesText hcarries, hparse]
        exact if_pos hvalue
    | header hcarries hparse hfields hlength =>
        rw [parseMqttMessage_of_carriesText hcarries, hparse]
        simp only [Json.isObject, Bool.true_eq_false, if_false,
          parseRequest_eq_ok_iff.mpr (.header hfields hlength)]
        rfl
    | body hcarries hparse hfields hlength hlist =>
        rw [parseMqttMessage_of_carriesText hcarries, hparse]
        simp only [Json.isObject, Bool.true_eq_false, if_false,
          parseRequest_eq_ok_iff.mpr (.body hfields hlength hlist)]
        rfl

/-- The vector pushed for a message is that of its finding, which for a
rejected message is empty. -/
theorem onMessage_eq_ok_iff {message : Message} {packet : List UInt8} :
    onMessage parse message = .ok packet ↔
      ∃ payload finding, message.payload = some payload ∧
        Describes parse (cString payload) finding ∧ finding.result.1 = packet := by
  unfold onMessage
  cases hpayload : message.payload with
  | none => simp
  | some payload =>
      constructor
      · intro hrun
        obtain ⟨⟨parsed, code⟩, hparse, hresult⟩ := exists_of_bind_eq_ok hrun
        obtain ⟨finding, hdescribes, hfinding⟩ := parseMqttMessage_eq_ok_iff.mp hparse
        refine ⟨payload, finding, rfl, hdescribes, ?_⟩
        cases finding <;> cases hfinding <;> cases hresult <;> rfl
      · rintro ⟨other, finding, hother, hdescribes, rfl⟩
        cases hother
        have hparse : parseMqttMessage parse (cString message.topic) (cString payload) =
            .ok finding.result :=
          parseMqttMessage_eq_ok_iff.mpr ⟨finding, hdescribes, rfl⟩
        change parseMqttMessage _ _ _ >>= _ = _
        rw [bind_of_ok hparse]
        cases finding <;> rfl

theorem Describes.result_unique {payload : List UInt8} {first second : Finding}
    (hfirst : Describes parse payload first) (hsecond : Describes parse payload second) :
    first.result = second.result := by
  have hrun : parseMqttMessage parse [] payload = .ok first.result :=
    parseMqttMessage_eq_ok_iff.mpr ⟨first, hfirst, rfl⟩
  have hrun' : parseMqttMessage parse [] payload = .ok second.result :=
    parseMqttMessage_eq_ok_iff.mpr ⟨second, hsecond, rfl⟩
  rw [hrun] at hrun'
  exact Except.ok.inj hrun'

end MqttManager

end IotGateway
