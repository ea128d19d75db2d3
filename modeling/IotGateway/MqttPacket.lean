import IotGateway.Library.Base128
import IotGateway.TopicEncoding

/-!
# Packets of published messages

A packet begins with its command and the length of what follows, in base 128.
`send__real_publish` makes the packet of a message and `handle__publish` reads the
message from such a packet.
-/

namespace IotGateway

open Base128 Faults

namespace Mosquitto

inductive ReturnCode where
  | success
  | protocol
  | inval
  | noConn
  | connRefused
  | connLost
  | payloadSize
  | errno
  | malformedUtf8
  | malformedPacket
  deriving DecidableEq, Repr

def cmdPublish : UInt8 := 0x30

def mqttMaxPayload : ℕ := 268435455

/-- A packet; its payload is everything behind the fixed header. -/
structure Packet where
  command : UInt8
  payload : List UInt8
  deriving DecidableEq, Repr

structure Publish where
  dup : Bool
  qos : ℕ
  retain : Bool
  topic : List UInt8
  mid : ℕ
  payload : List UInt8
  deriving DecidableEq, Repr

/-! ## Sending -/

/-- The fixed header that `packet__alloc` writes. -/
def packetAlloc (command : UInt8) (remainingLength : ℕ) : Except ReturnCode (List UInt8) :=
  let remainingBytes := digitsOf 5 remainingLength
  if remainingBytes.length = 5 then .error .payloadSize else .ok (command :: remainingBytes)

def writeUint16 (word : ℕ) : List UInt8 :=
  [UInt8.ofNat ((word &&& 0xFF00) >>> 8), UInt8.ofNat (word &&& 0x00FF)]

def writeString (str : List UInt8) : List UInt8 := writeUint16 str.length ++ str

def publishCommand (qos : ℕ) (retain dup : Bool) : UInt8 :=
  cmdPublish ||| (dup.toUInt8 <<< 3) ||| (UInt8.ofNat qos <<< 1) ||| retain.toUInt8

/-- The packet that `send__real_publish` passes to the queue. -/
def realPublish (publish : Publish) : Except ReturnCode (List UInt8) := do
  let packetlen := 2 + publish.topic.length + publish.payload.length +
    (if publish.qos > 0 then 2 else 0)
  let header ← packetAlloc (publishCommand publish.qos publish.retain publish.dup) packetlen
  return header ++ (writeString publish.topic ++
    ((if publish.qos > 0 then writeUint16 publish.mid else []) ++ publish.payload))

def pubTopicCheck (str : List UInt8) : Bool :=
  str.all (fun byte => byte != 0x2B && byte != 0x23) && str.length ≤ 65535

/-- The packet of `mosquitto_publish` for a message that is sent at most once. -/
def publish (topic payload : List UInt8) : Except ReturnCode (List UInt8) := do
  let topic := cString topic
  if topic = [] then throw .inval
  if ! validateUtf8 topic then throw .malformedUtf8
  if payload.length > mqttMaxPayload then throw .payloadSize
  if ! pubTopicCheck topic then throw .inval
  realPublish ⟨false, 0, false, topic, 0, payload⟩

/-! ## Receiving -/

def readUint16 : List UInt8 → Except ReturnCode (ℕ × List UInt8)
  | msb :: lsb :: rest => .ok ((msb.toNat <<< 8) + lsb.toNat, rest)
  | _ => .error .malformedPacket

def readString (bytes : List UInt8) : Except ReturnCode (List UInt8 × List UInt8) := do
  let (slen, rest) ← readUint16 bytes
  if slen = 0 then return ([], rest)
  if slen > rest.length then throw .malformedPacket
  if ! validateUtf8 (rest.take slen) then throw .malformedUtf8
  return (rest.take slen, rest.drop slen)

/-- The message of a packet. -/
def handlePublish (packet : Packet) : Except ReturnCode Publish := do
  let dup := (packet.command &&& 0x08) >>> 3 != 0
  let qos := ((packet.command &&& 0x06) >>> 1).toNat
  let retain := packet.command &&& 0x01 != 0
  let (topic, rest) ← readString packet.payload
  if topic = [] then throw .protocol
  if qos > 0 then
    let (mid, rest) ← readUint16 rest
    if mid = 0 then throw .protocol
    if qos > 2 then throw .protocol
    return ⟨dup, qos, retain, topic, mid, rest⟩
  else return ⟨dup, qos, retain, topic, 0, rest⟩

/-! ## Round trip -/

/-- The bytes of a packet.  The length may be written with up to four digits. -/
inductive Encodes : Packet → List UInt8 → Prop where
  | packet {packet : Packet} {digits : List UInt8} (hcommand : packet.command ≠ 0)
      (hdigits : Numeral digits) (hcount : digits.length ≤ 4)
      (hlength : value digits = packet.payload.length) :
      Encodes packet (packet.command :: (digits ++ packet.payload))

/-- A message that a packet can carry. -/
structure Publish.Carried (publish : Publish) : Prop where
  qos : publish.qos < 3
  topic : publish.topic ≠ [] ∧ publish.topic.length < 65536 ∧ validateUtf8 publish.topic = true
  mid : if publish.qos > 0 then 0 < publish.mid ∧ publish.mid < 65536 else publish.mid = 0

variable {publish : Publish} {bytes rest : List UInt8} {word : ℕ}

theorem readUint16_writeUint16 (hword : word < 65536) :
    readUint16 (writeUint16 word ++ rest) = .ok (word, rest) := by
  have hhigh : (word &&& 0xFF00) >>> 8 = word / 256 := by
    rw [Nat.shiftRight_and_distrib]
    change word >>> 8 &&& 0xFF = word / 256
    rw [Nat.shiftRight_eq_div_pow]
    have hmod : word / 2 ^ 8 &&& 0xFF = word / 2 ^ 8 % 256 := Nat.and_two_pow_sub_one_eq_mod _ 8
    rw [hmod]
    omega
  have hlow : word &&& 0x00FF = word % 256 := Nat.and_two_pow_sub_one_eq_mod word 8
  change Except.ok ((UInt8.ofNat ((word &&& 0xFF00) >>> 8)).toNat <<< 8 +
    (UInt8.ofNat (word &&& 0x00FF)).toNat, rest) = _
  rw [hhigh, hlow, UInt8.toNat_ofNat', UInt8.toNat_ofNat', Nat.shiftLeft_eq]
  congr 2
  omega

theorem readString_writeString {str : List UInt8} (hne : str ≠ []) (hlength : str.length < 65536)
    (hvalid : validateUtf8 str = true) :
    readString (writeString str ++ rest) = .ok (str, rest) := by
  have hpos : str.length ≠ 0 := fun hzero => hne (List.length_eq_zero_iff.mp hzero)
  have henough : ¬str.length > (str ++ rest).length := by
    rw [List.length_append]
    omega
  unfold readString writeString
  rw [List.append_assoc, readUint16_writeUint16 hlength, bind_of_ok rfl]
  simp only [if_neg hpos, if_neg henough, List.take_left, List.drop_left, hvalid]
  rfl

theorem publishCommand_bits : ∀ qos < 3, ∀ retain dup : Bool,
    publishCommand qos retain dup ≠ 0 ∧ publishCommand qos retain dup &&& 0xF0 = cmdPublish ∧
      ((publishCommand qos retain dup &&& 0x08) >>> 3 != 0) = dup ∧
      ((publishCommand qos retain dup &&& 0x06) >>> 1).toNat = qos ∧
      (publishCommand qos retain dup &&& 0x01 != 0) = retain := by
  decide

theorem length_digitsOf_eq_iff {remainingLength : ℕ} :
    (digitsOf 5 remainingLength).length = 5 ↔ ¬remainingLength < 128 ^ 4 := by
  have hle := length_digitsOf_le 5 remainingLength
  rw [← length_digitsOf_le_iff (by decide : 4 ≠ 0) (by decide : 4 < 5)]
  omega

theorem packetAlloc_eq_ok {command : UInt8} {remainingLength : ℕ} {header : List UInt8}
    (halloc : packetAlloc command remainingLength = .ok header) :
    ∃ digits, header = command :: digits ∧ Numeral digits ∧ digits.length ≤ 4 ∧
      value digits = remainingLength := by
  unfold packetAlloc at halloc
  simp only at halloc
  split at halloc
  next => cases halloc
  next hlength =>
    cases halloc
    have hlt : remainingLength < 128 ^ 4 := not_not.mp (mt length_digitsOf_eq_iff.mpr hlength)
    obtain ⟨hnumeral, hvalue⟩ :=
      numeral_digitsOf (Nat.lt_trans hlt (by decide : 128 ^ 4 < 128 ^ 5)) (by decide)
    have hle := length_digitsOf_le 5 remainingLength
    exact ⟨_, rfl, hnumeral, by omega, hvalue⟩

theorem writeString_length (str : List UInt8) : (writeString str).length = 2 + str.length := by
  unfold writeString
  rw [List.length_append]
  rfl

/-- What follows the topic. -/
def publishRest (publish : Publish) : List UInt8 :=
  (if publish.qos > 0 then writeUint16 publish.mid else []) ++ publish.payload

theorem handlePublish_of_carried {packet : Packet} (hcarried : publish.Carried)
    (hcommand : packet.command = publishCommand publish.qos publish.retain publish.dup)
    (hpayload : packet.payload = writeString publish.topic ++ publishRest publish) :
    handlePublish packet = .ok publish := by
  obtain ⟨-, -, hdup, hqos, hretain⟩ :=
    publishCommand_bits publish.qos hcarried.qos publish.retain publish.dup
  obtain ⟨hne, hlength, hvalid⟩ := hcarried.topic
  have hmid := hcarried.mid
  unfold handlePublish
  rw [hcommand, hpayload, readString_writeString hne hlength hvalid, bind_of_ok rfl]
  simp only [hdup, hqos, hretain, if_neg hne]
  unfold publishRest
  by_cases hpos : publish.qos > 0
  · rw [if_pos hpos] at hmid
    have hle : ¬publish.qos > 2 := Nat.not_lt.mpr (Nat.le_of_lt_succ hcarried.qos)
    simp only [if_pos hpos]
    rw [readUint16_writeUint16 hmid.2]
    simp only [bind_of_ok rfl, if_neg (Nat.ne_of_gt hmid.1), if_neg hle]
    rfl
  · rw [if_neg hpos] at hmid
    simp only [if_neg hpos]
    rw [List.nil_append, ← hmid]
    rfl

/-- The packet that is sent for a message reads back as the message. -/
theorem exists_packet_of_realPublish (hcarried : publish.Carried)
    (hsent : realPublish publish = .ok bytes) :
    ∃ packet, Encodes packet bytes ∧ packet.command &&& 0xF0 = cmdPublish ∧
      handlePublish packet = .ok publish := by
  obtain ⟨hne, hcommand, -⟩ :=
    publishCommand_bits publish.qos hcarried.qos publish.retain publish.dup
  obtain ⟨header, halloc, hbytes⟩ := exists_of_bind_eq_ok hsent
  cases hbytes
  obtain ⟨digits, rfl, hdigits, hcount, hvalue⟩ := packetAlloc_eq_ok halloc
  refine ⟨⟨publishCommand publish.qos publish.retain publish.dup,
    writeString publish.topic ++ publishRest publish⟩, ?_, hcommand,
      handlePublish_of_carried hcarried rfl rfl⟩
  refine .packet hne hdigits hcount (hvalue.trans ?_)
  unfold publishRest
  rw [List.length_append, writeString_length, List.length_append]
  split
  · simp only [writeUint16, List.length_cons, List.length_nil]
    omega
  · simp only [List.length_nil]
    omega

/-- The message of a call of `mosquitto_publish`. -/
def atMostOnce (topic payload : List UInt8) : Publish := ⟨false, 0, false, topic, 0, payload⟩

theorem length_le_of_pubTopicCheck {str : List UInt8} (hcheck : pubTopicCheck str = true) :
    str.length < 65536 :=
  Nat.lt_succ_of_le (of_decide_eq_true (Bool.and_eq_true_iff.mp hcheck).2)

theorem publish_eq_ok_iff {topic payload : List UInt8} :
    Mosquitto.publish topic payload = .ok bytes ↔
      (atMostOnce (cString topic) payload).Carried ∧ payload.length ≤ mqttMaxPayload ∧
        pubTopicCheck (cString topic) = true ∧
        realPublish (atMostOnce (cString topic) payload) = .ok bytes := by
  unfold Mosquitto.publish
  constructor
  · intro hpublish
    simp only at hpublish
    split at hpublish
    next => cases hpublish
    next hne =>
      split at hpublish
      next => cases hpublish
      next hvalid =>
        split at hpublish
        next => cases hpublish
        next hsize =>
          split at hpublish
          next => cases hpublish
          next hcheck =>
            rw [Bool.not_eq_true', Bool.not_eq_false] at hvalid hcheck
            have htopic := length_le_of_pubTopicCheck hcheck
            exact ⟨⟨Nat.succ_pos 2, ⟨hne, htopic, hvalid⟩, rfl⟩, Nat.le_of_not_gt hsize, hcheck,
              hpublish⟩
  · rintro ⟨hcarried, hsize, hcheck, hsent⟩
    obtain ⟨hne, -, hvalid⟩ := hcarried.topic
    change cString topic ≠ [] at hne
    change validateUtf8 (cString topic) = true at hvalid
    simp only [if_neg hne, hvalid, if_neg (Nat.not_lt.mpr hsize), hcheck]
    exact hsent

end Mosquitto

end IotGateway
