import IotGateway.Dispatch
import IotGateway.MqttPacket
import IotGateway.Requests
import Mathlib.Data.List.TakeWhile
import Mathlib.Data.Nat.Digits.Defs

/-!
# Topics that `mosquitto_publish` accepts

The topics of the gateway manager are short texts of visible ASCII characters without
wildcards.  A message on such a topic is refused only if its payload is too long.
-/

namespace IotGateway

open Faults GatewayManager Levels Mosquitto MqttTopic

def Visible (character : Char) : Prop :=
  0x20 ≤ character.toNat ∧ character.toNat < 0x7F ∧ character ≠ '+' ∧ character ≠ '#'

instance (character : Char) : Decidable (Visible character) :=
  inferInstanceAs (Decidable (_ ∧ _ ∧ _ ∧ _))

/-- A part of a topic. -/
def Word (text : String) : Prop :=
  (∀ character ∈ text.toList, Visible character) ∧ text.toList.length ≤ 40

-- over the characters of the text, not over all characters
instance (text : String) : Decidable (Word text) :=
  @instDecidableAnd _ _ (List.decidableBAll Visible text.toList) (Nat.decLe _ _)

structure Publishable (topic : String) : Prop where
  nonempty : topic.toList ≠ []
  visible : ∀ character ∈ topic.toList, Visible character
  short : topic.toList.length ≤ 100

/-! ## Bytes of such topics -/

section Bytes

variable {topic : String} {character : Char} {payload bytes : List UInt8}

theorem Visible.allowed (hvisible : Visible character) : Allowed character := by
  obtain ⟨hlow, hhigh, -⟩ := hvisible
  unfold Allowed
  omega

theorem Visible.utf8EncodeChar_eq (hvisible : Visible character) :
    String.utf8EncodeChar character = [UInt8.ofNat character.toNat] := by
  unfold String.utf8EncodeChar
  change (if character.toNat ≤ 0x7F then _ else _) = _
  rw [if_pos (Nat.le_of_lt hvisible.2.1)]
  rfl

theorem flatMap_utf8EncodeChar {characters : List Char}
    (hvisible : ∀ character ∈ characters, Visible character) :
    characters.flatMap String.utf8EncodeChar =
      characters.map fun character => UInt8.ofNat character.toNat := by
  induction characters with
  | nil => rfl
  | cons character characters ih =>
      obtain ⟨hcharacter, hmore⟩ := List.forall_mem_cons.mp hvisible
      rw [List.flatMap_cons, hcharacter.utf8EncodeChar_eq, ih hmore]
      rfl

theorem Visible.byte_ne (hvisible : Visible character) :
    UInt8.ofNat character.toNat ≠ 0 ∧ UInt8.ofNat character.toNat ≠ 0x2B ∧
      UInt8.ofNat character.toNat ≠ 0x23 := by
  obtain ⟨hlow, hhigh, hplus, hhash⟩ := hvisible
  have hbyte : (UInt8.ofNat character.toNat).toNat = character.toNat := by
    rw [UInt8.toNat_ofNat']
    omega
  have hplus' : character.toNat ≠ 0x2B := fun hcode => hplus (Char.toNat_inj.mp hcode)
  have hhash' : character.toNat ≠ 0x23 := fun hcode => hhash (Char.toNat_inj.mp hcode)
  refine ⟨fun hzero => ?_, fun hcode => hplus' ?_, fun hcode => hhash' ?_⟩
  · rw [hzero, UInt8.toNat_zero] at hbyte
    omega
  · rw [← hbyte, hcode]
    rfl
  · rw [← hbyte, hcode]
    rfl

theorem Publishable.literal_eq_map (htopic : Publishable topic) :
    literal topic = topic.toList.map fun character => UInt8.ofNat character.toNat :=
  (literal_eq topic).trans (flatMap_utf8EncodeChar htopic.visible)

theorem Publishable.length_literal (htopic : Publishable topic) :
    (literal topic).length = topic.toList.length := by
  rw [htopic.literal_eq_map, List.length_map]

theorem Publishable.byte_ne (htopic : Publishable topic) {byte : UInt8}
    (hmem : byte ∈ literal topic) : byte ≠ 0 ∧ byte ≠ 0x2B ∧ byte ≠ 0x23 := by
  rw [htopic.literal_eq_map] at hmem
  obtain ⟨character, hcharacter, rfl⟩ := List.mem_map.mp hmem
  exact (htopic.visible character hcharacter).byte_ne

theorem Publishable.cString_literal (htopic : Publishable topic) :
    cString (literal topic) = literal topic := by
  unfold cString
  rw [List.takeWhile_eq_self_iff]
  intro byte hmem
  exact decide_eq_true (htopic.byte_ne hmem).1

theorem Publishable.validateUtf8_literal (htopic : Publishable topic) :
    validateUtf8 (literal topic) = true := by
  have hlength := htopic.length_literal
  have hshort := htopic.short
  refine Bool.and_eq_true_iff.mpr ⟨decide_eq_true (by omega), ?_⟩
  exact (validateFrom_iff (Nat.le_refl _)).mpr
    ⟨topic.toList, literal_eq topic, fun character hmem => (htopic.visible character hmem).allowed⟩

theorem Publishable.pubTopicCheck_literal (htopic : Publishable topic) :
    pubTopicCheck (literal topic) = true := by
  have hlength := htopic.length_literal
  have hshort := htopic.short
  refine Bool.and_eq_true_iff.mpr ⟨List.all_eq_true.mpr fun byte hmem => ?_,
    decide_eq_true (by omega)⟩
  obtain ⟨-, hplus, hhash⟩ := htopic.byte_ne hmem
  exact Bool.and_eq_true_iff.mpr ⟨bne_iff_ne.mpr hplus, bne_iff_ne.mpr hhash⟩

theorem realPublish_eq_ok_iff {publish : Publish} :
    (∃ bytes, realPublish publish = .ok bytes) ↔
      2 + publish.topic.length + publish.payload.length + (if publish.qos > 0 then 2 else 0) <
        128 ^ 4 := by
  unfold realPublish packetAlloc
  generalize 2 + publish.topic.length + publish.payload.length +
    (if publish.qos > 0 then 2 else 0) = packetlen
  simp only
  by_cases hlength : (Base128.digitsOf 5 packetlen).length = 5
  · rw [if_pos hlength]
    have hlong := length_digitsOf_eq_iff.mp hlength
    exact ⟨fun ⟨_, hbytes⟩ => (by cases hbytes), fun hlt => absurd hlt hlong⟩
  · rw [if_neg hlength]
    exact ⟨fun _ => not_not.mp (mt length_digitsOf_eq_iff.mpr hlength), fun _ => ⟨_, rfl⟩⟩

/-- A message on such a topic is refused only for its length. -/
theorem Publishable.publish_eq_ok_iff (htopic : Publishable topic) :
    (∃ bytes, Mosquitto.publish (literal topic) payload = .ok bytes) ↔
      2 + topic.toList.length + payload.length < 128 ^ 4 := by
  have hlength := htopic.length_literal
  have hshort := htopic.short
  have hcarried : (atMostOnce (literal topic) payload).Carried := by
    have hne : literal topic ≠ [] := by
      rw [htopic.literal_eq_map]
      exact fun hnil => htopic.nonempty (List.map_eq_nil_iff.mp hnil)
    have hlt : (literal topic).length < 65536 := by omega
    exact ⟨Nat.succ_pos 2, ⟨hne, hlt, htopic.validateUtf8_literal⟩, rfl⟩
  have hreal := @realPublish_eq_ok_iff (atMostOnce (literal topic) payload)
  rw [← hlength]
  constructor
  · rintro ⟨bytes, hbytes⟩
    rw [Mosquitto.publish_eq_ok_iff, htopic.cString_literal] at hbytes
    exact hreal.mp ⟨bytes, hbytes.2.2.2⟩
  · intro hfits
    obtain ⟨bytes, hbytes⟩ := hreal.mpr hfits
    refine ⟨bytes, Mosquitto.publish_eq_ok_iff.mpr ?_⟩
    rw [htopic.cString_literal]
    refine ⟨hcarried, ?_, htopic.pubTopicCheck_literal, hbytes⟩
    unfold mqttMaxPayload
    omega

end Bytes

/-! ## Topics of the gateway manager -/

section Topics

variable {build : Build} {board : MasterBoard} {packet : ResponsePacket}
  {published first second : List Publication}

theorem toString_visible (number : ℕ) :
    ∀ character ∈ (toString number).toList, Visible character := by
  intro character hmem
  rw [Nat.toString_eq_repr, Nat.toList_repr] at hmem
  have hdigit := Nat.isDigit_of_mem_toDigits (by decide) (by decide) hmem
  obtain ⟨hlow, hhigh⟩ := Char.isDigit_iff_toNat.mp hdigit
  have hbounds : '0'.toNat = 48 ∧ '9'.toNat = 57 := ⟨rfl, rfl⟩
  refine ⟨by omega, by omega, ?_, ?_⟩
  · rintro rfl
    exact absurd hlow (by decide)
  · rintro rfl
    exact absurd hlow (by decide)

theorem length_toString_le {number digits : ℕ} (hpos : 0 < digits) (hlt : number < 10 ^ digits) :
    (toString number).toList.length ≤ digits := by
  rw [Nat.toString_eq_repr, String.length_toList]
  exact Nat.repr_length number digits hpos hlt

theorem publishable_assert {name : String} (hname : Word name) :
    Publishable (kAssertTopic ++ "/" ++ name) := by
  have hfront : Word (kAssertTopic ++ "/") := by decide
  refine ⟨?_, ?_, ?_⟩
  · rw [String.toList_append]
    exact List.append_ne_nil_of_left_ne_nil (by decide) _
  · rw [String.toList_append]
    exact List.forall_mem_append.mpr ⟨hfront.1, hname.1⟩
  · rw [String.toList_append, List.length_append]
    exact Nat.le_trans (Nat.add_le_add hfront.2 hname.2) (by decide)

theorem publishable_slaveTopic {masterId : ℕ} (hmaster : masterId < 10 ^ 10) (slaveId : UInt8)
    {rest : String} (hrest : Word rest) :
    Publishable (slaveTopic masterId slaveId.toNat rest) := by
  have hid : slaveId.toNat < 10 ^ 10 := Nat.lt_trans slaveId.toNat_lt (by decide)
  have hmasterLength := length_toString_le (by decide) hmaster
  have hslaveLength := length_toString_le (by decide) hid
  have hfront : Word "master/" := by decide
  have hmiddle : Word "/slave/" := by decide
  have hslash : Word "/" := by decide
  have hlengths : "master/".toList.length = 7 ∧ "/slave/".toList.length = 7 ∧
      "/".toList.length = 1 := by
    decide
  have hrestLength := hrest.2
  unfold slaveTopic
  refine ⟨List.ne_nil_of_length_pos ?_, ?_, ?_⟩
  · simp only [String.toList_append, List.length_append]
    omega
  · simp only [String.toList_append, List.forall_mem_append]
    exact ⟨⟨⟨⟨⟨hfront.1, toString_visible masterId⟩, hmiddle.1⟩, toString_visible _⟩, hslash.1⟩,
      hrest.1⟩
  · simp only [String.toList_append, List.length_append]
    omega

/-- Every message is published on such a topic. -/
def Sound (published : List Publication) : Prop :=
  ∀ publication ∈ published, Publishable publication.topic

theorem sound_nil : Sound [] := fun _ hmem => absurd hmem List.not_mem_nil

theorem sound_singleton {publication : Publication} (htopic : Publishable publication.topic) :
    Sound [publication] := List.forall_mem_singleton.mpr htopic

theorem Sound.append (hfirst : Sound first) (hsecond : Sound second) : Sound (first ++ second) :=
  List.forall_mem_append.mpr ⟨hfirst, hsecond⟩

theorem Sound.ifDebug (hpublished : Sound published) : Sound (build.ifDebug published) := by
  cases build with
  | release => exact sound_nil
  | debug => exact hpublished

theorem sound_publishAssert {name : String} (hname : Word name) :
    Sound (publishAssert name packet) := sound_singleton (publishable_assert hname)

theorem publishable_of_mem_constants : ∀ topic ∈ [kErrorTopic, kPollingTopic, kPollingErrorTopic,
    kTestResponsePacket], Publishable topic := by
  have hconstants : ∀ topic ∈ [kErrorTopic, kPollingTopic, kPollingErrorTopic,
      kTestResponsePacket], topic.toList ≠ [] ∧ Word topic := by
    decide
  intro topic hmem
  obtain ⟨hnonempty, hvisible, hshort⟩ := hconstants topic hmem
  exact ⟨hnonempty, hvisible, Nat.le_trans hshort (by decide)⟩

theorem sound_publishTestPacket : Sound (publishTestPacket packet) :=
  sound_singleton (publishable_of_mem_constants _ (by simp))

theorem publishable_getSlaveStateTopic (hmaster : board.masterId < 10 ^ 10) (slaveId : UInt8)
    {name rest : String} (hname : Word (name ++ "/state" ++ rest)) :
    Publishable (getSlaveStateTopic board slaveId name ++ rest) := by
  have htopic : getSlaveStateTopic board slaveId name ++ rest =
      slaveTopic board.masterId slaveId.toNat (name ++ "/state" ++ rest) := by
    unfold getSlaveStateTopic slaveTopic kMasterTopic
    simp only [String.append_assoc]
  rw [htopic]
  exact publishable_slaveTopic hmaster slaveId hname

theorem sound_publishStateTopic (hmaster : board.masterId < 10 ^ 10) {name : String}
    (hname : Word (name ++ "/state" ++ "")) : Sound (publishStateTopic board packet name) := by
  have htopic := publishable_getSlaveStateTopic hmaster packet.header.targetId hname
  rw [String.append_empty] at htopic
  exact sound_singleton htopic

theorem sound_publishResponse (hmaster : board.masterId < 10 ^ 10) {name : String}
    (hok : Word (name ++ "/state" ++ ("/response" ++ "")))
    (hfail : Word (name ++ "/state" ++ ("/response" ++ "/fail"))) :
    Sound (publishResponse board packet name) := by
  unfold publishResponse
  simp only
  rw [String.append_assoc]
  apply sound_singleton
  split
  · exact publishable_getSlaveStateTopic hmaster _ hok
  · exact publishable_getSlaveStateTopic hmaster _ hfail

theorem sound_publishTemperature (hmaster : board.masterId < 10 ^ 10)
    (hcall : publishTemperature board packet = .ok published) : Sound published := by
  obtain ⟨highData, -, hcall⟩ := exists_of_bind_eq_ok hcall
  obtain ⟨lowData, -, hcall⟩ := exists_of_bind_eq_ok hcall
  cases hcall
  have htopic : "master/" ++ toString board.masterId ++ "/slave/" ++
      toString packet.header.targetId.toNat ++ "/temperature" =
        slaveTopic board.masterId packet.header.targetId.toNat "temperature" := by
    unfold slaveTopic
    simp only [String.append_assoc]
    rfl
  apply sound_singleton
  simp only
  rw [htopic]
  exact publishable_slaveTopic hmaster _ (by decide)

theorem sound_publishSensorStateTopic (hmaster : board.masterId < 10 ^ 10) {name : String}
    (hname : Word (name ++ "/state" ++ ""))
    (hcall : publishSensorStateTopic board packet name = .ok published) : Sound published := by
  unfold publishSensorStateTopic at hcall
  split at hcall
  next =>
    cases hcall
    exact sound_publishAssert (by decide)
  next =>
    obtain ⟨runtimeHighByte, -, hcall⟩ := exists_of_bind_eq_ok hcall
    obtain ⟨runtimeLowByte, -, hcall⟩ := exists_of_bind_eq_ok hcall
    cases hcall
    have htopic := publishable_getSlaveStateTopic hmaster packet.header.targetId hname
    rw [String.append_empty] at htopic
    exact sound_singleton htopic

theorem sound_parseMemoryRead (hmaster : board.masterId < 10 ^ 10) {memoryAddress : ℕ}
    (hcall : parseMemoryRead build board packet memoryAddress = .ok published) :
    Sound published := by
  unfold parseMemoryRead at hcall
  split_ifs at hcall
  · exact sound_publishTemperature hmaster hcall
  · cases hcall
    exact (sound_publishAssert (by decide)).append sound_publishTestPacket
  · cases hcall
    exact (sound_publishAssert (by decide)).ifDebug.append
      (sound_publishStateTopic hmaster (by decide))
  · cases hcall
    exact (sound_publishAssert (by decide)).ifDebug.append
      (sound_publishStateTopic hmaster (by decide))
  · cases hcall
    exact (sound_publishAssert (by decide)).ifDebug.append
      (sound_publishStateTopic hmaster (by decide))
  · cases hcall
    exact (sound_publishAssert (by decide)).ifDebug

theorem sound_parseMemoryWrite (hmaster : board.masterId < 10 ^ 10) (memoryAddress : ℕ) :
    Sound (parseMemoryWrite board packet memoryAddress) := by
  unfold parseMemoryWrite
  split_ifs
  · exact sound_publishAssert (by decide)
  · exact sound_publishAssert (by decide)
  · exact sound_publishResponse hmaster (by decide) (by decide)
  · exact sound_publishResponse hmaster (by decide) (by decide)
  · exact sound_publishResponse hmaster (by decide) (by decide)
  · exact sound_publishAssert (by decide)

theorem sound_parseEmergency (hmaster : board.masterId < 10 ^ 10) {memoryAddress : ℕ}
    (hcall : parseEmergency build board packet memoryAddress = .ok published) :
    Sound published := by
  unfold parseEmergency at hcall
  split_ifs at hcall
  · cases hcall
    exact sound_publishAssert (by decide)
  · cases hcall
    exact sound_publishAssert (by decide)
  · obtain ⟨state, hstate, hcall⟩ := exists_of_bind_eq_ok hcall
    cases hcall
    exact (sound_publishAssert (by decide)).ifDebug.append
      (sound_publishSensorStateTopic hmaster (by decide) hstate)
  · obtain ⟨state, hstate, hcall⟩ := exists_of_bind_eq_ok hcall
    cases hcall
    exact (sound_publishAssert (by decide)).ifDebug.append
      (sound_publishSensorStateTopic hmaster (by decide) hstate)
  · obtain ⟨state, hstate, hcall⟩ := exists_of_bind_eq_ok hcall
    cases hcall
    exact ((sound_publishAssert (by decide)).ifDebug.append
      (sound_publishSensorStateTopic hmaster (by decide) hstate)).append
        (sound_publishAssert (by decide))
  · cases hcall
    exact sound_publishAssert (by decide)

theorem sound_parseCommand (hmaster : board.masterId < 10 ^ 10) {parsed : MasterBoard}
    (hcall : parseCommand build board packet = .ok (parsed, published)) : Sound published := by
  unfold parseCommand at hcall
  simp only at hcall
  split_ifs at hcall
  · cases hcall
    exact sound_singleton (publishable_of_mem_constants _ (by simp))
  · obtain ⟨parsed, hparsed, hcall⟩ := exists_of_bind_eq_ok hcall
    cases hcall
    exact sound_parseMemoryRead hmaster hparsed
  · cases hcall
    exact sound_parseMemoryWrite hmaster _
  · obtain ⟨parsed, hparsed, hcall⟩ := exists_of_bind_eq_ok hcall
    cases hcall
    exact sound_parseEmergency hmaster hparsed
  · cases hcall
    exact sound_publishAssert (by decide)

theorem sound_listeningMaster (hmaster : board.masterId < 10 ^ 10) {listened : Listened}
    (hcall : listeningMaster build board = .ok listened) : Sound listened.published := by
  rcases listeningMaster_cases hcall with
    ⟨-, -, hnone, -⟩ | ⟨packet, published, -, -, hparse, hpublished⟩
  · rw [hnone]
    exact sound_nil
  · rw [hpublished]
    have herrors : Sound (headerErrors build packet) := by
      unfold headerErrors
      split
      · exact Sound.ifDebug (sound_singleton (publishable_of_mem_constants _ (by simp)))
      · exact sound_nil
    exact herrors.append (@sound_parseCommand build (afterReceive board) packet published hmaster
      listened.board hparse)

theorem sound_polling : Sound (polling board).published := by
  unfold polling
  simp only
  split
  · exact sound_singleton (publishable_of_mem_constants _ (by simp))
  · exact sound_nil

end Topics

end IotGateway
