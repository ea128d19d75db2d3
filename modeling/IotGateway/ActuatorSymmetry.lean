import IotGateway.BodyAccess
import IotGateway.Dispatch

/-!
# The three actuators

The water pump, the LED and the fan are handled by branches that differ in the
name of the sensor only, except that the emergency of the fan runs on into the
default of its switch.
-/

namespace IotGateway

open ByteSum Faults GatewayManager

theorem Actuator.contains_offset (actuator : Actuator) {offset : ℕ} (hoffset : offset < 60) :
    actuator.Contains (actuator.start + offset) := by
  have hend : actuator.end_ = actuator.start + 59 := by cases actuator <;> rfl
  unfold Actuator.Contains
  omega

/-- Three boards with one master id have received packets that differ only in
the actuator whose range the address is in, and in the checksum. -/
structure SameButActuator (boards : Actuator → MasterBoard)
    (packets : Actuator → ResponsePacket) (masterId : ℕ) (header : ResponseHeader)
    (data : List UInt8) (offset : ℕ) : Prop where
  received : ∀ actuator, received (boards actuator) = some (packets actuator)
  masterId : ∀ actuator, (boards actuator).masterId = masterId
  header : ∀ actuator, (packets actuator).header = header
  data : ∀ actuator, (packets actuator).body.data = data
  address : ∀ actuator, targetMemoryAddress (packets actuator) = actuator.start + offset

/-- Every actuator gets one message, of the same kind, about the same number or
with its own packet. -/
structure Alike (masterId : ℕ) (packets : Actuator → ResponsePacket)
    (published : Actuator → List Publication) (message : Actuator → SlaveMessage)
    (payload : Actuator → Payload) : Prop where
  kind : message = .state ∨ message = .response ∨ message = .responseFail
  content : (∃ number, ∀ actuator, payload actuator = .number number) ∨
    ∀ actuator, payload actuator = .packet (packets actuator).packet
  one : ∀ actuator, published actuator =
    [slavePublication masterId (packets actuator) (message actuator) (payload actuator)]

/-! ## Branches of one actuator -/

section Branches

variable {masterId : ℕ} {packet : ResponsePacket} {published : List Publication}
  {actuator : Actuator}

theorem Dispatched.of_actuator_read
    (hcommand : packet.header.command = kMemoryRead)
    (haddress : actuator.Contains (targetMemoryAddress packet))
    (hdispatched : Dispatched .release masterId packet published) :
    published =
      [slavePublication masterId packet (.state actuator) (.packet packet.packet)] := by
  cases hdispatched with
  | temperature _ _ hend => exact absurd hend (Nat.not_le.mpr haddress.temperatureEnd_lt)
  | humidity _ _ hend => exact absurd hend (Nat.not_le.mpr haddress.humidityEnd_lt)
  | readState other _ _ hother =>
      rw [haddress.unique hother]
      rfl
  | readDefault _ _ _ houtside => exact (houtside actuator haddress).elim
  | unknown _ hread => exact (hread hcommand).elim
  | polling hother | response _ hother | responseFail _ hother | writeNotice _ hother
  | emergencyState _ _ hother | emergencyShort _ _ hother | emergencyNotice _ hother =>
      rw [hcommand] at hother
      contradiction

theorem Dispatched.of_actuator_write
    (hcommand : packet.header.command = kMemoryWrite)
    (haddress : actuator.Contains (targetMemoryAddress packet))
    (hdispatched : Dispatched .release masterId packet published) :
    published =
      [slavePublication masterId packet
        (if packet.header.errorCode = kOK then .response actuator
          else .responseFail actuator) (.packet packet.packet)] := by
  cases hdispatched with
  | response other _ hother hcode => rw [if_pos hcode, haddress.unique hother]
  | responseFail other _ hother hcode => rw [if_neg hcode, haddress.unique hother]
  | writeNotice _ _ houtside => exact (houtside actuator haddress).elim
  | unknown _ _ hwrite => exact (hwrite hcommand).elim
  | polling hother | temperature hother | humidity hother | readState _ _ hother
  | readDefault hother | emergencyState _ _ hother | emergencyShort _ _ hother
  | emergencyNotice _ hother =>
      rw [hcommand] at hother
      contradiction

theorem Dispatched.length_of_fan_emergency
    (hcommand : packet.header.command = kEmergency)
    (haddress : Actuator.fan.Contains (targetMemoryAddress packet))
    (hdispatched : Dispatched .release masterId packet published) :
    published.length = 2 := by
  cases hdispatched with
  | emergencyState other _ _ hother =>
      rw [← haddress.unique hother]
      rfl
  | emergencyShort other _ _ hother =>
      rw [← haddress.unique hother]
      rfl
  | emergencyNotice _ _ houtside => exact (houtside .fan haddress).elim
  | unknown _ _ _ hemergency => exact (hemergency hcommand).elim
  | polling hother | temperature hother | humidity hother | readState _ _ hother
  | readDefault hother | response _ hother | responseFail _ hother
  | writeNotice _ hother =>
      rw [hcommand] at hother
      contradiction

theorem faultOf_parseCommand_actuator {build : Build} {board : MasterBoard}
    (hcommand : packet.header.command ≠ kEmergency)
    (haddress : actuator.Contains (targetMemoryAddress packet)) :
    faultOf (parseCommand build board packet) = none := by
  rw [faultOf_parseCommand, if_neg hcommand]
  split
  · rw [faultOf_parseMemoryRead]
    apply if_neg
    rintro ⟨⟨_, hend⟩, _⟩
    exact absurd hend (Nat.not_le.mpr haddress.temperatureEnd_lt)
  · rfl

end Branches

/-! ## The three actuators side by side -/

theorem SameButActuator.contains
    {boards : Actuator → MasterBoard} {packets : Actuator → ResponsePacket} {masterId : ℕ}
    {header : ResponseHeader} {data : List UInt8} {offset : ℕ} (hoffset : offset < 60)
    (hsame : SameButActuator boards packets masterId header data offset)
    (actuator : Actuator) : actuator.Contains (targetMemoryAddress (packets actuator)) := by
  rw [hsame.address]
  exact actuator.contains_offset hoffset

theorem SameButActuator.exists_dispatched
    {boards : Actuator → MasterBoard} {packets : Actuator → ResponsePacket} {masterId : ℕ}
    {header : ResponseHeader} {data : List UInt8} {offset : ℕ} {actuator : Actuator}
    {listened : Listened}
    (hsame : SameButActuator boards packets masterId header data offset)
    (hcall : listeningMaster .release (boards actuator) = .ok listened) :
    Dispatched .release masterId (packets actuator) listened.published := by
  obtain ⟨published, hdispatched, hpublished⟩ :=
    IotGateway.exists_dispatched (hsame.received actuator) hcall
  have hnone : headerErrors .release (packets actuator) = [] := by
    unfold headerErrors
    split <;> rfl
  rw [hpublished, hnone, ← hsame.masterId actuator]
  exact hdispatched

/-- For packets that differ in the actuator alone a release build publishes the
same for all three iff the command is no emergency. -/
theorem actuators_alike_iff
    {boards : Actuator → MasterBoard} {packets : Actuator → ResponsePacket} {masterId : ℕ}
    {header : ResponseHeader} {data : List UInt8} {offset : ℕ} (hoffset : offset < 60)
    (hcommand : header.command = kMemoryRead ∨ header.command = kMemoryWrite ∨
      header.command = kEmergency)
    (hsame : SameButActuator boards packets masterId header data offset) :
    (∃ (listened : Actuator → Listened) (message : Actuator → SlaveMessage)
        (payload : Actuator → Payload),
      (∀ actuator, listeningMaster .release (boards actuator) = .ok (listened actuator)) ∧
      Alike masterId packets (fun actuator => (listened actuator).published) message
        payload) ↔
      header.command ≠ kEmergency := by
  constructor
  · rintro ⟨listened, message, payload, hcalls, halike⟩ hemergency
    have hdispatched := hsame.exists_dispatched (hcalls .fan)
    have hlength := hdispatched.length_of_fan_emergency
      (by rw [hsame.header, hemergency]) (hsame.contains hoffset .fan)
    rw [halike.one .fan] at hlength
    simp at hlength
  · intro hother
    have hreturns : ∀ actuator, ∃ listened,
        listeningMaster .release (boards actuator) = .ok listened := by
      intro actuator
      apply exists_listened (hsame.received actuator)
      apply faultOf_parseCommand_actuator _ (hsame.contains hoffset actuator)
      rw [hsame.header]
      exact hother
    choose listened hcalls using hreturns
    rcases hcommand with hread | hwrite | hemergency
    · refine ⟨listened, .state, fun actuator => .packet (packets actuator).packet, hcalls,
        .inl rfl, .inr fun _ => rfl, ?_⟩
      intro actuator
      apply (hsame.exists_dispatched (hcalls actuator)).of_actuator_read
      · rw [hsame.header, hread]
      · exact hsame.contains hoffset actuator
    · have hwritten := fun actuator =>
        (hsame.exists_dispatched (hcalls actuator)).of_actuator_write
          (by rw [hsame.header, hwrite]) (hsame.contains hoffset actuator)
      simp only [hsame.header] at hwritten
      by_cases hcode : header.errorCode = kOK
      · simp only [if_pos hcode] at hwritten
        exact ⟨listened, .response, fun actuator => .packet (packets actuator).packet,
          hcalls, .inr (.inl rfl), .inr fun _ => rfl, hwritten⟩
      · simp only [if_neg hcode] at hwritten
        exact ⟨listened, .responseFail, fun actuator => .packet (packets actuator).packet,
          hcalls, .inr (.inr rfl), .inr fun _ => rfl, hwritten⟩
    · exact (hother hemergency).elim

/-- A packet about the first address of an actuator, with a runtime of one
minute. -/
def samplePacket (command : UInt8) (actuator : Actuator) : ResponsePacket :=
  let body : PacketBody := match actuator with
    | .water => ⟨0x0f, 0xa0, [0x00, 0x02, 0x00, 0x01]⟩
    | .led => ⟨0x0f, 0xdc, [0x00, 0x02, 0x00, 0x01]⟩
    | .fan => ⟨0x10, 0x18, [0x00, 0x02, 0x00, 0x01]⟩
  let packet : ResponsePacket := ⟨⟨0x23, 0x27, 0x05, command, 0x80, 0x06⟩, body, {}⟩
  { packet with tail := ⟨packet.calculateChecksum, kEnd⟩ }

def sampleBoard (command : UInt8) (actuator : Actuator) : MasterBoard :=
  boardReceiving (samplePacket command actuator).packet

def sampleHeader (command : UInt8) : ResponseHeader := ⟨0x23, 0x27, 0x05, command, 0x80, 0x06⟩

theorem sameButActuator_sample {command : UInt8}
    (hreceived : ∀ actuator,
      received (sampleBoard command actuator) = some (samplePacket command actuator)) :
    SameButActuator (sampleBoard command) (samplePacket command) 1 (sampleHeader command)
      [0x00, 0x02, 0x00, 0x01] 0 where
  received := hreceived
  masterId _ := rfl
  header _ := rfl
  data actuator := by cases actuator <;> rfl
  address actuator := by cases actuator <;> rfl

theorem actuators_alike_iff_read :
    (∃ (listened : Actuator → Listened) (message : Actuator → SlaveMessage)
        (payload : Actuator → Payload),
      (∀ actuator, listeningMaster .release (sampleBoard kMemoryRead actuator) =
        .ok (listened actuator)) ∧
      Alike 1 (samplePacket kMemoryRead) (fun actuator => (listened actuator).published)
        message payload) ↔
      (sampleHeader kMemoryRead).command ≠ kEmergency :=
  actuators_alike_iff (by decide) (.inl rfl)
    (sameButActuator_sample fun actuator => by cases actuator <;> decide +kernel)

/-- The emergency of the fan is followed by an assert message. -/
theorem fanEmergency_published_twice :
    ¬ ∀ (boards : Actuator → MasterBoard) (packets : Actuator → ResponsePacket)
      (masterId : ℕ) (header : ResponseHeader) (data : List UInt8) (offset : ℕ),
      offset < 60 →
      (header.command = kMemoryRead ∨ header.command = kMemoryWrite ∨
        header.command = kEmergency) →
      4 ≤ data.length → SameButActuator boards packets masterId header data offset →
        ∃ (listened : Actuator → Listened) (message : Actuator → SlaveMessage)
            (payload : Actuator → Payload),
          (∀ actuator,
            listeningMaster .release (boards actuator) = .ok (listened actuator)) ∧
          Alike masterId packets (fun actuator => (listened actuator).published) message
            payload := by
  intro hall
  obtain ⟨listened, message, payload, hcalls, halike⟩ := hall (sampleBoard kEmergency)
    (samplePacket kEmergency) 1 (sampleHeader kEmergency) [0x00, 0x02, 0x00, 0x01] 0
    (by decide) (.inr (.inr rfl)) (by decide)
    (sameButActuator_sample fun actuator => by cases actuator <;> decide +kernel)
  have htwice : (listeningMaster .release (sampleBoard kEmergency .fan)).map
      (fun listened => listened.published.length) = .ok 2 := by
    decide +kernel
  rw [hcalls .fan] at htwice
  have hlength : (listened .fan).published.length = 2 := Except.ok.inj htwice
  rw [halike.one .fan] at hlength
  simp at hlength

end IotGateway
