import IotGateway.Topics

/-!
# Dispatch of packets

What the dispatch of a packet publishes, branch by branch.  A branch keeps its
condition on the command, the address and the error code, and the number in a
state or a temperature message is tied to the data bytes it comes from.
-/

namespace IotGateway

open Faults GatewayManager MqttTopic

def OutsideActuators (address : ℕ) : Prop :=
  ∀ actuator : Actuator, ¬ actuator.Contains address

def slavePublication (masterId : ℕ) (packet : ResponsePacket) (message : SlaveMessage)
    (payload : Payload) : Publication :=
  ⟨slaveTopic masterId packet.header.targetId.toNat message.suffix, payload⟩

/-- What the missing `return` behind the emergency of the fan adds. -/
def fallThrough (actuator : Actuator) (packet : ResponsePacket) : List Publication :=
  if actuator = .fan then publishAssert "EmergencyDefault" packet else []

inductive Dispatched (build : Build) (masterId : ℕ) (packet : ResponsePacket) :
    List Publication → Prop where
  | polling (hcommand : packet.header.command = kPolling) :
      Dispatched build masterId packet [⟨kPollingTopic, .number kOK.toNat⟩]
  | temperature {high low : UInt8} {more : List UInt8}
      (hcommand : packet.header.command = kMemoryRead)
      (hstart : kTemperatureStart ≤ targetMemoryAddress packet)
      (hend : targetMemoryAddress packet ≤ kTemperatureEnd)
      (hdata : packet.body.data = high :: low :: more) :
      Dispatched build masterId packet
        [slavePublication masterId packet .temperature
          (.decimal (temperatureOf high low))]
  | humidity (hcommand : packet.header.command = kMemoryRead)
      (hstart : kHumidityStart ≤ targetMemoryAddress packet)
      (hend : targetMemoryAddress packet ≤ kHumidityEnd) :
      Dispatched build masterId packet
        (publishAssert "MemReadHumidity" packet ++ publishTestPacket packet)
  | readState (actuator : Actuator) (note : String)
      (hcommand : packet.header.command = kMemoryRead)
      (haddress : actuator.Contains (targetMemoryAddress packet)) :
      Dispatched build masterId packet
        (build.ifDebug (publishAssert note packet) ++
          [slavePublication masterId packet (.state actuator) (.packet packet.packet)])
  | readDefault (hcommand : packet.header.command = kMemoryRead)
      (htemperature : ¬ (kTemperatureStart ≤ targetMemoryAddress packet ∧
        targetMemoryAddress packet ≤ kTemperatureEnd))
      (hhumidity : ¬ (kHumidityStart ≤ targetMemoryAddress packet ∧
        targetMemoryAddress packet ≤ kHumidityEnd))
      (houtside : OutsideActuators (targetMemoryAddress packet)) :
      Dispatched build masterId packet
        (build.ifDebug (publishAssert "MemReadDefault" packet))
  | response (actuator : Actuator)
      (hcommand : packet.header.command = kMemoryWrite)
      (haddress : actuator.Contains (targetMemoryAddress packet))
      (hcode : packet.header.errorCode = kOK) :
      Dispatched build masterId packet
        [slavePublication masterId packet (.response actuator) (.packet packet.packet)]
  | responseFail (actuator : Actuator)
      (hcommand : packet.header.command = kMemoryWrite)
      (haddress : actuator.Contains (targetMemoryAddress packet))
      (hcode : packet.header.errorCode ≠ kOK) :
      Dispatched build masterId packet
        [slavePublication masterId packet (.responseFail actuator) (.packet packet.packet)]
  | writeNotice (name : String) (hcommand : packet.header.command = kMemoryWrite)
      (houtside : OutsideActuators (targetMemoryAddress packet)) :
      Dispatched build masterId packet (publishAssert name packet)
  | emergencyState (actuator : Actuator) (note : String) {high low : UInt8}
      (hcommand : packet.header.command = kEmergency)
      (haddress : actuator.Contains (targetMemoryAddress packet))
      (hlength : 2 < packet.header.dataLength)
      (hhigh : packet.body.data[2]? = some high)
      (hlow : packet.body.data[3]? = some low) :
      Dispatched build masterId packet
        (build.ifDebug (publishAssert note packet) ++
          [slavePublication masterId packet (.state actuator)
            (.number (high.toNat <<< 8 + low.toNat))] ++ fallThrough actuator packet)
  | emergencyShort (actuator : Actuator) (note : String)
      (hcommand : packet.header.command = kEmergency)
      (haddress : actuator.Contains (targetMemoryAddress packet))
      (hlength : packet.header.dataLength ≤ 2) :
      Dispatched build masterId packet
        (build.ifDebug (publishAssert note packet) ++
          publishAssert "emergencyDataLength" packet ++ fallThrough actuator packet)
  | emergencyNotice (name : String) (hcommand : packet.header.command = kEmergency)
      (houtside : OutsideActuators (targetMemoryAddress packet)) :
      Dispatched build masterId packet (publishAssert name packet)
  | unknown (hpolling : packet.header.command ≠ kPolling)
      (hread : packet.header.command ≠ kMemoryRead)
      (hwrite : packet.header.command ≠ kMemoryWrite)
      (hemergency : packet.header.command ≠ kEmergency) :
      Dispatched build masterId packet (publishAssert "ParseDefault" packet)

/-! ## Topics and data of the branches -/

theorem getSlaveStateTopic_name
    (board : MasterBoard) (slaveId : UInt8) (actuator : Actuator) (rest : String) :
    getSlaveStateTopic board slaveId actuator.name ++ rest =
      slaveTopic board.masterId slaveId.toNat
        ((SlaveMessage.state actuator).suffix ++ rest) := by
  unfold getSlaveStateTopic slaveTopic SlaveMessage.suffix kMasterTopic
  simp only [String.append_assoc]

theorem publishStateTopic_name
    (board : MasterBoard) (packet : ResponsePacket) (actuator : Actuator) :
    publishStateTopic board packet actuator.name =
      [slavePublication board.masterId packet (.state actuator)
        (.packet packet.packet)] := by
  have htopic := getSlaveStateTopic_name board packet.header.targetId actuator ""
  rw [String.append_empty, String.append_empty] at htopic
  unfold publishStateTopic
  rw [htopic]
  rfl

theorem publishResponse_name
    (board : MasterBoard) (packet : ResponsePacket) (actuator : Actuator) :
    publishResponse board packet actuator.name =
      [slavePublication board.masterId packet
        (if packet.header.errorCode = kOK then .response actuator
          else .responseFail actuator) (.packet packet.packet)] := by
  unfold publishResponse
  simp only
  rw [String.append_assoc, getSlaveStateTopic_name]
  split
  · cases actuator <;> rfl
  · cases actuator <;> rfl

theorem dataAt_eq_ok {packet : ResponsePacket} {index : ℕ} {byte : UInt8}
    (hbyte : dataAt packet index = .ok byte) : packet.body.data[index]? = some byte := by
  unfold dataAt at hbyte
  split at hbyte
  next found hfound =>
    cases hbyte
    exact hfound
  next => cases hbyte

theorem outsideActuators_of_not
    {address : ℕ} (hmotor : ¬ (kMotorStart ≤ address ∧ address ≤ kMotorEnd))
    (hled : ¬ (kLedStart ≤ address ∧ address ≤ kLedEnd))
    (hfan : ¬ (kFanStart ≤ address ∧ address ≤ kFanEnd)) : OutsideActuators address := by
  intro actuator
  cases actuator with
  | water => exact hmotor
  | led => exact hled
  | fan => exact hfan

theorem outsideActuators_of_lt {address : ℕ} (hlt : address < kMotorStart) :
    OutsideActuators address := by
  intro actuator ⟨hstart, _⟩
  have hmotor := actuator.kMotorStart_le_start
  omega

/-! ## The branches, one by one -/

variable {build : Build} {board : MasterBoard} {packet : ResponsePacket}
  {published : List Publication}

theorem exists_of_publishTemperature
    (hpublish : publishTemperature board packet = .ok published) :
    ∃ high low more, packet.body.data = high :: low :: more ∧
      published = [slavePublication board.masterId packet .temperature
        (.decimal (temperatureOf high low))] := by
  obtain ⟨high, hhigh, hnext⟩ := exists_of_bind_eq_ok hpublish
  obtain ⟨low, hlow, hresult⟩ := exists_of_bind_eq_ok hnext
  have hfirst := dataAt_eq_ok hhigh
  have hsecond := dataAt_eq_ok hlow
  cases hresult
  match hdata : packet.body.data with
  | [] =>
      rw [hdata] at hfirst
      cases hfirst
  | [_] =>
      rw [hdata] at hsecond
      cases hsecond
  | _ :: _ :: more =>
      rw [hdata] at hfirst hsecond
      cases hfirst
      cases hsecond
      refine ⟨high, low, more, rfl, ?_⟩
      unfold slavePublication slaveTopic SlaveMessage.suffix
      simp only [String.append_assoc]
      rfl

theorem exists_of_publishSensorStateTopic {actuator : Actuator}
    (hpublish : publishSensorStateTopic board packet actuator.name = .ok published) :
    (packet.header.dataLength ≤ 2 ∧
      published = publishAssert "emergencyDataLength" packet) ∨
    (2 < packet.header.dataLength ∧ ∃ high low, packet.body.data[2]? = some high ∧
      packet.body.data[3]? = some low ∧
      published = [slavePublication board.masterId packet (.state actuator)
        (.number (high.toNat <<< 8 + low.toNat))]) := by
  unfold publishSensorStateTopic at hpublish
  split at hpublish
  next hshort =>
    cases hpublish
    exact .inl ⟨hshort, rfl⟩
  next hlong =>
    obtain ⟨high, hhigh, hnext⟩ := exists_of_bind_eq_ok hpublish
    obtain ⟨low, hlow, hresult⟩ := exists_of_bind_eq_ok hnext
    have htopic := getSlaveStateTopic_name board packet.header.targetId actuator ""
    rw [String.append_empty, String.append_empty] at htopic
    rw [htopic] at hresult
    cases hresult
    exact .inr ⟨UInt8.not_le.mp hlong, high, low, dataAt_eq_ok hhigh, dataAt_eq_ok hlow, rfl⟩

theorem dispatched_publishStateTopic
    (build : Build) (actuator : Actuator) (note : String)
    (hcommand : packet.header.command = kMemoryRead)
    (haddress : actuator.Contains (targetMemoryAddress packet)) :
    Dispatched build board.masterId packet
      (build.ifDebug (publishAssert note packet) ++
        publishStateTopic board packet actuator.name) := by
  rw [publishStateTopic_name]
  exact .readState actuator note hcommand haddress

theorem dispatched_of_parseMemoryRead
    (hcommand : packet.header.command = kMemoryRead)
    (hparse : parseMemoryRead build board packet (targetMemoryAddress packet) =
      .ok published) :
    Dispatched build board.masterId packet published := by
  unfold parseMemoryRead at hparse
  split at hparse
  next htemperature =>
    obtain ⟨high, low, more, hdata, rfl⟩ := exists_of_publishTemperature hparse
    exact .temperature hcommand htemperature.1 htemperature.2 hdata
  next htemperature =>
    split at hparse
    next hhumidity =>
      cases hparse
      exact .humidity hcommand hhumidity.1 hhumidity.2
    next hhumidity =>
      split at hparse
      next hmotor =>
        cases hparse
        exact dispatched_publishStateTopic build .water "MemReadMotor" hcommand hmotor
      next hmotor =>
        split at hparse
        next hled =>
          cases hparse
          exact dispatched_publishStateTopic build .led "MemReadLed" hcommand hled
        next hled =>
          split at hparse
          next hfan =>
            cases hparse
            exact dispatched_publishStateTopic build .fan "MemReadFan" hcommand hfan
          next hfan =>
            cases hparse
            exact .readDefault hcommand htemperature hhumidity
              (outsideActuators_of_not hmotor hled hfan)

theorem dispatched_publishResponse (actuator : Actuator)
    (hcommand : packet.header.command = kMemoryWrite)
    (haddress : actuator.Contains (targetMemoryAddress packet)) :
    Dispatched build board.masterId packet
      (publishResponse board packet actuator.name) := by
  rw [publishResponse_name]
  split
  next hcode => exact .response actuator hcommand haddress hcode
  next hcode => exact .responseFail actuator hcommand haddress hcode

theorem dispatched_parseMemoryWrite
    (hcommand : packet.header.command = kMemoryWrite) :
    Dispatched build board.masterId packet
      (parseMemoryWrite board packet (targetMemoryAddress packet)) := by
  unfold parseMemoryWrite
  split
  next htemperature =>
    apply Dispatched.writeNotice _ hcommand
    exact outsideActuators_of_lt (Nat.lt_of_le_of_lt htemperature.2 (by decide))
  next =>
    split
    next hhumidity =>
      apply Dispatched.writeNotice _ hcommand
      exact outsideActuators_of_lt (Nat.lt_of_le_of_lt hhumidity.2 (by decide))
    next =>
      split
      next hmotor => exact dispatched_publishResponse .water hcommand hmotor
      next hmotor =>
        split
        next hled => exact dispatched_publishResponse .led hcommand hled
        next hled =>
          split
          next hfan => exact dispatched_publishResponse .fan hcommand hfan
          next hfan =>
            exact .writeNotice _ hcommand (outsideActuators_of_not hmotor hled hfan)

theorem dispatched_of_publishSensorStateTopic
    (build : Build) (actuator : Actuator) (note : String)
    (hcommand : packet.header.command = kEmergency)
    (haddress : actuator.Contains (targetMemoryAddress packet))
    (hpublish : publishSensorStateTopic board packet actuator.name = .ok published) :
    Dispatched build board.masterId packet
      (build.ifDebug (publishAssert note packet) ++ published ++
        fallThrough actuator packet) := by
  rcases exists_of_publishSensorStateTopic hpublish with
    ⟨hshort, rfl⟩ | ⟨hlong, high, low, hhigh, hlow, rfl⟩
  · exact .emergencyShort actuator note hcommand haddress hshort
  · exact .emergencyState actuator note hcommand haddress hlong hhigh hlow

theorem dispatched_of_parseEmergency
    (hcommand : packet.header.command = kEmergency)
    (hparse : parseEmergency build board packet (targetMemoryAddress packet) =
      .ok published) :
    Dispatched build board.masterId packet published := by
  unfold parseEmergency at hparse
  split at hparse
  next htemperature =>
    cases hparse
    apply Dispatched.emergencyNotice _ hcommand
    exact outsideActuators_of_lt (Nat.lt_of_le_of_lt htemperature.2 (by decide))
  next =>
    split at hparse
    next hhumidity =>
      cases hparse
      apply Dispatched.emergencyNotice _ hcommand
      exact outsideActuators_of_lt (Nat.lt_of_le_of_lt hhumidity.2 (by decide))
    next =>
      split at hparse
      next hmotor =>
        obtain ⟨sent, hpublish, hresult⟩ := exists_of_bind_eq_ok hparse
        have hbranch := dispatched_of_publishSensorStateTopic build .water "EmergencyMotor"
          hcommand hmotor hpublish
        cases hresult
        simpa [fallThrough] using hbranch
      next hmotor =>
        split at hparse
        next hled =>
          obtain ⟨sent, hpublish, hresult⟩ := exists_of_bind_eq_ok hparse
          have hbranch := dispatched_of_publishSensorStateTopic build .led "EmergencyLed"
            hcommand hled hpublish
          cases hresult
          simpa [fallThrough] using hbranch
        next hled =>
          split at hparse
          next hfan =>
            obtain ⟨sent, hpublish, hresult⟩ := exists_of_bind_eq_ok hparse
            have hbranch := dispatched_of_publishSensorStateTopic build .fan "EmergencyFan"
              hcommand hfan hpublish
            cases hresult
            exact hbranch
          next hfan =>
            cases hparse
            exact .emergencyNotice _ hcommand (outsideActuators_of_not hmotor hled hfan)

theorem dispatched_of_parseCommand {board' : MasterBoard}
    (hparse : parseCommand build board packet = .ok (board', published)) :
    Dispatched build board.masterId packet published := by
  unfold parseCommand at hparse
  simp only at hparse
  split at hparse
  next hpolling =>
    cases hparse
    exact .polling hpolling
  next hpolling =>
    split at hparse
    next hread =>
      obtain ⟨sent, hsent, hresult⟩ := exists_of_bind_eq_ok hparse
      cases hresult
      exact dispatched_of_parseMemoryRead hread hsent
    next hread =>
      split at hparse
      next hwrite =>
        cases hparse
        exact dispatched_parseMemoryWrite hwrite
      next hwrite =>
        split at hparse
        next hemergency =>
          obtain ⟨sent, hsent, hresult⟩ := exists_of_bind_eq_ok hparse
          cases hresult
          exact dispatched_of_parseEmergency hemergency hsent
        next hemergency =>
          cases hparse
          exact .unknown hpolling hread hwrite hemergency

/-- What a call publishes that has received a packet. -/
theorem exists_dispatched {listened : Listened}
    (hreceived : received board = some packet)
    (hcall : listeningMaster build board = .ok listened) :
    ∃ published, Dispatched build board.masterId packet published ∧
      listened.published = headerErrors build packet ++ published := by
  rcases listeningMaster_cases hcall with
    ⟨hnone, _⟩ | ⟨packet', published, hsome, _, hparse, hpublished⟩
  · rw [hreceived] at hnone
    cases hnone
  · rw [hreceived] at hsome
    cases hsome
    have hdispatched := dispatched_of_parseCommand hparse
    exact ⟨published, hdispatched, hpublished⟩

theorem published_eq_nil {listened : Listened} (hreceived : received board = none)
    (hcall : listeningMaster build board = .ok listened) : listened.published = [] := by
  rcases listeningMaster_cases hcall with
    ⟨_, _, hnone, _⟩ | ⟨packet, published, hsome, _⟩
  · exact hnone
  · rw [hreceived] at hsome
    cases hsome

end IotGateway
