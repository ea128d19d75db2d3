import IotGateway.BodyAccess
import IotGateway.Provenance
import IotGateway.Watchdog

/-!
# Packets that carry an error code

An error code other than `kOK` says that the command has failed.  Only the
answers to a memory write look at it, so that other packets with an error are
reported as if their command had succeeded.
-/

namespace IotGateway

open Faults GatewayManager Levels MqttTopic

def SlaveMessage.Success : SlaveMessage → Prop
  | .temperature => True
  | .state _ => True
  | .response _ => True
  | .responseFail _ => False

/-- Readers of the publication take it for the success of a command. -/
def ReportsSuccess (publication : Publication) : Prop :=
  publication = ⟨kPollingTopic, .number kOK.toNat⟩ ∨
    ∃ (masterId slaveId : ℕ) (message : SlaveMessage), message.Success ∧
      publication.topic = slaveTopic masterId slaveId message.suffix

structure KeepsFailure (board : MasterBoard) (listened : Listened) : Prop where
  published : ∀ publication ∈ listened.published, ¬ ReportsSuccess publication
  pollingCount : listened.board.pollingCount = board.pollingCount

section Publications

variable {build : Build} {masterId : ℕ} {packet : ResponsePacket}
  {published : List Publication} {publication : Publication}

theorem reportsSuccess_slavePublication
    {message : SlaveMessage} (hsuccess : message.Success) (payload : Payload) :
    ReportsSuccess (slavePublication masterId packet message payload) :=
  .inr ⟨masterId, packet.header.targetId.toNat, message, hsuccess, rfl⟩

theorem not_reportsSuccess_responseFail
    (masterId : ℕ) (packet : ResponsePacket) (actuator : Actuator) (payload : Payload) :
    ¬ ReportsSuccess (slavePublication masterId packet (.responseFail actuator) payload) := by
  rintro (hpolling | ⟨masterId', slaveId, message, hsuccess, htopic⟩)
  · have htopic : slaveTopic masterId packet.header.targetId.toNat
        (SlaveMessage.responseFail actuator).suffix = kPollingTopic :=
      congrArg Publication.topic hpolling
    apply not_notice_slaveTopic masterId packet.header.targetId.toNat
    rw [htopic]
    exact .polling
  · have hsuffix := (slaveTopic_inj htopic).2.2
    rw [← SlaveMessage.suffix_injective hsuffix] at hsuccess
    exact hsuccess

theorem not_reportsSuccess_of_notice
    (hnotice : Notice publication.topic) (htopic : publication.topic ≠ kPollingTopic) :
    ¬ ReportsSuccess publication := by
  rintro (rfl | ⟨masterId, slaveId, message, _, hslave⟩)
  · exact htopic rfl
  · rw [hslave] at hnotice
    exact not_notice_slaveTopic _ _ _ hnotice

theorem not_reportsSuccess_of_mem_publishAssert {name : String}
    (hmem : publication ∈ publishAssert name packet) : ¬ ReportsSuccess publication := by
  apply not_reportsSuccess_of_notice (notice_of_mem_publishAssert hmem)
  rw [List.mem_singleton.mp hmem]
  intro htopic
  have hlevels := congrArg levels htopic
  have hpolling : levels kPollingTopic =
      ["master".toList, "1".toList, "polling".toList] := by decide
  rw [assertTopic_eq, levels_masterTopic, levels_cons rfl (by decide), hpolling] at hlevels
  simp at hlevels

theorem not_reportsSuccess_of_mem_ifDebug {name : String}
    (hmem : publication ∈ build.ifDebug (publishAssert name packet)) :
    ¬ ReportsSuccess publication := by
  cases build with
  | release => cases hmem
  | debug => exact not_reportsSuccess_of_mem_publishAssert hmem

theorem not_reportsSuccess_of_mem_headerErrors
    (hmem : publication ∈ headerErrors build packet) : ¬ ReportsSuccess publication := by
  apply not_reportsSuccess_of_notice (notice_of_mem_headerErrors hmem)
  unfold headerErrors at hmem
  split at hmem
  · cases build with
    | release => cases hmem
    | debug =>
        rw [List.mem_singleton.mp hmem]
        exact (by decide : kErrorTopic ≠ kPollingTopic)
  · cases hmem

/-- The packets with an error whose dispatch says nothing about a success. -/
def FailureSeen (packet : ResponsePacket) : Prop :=
  let address := targetMemoryAddress packet
  packet.header.command = kMemoryWrite ∨
    packet.header.command = kMemoryRead ∧
      ¬ (kTemperatureStart ≤ address ∧ address ≤ kTemperatureEnd) ∧
      OutsideActuators address

/-- What says nothing about a success comes from a packet whose failure is seen. -/
theorem Dispatched.failureSeen
    (hdispatched : Dispatched build masterId packet published)
    (hcommand : packet.header.command = kPolling ∨ packet.header.command = kMemoryRead ∨
      packet.header.command = kMemoryWrite)
    (hfailure : ∀ publication ∈ published, ¬ ReportsSuccess publication) :
    FailureSeen packet := by
  have hnot_emergency : packet.header.command ≠ kEmergency := by
    rcases hcommand with hpolling | hread | hwrite
    · rw [hpolling]
      decide
    · rw [hread]
      decide
    · rw [hwrite]
      decide
  have hnot_slave : ∀ (message : SlaveMessage) (payload : Payload), message.Success →
      slavePublication masterId packet message payload ∉ published :=
    fun message payload hsuccess hmem =>
      hfailure _ hmem (reportsSuccess_slavePublication hsuccess payload)
  cases hdispatched with
  | polling hpolling =>
      exact (hfailure _ (List.mem_singleton_self _) (.inl rfl)).elim
  | temperature hread hstart hend hdata =>
      exact (hnot_slave .temperature _ trivial (List.mem_singleton_self _)).elim
  | humidity hread hstart hend =>
      refine .inr ⟨hread, fun htemperature => ?_, ?_⟩
      · exact absurd (hstart.trans htemperature.2) (by decide)
      · exact outsideActuators_of_lt (Nat.lt_of_le_of_lt hend (by decide))
  | readState actuator note hread haddress =>
      exact (hnot_slave (.state actuator) _ trivial
        (List.mem_append_right _ (List.mem_singleton_self _))).elim
  | readDefault hread htemperature hhumidity houtside =>
      exact .inr ⟨hread, htemperature, houtside⟩
  | response actuator hwrite haddress hcode => exact .inl hwrite
  | responseFail actuator hwrite haddress hcode => exact .inl hwrite
  | writeNotice name hwrite houtside => exact .inl hwrite
  | emergencyState actuator note hemergency haddress hlength hhigh hlow =>
      exact (hnot_emergency hemergency).elim
  | emergencyShort actuator note hemergency haddress hlength =>
      exact (hnot_emergency hemergency).elim
  | emergencyNotice name hemergency houtside => exact (hnot_emergency hemergency).elim
  | unknown hpolling hread hwrite hemergency =>
      rcases hcommand with hcommand | hcommand | hcommand
      · exact (hpolling hcommand).elim
      · exact (hread hcommand).elim
      · exact (hwrite hcommand).elim

theorem FailureSeen.command_ne
    (hseen : FailureSeen packet) :
    packet.header.command ≠ kPolling ∧ packet.header.command ≠ kEmergency := by
  rcases hseen with hwrite | ⟨hread, _⟩
  · rw [hwrite]
    decide
  · rw [hread]
    decide

theorem Dispatched.not_reportsSuccess
    (hdispatched : Dispatched build masterId packet published)
    (hcode : packet.header.errorCode ≠ kOK) (hseen : FailureSeen packet)
    (hmem : publication ∈ published) : ¬ ReportsSuccess publication := by
  obtain ⟨hnot_polling, hnot_emergency⟩ := hseen.command_ne
  have hread_outside : packet.header.command = kMemoryRead →
      ¬ (kTemperatureStart ≤ targetMemoryAddress packet ∧
        targetMemoryAddress packet ≤ kTemperatureEnd) ∧
      OutsideActuators (targetMemoryAddress packet) := by
    intro hread
    rcases hseen with hwrite | ⟨_, houtside⟩
    · rw [hread] at hwrite
      contradiction
    · exact houtside
  cases hdispatched with
  | polling hpolling => exact (hnot_polling hpolling).elim
  | temperature hread hstart hend hdata =>
      exact ((hread_outside hread).1 ⟨hstart, hend⟩).elim
  | humidity hread hstart hend =>
      rcases List.mem_append.mp hmem with hassert | htest
      · exact not_reportsSuccess_of_mem_publishAssert hassert
      · rw [List.mem_singleton.mp htest]
        exact not_reportsSuccess_of_notice .testResponsePacket
          (by decide : kTestResponsePacket ≠ kPollingTopic)
  | readState actuator note hread haddress =>
      exact ((hread_outside hread).2 actuator haddress).elim
  | readDefault hread htemperature hhumidity houtside =>
      exact not_reportsSuccess_of_mem_ifDebug hmem
  | response actuator hwrite haddress hok => exact (hcode hok).elim
  | responseFail actuator hwrite haddress hfail =>
      rw [List.mem_singleton.mp hmem]
      exact not_reportsSuccess_responseFail masterId packet actuator _
  | writeNotice name hwrite houtside => exact not_reportsSuccess_of_mem_publishAssert hmem
  | emergencyState actuator note hemergency haddress hlength hhigh hlow =>
      exact (hnot_emergency hemergency).elim
  | emergencyShort actuator note hemergency haddress hlength =>
      exact (hnot_emergency hemergency).elim
  | emergencyNotice name hemergency houtside => exact (hnot_emergency hemergency).elim
  | unknown hpolling hread hwrite hemergency =>
      exact not_reportsSuccess_of_mem_publishAssert hmem

theorem FailureSeen.faultOf_parseCommand
    (hseen : FailureSeen packet) (build : Build) (board : MasterBoard) :
    faultOf (parseCommand build board packet) = none := by
  rw [IotGateway.faultOf_parseCommand, if_neg hseen.command_ne.2]
  split
  next hread =>
    rcases hseen with hwrite | ⟨_, htemperature, _⟩
    · rw [hread] at hwrite
      contradiction
    · rw [faultOf_parseMemoryRead]
      exact if_neg fun hshort => htemperature hshort.1
  next => rfl

end Publications

/-- A packet with an error code is dispatched without a report of success, and
without a reset of the polling count, iff it answers a memory write, or a memory
read of an address that belongs to no sensor with a message of its own. -/
theorem keepsFailure_iff
    {build : Build} {board : MasterBoard} {packet : ResponsePacket}
    (hreceived : received board = some packet)
    (hcommand : packet.header.command = kPolling ∨ packet.header.command = kMemoryRead ∨
      packet.header.command = kMemoryWrite)
    (hcode : packet.header.errorCode ≠ kOK) :
    (∃ listened, listeningMaster build board = .ok listened ∧
      KeepsFailure board listened) ↔ FailureSeen packet := by
  constructor
  · rintro ⟨listened, hcall, hkeeps⟩
    obtain ⟨published, hdispatched, hpublished⟩ := exists_dispatched hreceived hcall
    apply hdispatched.failureSeen hcommand
    intro publication hmem
    apply hkeeps.published
    rw [hpublished]
    exact List.mem_append_right _ hmem
  · intro hseen
    obtain ⟨listened, hcall⟩ := exists_listened hreceived
      (hseen.faultOf_parseCommand build (afterReceive board))
    obtain ⟨published, hdispatched, hpublished⟩ := exists_dispatched hreceived hcall
    refine ⟨listened, hcall, ?_, ?_⟩
    · intro publication hmem
      rw [hpublished] at hmem
      rcases List.mem_append.mp hmem with herror | hdispatch
      · exact not_reportsSuccess_of_mem_headerErrors herror
      · exact hdispatched.not_reportsSuccess hcode hseen hdispatch
    · rw [listeningMaster_pollingCount hcall, hreceived]
      simp [hseen.command_ne.1]

/-- The answer to a write to the water pump, with the error code 1. -/
theorem keepsFailure_iff_write :
    (∃ listened, listeningMaster .release (boardReceiving
        [0x23, 0x27, 0x05, 0xd1, 0x01, 0x02, 0x0f, 0xa0, 0xd2, 0x0d]) = .ok listened ∧
      KeepsFailure (boardReceiving
        [0x23, 0x27, 0x05, 0xd1, 0x01, 0x02, 0x0f, 0xa0, 0xd2, 0x0d]) listened) ↔
    FailureSeen ⟨⟨0x23, 0x27, 0x05, 0xd1, 0x01, 0x02⟩, ⟨0x0f, 0xa0, []⟩, ⟨0xd2, 0x0d⟩⟩ :=
  keepsFailure_iff (by decide +kernel) (by decide) (by decide)

/-- An answer to a poll that carries the error code 1 is published as `kOK`. -/
theorem failedPoll_reportsSuccess :
    ¬ ∀ (build : Build) (board : MasterBoard) (packet : ResponsePacket),
      received board = some packet →
      (packet.header.command = kPolling ∨ packet.header.command = kMemoryRead ∨
        packet.header.command = kMemoryWrite) →
      packet.header.errorCode ≠ kOK →
        ∃ listened, listeningMaster build board = .ok listened ∧
          KeepsFailure board listened := by
  intro hall
  obtain ⟨listened, hcall, hkeeps⟩ := hall .release
    (boardReceiving [0x23, 0x27, 0xff, 0xa0, 0x01, 0x00, 0xea, 0x0d])
    ⟨⟨0x23, 0x27, 0xff, 0xa0, 0x01, 0x00⟩, {}, ⟨0xea, 0x0d⟩⟩
    (by decide +kernel) (by decide) (by decide)
  have hpublished : (listeningMaster .release
      (boardReceiving [0x23, 0x27, 0xff, 0xa0, 0x01, 0x00, 0xea, 0x0d])).map
        Listened.published = .ok [⟨kPollingTopic, .number kOK.toNat⟩] := by
    decide +kernel
  rw [hcall] at hpublished
  have hlist : listened.published = [⟨kPollingTopic, .number kOK.toNat⟩] :=
    Except.ok.inj hpublished
  apply hkeeps.published ⟨kPollingTopic, .number kOK.toNat⟩
  · rw [hlist]
    exact List.mem_singleton_self _
  · exact .inl rfl

end IotGateway
