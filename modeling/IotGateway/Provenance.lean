import IotGateway.Dispatch
import IotGateway.Sessions

/-!
# Provenance of the messages about slaves

A message on a topic of a slave reports a packet with this slave as its target
that the same call has received, and the topic tells what was reported.
-/

namespace IotGateway

open GatewayManager Levels MqttTopic Runs

/-- The packets that a message about a slave may report. -/
inductive Reports (packet : ResponsePacket) : SlaveMessage → Prop where
  | temperature (hcommand : packet.header.command = kMemoryRead)
      (hstart : kTemperatureStart ≤ targetMemoryAddress packet)
      (hend : targetMemoryAddress packet ≤ kTemperatureEnd) :
      Reports packet .temperature
  | state {actuator : Actuator}
      (hcommand : packet.header.command = kMemoryRead ∨
        packet.header.command = kEmergency)
      (haddress : actuator.Contains (targetMemoryAddress packet)) :
      Reports packet (.state actuator)
  | response {actuator : Actuator} (hcommand : packet.header.command = kMemoryWrite)
      (haddress : actuator.Contains (targetMemoryAddress packet))
      (hcode : packet.header.errorCode = kOK) :
      Reports packet (.response actuator)
  | responseFail {actuator : Actuator} (hcommand : packet.header.command = kMemoryWrite)
      (haddress : actuator.Contains (targetMemoryAddress packet))
      (hcode : packet.header.errorCode ≠ kOK) :
      Reports packet (.responseFail actuator)

/-! ## Notices -/

theorem Notice.third_level {topic : String} (hnotice : Notice topic) :
    (levels topic)[2]? ≠ some "slave".toList := by
  cases hnotice with
  | assert name =>
      rw [assertTopic_eq, levels_masterTopic, levels_cons rfl (by decide)]
      simp
  | error => decide
  | polling => decide
  | pollingError => decide
  | testResponsePacket => decide

theorem not_notice_slaveTopic (masterId slaveId : ℕ) (rest : String) :
    ¬ Notice (slaveTopic masterId slaveId rest) := by
  intro hnotice
  apply hnotice.third_level
  rw [levels_slaveTopic]
  rfl

/-- Where a publication can come from. -/
inductive Sourced (masterId : ℕ) (packet : ResponsePacket) (publication : Publication) :
    Prop where
  | notice (htopic : Notice publication.topic)
  | slave {message : SlaveMessage} (hreports : Reports packet message)
      (htopic : publication.topic =
        slaveTopic masterId packet.header.targetId.toNat message.suffix)

section Sources

variable {build : Build} {masterId : ℕ} {packet : ResponsePacket}
  {published : List Publication} {publication : Publication}

theorem notice_of_mem_publishAssert {name : String}
    (hmem : publication ∈ publishAssert name packet) : Notice publication.topic := by
  rw [List.mem_singleton.mp hmem]
  exact .assert name

theorem notice_of_mem_ifDebug {name : String}
    (hmem : publication ∈ build.ifDebug (publishAssert name packet)) :
    Notice publication.topic := by
  cases build with
  | release => cases hmem
  | debug => exact notice_of_mem_publishAssert hmem

theorem notice_of_mem_fallThrough {actuator : Actuator}
    (hmem : publication ∈ fallThrough actuator packet) : Notice publication.topic := by
  unfold fallThrough at hmem
  split at hmem
  · exact notice_of_mem_publishAssert hmem
  · cases hmem

theorem notice_of_mem_headerErrors
    (hmem : publication ∈ headerErrors build packet) : Notice publication.topic := by
  unfold headerErrors at hmem
  split at hmem
  · cases build with
    | release => cases hmem
    | debug =>
        rw [List.mem_singleton.mp hmem]
        exact .error
  · cases hmem

theorem sourced_of_mem_slavePublication
    {message : SlaveMessage} {payload : Payload} (hreports : Reports packet message)
    (hmem : publication ∈ [slavePublication masterId packet message payload]) :
    Sourced masterId packet publication := by
  rw [List.mem_singleton.mp hmem]
  exact .slave hreports rfl

theorem Dispatched.sourced
    (hdispatched : Dispatched build masterId packet published)
    (hmem : publication ∈ published) : Sourced masterId packet publication := by
  cases hdispatched with
  | polling hcommand =>
      rw [List.mem_singleton.mp hmem]
      exact .notice .polling
  | temperature hcommand hstart hend hdata =>
      exact sourced_of_mem_slavePublication (.temperature hcommand hstart hend) hmem
  | humidity hcommand hstart hend =>
      rcases List.mem_append.mp hmem with hassert | htest
      · exact .notice (notice_of_mem_publishAssert hassert)
      · rw [List.mem_singleton.mp htest]
        exact .notice .testResponsePacket
  | readState actuator note hcommand haddress =>
      rcases List.mem_append.mp hmem with hnote | hstate
      · exact .notice (notice_of_mem_ifDebug hnote)
      · exact sourced_of_mem_slavePublication (.state (.inl hcommand) haddress) hstate
  | readDefault hcommand htemperature hhumidity houtside =>
      exact .notice (notice_of_mem_ifDebug hmem)
  | response actuator hcommand haddress hcode =>
      exact sourced_of_mem_slavePublication (.response hcommand haddress hcode) hmem
  | responseFail actuator hcommand haddress hcode =>
      exact sourced_of_mem_slavePublication (.responseFail hcommand haddress hcode) hmem
  | writeNotice name hcommand houtside =>
      exact .notice (notice_of_mem_publishAssert hmem)
  | emergencyState actuator note hcommand haddress hlength hhigh hlow =>
      rcases List.mem_append.mp hmem with hbefore | hfall
      · rcases List.mem_append.mp hbefore with hnote | hstate
        · exact .notice (notice_of_mem_ifDebug hnote)
        · exact sourced_of_mem_slavePublication (.state (.inr hcommand) haddress) hstate
      · exact .notice (notice_of_mem_fallThrough hfall)
  | emergencyShort actuator note hcommand haddress hlength =>
      rcases List.mem_append.mp hmem with hbefore | hfall
      · rcases List.mem_append.mp hbefore with hnote | hshort
        · exact .notice (notice_of_mem_ifDebug hnote)
        · exact .notice (notice_of_mem_publishAssert hshort)
      · exact .notice (notice_of_mem_fallThrough hfall)
  | emergencyNotice name hcommand houtside =>
      exact .notice (notice_of_mem_publishAssert hmem)
  | unknown hpolling hread hwrite hemergency =>
      exact .notice (notice_of_mem_publishAssert hmem)

end Sources

theorem sourced_of_mem_listeningMaster
    {build : Build} {board : MasterBoard} {listened : Listened} {publication : Publication}
    (hcall : listeningMaster build board = .ok listened)
    (hmem : publication ∈ listened.published) :
    ∃ packet, received board = some packet ∧
      Sourced board.masterId packet publication := by
  cases hreceived : received board with
  | none =>
      rw [published_eq_nil hreceived hcall] at hmem
      cases hmem
  | some packet =>
      obtain ⟨published, hdispatched, hpublished⟩ := exists_dispatched hreceived hcall
      refine ⟨packet, rfl, ?_⟩
      rw [hpublished] at hmem
      rcases List.mem_append.mp hmem with herror | hcommand
      · exact .notice (notice_of_mem_headerErrors herror)
      · exact hdispatched.sourced hcommand

theorem notice_of_mem_polling {board : MasterBoard} {publication : Publication}
    (hmem : publication ∈ (polling board).published) : Notice publication.topic := by
  unfold polling at hmem
  simp only at hmem
  split at hmem
  · rw [List.mem_singleton.mp hmem]
    exact .pollingError
  · cases hmem

/-- A publication of a call on a topic of a slave reports the packet that the
call has received. -/
theorem reports_of_mem_performed
    {build : Build} {call : Call} {board : MasterBoard} {performed : Performed}
    {publication : Publication} {masterId slaveId : ℕ} {rest : String}
    (hperform : perform build call board = .ok performed)
    (hmem : publication ∈ performed.published)
    (htopic : publication.topic = slaveTopic masterId slaveId rest) :
    call = .listeningMaster ∧ masterId = board.masterId ∧
      ∃ packet message, received board = some packet ∧ Reports packet message ∧
        packet.header.targetId.toNat = slaveId ∧ rest = message.suffix := by
  obtain ⟨_, _, ⟨_, _, _, hpublished⟩ | ⟨hcall, _, listened, hlistened, _, hpublished⟩⟩ :=
    perform_cases hperform
  · rw [hpublished] at hmem
    have hnotice := notice_of_mem_polling hmem
    rw [htopic] at hnotice
    exact (not_notice_slaveTopic _ _ _ hnotice).elim
  · rw [hpublished] at hmem
    obtain ⟨packet, hreceived, hsourced⟩ := sourced_of_mem_listeningMaster hlistened hmem
    cases hsourced with
    | notice hnotice =>
        rw [htopic] at hnotice
        exact (not_notice_slaveTopic _ _ _ hnotice).elim
    | @slave message hreports hslave =>
        obtain ⟨hmaster, htarget, hrest⟩ := slaveTopic_inj (htopic.symm.trans hslave)
        exact ⟨hcall, hmaster, packet, message, hreceived, hreports, htarget.symm, hrest⟩

/-- In every session, each message on a topic of a slave comes from a call of
`listeningMaster` that received a packet with this slave as its target, and the
command, the address and the error code of the packet are those the topic stands
for.  The topic determines the master, the slave and the message. -/
theorem Session.slaveTopics_provenance
    {build : Build} {calls : List Call} {board : MasterBoard} {session : Session}
    (hrun : run (step build) calls (start board) = some session) :
    (∀ performed ∈ session.history, ∀ publication ∈ performed.published,
      ∀ masterId slaveId rest, publication.topic = slaveTopic masterId slaveId rest →
        performed.call = .listeningMaster ∧ masterId = board.masterId ∧
          ∃ packet message, received performed.before = some packet ∧
            Reports packet message ∧ packet.header.targetId.toNat = slaveId ∧
            rest = message.suffix) ∧
    ∀ (masterId masterId' slaveId slaveId' : ℕ) (message message' : SlaveMessage),
      slaveTopic masterId slaveId message.suffix =
          slaveTopic masterId' slaveId' message'.suffix →
        masterId = masterId' ∧ slaveId = slaveId' ∧ message = message' := by
  have hrecorded := recorded_of_run hrun
  constructor
  · intro performed hperformed publication hmem masterId slaveId rest htopic
    obtain ⟨hperform, hmaster⟩ := hrecorded.history performed hperformed
    rw [← hmaster]
    exact reports_of_mem_performed hperform hmem htopic
  · intro masterId masterId' slaveId slaveId' message message' htopic
    obtain ⟨hmaster, hslave, hsuffix⟩ := slaveTopic_inj htopic
    exact ⟨hmaster, hslave, SlaveMessage.suffix_injective hsuffix⟩

theorem Session.slaveTopics_provenance_temperature :
    ∃ session, run (step .release) [.listeningMaster]
        (start (boardReceiving
          [0x23, 0x22, 0x05, 0xc1, 0x80, 0x04, 0x07, 0xd0, 0x01, 0x80, 0xe7, 0x0d])) =
          some session ∧
      (session.history.flatMap Performed.published).map Publication.topic =
        ["master/1/slave/5/temperature"] ∧
      ∀ performed ∈ session.history, ∀ publication ∈ performed.published,
        ∀ masterId slaveId rest, publication.topic = slaveTopic masterId slaveId rest →
          performed.call = .listeningMaster ∧ masterId = 1 ∧
            ∃ packet message, received performed.before = some packet ∧
              Reports packet message ∧ packet.header.targetId.toNat = slaveId ∧
              rest = message.suffix := by
  have hresult : (run (step .release) [.listeningMaster]
      (start (boardReceiving
        [0x23, 0x22, 0x05, 0xc1, 0x80, 0x04, 0x07, 0xd0, 0x01, 0x80, 0xe7, 0x0d]))).map
        (fun session =>
          (session.history.flatMap Performed.published).map Publication.topic) =
      some ["master/1/slave/5/temperature"] := by
    decide +kernel
  obtain ⟨session, hrun, htopics⟩ := Option.map_eq_some_iff.mp hresult
  exact ⟨session, hrun, htopics, (slaveTopics_provenance hrun).1⟩

end IotGateway
