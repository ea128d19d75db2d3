import IotGateway.Provenance
import IotGateway.Setup

/-!
# Topics with the master id

The topics of slaves carry the id that the board was set up with, the notices
the id 1 that is fixed at compile time.  A gateway with another id stays below
its own topics as long as nothing in its session calls for a notice.
-/

namespace IotGateway

open GatewayManager Levels MqttTopic Runs

def OwnTopic (masterId : ℕ) (topic : String) : Prop :=
  topic = kTestResponsePacket ∨ ∃ rest, topic = masterTopic masterId rest

def OwnTopics (masterId : ℕ) (published : List Publication) : Prop :=
  ∀ publication ∈ published, OwnTopic masterId publication.topic

/-- The packets for which the dispatch of the command publishes no notice. -/
def DispatchedAlone (build : Build) (packet : ResponsePacket) : Prop :=
  let address := targetMemoryAddress packet
  if packet.header.command = kMemoryRead then
    (kTemperatureStart ≤ address ∧ address ≤ kTemperatureEnd) ∨
      build = .release ∧ ¬ (kHumidityStart ≤ address ∧ address ≤ kHumidityEnd)
  else if packet.header.command = kMemoryWrite then
    ∃ actuator : Actuator, actuator.Contains address
  else
    packet.header.command = kEmergency ∧ build = .release ∧
      2 < packet.header.dataLength ∧
      ∃ actuator : Actuator, actuator ≠ .fan ∧ actuator.Contains address

/-- The packets that are answered without a notice. -/
def WithoutNotice (build : Build) (packet : ResponsePacket) : Prop :=
  (build = .debug → packet.header.errorCode = kOK) ∧ DispatchedAlone build packet

def Performed.WithoutNotice (build : Build) (performed : Performed) : Prop :=
  match performed.call with
  | .polling => performed.before.pollingCount ≤ kMaxPollingCount
  | .listeningMaster =>
      ∀ packet, received performed.before = some packet →
        IotGateway.WithoutNotice build packet

/-! ## Own topics -/

theorem ownTopic_masterTopic_iff {masterId masterId' : ℕ} {rest : String} :
    OwnTopic masterId (masterTopic masterId' rest) ↔ masterId' = masterId := by
  constructor
  · rintro (htest | ⟨rest', htopic⟩)
    · have hlevels := congrArg levels htest
      have hsingle : levels kTestResponsePacket = ["test-res-packet".toList] := by decide
      rw [levels_masterTopic, hsingle] at hlevels
      simp at hlevels
    · exact masterTopic_inj htopic
  · rintro rfl
    exact .inr ⟨rest, rfl⟩

theorem exists_of_notice {topic : String} (hnotice : Notice topic) :
    topic = kTestResponsePacket ∨ ∃ rest, topic = masterTopic 1 rest := by
  cases hnotice with
  | assert name => exact .inr ⟨_, assertTopic_eq name⟩
  | error => exact .inr ⟨"error", rfl⟩
  | polling => exact .inr ⟨"polling", rfl⟩
  | pollingError => exact .inr ⟨"polling/error", rfl⟩
  | testResponsePacket => exact .inl rfl

theorem ownTopic_slaveTopic (masterId slaveId : ℕ) (rest : String) :
    OwnTopic masterId (slaveTopic masterId slaveId rest) := by
  rw [slaveTopic_eq]
  exact .inr ⟨_, rfl⟩

/-- A gateway whose id is the fixed one has only its own topics. -/
theorem Sourced.ownTopic {packet : ResponsePacket} {publication : Publication}
    (hsourced : Sourced 1 packet publication) : OwnTopic 1 publication.topic := by
  cases hsourced with
  | notice hnotice => exact exists_of_notice hnotice
  | slave hreports htopic =>
      rw [htopic]
      exact ownTopic_slaveTopic _ _ _

theorem ownTopics_append {masterId : ℕ} {first second : List Publication} :
    OwnTopics masterId (first ++ second) ↔
      OwnTopics masterId first ∧ OwnTopics masterId second := by
  unfold OwnTopics
  simp only [List.mem_append, or_imp, forall_and]

theorem ownTopics_singleton {masterId : ℕ} {publication : Publication} :
    OwnTopics masterId [publication] ↔ OwnTopic masterId publication.topic := by
  unfold OwnTopics
  simp

theorem ownTopics_nil (masterId : ℕ) : OwnTopics masterId [] := by
  intro publication hmem
  cases hmem

theorem ownTopics_slavePublication
    (masterId : ℕ) (packet : ResponsePacket) (message : SlaveMessage) (payload : Payload) :
    OwnTopics masterId [slavePublication masterId packet message payload] :=
  ownTopics_singleton.mpr (ownTopic_slaveTopic _ _ _)

/-! ## Gateways with another id than the fixed one -/

section OtherId

variable {build : Build} {masterId : ℕ} {packet : ResponsePacket} {name : String}
  {actuator : Actuator} {published : List Publication}

theorem not_ownTopics_masterTopic_one
    (hother : masterId ≠ 1) (rest : String) (payload : Payload) :
    ¬ OwnTopics masterId [⟨masterTopic 1 rest, payload⟩] := by
  rw [ownTopics_singleton, ownTopic_masterTopic_iff]
  exact hother.symm

theorem not_ownTopics_publishAssert (hother : masterId ≠ 1) :
    ¬ OwnTopics masterId (publishAssert name packet) := by
  unfold publishAssert publishError
  rw [assertTopic_eq]
  exact not_ownTopics_masterTopic_one hother _ _

theorem ownTopics_ifDebug_iff (hpublished : ¬ OwnTopics masterId published) :
    OwnTopics masterId (build.ifDebug published) ↔ build = .release := by
  cases build with
  | release => simp [Build.ifDebug, ownTopics_nil]
  | debug => simp [Build.ifDebug, hpublished]

theorem ownTopics_headerErrors_iff (hother : masterId ≠ 1) :
    OwnTopics masterId (headerErrors build packet) ↔
      (build = .debug → packet.header.errorCode = kOK) := by
  have herror : ¬ OwnTopics masterId (publishError kErrorTopic (packetToString packet)) :=
    not_ownTopics_masterTopic_one hother "error" _
  unfold headerErrors
  split
  next hcode =>
    rw [ownTopics_ifDebug_iff herror]
    cases build <;> simp [hcode]
  next hcode =>
    simp [ownTopics_nil, not_not.mp hcode]

theorem ownTopics_fallThrough_iff (hother : masterId ≠ 1) :
    OwnTopics masterId (fallThrough actuator packet) ↔ actuator ≠ .fan := by
  unfold fallThrough
  split
  next hfan => simp [hfan, not_ownTopics_publishAssert hother]
  next hfan => simp [hfan, ownTopics_nil]

theorem dispatchedAlone_read_iff (hcommand : packet.header.command = kMemoryRead) :
    DispatchedAlone build packet ↔
      (kTemperatureStart ≤ targetMemoryAddress packet ∧
          targetMemoryAddress packet ≤ kTemperatureEnd) ∨
        build = .release ∧ ¬ (kHumidityStart ≤ targetMemoryAddress packet ∧
          targetMemoryAddress packet ≤ kHumidityEnd) := by
  unfold DispatchedAlone
  simp only
  rw [if_pos hcommand]

theorem dispatchedAlone_write_iff (hcommand : packet.header.command = kMemoryWrite) :
    DispatchedAlone build packet ↔
      ∃ actuator : Actuator, actuator.Contains (targetMemoryAddress packet) := by
  have hread : packet.header.command ≠ kMemoryRead := by
    rw [hcommand]
    decide
  unfold DispatchedAlone
  simp only
  rw [if_neg hread, if_pos hcommand]

theorem dispatchedAlone_otherwise_iff (hread : packet.header.command ≠ kMemoryRead)
    (hwrite : packet.header.command ≠ kMemoryWrite) :
    DispatchedAlone build packet ↔ packet.header.command = kEmergency ∧ build = .release ∧
      2 < packet.header.dataLength ∧
      ∃ actuator : Actuator, actuator ≠ .fan ∧
        actuator.Contains (targetMemoryAddress packet) := by
  unfold DispatchedAlone
  simp only
  rw [if_neg hread, if_neg hwrite]

theorem dispatchedAlone_emergency_iff (hcommand : packet.header.command = kEmergency) :
    DispatchedAlone build packet ↔ build = .release ∧ 2 < packet.header.dataLength ∧
      ∃ actuator : Actuator, actuator ≠ .fan ∧
        actuator.Contains (targetMemoryAddress packet) := by
  have hread : packet.header.command ≠ kMemoryRead := by
    rw [hcommand]
    decide
  have hwrite : packet.header.command ≠ kMemoryWrite := by
    rw [hcommand]
    decide
  rw [dispatchedAlone_otherwise_iff hread hwrite, and_iff_right hcommand]

theorem Dispatched.ownTopics_dispatched_iff (hother : masterId ≠ 1)
    (hdispatched : Dispatched build masterId packet published) :
    OwnTopics masterId published ↔ DispatchedAlone build packet := by
  have hassert : ∀ name, ¬ OwnTopics masterId (publishAssert name packet) :=
    fun name => not_ownTopics_publishAssert hother
  cases hdispatched with
  | polling hcommand =>
      have hpolling : ¬ OwnTopics masterId [⟨kPollingTopic, .number kOK.toNat⟩] :=
        not_ownTopics_masterTopic_one hother "polling" _
      rw [dispatchedAlone_otherwise_iff (by rw [hcommand]; decide) (by rw [hcommand]; decide)]
      apply iff_of_false hpolling
      rintro ⟨hemergency, _⟩
      rw [hcommand] at hemergency
      exact absurd hemergency (by decide)
  | temperature hcommand hstart hend hdata =>
      rw [dispatchedAlone_read_iff hcommand]
      exact iff_of_true (ownTopics_slavePublication _ _ _ _) (.inl ⟨hstart, hend⟩)
  | humidity hcommand hstart hend =>
      rw [dispatchedAlone_read_iff hcommand, ownTopics_append]
      constructor
      · rintro ⟨hnotice, _⟩
        exact (hassert _ hnotice).elim
      · rintro (⟨_, htemperature⟩ | ⟨_, hhumidity⟩)
        · exact absurd (hstart.trans htemperature) (by decide)
        · exact (hhumidity ⟨hstart, hend⟩).elim
  | readState actuator note hcommand haddress =>
      have htemperature := Nat.not_le.mpr haddress.temperatureEnd_lt
      have hhumidity := Nat.not_le.mpr haddress.humidityEnd_lt
      rw [dispatchedAlone_read_iff hcommand, ownTopics_append,
        ownTopics_ifDebug_iff (hassert note)]
      simp [ownTopics_slavePublication, htemperature, hhumidity]
  | readDefault hcommand htemperature hhumidity houtside =>
      rw [dispatchedAlone_read_iff hcommand, ownTopics_ifDebug_iff (hassert _)]
      simp [htemperature, hhumidity]
  | response actuator hcommand haddress hcode =>
      rw [dispatchedAlone_write_iff hcommand]
      exact iff_of_true (ownTopics_slavePublication _ _ _ _) ⟨actuator, haddress⟩
  | responseFail actuator hcommand haddress hcode =>
      rw [dispatchedAlone_write_iff hcommand]
      exact iff_of_true (ownTopics_slavePublication _ _ _ _) ⟨actuator, haddress⟩
  | writeNotice name hcommand houtside =>
      rw [dispatchedAlone_write_iff hcommand]
      exact iff_of_false (hassert name) (not_exists.mpr houtside)
  | emergencyState actuator note hcommand haddress hlength hhigh hlow =>
      rw [dispatchedAlone_emergency_iff hcommand, ownTopics_append, ownTopics_append,
        ownTopics_ifDebug_iff (hassert note), ownTopics_fallThrough_iff hother]
      constructor
      · rintro ⟨⟨hrelease, _⟩, hfan⟩
        exact ⟨hrelease, hlength, actuator, hfan, haddress⟩
      · rintro ⟨hrelease, _, other, hfan, hcontains⟩
        rw [haddress.unique hcontains]
        exact ⟨⟨hrelease, ownTopics_slavePublication _ _ _ _⟩, hfan⟩
  | emergencyShort actuator note hcommand haddress hlength =>
      rw [dispatchedAlone_emergency_iff hcommand, ownTopics_append, ownTopics_append]
      constructor
      · rintro ⟨⟨_, hnotice⟩, _⟩
        exact (hassert _ hnotice).elim
      · rintro ⟨_, hlong, _⟩
        exact (UInt8.not_le.mpr hlong hlength).elim
  | emergencyNotice name hcommand houtside =>
      rw [dispatchedAlone_emergency_iff hcommand]
      apply iff_of_false (hassert name)
      rintro ⟨_, _, actuator, _, hcontains⟩
      exact houtside actuator hcontains
  | unknown hpolling hread hwrite hemergency =>
      rw [dispatchedAlone_otherwise_iff hread hwrite]
      exact iff_of_false (hassert _) fun hcommand => hemergency hcommand.1

/-- What a gateway with another id publishes for a packet stays below its own
topics iff the packet is answered without a notice. -/
theorem Dispatched.ownTopics_iff (hother : masterId ≠ 1)
    (hdispatched : Dispatched build masterId packet published) :
    OwnTopics masterId (headerErrors build packet ++ published) ↔
      WithoutNotice build packet := by
  rw [ownTopics_append, ownTopics_headerErrors_iff hother,
    hdispatched.ownTopics_dispatched_iff hother]
  rfl

end OtherId

/-! ## Sessions -/

theorem Performed.ownTopics_iff
    {build : Build} {call : Call} {board : MasterBoard} {performed : Performed}
    (hother : board.masterId ≠ 1) (hperform : perform build call board = .ok performed) :
    OwnTopics board.masterId performed.published ↔ performed.WithoutNotice build := by
  obtain ⟨hcall, hbefore, ⟨hpolling, _, _, hpublished⟩ |
    ⟨hlistening, _, listened, hlistened, _, hpublished⟩⟩ := perform_cases hperform
  · unfold Performed.WithoutNotice
    rw [hcall, hpolling, hbefore, hpublished]
    unfold polling
    simp only
    split
    next hmany =>
      exact iff_of_false (not_ownTopics_masterTopic_one hother "polling/error" _)
        (Nat.not_le.mpr hmany)
    next hfew => exact iff_of_true (ownTopics_nil _) (Nat.not_lt.mp hfew)
  · unfold Performed.WithoutNotice
    rw [hcall, hlistening, hbefore, hpublished]
    simp only
    cases hreceived : received board with
    | none =>
        rw [published_eq_nil hreceived hlistened]
        exact iff_of_true (ownTopics_nil _) fun packet hsome => by cases hsome
    | some packet =>
        obtain ⟨published, hdispatched, hsent⟩ := exists_dispatched hreceived hlistened
        rw [hsent, hdispatched.ownTopics_iff hother]
        simp only [Option.some.injEq, forall_eq']

theorem ownTopics_performed_of_one
    {build : Build} {call : Call} {board : MasterBoard} {performed : Performed}
    (hone : board.masterId = 1) (hperform : perform build call board = .ok performed) :
    OwnTopics 1 performed.published := by
  intro publication hmem
  obtain ⟨_, _, ⟨_, _, _, hpublished⟩ | ⟨_, _, listened, hlistened, _, hpublished⟩⟩ :=
    perform_cases hperform
  · rw [hpublished] at hmem
    exact exists_of_notice (notice_of_mem_polling hmem)
  · rw [hpublished] at hmem
    obtain ⟨packet, _, hsourced⟩ := sourced_of_mem_listeningMaster hlistened hmem
    rw [hone] at hsourced
    exact hsourced.ownTopic

namespace Session

/-- Either the fixed id is the right one, or nothing calls for a notice. -/
def NoticesFit (build : Build) (masterId : ℕ) (session : Session) : Prop :=
  masterId = 1 ∨ ∀ performed ∈ session.history, performed.WithoutNotice build

def PublishesOn (session : Session) (topic : String) : Prop :=
  ∃ performed ∈ session.history, ∃ publication ∈ performed.published,
    publication.topic = topic

theorem ownTopics_of_noticesFit
    {build : Build} {calls : List Call} {board : MasterBoard} {session : Session}
    (hrun : run (step build) calls (start board) = some session) :
    (∀ performed ∈ session.history, OwnTopics board.masterId performed.published) ↔
      session.NoticesFit build board.masterId := by
  have hrecorded := recorded_of_run hrun
  unfold NoticesFit
  by_cases hone : board.masterId = 1
  · apply iff_of_true _ (.inl hone)
    intro performed hmem
    obtain ⟨hperform, hmaster⟩ := hrecorded.history performed hmem
    rw [hone]
    exact ownTopics_performed_of_one (hmaster.trans hone) hperform
  · rw [or_iff_right hone]
    apply forall₂_congr
    intro performed hmem
    obtain ⟨hperform, hmaster⟩ := hrecorded.history performed hmem
    rw [← hmaster]
    exact Performed.ownTopics_iff (hmaster ▸ hone) hperform

/-- A session publishes below the topics of its own master iff its notices fit
the master's id, and two such sessions with different ids share no topic but
the one for tests. -/
theorem topics_below_own_master_iff
    {build : Build} {calls : List Call} {board : MasterBoard} {session : Session}
    (hrun : run (step build) calls (start board) = some session) :
    ((∀ performed ∈ session.history, OwnTopics board.masterId performed.published) ↔
      session.NoticesFit build board.masterId) ∧
    ∀ (build' : Build) (calls' : List Call) (board' : MasterBoard) (session' : Session),
      run (step build') calls' (start board') = some session' →
      board'.masterId ≠ board.masterId →
      session.NoticesFit build board.masterId →
      session'.NoticesFit build' board'.masterId →
      ∀ topic, session.PublishesOn topic → session'.PublishesOn topic →
        topic = kTestResponsePacket := by
  refine ⟨ownTopics_of_noticesFit hrun, ?_⟩
  intro build' calls' board' session' hrun' hne hfit hfit' topic hpublishes hpublishes'
  have hown := (ownTopics_of_noticesFit hrun).mpr hfit
  have hown' := (ownTopics_of_noticesFit hrun').mpr hfit'
  obtain ⟨performed, hperformed, publication, hmem, rfl⟩ := hpublishes
  obtain ⟨performed', hperformed', publication', hmem', htopic⟩ := hpublishes'
  rcases hown performed hperformed publication hmem with htest | ⟨rest, hrest⟩
  · exact htest
  · have hother := hown' performed' hperformed' publication' hmem'
    rw [htopic, hrest, ownTopic_masterTopic_iff] at hother
    exact absurd hother.symm hne

theorem topics_below_own_master_iff_temperature :
    ∃ session, run (step .release) [.listeningMaster]
        (start { boardReceiving
          [0x23, 0x22, 0x05, 0xc1, 0x80, 0x04, 0x07, 0xd0, 0x01, 0x80, 0xe7, 0x0d] with
            masterId := 2 }) = some session ∧
      (session.history.flatMap Performed.published).map Publication.topic =
        ["master/2/slave/5/temperature"] ∧
      ((∀ performed ∈ session.history, OwnTopics 2 performed.published) ↔
        session.NoticesFit .release 2) := by
  have hresult : (run (step .release) [.listeningMaster]
      (start { boardReceiving
        [0x23, 0x22, 0x05, 0xc1, 0x80, 0x04, 0x07, 0xd0, 0x01, 0x80, 0xe7, 0x0d] with
          masterId := 2 })).map
        (fun session =>
          (session.history.flatMap Performed.published).map Publication.topic) =
      some ["master/2/slave/5/temperature"] := by
    decide +kernel
  obtain ⟨session, hrun, htopics⟩ := Option.map_eq_some_iff.mp hresult
  exact ⟨session, hrun, htopics, (topics_below_own_master_iff hrun).1⟩

/-- The master id is read as 2, and the answer to a poll is published below the
topics of the master 1. -/
theorem polling_below_other_master :
    ¬ ∀ (build : Build) (calls : List Call) (fresh board : MasterBoard) (session : Session),
      setupMasterId fresh = .ok (true, board) →
      run (step build) calls (start board) = some session →
        ∀ performed ∈ session.history,
          OwnTopics board.masterId performed.published := by
  intro hall
  have hresult : (match setupMasterId (boardReceiving
      [0x23, 0x27, 0xff, 0xc1, 0x80, 0x04, 0x1f, 0xa5, 0x00, 0x02, 0x54, 0x0d,
        0x23, 0x27, 0xff, 0xa0, 0x80, 0x00, 0x69, 0x0d]) with
      | .ok (success, board) =>
          (run (step .release) [.listeningMaster] (start board)).map fun session =>
            (success, board.masterId, session.history.map Performed.published)
      | .error _ => none) =
      some (true, 2, [[⟨kPollingTopic, .number kOK.toNat⟩]]) := by
    decide +kernel
  split at hresult
  next success board hsetup =>
    obtain ⟨session, hrun, hvalues⟩ := Option.map_eq_some_iff.mp hresult
    simp only [Prod.mk.injEq] at hvalues
    obtain ⟨rfl, hmaster, hpublished⟩ := hvalues
    have hmem : [⟨kPollingTopic, .number kOK.toNat⟩] ∈
        session.history.map Performed.published := by
      rw [hpublished]
      exact List.mem_singleton_self _
    obtain ⟨performed, hperformed, heq⟩ := List.mem_map.mp hmem
    have hown := hall .release [.listeningMaster] _ board session hsetup hrun
      performed hperformed
    rw [hmaster, heq] at hown
    exact not_ownTopics_masterTopic_one (by decide) "polling" _ hown
  next => cases hresult

end Session

end IotGateway
