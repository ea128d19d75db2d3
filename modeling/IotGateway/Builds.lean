import IotGateway.Library.Deletions
import IotGateway.Sessions

/-!
# The two builds

A debug build makes the same calls as a release build and publishes the same
messages, with more notices about errors between them.
-/

namespace IotGateway

open Deletions Faults GatewayManager MqttTopic Runs

/-- The notices on the error topic and on the topics that begin like those of
the asserts. -/
def Diagnostic (publication : Publication) : Prop :=
  publication.topic = kErrorTopic ∨ ∃ rest, publication.topic = kAssertTopic ++ rest

/-! ## Calls of the parsers -/

theorem diagnostic_of_mem_publishAssert
    {name : String} {packet : ResponsePacket} {publication : Publication}
    (hmem : publication ∈ publishAssert name packet) : Diagnostic publication := by
  rw [List.mem_singleton.mp hmem]
  exact .inr ⟨"/" ++ name, String.append_assoc⟩

theorem thinned_publishAssert (name : String) (packet : ResponsePacket)
    (published : List Publication) :
    Thinned Diagnostic (Build.release.ifDebug (publishAssert name packet) ++ published)
      (Build.debug.ifDebug (publishAssert name packet) ++ published) :=
  Thinned.append_left fun _ hmem => diagnostic_of_mem_publishAssert hmem

variable (board : MasterBoard) (packet : ResponsePacket)

theorem parseMemoryRead_agree (address : ℕ) :
    Agree (Thinned Diagnostic) (parseMemoryRead .release board packet address)
      (parseMemoryRead .debug board packet address) := by
  unfold parseMemoryRead
  by_cases htemperature : kTemperatureStart ≤ address ∧ address ≤ kTemperatureEnd
  · rw [if_pos htemperature, if_pos htemperature]
    exact .refl Thinned.refl _
  rw [if_neg htemperature, if_neg htemperature]
  by_cases hhumidity : kHumidityStart ≤ address ∧ address ≤ kHumidityEnd
  · rw [if_pos hhumidity, if_pos hhumidity]
    exact .refl Thinned.refl _
  rw [if_neg hhumidity, if_neg hhumidity]
  by_cases hmotor : kMotorStart ≤ address ∧ address ≤ kMotorEnd
  · rw [if_pos hmotor, if_pos hmotor]
    exact .ok (thinned_publishAssert "MemReadMotor" packet _)
  rw [if_neg hmotor, if_neg hmotor]
  by_cases hled : kLedStart ≤ address ∧ address ≤ kLedEnd
  · rw [if_pos hled, if_pos hled]
    exact .ok (thinned_publishAssert "MemReadLed" packet _)
  rw [if_neg hled, if_neg hled]
  by_cases hfan : kFanStart ≤ address ∧ address ≤ kFanEnd
  · rw [if_pos hfan, if_pos hfan]
    exact .ok (thinned_publishAssert "MemReadFan" packet _)
  rw [if_neg hfan, if_neg hfan]
  exact .ok (Thinned.of_forall fun _ hmem => diagnostic_of_mem_publishAssert hmem)

/-- The branches of `ParseEmergency` for the actuators, of which one goes on
with the publications of `next`. -/
theorem publishSensorStateTopic_agree (sensorName name : String) (next : List Publication) :
    Agree (Thinned Diagnostic)
      (do
        let published ← publishSensorStateTopic board packet sensorName
        return Build.release.ifDebug (publishAssert name packet) ++ published ++ next)
      (do
        let published ← publishSensorStateTopic board packet sensorName
        return Build.debug.ifDebug (publishAssert name packet) ++ published ++ next) := by
  apply Agree.bind (Agree.refl (fun _ => rfl) (publishSensorStateTopic board packet sensorName))
  rintro published _ rfl
  exact .ok ((thinned_publishAssert name packet published).append (Thinned.refl next))

theorem parseEmergency_agree (address : ℕ) :
    Agree (Thinned Diagnostic) (parseEmergency .release board packet address)
      (parseEmergency .debug board packet address) := by
  have hmotor := publishSensorStateTopic_agree board packet "water" "EmergencyMotor" []
  have hled := publishSensorStateTopic_agree board packet "led" "EmergencyLed" []
  have hfan := publishSensorStateTopic_agree board packet "fan" "EmergencyFan"
    (publishAssert "EmergencyDefault" packet)
  simp only [List.append_nil] at hmotor hled
  unfold parseEmergency
  split
  · exact .refl Thinned.refl _
  · split
    · exact .refl Thinned.refl _
    · split
      · exact hmotor
      · split
        · exact hled
        · split
          · exact hfan
          · exact .refl Thinned.refl _

theorem parseCommand_agree :
    Agree (fun first second => first.1 = second.1 ∧ Thinned Diagnostic first.2 second.2)
      (parseCommand .release board packet) (parseCommand .debug board packet) := by
  have hrefl : ∀ result : MasterBoard × List Publication,
      result.1 = result.1 ∧ Thinned Diagnostic result.2 result.2 :=
    fun result => ⟨rfl, Thinned.refl _⟩
  unfold parseCommand
  simp only
  split
  · exact .refl hrefl _
  · split
    · exact (parseMemoryRead_agree board packet _).bind fun first second hthinned =>
        .ok ⟨rfl, hthinned⟩
    · split
      · exact .refl hrefl _
      · split
        · exact (parseEmergency_agree board packet _).bind fun first second hthinned =>
            .ok ⟨rfl, hthinned⟩
        · exact .refl hrefl _

/-! ## Calls of the gateway manager -/

theorem thinned_headerErrors :
    Thinned Diagnostic (headerErrors .release packet) (headerErrors .debug packet) := by
  unfold headerErrors
  split
  · apply Thinned.of_forall
    intro publication hmem
    rw [List.mem_singleton.mp hmem]
    exact .inl rfl
  · exact .nil

theorem listeningMaster_agree :
    Agree (fun first second => first.returned = second.returned ∧
        first.board = second.board ∧ Thinned Diagnostic first.published second.published)
      (listeningMaster .release board) (listeningMaster .debug board) := by
  unfold listeningMaster
  apply Agree.bind (Agree.refl (fun _ => rfl) (receiveValid board))
  rintro ⟨packet?, board'⟩ _ rfl
  cases packet? with
  | none => exact .ok ⟨rfl, rfl, .nil⟩
  | some packet =>
      apply (parseCommand_agree board' packet).bind
      rintro ⟨after, first⟩ ⟨after', second⟩ ⟨hboard, hthinned⟩
      exact .ok ⟨rfl, hboard, (thinned_headerErrors packet).append hthinned⟩

theorem perform_agree (call : Call) :
    Agree (fun first second => first.board = second.board ∧ first.pushed = second.pushed ∧
        Thinned Diagnostic first.published second.published)
      (perform .release call board) (perform .debug call board) := by
  cases call with
  | polling => exact .ok ⟨rfl, rfl, Thinned.refl _⟩
  | listeningMaster =>
      apply (listeningMaster_agree board).bind
      rintro first second ⟨_, hboard, hthinned⟩
      exact .ok ⟨hboard, rfl, hthinned⟩

/-! ## Sessions -/

namespace Session

def pushed (session : Session) : List (List UInt8) := session.history.flatMap Performed.pushed

def published (session : Session) : List Publication :=
  session.history.flatMap Performed.published

/-- The sessions of the two builds differ in diagnostics only. -/
structure SameButDiagnostics (release debug : Session) : Prop where
  board : release.board = debug.board
  pushed : release.pushed = debug.pushed
  published : Thinned Diagnostic release.published debug.published

theorem SameButDiagnostics.step {release debug : Session} (call : Call)
    (hsame : release.SameButDiagnostics debug) :
    Option.Rel SameButDiagnostics (step .release call release) (step .debug call debug) := by
  have hperform := perform_agree release.board call
  unfold Session.step
  rw [← hsame.board]
  generalize perform .release call release.board = first,
    perform .debug call release.board = second at hperform
  cases hperform with
  | error fault => exact .none
  | ok hrelated =>
      obtain ⟨hboard, hpushed, hpublished⟩ := hrelated
      refine .some ⟨hboard, ?_, ?_⟩
      · have hbefore := hsame.pushed
        unfold Session.pushed at hbefore ⊢
        simp only [List.flatMap_append, List.flatMap_singleton, hbefore, hpushed]
      · have hbefore := hsame.published
        unfold Session.published at hbefore ⊢
        simp only [List.flatMap_append, List.flatMap_singleton]
        exact hbefore.append hpublished

/-- From any board and for any calls, the two builds fault together, or they
reach the same board, enqueue the same frames, and the release build publishes
what the debug build does without some of its diagnostics. -/
theorem debug_only_adds_diagnostics (calls : List Call) (board : MasterBoard) :
    Option.Rel SameButDiagnostics (run (step .release) calls (start board))
      (run (step .debug) calls (start board)) :=
  rel_run ⟨rfl, rfl, .nil⟩ (fun call _ _ hsame => hsame.step call) calls

end Session

end IotGateway
