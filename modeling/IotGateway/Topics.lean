import IotGateway.Library.Levels
import IotGateway.ListeningMaster

/-!
# Topics of published messages

A message about a slave is published on a topic that names the master, the
slave, the sensor and the kind of the message.  All other messages of the
gateway manager are notices on topics that are fixed at compile time.
-/

namespace IotGateway

open GatewayManager Levels MqttTopic

inductive Actuator where
  | water
  | led
  | fan
  deriving DecidableEq, Repr

namespace Actuator

def name : Actuator → String
  | .water => "water"
  | .led => "led"
  | .fan => "fan"

def start : Actuator → ℕ
  | .water => kMotorStart
  | .led => kLedStart
  | .fan => kFanStart

def end_ : Actuator → ℕ
  | .water => kMotorEnd
  | .led => kLedEnd
  | .fan => kFanEnd

/-- The memory addresses of the actuator. -/
def Contains (actuator : Actuator) (address : ℕ) : Prop :=
  actuator.start ≤ address ∧ address ≤ actuator.end_

instance (actuator : Actuator) (address : ℕ) : Decidable (actuator.Contains address) :=
  inferInstanceAs (Decidable (_ ∧ _))

theorem kMotorStart_le_start (actuator : Actuator) : kMotorStart ≤ actuator.start := by
  cases actuator <;> decide

theorem Contains.temperatureEnd_lt {actuator : Actuator} {address : ℕ}
    (haddress : actuator.Contains address) : kTemperatureEnd < address :=
  Nat.lt_of_lt_of_le (by decide) (actuator.kMotorStart_le_start.trans haddress.1)

theorem Contains.humidityEnd_lt {actuator : Actuator} {address : ℕ}
    (haddress : actuator.Contains address) : kHumidityEnd < address :=
  Nat.lt_of_lt_of_le (by decide) (actuator.kMotorStart_le_start.trans haddress.1)

theorem Contains.unique {actuator other : Actuator} {address : ℕ}
    (hactuator : actuator.Contains address) (hother : other.Contains address) :
    actuator = other := by
  unfold Contains at hactuator hother
  cases actuator <;> cases other <;>
    simp only [start, end_, kMotorStart, kMotorEnd, kLedStart, kLedEnd, kFanStart,
      kFanEnd] at hactuator hother <;>
    first | rfl | omega

end Actuator

inductive SlaveMessage where
  | temperature
  | state (actuator : Actuator)
  | response (actuator : Actuator)
  | responseFail (actuator : Actuator)
  deriving DecidableEq, Repr

/-- The end of the topic of such a message. -/
def SlaveMessage.suffix : SlaveMessage → String
  | .temperature => "temperature"
  | .state actuator => actuator.name ++ "/state"
  | .response actuator => actuator.name ++ "/state/response"
  | .responseFail actuator => actuator.name ++ "/state/response/fail"

def masterTopic (masterId : ℕ) (rest : String) : String :=
  "master/" ++ toString masterId ++ "/" ++ rest

def slaveTopic (masterId slaveId : ℕ) (rest : String) : String :=
  "master/" ++ toString masterId ++ "/slave/" ++ toString slaveId ++ "/" ++ rest

/-- The topics that do not depend on the board. -/
inductive Notice : String → Prop where
  | assert (name : String) : Notice (kAssertTopic ++ "/" ++ name)
  | error : Notice kErrorTopic
  | polling : Notice kPollingTopic
  | pollingError : Notice kPollingErrorTopic
  | testResponsePacket : Notice kTestResponsePacket

/-! ## Levels of the topics -/

theorem assertTopic_eq (name : String) :
    kAssertTopic ++ "/" ++ name = masterTopic 1 ("assert" ++ "/" ++ name) := by
  unfold masterTopic
  simp only [← String.append_assoc]
  rfl

theorem levels_masterTopic (masterId : ℕ) (rest : String) :
    levels (masterTopic masterId rest) =
      "master".toList :: (toString masterId).toList :: levels rest := by
  have hmaster : masterTopic masterId rest =
      "master" ++ "/" ++ (toString masterId ++ "/" ++ rest) := by
    unfold masterTopic
    simp only [String.append_assoc]
    rfl
  rw [levels_cons hmaster (by decide), levels_cons rfl (slash_notMem_toString masterId)]

theorem slaveTopic_eq (masterId slaveId : ℕ) (rest : String) :
    slaveTopic masterId slaveId rest =
      masterTopic masterId ("slave" ++ "/" ++ (toString slaveId ++ "/" ++ rest)) := by
  unfold slaveTopic masterTopic
  simp only [String.append_assoc]
  rfl

theorem levels_slaveTopic (masterId slaveId : ℕ) (rest : String) :
    levels (slaveTopic masterId slaveId rest) =
      "master".toList :: (toString masterId).toList :: "slave".toList ::
        (toString slaveId).toList :: levels rest := by
  rw [slaveTopic_eq, levels_masterTopic, levels_cons rfl (by decide),
    levels_cons rfl (slash_notMem_toString slaveId)]

theorem masterTopic_inj {masterId masterId' : ℕ} {rest rest' : String}
    (htopic : masterTopic masterId rest = masterTopic masterId' rest') :
    masterId = masterId' := by
  have hlevels := congrArg levels htopic
  rw [levels_masterTopic, levels_masterTopic] at hlevels
  simp only [List.cons.injEq, true_and] at hlevels
  exact toList_toString_inj.mp hlevels.1

/-- The topic tells master, slave and message apart. -/
theorem slaveTopic_inj {masterId masterId' slaveId slaveId' : ℕ} {rest rest' : String}
    (htopic : slaveTopic masterId slaveId rest = slaveTopic masterId' slaveId' rest') :
    masterId = masterId' ∧ slaveId = slaveId' ∧ rest = rest' := by
  have hlevels := congrArg levels htopic
  rw [levels_slaveTopic, levels_slaveTopic] at hlevels
  simp only [List.cons.injEq, true_and] at hlevels
  obtain ⟨hmaster, hslave, hrest⟩ := hlevels
  exact ⟨toList_toString_inj.mp hmaster, toList_toString_inj.mp hslave,
    levels_injective hrest⟩

theorem SlaveMessage.suffix_injective : Function.Injective SlaveMessage.suffix := by
  rintro (_ | first | first | first) (_ | second | second | second) <;>
    (try cases first) <;> (try cases second) <;> decide

end IotGateway
