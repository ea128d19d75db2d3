import IotGateway.Library.Faults
import IotGateway.MasterBoard
import IotGateway.ReceivePacket
import Mathlib.Algebra.Order.Round
import Mathlib.Data.Rat.Floor

/-!
# Listening to the master board

A packet with a valid checksum is dispatched on its command and its memory
address, and turned into messages for the broker.
-/

namespace IotGateway

/-- Whether `DEBUG` is defined. -/
inductive Build where
  | release
  | debug
  deriving DecidableEq, Repr

/-- What a published message consists of: a text of the program, the bytes of a
packet, or a number printed by `std::to_string`. -/
inductive Payload where
  | text (message : String)
  | packet (bytes : List UInt8)
  | number (value : ℕ)
  | decimal (value : ℚ)
  deriving DecidableEq

structure Publication where
  topic : String
  payload : Payload
  deriving DecidableEq

namespace MqttTopic

def kMasterTopic : String := "master/"
def kMasterId : String := "1"
def kAssertTopic : String := kMasterTopic ++ kMasterId ++ "/assert"
def kErrorTopic : String := kMasterTopic ++ kMasterId ++ "/error"
def kPollingTopic : String := kMasterTopic ++ kMasterId ++ "/polling"
def kPollingErrorTopic : String := kMasterTopic ++ kMasterId ++ "/polling/error"
def kTestResponsePacket : String := "test-res-packet"

end MqttTopic

open Faults MqttTopic

def packetToString (packet : ResponsePacket) : Payload := .packet packet.packet

def Build.ifDebug (build : Build) (published : List Publication) : List Publication :=
  match build with
  | .release => []
  | .debug => published

namespace GatewayManager

def getSlaveStateTopic (board : MasterBoard) (slaveId : UInt8) (sensorName : String) :
    String :=
  kMasterTopic ++ toString board.masterId ++ "/slave/" ++ toString slaveId.toNat ++
    "/" ++ sensorName ++ "/state"

def publishError (topic : String) (message : Payload) : List Publication :=
  [⟨topic, message⟩]

/-- The reports on topics below `kAssertTopic`. -/
def publishAssert (name : String) (packet : ResponsePacket) : List Publication :=
  publishError (kAssertTopic ++ "/" ++ name) (packetToString packet)

def publishTestPacket (packet : ResponsePacket) : List Publication :=
  [⟨kTestResponsePacket, packetToString packet⟩]

def publishStateTopic (board : MasterBoard) (packet : ResponsePacket)
    (sensorName : String) : List Publication :=
  [⟨getSlaveStateTopic board packet.header.targetId sensorName,
    packetToString packet⟩]

def publishLedTopic (board : MasterBoard) (packet : ResponsePacket) :
    List Publication := publishStateTopic board packet "led"

def publishMotorTopic (board : MasterBoard) (packet : ResponsePacket) :
    List Publication := publishStateTopic board packet "water"

def publishFanTopic (board : MasterBoard) (packet : ResponsePacket) :
    List Publication := publishStateTopic board packet "fan"

def publishPollingSuccess (board : MasterBoard) : MasterBoard × List Publication :=
  (board.resetPollingCount, [⟨kPollingTopic, .number kOK.toNat⟩])

def dataAt (packet : ResponsePacket) (index : ℕ) : Except Fault UInt8 :=
  match packet.body.data[index]? with
  | some byte => .ok byte
  | none => .error .bodyData

/-- The number computed by `PublishTemperature`, in exact arithmetic. -/
def temperatureOf (highData lowData : UInt8) : ℚ :=
  let ten : UInt8 := (highData &&& 0x0f) * 0x10
  let one : UInt8 := (lowData &&& 0xf0) / 0x10
  let point : ℚ := (highData &&& 0x0f).toNat * (1 / 10)
  let temperature : ℚ := (round (((ten.toNat + one.toNat : ℕ) + point) * 100) : ℚ) / 100
  if highData > 0xf0 then temperature * -1 else temperature

def publishTemperature (board : MasterBoard) (packet : ResponsePacket) :
    Except Fault (List Publication) := do
  let highData ← dataAt packet 0
  let lowData ← dataAt packet 1
  let slaveId := toString packet.header.targetId.toNat
  let topic :=
    "master/" ++ toString board.masterId ++ "/slave/" ++ slaveId ++ "/temperature"
  return [⟨topic, .decimal (temperatureOf highData lowData)⟩]

def publishSensorStateTopic (board : MasterBoard) (packet : ResponsePacket)
    (sensorName : String) : Except Fault (List Publication) :=
  if packet.header.dataLength ≤ 2 then
    .ok (publishAssert "emergencyDataLength" packet)
  else do
    let runtimeHighByte ← dataAt packet 2
    let runtimeLowByte ← dataAt packet 3
    let runtimeMinutes := runtimeHighByte.toNat <<< 8 + runtimeLowByte.toNat
    return [⟨getSlaveStateTopic board packet.header.targetId sensorName,
      .number runtimeMinutes⟩]

/-- The answer to a memory write, which `ParseMemoryWrite` publishes for each
of the three actuators. -/
def publishResponse (board : MasterBoard) (packet : ResponsePacket)
    (sensorName : String) : List Publication :=
  let success := packet.header.errorCode = kOK
  [⟨getSlaveStateTopic board packet.header.targetId sensorName ++ "/response" ++
      (if success then "" else "/fail"), packetToString packet⟩]

def parseMemoryRead (build : Build) (board : MasterBoard) (packet : ResponsePacket)
    (memoryAddress : ℕ) : Except Fault (List Publication) :=
  if kTemperatureStart ≤ memoryAddress ∧ memoryAddress ≤ kTemperatureEnd then
    publishTemperature board packet
  else if kHumidityStart ≤ memoryAddress ∧ memoryAddress ≤ kHumidityEnd then
    .ok (publishAssert "MemReadHumidity" packet ++ publishTestPacket packet)
  else if kMotorStart ≤ memoryAddress ∧ memoryAddress ≤ kMotorEnd then
    .ok (build.ifDebug (publishAssert "MemReadMotor" packet) ++
      publishMotorTopic board packet)
  else if kLedStart ≤ memoryAddress ∧ memoryAddress ≤ kLedEnd then
    .ok (build.ifDebug (publishAssert "MemReadLed" packet) ++
      publishLedTopic board packet)
  else if kFanStart ≤ memoryAddress ∧ memoryAddress ≤ kFanEnd then
    .ok (build.ifDebug (publishAssert "MemReadFan" packet) ++
      publishFanTopic board packet)
  else .ok (build.ifDebug (publishAssert "MemReadDefault" packet))

def parseMemoryWrite (board : MasterBoard) (packet : ResponsePacket)
    (memoryAddress : ℕ) : List Publication :=
  if kTemperatureStart ≤ memoryAddress ∧ memoryAddress ≤ kTemperatureEnd then
    publishAssert "MemoryWriteTemperature" packet
  else if kHumidityStart ≤ memoryAddress ∧ memoryAddress ≤ kHumidityEnd then
    publishAssert "MemoryWriteHumidity" packet
  else if kMotorStart ≤ memoryAddress ∧ memoryAddress ≤ kMotorEnd then
    publishResponse board packet "water"
  else if kLedStart ≤ memoryAddress ∧ memoryAddress ≤ kLedEnd then
    publishResponse board packet "led"
  else if kFanStart ≤ memoryAddress ∧ memoryAddress ≤ kFanEnd then
    publishResponse board packet "fan"
  else publishAssert "MemoryWriteDefault" packet

def parseEmergency (build : Build) (board : MasterBoard) (packet : ResponsePacket)
    (memoryAddress : ℕ) : Except Fault (List Publication) :=
  if kTemperatureStart ≤ memoryAddress ∧ memoryAddress ≤ kTemperatureEnd then
    .ok (publishAssert "EmergencyTemperature" packet)
  else if kHumidityStart ≤ memoryAddress ∧ memoryAddress ≤ kHumidityEnd then
    .ok (publishAssert "EmergencyHumidity" packet)
  else if kMotorStart ≤ memoryAddress ∧ memoryAddress ≤ kMotorEnd then do
    let published ← publishSensorStateTopic board packet "water"
    return build.ifDebug (publishAssert "EmergencyMotor" packet) ++ published
  else if kLedStart ≤ memoryAddress ∧ memoryAddress ≤ kLedEnd then do
    let published ← publishSensorStateTopic board packet "led"
    return build.ifDebug (publishAssert "EmergencyLed" packet) ++ published
  else if kFanStart ≤ memoryAddress ∧ memoryAddress ≤ kFanEnd then do
    let published ← publishSensorStateTopic board packet "fan"
    -- this case has no `return` and falls through to the default
    return build.ifDebug (publishAssert "EmergencyFan" packet) ++ published ++
      publishAssert "EmergencyDefault" packet
  else .ok (publishAssert "EmergencyDefault" packet)

def targetMemoryAddress (packet : ResponsePacket) : ℕ :=
  if packet.header.dataLength > 0 then
    packet.body.highAddress.toNat <<< 8 + packet.body.lowAddress.toNat
  else 0

def parseCommand (build : Build) (board : MasterBoard) (packet : ResponsePacket) :
    Except Fault (MasterBoard × List Publication) :=
  let address := targetMemoryAddress packet
  if packet.header.command = kPolling then .ok (publishPollingSuccess board)
  else if packet.header.command = kMemoryRead then do
    let published ← parseMemoryRead build board packet address
    return (board, published)
  else if packet.header.command = kMemoryWrite then
    .ok (board, parseMemoryWrite board packet address)
  else if packet.header.command = kEmergency then do
    let published ← parseEmergency build board packet address
    return (board, published)
  else .ok (board, publishAssert "ParseDefault" packet)

structure Listened where
  returned : Bool
  board : MasterBoard
  published : List Publication

/-- `ReceivePacket` followed by the test for a failure or a bad checksum that
every caller makes. -/
def receiveValid (board : MasterBoard) :
    Except Fault (Option ResponsePacket × MasterBoard) :=
  match receivePacket board.serialPort with
  | (.error fault, _) => .error fault
  | (.ok (packet, receiveFail), port) =>
      let board := { board with serialPort := port }
      if receiveFail ≠ .kSuccessReceive ∨ packet.validChecksum = false then
        .ok (none, board)
      else .ok (some packet, board)

/-- The notice of a debug build about the error code of a packet. -/
def headerErrors (build : Build) (packet : ResponsePacket) : List Publication :=
  if packet.header.errorCode ≠ kOK then
    build.ifDebug (publishError kErrorTopic (packetToString packet))
  else []

def listeningMaster (build : Build) (board : MasterBoard) : Except Fault Listened := do
  let (received, board) ← receiveValid board
  match received with
  | none => return ⟨false, board, []⟩
  | some packet =>
      let (board, published) ← parseCommand build board packet
      return ⟨true, board, headerErrors build packet ++ published⟩

/-- A packet is valid for its receiver iff the call returned it and its
checksum is right. -/
theorem receiveValid_eq_some_iff
    {board board' : MasterBoard} {packet : ResponsePacket} :
    receiveValid board = .ok (some packet, board') ↔
      ∃ port, receivePacket board.serialPort = (.ok (packet, .kSuccessReceive), port) ∧
        packet.validChecksum = true ∧ board' = { board with serialPort := port } := by
  unfold receiveValid
  constructor
  · intro hreceive
    split at hreceive
    · cases hreceive
    next received receiveFail port hcall =>
      simp only at hreceive
      split at hreceive
      · cases hreceive
      next haccept =>
        push Not at haccept
        rcases haccept with ⟨hcode, hvalid⟩
        cases hreceive
        exact ⟨port, by rw [hcall, hcode], by simpa using hvalid, rfl⟩
  · rintro ⟨port, hcall, hvalid, rfl⟩
    rw [hcall]
    simp [hvalid]

def received (board : MasterBoard) : Option ResponsePacket :=
  match receiveValid board with
  | .ok (packet, _) => packet
  | .error _ => none

def afterReceive (board : MasterBoard) : MasterBoard :=
  { board with serialPort := (receivePacket board.serialPort).2 }

theorem eq_afterReceive
    {board board' : MasterBoard} {packet : ResponsePacket}
    (hreceive : receiveValid board = .ok (some packet, board')) :
    board' = afterReceive board := by
  obtain ⟨port, hcall, _, rfl⟩ := receiveValid_eq_some_iff.mp hreceive
  unfold afterReceive
  rw [hcall]

theorem received_eq_some_iff {board : MasterBoard} {packet : ResponsePacket} :
    received board = some packet ↔
      receiveValid board = .ok (some packet, afterReceive board) := by
  unfold received
  cases hreceive : receiveValid board with
  | error fault => simp
  | ok outcome =>
      obtain ⟨packet?, board'⟩ := outcome
      constructor
      · rintro rfl
        rw [eq_afterReceive hreceive]
      · intro hsome
        cases hsome
        rfl

theorem parseCommand_board
    {build : Build} {board board' : MasterBoard} {packet : ResponsePacket}
    {published : List Publication}
    (hparse : parseCommand build board packet = .ok (board', published)) :
    board' = if packet.header.command = kPolling then board.resetPollingCount else board := by
  unfold parseCommand at hparse
  simp only at hparse
  split at hparse
  next hpolling =>
    cases hparse
    rw [if_pos hpolling]
  next hpolling =>
    rw [if_neg hpolling]
    split at hparse
    · obtain ⟨sent, _, hresult⟩ := exists_of_bind_eq_ok hparse
      cases hresult
      rfl
    · split at hparse
      · cases hparse
        rfl
      · split at hparse
        · obtain ⟨sent, _, hresult⟩ := exists_of_bind_eq_ok hparse
          cases hresult
          rfl
        · cases hparse
          rfl

theorem parseCommand_serialPort
    {build : Build} {board board' : MasterBoard} {packet : ResponsePacket}
    {published : List Publication}
    (hparse : parseCommand build board packet = .ok (board', published)) :
    board'.serialPort = board.serialPort := by
  rw [parseCommand_board hparse]
  split <;> rfl

theorem receiveValid_readsOnly
    {board board' : MasterBoard} {packet? : Option ResponsePacket}
    (hreceive : receiveValid board = .ok (packet?, board')) :
    Serial.ReadsOnly board.serialPort board'.serialPort ∧
      board' = { board with serialPort := board'.serialPort } := by
  have hreads := readsOnly_receivePacket board.serialPort
  unfold receiveValid at hreceive
  split at hreceive
  next => cases hreceive
  next packet receiveFail port hcall =>
    rw [hcall] at hreads
    simp only at hreceive
    split at hreceive
    · cases hreceive
      exact ⟨hreads, rfl⟩
    · cases hreceive
      exact ⟨hreads, rfl⟩

theorem listeningMaster_readsOnly
    {build : Build} {board : MasterBoard} {listened : Listened}
    (hcall : listeningMaster build board = .ok listened) :
    Serial.ReadsOnly board.serialPort listened.board.serialPort := by
  obtain ⟨⟨packet?, board'⟩, hreceive, hnext⟩ := exists_of_bind_eq_ok hcall
  have hreads := (receiveValid_readsOnly hreceive).1
  cases packet? with
  | none =>
      cases hnext
      exact hreads
  | some packet =>
      obtain ⟨⟨board'', published⟩, hparse, hresult⟩ := exists_of_bind_eq_ok hnext
      cases hresult
      rw [parseCommand_serialPort hparse]
      exact hreads

/-! ## What a call of `listeningMaster` does -/

theorem listeningMaster_of_received
    (build : Build) {board : MasterBoard} {packet : ResponsePacket}
    (hreceived : received board = some packet) :
    listeningMaster build board = (do
      let (board, published) ← parseCommand build (afterReceive board) packet
      return ⟨true, board, headerErrors build packet ++ published⟩) := by
  unfold listeningMaster
  rw [bind_of_ok (received_eq_some_iff.mp hreceived)]

/-- A call that returns either has rejected what it received, and then has done
nothing but read, or it has dispatched a packet. -/
theorem listeningMaster_cases
    {build : Build} {board : MasterBoard} {listened : Listened}
    (hcall : listeningMaster build board = .ok listened) :
    (received board = none ∧ listened.returned = false ∧ listened.published = [] ∧
      listened.board = { board with serialPort := listened.board.serialPort }) ∨
    (∃ packet published, received board = some packet ∧ listened.returned = true ∧
      parseCommand build (afterReceive board) packet = .ok (listened.board, published) ∧
      listened.published = headerErrors build packet ++ published) := by
  obtain ⟨⟨packet?, board'⟩, hreceive, hnext⟩ := exists_of_bind_eq_ok hcall
  cases packet? with
  | none =>
      cases hnext
      have hnone : received board = none := by
        unfold received
        rw [hreceive]
      exact .inl ⟨hnone, rfl, rfl, (receiveValid_readsOnly hreceive).2⟩
  | some packet =>
      obtain ⟨⟨board'', published⟩, hparse, hresult⟩ := exists_of_bind_eq_ok hnext
      cases hresult
      have hafter := eq_afterReceive hreceive
      rw [hafter] at hparse hreceive
      exact .inr ⟨packet, published, received_eq_some_iff.mpr hreceive, rfl, hparse, rfl⟩

end GatewayManager

end IotGateway
