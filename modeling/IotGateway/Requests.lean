import IotGateway.ListeningMaster

/-!
# Requests to the master board

The frames that the gateway sends on its own account: the periodic poll and
temperature requests, which go through the packet queue, and the requests of
the set-up, which are written directly.
-/

namespace IotGateway

namespace GatewayManager

open MqttTopic

/-- The memory reads of the gateway: the address goes into the body, and the
length byte says how many bytes to read. -/
def memoryReadRequest (idx targetId dataLength highAddress lowAddress : UInt8) :
    List UInt8 :=
  (RequestPacket.ofBody
    { idx, targetId, command := kMemoryRead, dataLength }
    { highAddress, lowAddress }).packet.1

def masterIdRequest : List UInt8 := memoryReadRequest 0x27 0xff 2 0x1f 0xa5

def slaveCountRequest : List UInt8 := memoryReadRequest 0x21 0xff 1 0x20 0x6c

def slaveIdsRequest (slaveCount : UInt8) : List UInt8 :=
  memoryReadRequest 0x27 0xff slaveCount 0x20 0x6d

def temperatureRequest (slaveId : UInt8) : List UInt8 :=
  memoryReadRequest 0x22 slaveId 0x02 0x07 0xd0

def pollingRequest : List UInt8 :=
  (RequestPacket.ofHeader
    { idx := 0x27, targetId := 0xff, command := kPolling, dataLength := 0 }).packet.1

def requestMasterId (board : MasterBoard) : MasterBoard := board.write masterIdRequest

def requestSlaveCount (board : MasterBoard) : MasterBoard :=
  board.write slaveCountRequest

def requestSlaveIds (slaveCount : UInt8) (board : MasterBoard) : MasterBoard :=
  board.write (slaveIdsRequest slaveCount)

def requestTemperature (board : MasterBoard) : Except Fault (List (List UInt8)) :=
  (List.range board.slaveCount.toNat).mapM fun index => do
    let slaveId ← board.slaveIdAt index
    return temperatureRequest slaveId

def kMaxPollingCount : ℕ := 10

structure Polled where
  pushed : List UInt8
  board : MasterBoard
  published : List Publication

def polling (board : MasterBoard) : Polled where
  pushed := pollingRequest
  board := board.increasePollingCount
  published :=
    if board.pollingCount > kMaxPollingCount then
      publishError kPollingErrorTopic (.text "no response")
    else []

theorem requestTemperature_congr {board board' : MasterBoard}
    (hcount : board'.slaveCount = board.slaveCount) (hids : board'.slaveIds = board.slaveIds) :
    requestTemperature board' = requestTemperature board := by
  unfold requestTemperature MasterBoard.slaveIdAt
  rw [hcount, hids]

theorem pollingRequest_eq : pollingRequest = [0x23, 0x27, 0xff, 0xa0, 0x00, 0xe9, 0x0d] := by
  decide

theorem publishNoResponse :
    publishError kPollingErrorTopic (.text "no response") =
      [⟨"master/1/polling/error", .text "no response"⟩] := by
  decide

/-- The two bytes of temperature at the address 2000 of the slave. -/
theorem temperatureRequest_eq (slaveId : UInt8) :
    temperatureRequest slaveId =
      [0x23, 0x22, slaveId, 0xc1, 0x02, 0x07, 0xd0,
        0x23 + 0x22 + slaveId + 0xc1 + 0x02 + 0x07 + 0xd0, 0x0d] := by
  have hbytes : ∀ code < 256, temperatureRequest (UInt8.ofNat code) =
      [0x23, 0x22, UInt8.ofNat code, 0xc1, 0x02, 0x07, 0xd0,
        0x23 + 0x22 + UInt8.ofNat code + 0xc1 + 0x02 + 0x07 + 0xd0, 0x0d] := by
    decide +kernel
  have hbyte := hbytes slaveId.toNat slaveId.toNat_lt
  rwa [UInt8.ofNat_toNat] at hbyte

end GatewayManager

end IotGateway
