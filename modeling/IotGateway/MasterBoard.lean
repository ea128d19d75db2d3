import IotGateway.Serial
import IotGateway.RequestPacket

/-!
# The master board

What the gateway knows about its master board: the serial port that leads to
it and the values read from it.
-/

namespace IotGateway

def kMaxSlaveCount : ℕ := 127

structure MasterBoard where
  serialPort : Serial
  pollingCount : ℕ
  masterId : ℕ
  slaveCount : UInt8
  slaveIds : Vector UInt8 kMaxSlaveCount

namespace MasterBoard

def resetPollingCount (board : MasterBoard) : MasterBoard :=
  { board with pollingCount := 0 }

def increasePollingCount (board : MasterBoard) : MasterBoard :=
  { board with pollingCount := board.pollingCount + 1 }

def setMasterId (masterId : ℕ) (board : MasterBoard) : MasterBoard :=
  { board with masterId := masterId }

def setSlaveIds (slaveIds : Vector UInt8 kMaxSlaveCount) (board : MasterBoard) :
    MasterBoard :=
  { board with slaveIds := slaveIds }

def setSlaveCount (slaveCount : UInt8) (board : MasterBoard) : MasterBoard :=
  { board with slaveCount := slaveCount }

def write (frame : List UInt8) (board : MasterBoard) : MasterBoard :=
  { board with serialPort := board.serialPort.write frame }

def slaveIdAt (board : MasterBoard) (index : ℕ) : Except Fault UInt8 :=
  if h : index < kMaxSlaveCount then .ok board.slaveIds[index]
  else .error .slaveIds

end MasterBoard

/-- A board whose next bytes are `bytes`, all of them arrived. -/
def boardReceiving (bytes : List UInt8) : MasterBoard where
  serialPort := { line := ⟨bytes, [], []⟩, peer := fun _ _ => [], trace := [] }
  pollingCount := 0
  masterId := 1
  slaveCount := 0
  slaveIds := Vector.replicate _ 0

end IotGateway
