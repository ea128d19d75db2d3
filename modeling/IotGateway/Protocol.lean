import IotGateway.Library.ByteSum

/-!
# Protocol constants and packet parts

The byte values, memory map and status codes shared by the gateway and the
master board, and the parts every packet is made of.  A multi-byte part is
kept as the list of its bytes in the order they are sent.
-/

namespace IotGateway

/-! ## `EMasterProtocol` -/

def kStart : UInt8 := 0x23
def kPolling : UInt8 := 0xa0
def kMemoryRead : UInt8 := 0xc1
def kMemoryWrite : UInt8 := 0xd1
def kEmergency : UInt8 := 0xe0
def kEnd : UInt8 := 0x0d

/-! ## `EMemoryMap` -/

def kTemperatureStart : ℕ := 2000
def kTemperatureEnd : ℕ := 2019
def kHumidityStart : ℕ := 2020
def kHumidityEnd : ℕ := 2039
def kMotorStart : ℕ := 4000
def kMotorEnd : ℕ := 4059
def kLedStart : ℕ := 4060
def kLedEnd : ℕ := 4119
def kFanStart : ℕ := 4120
def kFanEnd : ℕ := 4179

/-! ## `EErrorStatusCode` -/

def kOK : UInt8 := 0x80

inductive EReceiveErrorCode where
  | kSuccessReceive
  | kFailReceiveHeader
  | kFailOverMaxSlaveCount
  | kFailReceiveBodyData
  | kFailReceiveTail
  deriving DecidableEq, Repr

inductive EParseJsonErrorCode where
  | kSuccessParse
  | kFailParsePayload
  | kFailIsNotObject
  deriving DecidableEq, Repr

/-- The operations of the program that have no defined result: reads and
writes past the end of a container, calls whose precondition fails, and calls for
which the stack has no room. -/
inductive Fault where
  | packetBody
  | bodyData
  | slaveIds
  | nullPayload
  | stackOverflow
  | notObject
  | noMember
  | notString
  | notUint
  | notArray
  deriving DecidableEq, Repr

/-! ## Packet parts -/

structure RequestHeader where
  start : UInt8 := kStart
  idx : UInt8 := 0
  targetId : UInt8 := 0
  command : UInt8 := 0
  dataLength : UInt8 := 0
  deriving DecidableEq, Repr

structure ResponseHeader where
  start : UInt8 := kStart
  idx : UInt8 := 0
  targetId : UInt8 := 0
  command : UInt8 := 0
  errorCode : UInt8 := 0
  dataLength : UInt8 := 0
  deriving DecidableEq, Repr

structure PacketBody where
  highAddress : UInt8 := 0
  lowAddress : UInt8 := 0
  data : List UInt8 := []
  deriving DecidableEq, Repr

structure PacketTail where
  checksum : UInt8 := 0
  end_ : UInt8 := kEnd
  deriving DecidableEq, Repr

def RequestHeader.bytes (header : RequestHeader) : List UInt8 :=
  [header.start, header.idx, header.targetId, header.command, header.dataLength]

def ResponseHeader.bytes (header : ResponseHeader) : List UInt8 :=
  [header.start, header.idx, header.targetId, header.command, header.errorCode,
    header.dataLength]

def PacketBody.bytes (body : PacketBody) : List UInt8 :=
  body.highAddress :: body.lowAddress :: body.data

def PacketTail.bytes (tail : PacketTail) : List UInt8 := [tail.checksum, tail.end_]

/-- `sizeof(ResponseHeader)` of the packed structure. -/
def ResponseHeader.size : ℕ := 6

def PacketTail.size : ℕ := 2

/-- The header after its bytes behind `start` have been overwritten by what a
read returned; bytes that were not read keep their defaults. -/
def ResponseHeader.overwrite (bytes : List UInt8) : ResponseHeader where
  idx := bytes.getD 0 0
  targetId := bytes.getD 1 0
  command := bytes.getD 2 0
  errorCode := bytes.getD 3 0
  dataLength := bytes.getD 4 0

@[simp] theorem ResponseHeader.bytes_length (header : ResponseHeader) :
    header.bytes.length = ResponseHeader.size := rfl

theorem ResponseHeader.overwrite_bytes {bytes : List UInt8}
    (hlength : bytes.length = 5) :
    (ResponseHeader.overwrite bytes).bytes = kStart :: bytes := by
  match bytes, hlength with
  | [_, _, _, _, _], _ => rfl

end IotGateway
