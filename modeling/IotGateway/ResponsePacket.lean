import IotGateway.Protocol

/-!
# Response packets

`ResponsePacket` holds a frame received from the master board.  Its accessors
hand out constant references only, so the bytes that `packet` returns are
always those of the fields set by the constructor.
-/

namespace IotGateway

open ByteSum

structure ResponsePacket where
  header : ResponseHeader := {}
  body : PacketBody := {}
  tail : PacketTail := {}
  deriving DecidableEq, Repr

namespace ResponsePacket

/-- The constructor.  A body of one byte is indexed past its end. -/
def ofParts (header : ResponseHeader) (body : List UInt8) (tail : PacketTail) :
    Except Fault ResponsePacket :=
  match body with
  | [] => .ok ⟨header, {}, tail⟩
  | [_] => .error .packetBody
  | high :: low :: data => .ok ⟨header, ⟨high, low, data⟩, tail⟩

def packet (response : ResponsePacket) : List UInt8 :=
  response.header.bytes ++
    (if response.header.dataLength > 0 then response.body.bytes else []) ++
    response.tail.bytes

def calculateChecksum (response : ResponsePacket) : UInt8 :=
  let checksum : UInt8 := 0
  let checksum := checksum + response.header.start
  let checksum := checksum + response.header.idx
  let checksum := checksum + response.header.targetId
  let checksum := checksum + response.header.command
  let checksum := checksum + response.header.errorCode
  let checksum := checksum + response.header.dataLength
  if response.header.dataLength > 0 then
    let checksum := checksum + response.body.highAddress
    let checksum := checksum + response.body.lowAddress
    accumulate checksum response.body.data
  else checksum

def checksum (response : ResponsePacket) : UInt8 := response.calculateChecksum

def validChecksum (response : ResponsePacket) : Bool :=
  if response.checksum = response.tail.checksum then true else false

def content (response : ResponsePacket) : List UInt8 :=
  response.header.bytes ++
    if response.header.dataLength > 0 then response.body.bytes else []

theorem packet_eq_content (response : ResponsePacket) :
    response.packet = response.content ++ response.tail.bytes := rfl

theorem checksum_eq (response : ResponsePacket) :
    response.checksum = accumulate 0 response.content := by
  unfold checksum calculateChecksum content
  split <;> simp [ResponseHeader.bytes, PacketBody.bytes]

/-- A packet is valid iff its checksum byte is the sum modulo 256 of the bytes
before it. -/
theorem validChecksum_iff (response : ResponsePacket) :
    response.validChecksum = true ↔
      response.tail.checksum.toNat = sumMod response.content := by
  unfold validChecksum
  rw [checksum_eq]
  constructor
  · intro h
    have heq : accumulate 0 response.content = response.tail.checksum := by
      by_contra hne
      simp [hne] at h
    exact (eq_accumulate_iff _ _).mp heq.symm
  · intro h
    rw [if_pos ((eq_accumulate_iff _ _).mpr h).symm]

/-- A constructed packet serialises to exactly the bytes it was made from,
provided the length byte agrees with the body. -/
theorem packet_of_ofParts
    {header : ResponseHeader} {body : List UInt8} {tail : PacketTail}
    {response : ResponsePacket}
    (hparts : ofParts header body tail = .ok response)
    (hlength : header.dataLength.toNat = body.length) :
    response.content = header.bytes ++ body ∧ response.tail = tail := by
  match body, hparts, hlength with
  | [], hparts, hlength =>
      cases hparts
      have hzero : ¬ header.dataLength > 0 := by
        rw [gt_iff_lt, UInt8.lt_iff_toNat_lt, hlength]
        simp
      simp [content, hzero]
  | [byte], hparts, _ => cases hparts
  | high :: low :: data, hparts, hlength =>
      cases hparts
      have hpos : header.dataLength > 0 := by
        rw [gt_iff_lt, UInt8.lt_iff_toNat_lt, hlength]
        simp
      simp [content, hpos, PacketBody.bytes]

theorem ofParts_header
    {header : ResponseHeader} {body : List UInt8} {tail : PacketTail}
    {packet : ResponsePacket}
    (hparts : ofParts header body tail = .ok packet) :
    packet.header = header := by
  match body, hparts with
  | [], hparts => cases hparts; rfl
  | _ :: _ :: _, hparts => cases hparts; rfl

theorem ofParts_isOk_iff
    (header : ResponseHeader) (body : List UInt8) (tail : PacketTail) :
    (∃ response, ofParts header body tail = .ok response) ↔ body.length ≠ 1 := by
  match body with
  | [] => simp [ofParts]
  | [_] => simp [ofParts]
  | _ :: _ :: _ => simp [ofParts]

end ResponsePacket

end IotGateway
