import IotGateway.Protocol

/-!
# Request packets

`RequestPacket` serialises a header and a body into the bytes written to the
master board.  The checksum is accumulated by three routines; `packet` keeps
the bytes it has built and returns them again on later calls.
-/

namespace IotGateway

open ByteSum

structure RequestPacket where
  header : RequestHeader
  body : PacketBody
  tail : PacketTail
  packet_ : List UInt8 := []
  deriving DecidableEq, Repr

namespace RequestPacket

/-- `CalculateChecksum(header, body)`. -/
def calculateChecksumOf (header : RequestHeader) (body : PacketBody) : UInt8 :=
  let checksum : UInt8 := 0
  let checksum := checksum + header.start
  let checksum := checksum + header.idx
  let checksum := checksum + header.targetId
  let checksum := checksum + header.command
  let checksum := checksum + header.dataLength
  if header.dataLength > 0 then
    let checksum := checksum + body.highAddress
    let checksum := checksum + body.lowAddress
    accumulate checksum body.data
  else checksum

/-- `CalculateChecksum(header)`. -/
def calculateChecksumOfHeader (header : RequestHeader) : UInt8 :=
  let checksum : UInt8 := 0
  let checksum := checksum + header.start
  let checksum := checksum + header.idx
  let checksum := checksum + header.targetId
  let checksum := checksum + header.command
  let checksum := checksum + header.dataLength
  checksum

/-- `CalculateChecksum()`, from the fields of the packet. -/
def calculateChecksum (request : RequestPacket) : UInt8 :=
  let checksum : UInt8 := 0
  let checksum := checksum + request.header.start
  let checksum := checksum + request.header.idx
  let checksum := checksum + request.header.targetId
  let checksum := checksum + request.header.command
  let checksum := checksum + request.header.dataLength
  if request.header.dataLength > 0 then
    let checksum := checksum + request.body.highAddress
    let checksum := checksum + request.body.lowAddress
    accumulate checksum request.body.data
  else checksum

def checksum (request : RequestPacket) : UInt8 := request.calculateChecksum

def validChecksum (request : RequestPacket) : Bool :=
  if request.checksum ≠ request.tail.checksum then false else true

def ofBody (header : RequestHeader) (body : PacketBody) : RequestPacket where
  header := header
  body := body
  tail := ⟨calculateChecksumOf header body, kEnd⟩

def ofHeader (header : RequestHeader) : RequestPacket where
  header := header
  body := {}
  tail := ⟨calculateChecksumOfHeader header, kEnd⟩

def build (request : RequestPacket) : List UInt8 :=
  request.header.bytes ++
    (if request.header.dataLength > 0 then request.body.bytes else []) ++
    [calculateChecksumOf request.header request.body, kEnd]

def packet (request : RequestPacket) : List UInt8 × RequestPacket :=
  if request.packet_.isEmpty then
    (request.build, { request with packet_ := request.build })
  else (request.packet_, request)

def content (header : RequestHeader) (body : PacketBody) : List UInt8 :=
  header.bytes ++ if header.dataLength > 0 then body.bytes else []

theorem calculateChecksumOf_eq (header : RequestHeader) (body : PacketBody) :
    calculateChecksumOf header body = accumulate 0 (content header body) := by
  unfold calculateChecksumOf content
  split <;> simp [RequestHeader.bytes, PacketBody.bytes]

@[simp] theorem packet_ofBody (header : RequestHeader) (body : PacketBody) :
    (ofBody header body).packet.1 =
      content header body ++ [accumulate 0 (content header body), kEnd] := by
  rw [← calculateChecksumOf_eq]
  rfl

@[simp] theorem packet_ofHeader (header : RequestHeader) :
    (ofHeader header).packet.1 =
      content header {} ++ [accumulate 0 (content header {}), kEnd] := by
  rw [← calculateChecksumOf_eq]
  rfl

theorem content_length (header : RequestHeader) (body : PacketBody) :
    5 ≤ (content header body).length := by
  simp [content, RequestHeader.bytes]

/-! ## The three checksum routines -/

theorem calculateChecksumOfHeader_eq (header : RequestHeader) :
    calculateChecksumOfHeader header = accumulate 0 (content header {}) := by
  rw [← calculateChecksumOf_eq]
  unfold calculateChecksumOfHeader calculateChecksumOf
  split <;> simp

theorem checksum_eq (request : RequestPacket) :
    request.checksum = accumulate 0 (content request.header request.body) := by
  rw [← calculateChecksumOf_eq]
  rfl

theorem build_eq (request : RequestPacket) :
    request.build = content request.header request.body ++
      [accumulate 0 (content request.header request.body), kEnd] := by
  rw [← calculateChecksumOf_eq]
  rfl

theorem validChecksum_iff (request : RequestPacket) :
    request.validChecksum = true ↔ request.checksum = request.tail.checksum := by
  unfold validChecksum
  split
  next hne => simp [hne]
  next heq => simp [not_not.mp heq]

/-- The encoded bytes determine the header, and the body if there is one. -/
theorem content_eq_iff {header header' : RequestHeader} {body body' : PacketBody} :
    content header body = content header' body' ↔
      header = header' ∧ (header.dataLength > 0 → body = body') := by
  constructor
  · intro hcontent
    obtain ⟨hheader, hrest⟩ := List.append_inj hcontent rfl
    obtain rfl : header = header' := by
      cases header
      cases header'
      simpa [RequestHeader.bytes] using hheader
    refine ⟨rfl, fun hpos => ?_⟩
    rw [if_pos hpos, if_pos hpos] at hrest
    cases body
    cases body'
    simpa [PacketBody.bytes] using hrest
  · rintro ⟨rfl, hbody⟩
    unfold content
    split
    next hpos => rw [hbody hpos]
    next => rfl

theorem build_eq_iff {first second : RequestPacket} :
    first.build = second.build ↔
      content first.header first.body = content second.header second.body := by
  rw [build_eq, build_eq]
  constructor
  · exact fun hbuild => (List.append_inj' hbuild rfl).1
  · exact fun hcontent => by rw [hcontent]

theorem ofHeader_tail (header : RequestHeader) :
    (ofHeader header).tail = (ofBody header {}).tail := by
  change PacketTail.mk _ _ = PacketTail.mk _ _
  rw [calculateChecksumOfHeader_eq, calculateChecksumOf_eq]

theorem ofHeader_eq (header : RequestHeader) : ofHeader header = ofBody header {} := by
  have htail := ofHeader_tail header
  unfold ofHeader ofBody at htail ⊢
  simp only at htail
  rw [htail]

/-- The frame of a request is its header, its body if the length byte is not
zero, the sum of these bytes and the end byte, and all routines compute this
sum.  A request without a body has the frame of one with an empty body.  From
a frame with a nonzero length byte the header and the body can be read back. -/
theorem requestFrame_recoverable (header : RequestHeader) (body : PacketBody) :
    (∃ front checksum,
      front = header.bytes ++
        (if header.dataLength > 0 then body.highAddress :: body.lowAddress :: body.data
          else []) ∧
      (ofBody header body).packet.1 = front ++ [checksum, 0x0d] ∧
      checksum.toNat = sumMod front ∧ (ofBody header body).tail.checksum = checksum ∧
      (ofBody header body).checksum = checksum ∧ (ofBody header body).validChecksum = true) ∧
    ((ofHeader header).packet.1 = (ofBody header {}).packet.1 ∧
      (ofHeader header).tail = (ofBody header {}).tail ∧
      (ofHeader header).validChecksum = (ofBody header {}).validChecksum) ∧
    (header.dataLength > 0 → ∀ header' body',
      (ofBody header' body').packet.1 = (ofBody header body).packet.1 →
        header' = header ∧ body' = body) := by
  have hchecksum := checksum_eq (ofBody header body)
  have htail : (ofBody header body).tail.checksum = accumulate 0 (content header body) :=
    calculateChecksumOf_eq header body
  refine ⟨⟨content header body, accumulate 0 (content header body), rfl,
    packet_ofBody header body, toNat_accumulate_zero _, htail, hchecksum, ?_⟩, ?_, ?_⟩
  · rw [validChecksum_iff, hchecksum, htail]
    rfl
  · rw [ofHeader_eq]
    exact ⟨rfl, rfl, rfl⟩
  · intro hpos header' body' hframe
    rw [packet_ofBody, packet_ofBody] at hframe
    have hcontent := (List.append_inj' hframe rfl).1
    obtain ⟨rfl, hbody⟩ := content_eq_iff.mp hcontent
    exact ⟨rfl, hbody hpos⟩

/-- Temperature requests for two slaves. -/
theorem requestFrame_recoverable_temperature :
    (ofBody ⟨0x23, 0x22, 0x05, 0xc1, 0x02⟩ ⟨0x07, 0xd0, []⟩).packet.1 ≠
      (ofBody ⟨0x23, 0x22, 0x09, 0xc1, 0x02⟩ ⟨0x07, 0xd0, []⟩).packet.1 := by
  intro hframe
  have hsame := (requestFrame_recoverable ⟨0x23, 0x22, 0x09, 0xc1, 0x02⟩
    ⟨0x07, 0xd0, []⟩).2.2 (by decide) _ _ hframe
  exact absurd hsame.1 (by decide)

end RequestPacket

end IotGateway
