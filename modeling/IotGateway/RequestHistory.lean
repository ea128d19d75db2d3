import IotGateway.Library.Histories
import IotGateway.RequestPacket

/-!
# Requests that are changed

The accessors of a request hand out references through which its fields can be
written.  `Packet` encodes the fields once and keeps the bytes, so that what is
written later reaches `ValidChecksum` but not the frame.
-/

namespace IotGateway

open ByteSum Histories

namespace RequestPacket

/-- An assignment through `header()`, `body()` or `tail()`.  The start byte is
constant. -/
inductive Write where
  | idx (value : UInt8)
  | targetId (value : UInt8)
  | command (value : UInt8)
  | dataLength (value : UInt8)
  | highAddress (value : UInt8)
  | lowAddress (value : UInt8)
  | data (values : List UInt8)
  | checksum (value : UInt8)
  | end_ (value : UInt8)
  deriving DecidableEq, Repr

def Write.apply (write : Write) (request : RequestPacket) : RequestPacket :=
  match write with
  | .idx value => { request with header.idx := value }
  | .targetId value => { request with header.targetId := value }
  | .command value => { request with header.command := value }
  | .dataLength value => { request with header.dataLength := value }
  | .highAddress value => { request with body.highAddress := value }
  | .lowAddress value => { request with body.lowAddress := value }
  | .data values => { request with body.data := values }
  | .checksum value => { request with tail.checksum := value }
  | .end_ value => { request with tail.end_ := value }

inductive Operation where
  | write (write : Write)
  | packet
  | validChecksum
  deriving DecidableEq, Repr

def operate (request : RequestPacket) : Operation → RequestPacket
  | .write write => write.apply request
  | .packet => request.packet.2
  | .validChecksum => request

def after (request : RequestPacket) (operations : List Operation) : RequestPacket :=
  operations.foldl operate request

/-- The byte in front of the end byte. -/
def checksumByte (frame : List UInt8) : Option UInt8 := frame.dropLast.getLast?

/-- What is expected of an operation on a request: a frame is that of a new
request with the same fields, and the checksum is valid iff it is the one in
the frame. -/
def Consistent (request : RequestPacket) : Operation → Prop
  | .write _ => True
  | .packet => request.packet.1 = (ofBody request.header request.body).packet.1
  | .validChecksum =>
      request.validChecksum = true ↔
        checksumByte request.packet.1 = some request.tail.checksum

/-! ## Fields and frame after some operations -/

/-- The request with the fields that the operations have written. -/
def assigned (request : RequestPacket) : List Operation → RequestPacket
  | [] => request
  | .write write :: operations => (write.apply request).assigned operations
  | _ :: operations => request.assigned operations

/-- The fields at the first call of `Packet`. -/
def firstEncoded (request : RequestPacket) : List Operation → Option RequestPacket
  | [] => none
  | .write write :: operations => (write.apply request).firstEncoded operations
  | .packet :: _ => some request
  | .validChecksum :: operations => request.firstEncoded operations

def contentSum (request : RequestPacket) : ℕ := sumMod (content request.header request.body)

/-- At the operation the fields agree with those at the first call of `Packet`,
as far as the operation shows them. -/
def UpToDate (start : RequestPacket) (before : List Operation) (operation : Operation) :
    Prop :=
  let current := start.assigned before
  ∀ encoded, start.firstEncoded before = some encoded →
    match operation with
    | .write _ => True
    | .packet =>
        encoded.header = current.header ∧
          (encoded.header.dataLength > 0 → encoded.body = current.body)
    | .validChecksum =>
        encoded.contentSum = current.contentSum ∨
          current.tail.checksum.toNat ≠ encoded.contentSum ∧
            current.tail.checksum.toNat ≠ current.contentSum

theorem packet_apply (write : Write) (request : RequestPacket) :
    (write.apply request).packet_ = request.packet_ := by
  cases write <;> rfl

theorem apply_packet (write : Write) (request : RequestPacket) (bytes : List UInt8) :
    write.apply { request with packet_ := bytes } =
      { write.apply request with packet_ := bytes } := by
  cases write <;> rfl

theorem build_ne_nil (request : RequestPacket) : request.build ≠ [] := by
  rw [build_eq]
  exact List.append_ne_nil_of_right_ne_nil _ (List.cons_ne_nil _ _)

theorem packet_of_nil {request : RequestPacket} (hnil : request.packet_ = []) :
    request.packet = (request.build, { request with packet_ := request.build }) := by
  unfold packet
  rw [hnil]
  rfl

theorem packet_of_ne_nil {request : RequestPacket} (hne : request.packet_ ≠ []) :
    request.packet = (request.packet_, request) := by
  unfold packet
  rw [if_neg]
  simpa using hne

/-- Once there is a frame, the operations leave it as it is. -/
theorem after_of_ne_nil {request : RequestPacket} {bytes : List UInt8} (hne : bytes ≠ [])
    (operations : List Operation) :
    { request with packet_ := bytes }.after operations =
      { request.assigned operations with packet_ := bytes } := by
  induction operations generalizing request with
  | nil => rfl
  | cons operation operations ih =>
      cases operation with
      | write write =>
          have hstep := apply_packet write request bytes
          change (write.apply _).after operations = _
          rw [hstep]
          exact ih
      | packet =>
          change (packet _).2.after operations = _
          rw [packet_of_ne_nil hne]
          exact ih
      | validChecksum => exact ih

/-- The fields are those that were assigned, and the frame is the one of the
first call of `Packet`. -/
theorem after_eq {start : RequestPacket} (hnil : start.packet_ = [])
    (operations : List Operation) :
    start.after operations =
      { start.assigned operations with
        packet_ := ((start.firstEncoded operations).map build).getD [] } := by
  induction operations generalizing start with
  | nil =>
      cases start
      cases hnil
      rfl
  | cons operation operations ih =>
      cases operation with
      | write write => exact ih ((packet_apply write start).trans hnil)
      | packet =>
          change start.packet.2.after operations = _
          rw [packet_of_nil hnil]
          exact after_of_ne_nil start.build_ne_nil operations
      | validChecksum => exact ih hnil

/-! ## Histories -/

theorem checksumByte_build (request : RequestPacket) :
    checksumByte request.build =
      some (accumulate 0 (content request.header request.body)) := by
  unfold checksumByte
  rw [build_eq]
  simp

theorem toNat_checksum (request : RequestPacket) :
    request.checksum.toNat = request.contentSum := by
  rw [checksum_eq, toNat_accumulate_zero]
  rfl

theorem ofBody_packet (request : RequestPacket) :
    (ofBody request.header request.body).packet.1 = request.build := rfl

theorem consistent_of_nil {request : RequestPacket} (hnil : request.packet_ = [])
    (operation : Operation) : request.Consistent operation := by
  cases operation with
  | write write => trivial
  | packet =>
      change request.packet.1 = _
      rw [packet_of_nil hnil, ofBody_packet]
  | validChecksum =>
      change request.validChecksum = true ↔ checksumByte request.packet.1 = _
      rw [packet_of_nil hnil, checksumByte_build, validChecksum_iff, checksum_eq,
        Option.some.injEq]

theorem consistent_packet_iff {request encoded : RequestPacket}
    (hpacket : request.packet_ = encoded.build) :
    request.Consistent .packet ↔
      encoded.header = request.header ∧
        (encoded.header.dataLength > 0 → encoded.body = request.body) := by
  have hne : request.packet_ ≠ [] := hpacket ▸ encoded.build_ne_nil
  change request.packet.1 = _ ↔ _
  rw [packet_of_ne_nil hne, hpacket, ofBody_packet, build_eq_iff, content_eq_iff]

theorem consistent_validChecksum_iff {request encoded : RequestPacket}
    (hpacket : request.packet_ = encoded.build) :
    request.Consistent .validChecksum ↔
      encoded.contentSum = request.contentSum ∨
        request.tail.checksum.toNat ≠ encoded.contentSum ∧
          request.tail.checksum.toNat ≠ request.contentSum := by
  have hne : request.packet_ ≠ [] := hpacket ▸ encoded.build_ne_nil
  have hframe : checksumByte request.packet.1 = some request.tail.checksum ↔
      encoded.contentSum = request.tail.checksum.toNat := by
    rw [packet_of_ne_nil hne, hpacket, checksumByte_build, ← checksum_eq,
      Option.some.injEq, ← UInt8.toNat_inj, toNat_checksum]
  have hfields : request.validChecksum = true ↔
      request.contentSum = request.tail.checksum.toNat := by
    rw [validChecksum_iff, ← UInt8.toNat_inj, toNat_checksum]
  change (_ ↔ _) ↔ _
  rw [hframe, hfields]
  omega

theorem consistent_after_iff {start : RequestPacket} (hnil : start.packet_ = [])
    (before : List Operation) (operation : Operation) :
    (start.after before).Consistent operation ↔ UpToDate start before operation := by
  have hafter := after_eq hnil before
  unfold UpToDate
  cases hencoded : start.firstEncoded before with
  | none =>
      rw [hencoded] at hafter
      apply iff_of_true
      · exact consistent_of_nil (by rw [hafter]; rfl) operation
      · intro current encoded hsome
        cases hsome
  | some encoded =>
      rw [hencoded] at hafter
      have hpacket : (start.after before).packet_ = encoded.build := by
        rw [hafter]
        rfl
      simp only [Option.some.injEq, forall_eq']
      cases operation with
      | write write => exact Iff.rfl
      | packet =>
          rw [consistent_packet_iff hpacket, hafter]
      | validChecksum =>
          rw [consistent_validChecksum_iff hpacket, hafter]
          rfl

/-- All operations on a request are consistent iff what they show of its fields
is as it was at the first call of `Packet`. -/
theorem consistent_throughout_iff
    (header : RequestHeader) (body : PacketBody) (operations : List Operation) :
    Throughout (fun before operation =>
        ((ofBody header body).after before).Consistent operation) operations ↔
      Throughout (UpToDate (ofBody header body)) operations := by
  unfold Throughout
  simp only [consistent_after_iff (rfl : (ofBody header body).packet_ = [])]

/-- A temperature request that is sent on to another slave. -/
theorem changedRequest_not_consistent :
    ¬ ∀ (header : RequestHeader) (body : PacketBody) (operations : List Operation),
      Throughout (fun before operation =>
        ((ofBody header body).after before).Consistent operation) operations := by
  intro hall
  have hframe : ((ofBody ⟨0x23, 0x22, 0x05, 0xc1, 0x02⟩ ⟨0x07, 0xd0, []⟩).after
        [.packet, .write (.targetId 0x09)]).packet.1 =
      (ofBody ⟨0x23, 0x22, 0x09, 0xc1, 0x02⟩ ⟨0x07, 0xd0, []⟩).packet.1 :=
    hall ⟨0x23, 0x22, 0x05, 0xc1, 0x02⟩ ⟨0x07, 0xd0, []⟩
      [.packet, .write (.targetId 0x09), .packet] [.packet, .write (.targetId 0x09)] .packet []
      rfl
  exact absurd hframe (by decide)

end RequestPacket

end IotGateway
