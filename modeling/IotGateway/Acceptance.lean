import IotGateway.Framing
import IotGateway.Library.Faults
import IotGateway.ListeningMaster

/-!
# Soundness of acceptance

What the bytes consumed by a dispatching call of `listeningMaster` look like.
The tail is read with an `eol` that is never compared with a single byte, so
the end byte of a dispatched frame is the one thing that nothing has checked.
-/

namespace IotGateway

open ByteSum Faults GatewayManager

/-! ## Complete packets -/

theorem exists_frame_of_frameReads
    {start after last : Serial} {rest body tail : List UInt8} {packet : ResponsePacket}
    (hat : HeaderAt start rest after)
    (hreads : FrameReads (.overwrite rest) after body tail last)
    (hparts : ResponsePacket.ofParts (.overwrite rest)
      (bodyVector (.overwrite rest) body) (tailOf tail) = .ok packet)
    (hfull : last.ReadsFull) :
    ∃ frame : Frame, packet = frame.response ∧ start.stream = frame.bytes ++ last.stream := by
  obtain ⟨hbody, htail⟩ := hreads.complete hfull
  have hrest := hat.complete (hreads.readsOnly.readsFull hfull)
  have hsmall := hreads.small
  have hstream := hreads.stream
  obtain ⟨idx, targetId, command, errorCode, dataLength, rfl⟩ :
      ∃ a b c d e, rest = [a, b, c, d, e] := by
    match rest, hrest with
    | [a, b, c, d, e], _ => exact ⟨a, b, c, d, e, rfl⟩
  obtain ⟨checksum, end_, rfl⟩ := List.length_eq_two.mp htail
  change body.length = dataLength.toNat at hbody
  have hvector : bodyVector (.overwrite [idx, targetId, command, errorCode,
      dataLength]) body = body := by
    simp [bodyVector, hbody, ResponseHeader.overwrite]
  rw [hvector] at hparts
  have hbound : body.length ≤ 129 := by
    rw [gt_iff_lt, UInt8.lt_iff_toNat_lt] at hsmall
    change ¬ 129 < dataLength.toNat at hsmall
    omega
  have hone := (ResponsePacket.ofParts_isOk_iff _ _ _).mp ⟨packet, hparts⟩
  let frame : Frame :=
    { idx, targetId, command, errorCode, body, checksum, end_,
      body_length := by omega }
  have hheader : frame.header =
      .overwrite [idx, targetId, command, errorCode, dataLength] := by
    have hlength : UInt8.ofNat body.length = dataLength := by
      rw [hbody, UInt8.ofNat_toNat]
    simp [frame, Frame.header, ResponseHeader.overwrite, hlength]
  refine ⟨frame, ?_, ?_⟩
  · have hframe := frame.ofParts_frame
    rw [hheader] at hframe
    change ResponsePacket.ofParts _ body ⟨checksum, end_⟩ = _ at hframe
    change ResponsePacket.ofParts _ body ⟨checksum, end_⟩ = _ at hparts
    rw [hframe] at hparts
    cases hparts
    rfl
  · rw [hat.stream, hstream]
    simp [Frame.bytes, Frame.content, hheader, ResponseHeader.bytes,
      ResponseHeader.overwrite, frame]

/-- When no read timed out short, a received packet is the packet of the frame
that begins at the first start byte of the stream. -/
theorem exists_frame_of_receivePacket
    {port last : Serial} {packet : ResponsePacket}
    (hcall : receivePacket port = (.ok (packet, .kSuccessReceive), last))
    (hfull : last.ReadsFull) :
    ∃ frame : Frame, packet = frame.response ∧
      ∃ skipped, port.stream = skipped ++ (frame.bytes ++ last.stream) ∧
        ∀ byte ∈ skipped, byte ≠ kStart := by
  obtain ⟨start, rest, after, body, tail, hscan, hat, hreads, hparts⟩ :=
    exists_frameReads_of_success hcall
  obtain ⟨frame, hpacket, hstream⟩ :=
    exists_frame_of_frameReads hat hreads hparts hfull
  obtain ⟨skipped, hskipped, hnoise⟩ :=
    hscan.skipped ((hat.readsOnly.trans hreads.readsOnly).readsFull hfull)
  exact ⟨frame, hpacket, skipped, by rw [hskipped, hstream], hnoise⟩

/-! ## Dispatching calls -/

theorem listeningMaster_dispatch
    {build : Build} {board : MasterBoard} {listened : Listened}
    (hcall : listeningMaster build board = .ok listened)
    (hreturned : listened.returned = true) :
    ∃ packet, receivePacket board.serialPort =
        (.ok (packet, .kSuccessReceive), listened.board.serialPort) ∧
      packet.validChecksum = true := by
  unfold listeningMaster at hcall
  obtain ⟨⟨received, board'⟩, hreceive, hnext⟩ := exists_of_bind_eq_ok hcall
  cases received with
  | none =>
      cases hnext
      contradiction
  | some packet =>
      obtain ⟨⟨board'', published⟩, hparse, hresult⟩ := exists_of_bind_eq_ok hnext
      cases hresult
      obtain ⟨port, hpacket, hvalid, rfl⟩ := receiveValid_eq_some_iff.mp hreceive
      have hport := parseCommand_serialPort hparse
      exact ⟨packet, by rw [hpacket, hport], hvalid⟩

structure ListenCall where
  before : MasterBoard
  listened : Listened

/-- Calls of `listeningMaster`, one after the other, until one has a fault. -/
def listenCalls (build : Build) : ℕ → MasterBoard → List ListenCall
  | 0, _ => []
  | calls + 1, board =>
      match listeningMaster build board with
      | .error _ => []
      | .ok listened => ⟨board, listened⟩ :: listenCalls build calls listened.board

theorem listeningMaster_of_mem_listenCalls
    {build : Build} {calls : ℕ} {board : MasterBoard} {call : ListenCall}
    (hmem : call ∈ listenCalls build calls board) :
    listeningMaster build call.before = .ok call.listened := by
  induction calls generalizing board with
  | zero => cases hmem
  | succ calls ih =>
      unfold listenCalls at hmem
      split at hmem
      · cases hmem
      next listened hcall =>
        rcases List.mem_cons.mp hmem with heq | htail
        · subst heq
          exact hcall
        · exact ih htail

def ListenCall.consumed (call : ListenCall) : List UInt8 :=
  call.before.serialPort.stream.take
    (call.before.serialPort.stream.length -
      call.listened.board.serialPort.stream.length)

structure ProtocolFrame (frame : List UInt8) : Prop where
  start : frame[0]? = some kStart
  length : ∃ dataLength : UInt8, frame[5]? = some dataLength ∧
    dataLength.toNat ≤ 129 ∧ frame.length = dataLength.toNat + 8
  checksum : ∃ byte, frame[frame.length - 2]? = some byte ∧
    byte.toNat = sumMod (frame.take (frame.length - 2))
  end_ : frame.getLast? = some kEnd

def ListenCall.EndsInFrame (call : ListenCall) : Prop :=
  ∃ frame, frame <:+ call.consumed ∧ ProtocolFrame frame

theorem protocolFrame_of_valid {frame : Frame}
    (hvalid : frame.response.validChecksum = true) (hend : frame.end_ = kEnd) :
    ProtocolFrame frame.bytes := by
  have hsum := frame.response_validChecksum.mp hvalid
  have hbody := frame.body_length
  have hcontent : frame.content.length = frame.body.length + 6 := by
    simp [Frame.content, ResponseHeader.size]
    omega
  have hlength : frame.bytes.length = frame.content.length + 2 := by
    simp [Frame.bytes]
  constructor
  · simp [Frame.bytes, Frame.content, ResponseHeader.bytes, Frame.header]
  · refine ⟨frame.header.dataLength, ?_, ?_, ?_⟩
    · simp [Frame.bytes, Frame.content, ResponseHeader.bytes]
    · rw [frame.dataLength_toNat]
      omega
    · rw [frame.dataLength_toNat]
      omega
  · refine ⟨frame.checksum, ?_, ?_⟩
    · rw [hlength]
      simp [Frame.bytes]
    · rw [hlength]
      simpa [Frame.bytes] using hsum
  · simp [Frame.bytes, hend]

theorem ListenCall.EndsInFrame.getLast {call : ListenCall}
    (hends : call.EndsInFrame) : call.consumed.getLast? = some kEnd := by
  rcases hends with ⟨frame, ⟨skipped, hskipped⟩, hframe⟩
  rw [← hskipped, List.getLast?_append, hframe.end_]
  rfl

/-- The byte at which the frame behind the first start byte of a stream ends
according to its length byte. -/
def announcedEnd (stream : List UInt8) : Option UInt8 := do
  let frame := stream.dropWhile (· ≠ kStart)
  let dataLength ← frame[5]?
  frame[dataLength.toNat + 7]?

theorem announcedEnd_frame
    {skipped back : List UInt8} (frame : Frame)
    (hnoise : ∀ byte ∈ skipped, byte ≠ kStart) :
    announcedEnd (skipped ++ (frame.bytes ++ back)) = some frame.end_ := by
  have hdrop : (skipped ++ (frame.bytes ++ back)).dropWhile (· ≠ kStart) =
      frame.bytes ++ back := by
    rw [List.dropWhile_append_of_pos (by simpa using hnoise)]
    simp [Frame.bytes, Frame.content, ResponseHeader.bytes, Frame.header]
  have hlength : (frame.bytes ++ back)[5]? = some frame.header.dataLength := by
    simp [Frame.bytes, Frame.content, ResponseHeader.bytes]
  unfold announcedEnd
  simp only [hdrop, hlength, Option.bind_eq_bind, Option.bind_some,
    frame.dataLength_toNat]
  simp [Frame.bytes, Frame.content, ResponseHeader.bytes]

/-- In every run of calls, the bytes consumed by a dispatching call whose reads
are complete end in a frame of the protocol iff the end marker stands where
the frame ahead of the call is announced to end. -/
theorem listenCalls_endsInFrame_iff
    (build : Build) (calls : ℕ) (board : MasterBoard) :
    ∀ call ∈ listenCalls build calls board,
      call.listened.returned = true →
      call.listened.board.serialPort.ReadsFull →
        (call.EndsInFrame ↔
          announcedEnd call.before.serialPort.stream = some kEnd) := by
  intro call hmem hreturned hfull
  obtain ⟨packet, hreceive, hvalid⟩ := listeningMaster_dispatch
    (listeningMaster_of_mem_listenCalls hmem) hreturned
  obtain ⟨frame, rfl, skipped, hstream, hnoise⟩ :=
    exists_frame_of_receivePacket hreceive hfull
  have hconsumed : call.consumed = skipped ++ frame.bytes := by
    unfold ListenCall.consumed
    rw [hstream, ← List.append_assoc, List.length_append, Nat.add_sub_cancel,
      List.take_left]
  rw [hstream, announcedEnd_frame frame hnoise, Option.some.injEq]
  constructor
  · intro hends
    have hlast := hends.getLast
    rw [hconsumed] at hlast
    simpa [Frame.bytes] using hlast
  · intro hend
    exact ⟨frame.bytes, ⟨skipped, hconsumed.symm⟩, protocolFrame_of_valid hvalid hend⟩

theorem listenCalls_endsInFrame_iff_pollAnswer :
    ∃ call ∈ listenCalls .release 1
        (boardReceiving [0x0d, 0x23, 0x27, 0xff, 0xa0, 0x80, 0x00, 0x69, 0x0d]),
      call.listened.returned = true ∧ call.EndsInFrame := by
  have hcall : ∃ call ∈ listenCalls .release 1
        (boardReceiving [0x0d, 0x23, 0x27, 0xff, 0xa0, 0x80, 0x00, 0x69, 0x0d]),
      call.listened.returned = true ∧ call.listened.board.serialPort.ReadsFull ∧
        announcedEnd call.before.serialPort.stream = some kEnd := by
    decide +kernel
  rcases hcall with ⟨call, hmem, hreturned, hfull, hend⟩
  exact ⟨call, hmem, hreturned,
    (listenCalls_endsInFrame_iff _ _ _ call hmem hreturned hfull).mpr hend⟩

theorem unterminatedPollAnswer_dispatched :
    ¬ ∀ call ∈ listenCalls .release 1
        (boardReceiving [0x23, 0x27, 0xff, 0xa0, 0x80, 0x00, 0x69, 0x00]),
      call.listened.returned = true →
      call.listened.board.serialPort.ReadsFull → call.EndsInFrame := by
  have hcall : ∃ call ∈ listenCalls .release 1
        (boardReceiving [0x23, 0x27, 0xff, 0xa0, 0x80, 0x00, 0x69, 0x00]),
      call.listened.returned = true ∧ call.listened.board.serialPort.ReadsFull ∧
        call.consumed.getLast? = some 0x00 := by
    decide +kernel
  intro hall
  rcases hcall with ⟨call, hmem, hreturned, hfull, hlast⟩
  have hend := (hall call hmem hreturned hfull).getLast
  rw [hlast] at hend
  contradiction

end IotGateway
