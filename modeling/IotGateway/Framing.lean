import IotGateway.ReceivePacket
import Mathlib.Data.List.Forall2

/-!
# Framing and resynchronisation

A stream of frames, oversized headers and noise is cut into exactly these
pieces by repeated calls of `receivePacket`, however its bytes arrive.
-/

namespace IotGateway

open ByteSum

/-- A frame of the master board, whose body is empty or holds at least the two
address bytes. -/
structure Frame where
  idx : UInt8
  targetId : UInt8
  command : UInt8
  errorCode : UInt8
  body : List UInt8
  checksum : UInt8
  end_ : UInt8
  body_length : body.length = 0 ∨ 2 ≤ body.length ∧ body.length ≤ 129

namespace Frame

def header (frame : Frame) : ResponseHeader where
  idx := frame.idx
  targetId := frame.targetId
  command := frame.command
  errorCode := frame.errorCode
  dataLength := UInt8.ofNat frame.body.length

def content (frame : Frame) : List UInt8 := frame.header.bytes ++ frame.body

def bytes (frame : Frame) : List UInt8 :=
  frame.content ++ [frame.checksum, frame.end_]

theorem bytes_append (frame : Frame) (back : List UInt8) :
    frame.bytes ++ back = kStart ::
      [frame.idx, frame.targetId, frame.command, frame.errorCode, frame.header.dataLength] ++
      (frame.body ++ [frame.checksum, frame.end_] ++ back) := by
  simp [bytes, content, ResponseHeader.bytes, header]

theorem dataLength_toNat (frame : Frame) :
    frame.header.dataLength.toNat = frame.body.length := by
  have hbody := frame.body_length
  change (UInt8.ofNat frame.body.length).toNat = _
  rw [UInt8.toNat_ofNat', Nat.mod_eq_of_lt (by omega)]

theorem dataLength_le (frame : Frame) :
    ¬ frame.header.dataLength > receivePacketMaxSlaveCount := by
  have hbody := frame.body_length
  have hlength := frame.dataLength_toNat
  rw [gt_iff_lt, UInt8.lt_iff_toNat_lt, hlength]
  change ¬ 129 < _
  omega

def response (frame : Frame) : ResponsePacket where
  header := frame.header
  body := match frame.body with
    | high :: low :: data => ⟨high, low, data⟩
    | _ => {}
  tail := ⟨frame.checksum, frame.end_⟩

theorem ofParts_frame (frame : Frame) :
    ResponsePacket.ofParts frame.header frame.body ⟨frame.checksum, frame.end_⟩ =
      .ok frame.response := by
  have hbody := frame.body_length
  unfold ResponsePacket.ofParts response
  match h : frame.body, hbody with
  | [], _ => rfl
  | [_], hbody => simp at hbody
  | _ :: _ :: _, _ => rfl

theorem response_content (frame : Frame) :
    frame.response.content = frame.content :=
  (ResponsePacket.packet_of_ofParts frame.ofParts_frame frame.dataLength_toNat).1

/-- Decoding a frame and serialising the packet gives the frame back. -/
theorem response_packet (frame : Frame) : frame.response.packet = frame.bytes := by
  rw [ResponsePacket.packet_eq_content, response_content]
  rfl

theorem response_validChecksum (frame : Frame) :
    frame.response.validChecksum = true ↔
      frame.checksum.toNat = sumMod frame.content := by
  rw [ResponsePacket.validChecksum_iff, response_content]
  rfl

end Frame

/-- How the board answers a poll. -/
def pollAnswer : Frame := ⟨0x27, 0xff, 0xa0, 0x80, [], 0x69, 0x0d, .inl rfl⟩

inductive Segment where
  | noise (byte : UInt8) (hbyte : byte ≠ kStart)
  | frame (frame : Frame)
  | oversized (idx targetId command errorCode dataLength : UInt8)
      (hlength : dataLength > receivePacketMaxSlaveCount)

namespace Segment

def bytes : Segment → List UInt8
  | .noise byte _ => [byte]
  | .frame whole => whole.bytes
  | .oversized idx targetId command errorCode dataLength _ =>
      [kStart, idx, targetId, command, errorCode, dataLength]

def isNoise : Segment → Bool
  | .noise _ _ => true
  | _ => false

/-- The outcome of a call that a segment gives rise to. -/
def Reported : Segment → Except Fault Receipt → Prop
  | .noise _ _, _ => False
  | .frame whole, outcome =>
      ∃ packet, outcome = .ok (packet, .kSuccessReceive) ∧
        packet.packet = whole.bytes ∧
        (packet.validChecksum = true ↔ whole.checksum.toNat = sumMod whole.content)
  | .oversized .., outcome => outcome = .ok ({}, .kFailOverMaxSlaveCount)

end Segment

/-- Calls of `receivePacket`, one after the other, until one has a fault. -/
def receiveCalls : ℕ → Serial → List (Except Fault Receipt) × Serial
  | 0, port => ([], port)
  | calls + 1, port =>
      match receivePacket port with
      | (.error fault, port) => ([.error fault], port)
      | (.ok receipt, port) =>
          let (outcomes, last) := receiveCalls calls port
          (.ok receipt :: outcomes, last)

def isHeaderFailure : Except Fault Receipt → Bool
  | .ok (_, .kFailReceiveHeader) => true
  | _ => false

/-! ## One call -/

theorem headerAt_of_stream
    {port : Serial} {rest back : List UInt8}
    (havailable : port.available.1 ≠ 0)
    (hstream : port.stream = kStart :: rest ++ back) (hrest : rest.length = 5)
    (hfull : (receivePacket port).2.ReadsFull) :
    ∃ after, HeaderAt port rest after ∧ after.stream = back := by
  obtain ⟨byte, hbyte⟩ := Serial.read_one_of_available havailable
  have hsplit := afterByte_stream hbyte
  rw [hstream] at hsplit
  obtain ⟨hstart, htail⟩ := List.cons.inj hsplit
  subst hstart
  have hheader : (port.afterByte.read 5).1 ≠ [] := by
    intro hnil
    rw [receivePacket_silent havailable hbyte hnil] at hfull
    have hread := ((readsOnly_receivePacket _).readsFull hfull).read_length
    rw [hnil] at hread
    contradiction
  have hat : HeaderAt port (port.afterByte.read 5).1 (port.afterByte.read 5).2 :=
    ⟨havailable, hbyte, rfl, hheader⟩
  rw [receivePacket_header hat] at hfull
  have hafter := (readsOnly_receiveFrame _ _).readsFull hfull
  have hlength : (port.afterByte.read rest.length).1.length = rest.length := by
    rw [hrest]
    exact hafter.read_length
  have happend := Serial.read_append htail.symm hlength
  rw [hrest] at happend
  rcases happend with ⟨hfront, hback⟩
  exact ⟨(port.afterByte.read 5).2, hfront ▸ hat, hback⟩

/-- The reads that take a whole frame from the port give its packet. -/
theorem receivePacket_of_wholeReads
    {port after last : Serial} {frame : Frame}
    (hat : HeaderAt port
      [frame.idx, frame.targetId, frame.command, frame.errorCode, frame.header.dataLength] after)
    (hreads : FrameReads frame.header after frame.body [frame.checksum, frame.end_] last) :
    receivePacket port = (.ok (frame.response, .kSuccessReceive), last) := by
  have hvector : bodyVector frame.header frame.body = frame.body := by
    simp [bodyVector, frame.dataLength_toNat]
  rw [receivePacket_of_frameReads (.refl port) hat hreads]
  change (Except.map _ (ResponsePacket.ofParts frame.header
    (bodyVector frame.header frame.body) ⟨frame.checksum, frame.end_⟩), last) = _
  rw [hvector, frame.ofParts_frame]
  rfl

theorem receivePacket_frame
    {port : Serial} {frame : Frame} {back : List UInt8}
    (havailable : port.available.1 ≠ 0)
    (hstream : port.stream = frame.bytes ++ back)
    (hfull : (receivePacket port).2.ReadsFull) :
    (receivePacket port).1 = .ok (frame.response, .kSuccessReceive) ∧
      (receivePacket port).2.stream = back := by
  rw [frame.bytes_append] at hstream
  obtain ⟨after, hat, hafter⟩ := headerAt_of_stream havailable hstream rfl hfull
  rw [receivePacket_header hat] at hfull
  change (receiveFrame frame.header after).2.ReadsFull at hfull
  obtain ⟨body, tail, last, hreads, hbody, htail⟩ :=
    exists_frameReads_of_full frame.dataLength_le hfull
  have hbytes := hreads.stream
  rw [hafter, List.append_assoc, List.append_assoc] at hbytes
  rw [frame.dataLength_toNat] at hbody
  obtain ⟨hbodyEq, hrest⟩ := List.append_inj hbytes hbody.symm
  obtain ⟨htailEq, hback⟩ := List.append_inj hrest htail.symm
  subst hbodyEq htailEq
  rw [receivePacket_of_wholeReads hat hreads]
  exact ⟨rfl, hback.symm⟩

theorem receivePacket_oversized
    {port : Serial} {idx targetId command errorCode dataLength : UInt8}
    {back : List UInt8} (hlength : dataLength > receivePacketMaxSlaveCount)
    (havailable : port.available.1 ≠ 0)
    (hstream : port.stream =
      [kStart, idx, targetId, command, errorCode, dataLength] ++ back)
    (hfull : (receivePacket port).2.ReadsFull) :
    (receivePacket port).1 = .ok ({}, .kFailOverMaxSlaveCount) ∧
      (receivePacket port).2.stream = back := by
  obtain ⟨after, hat, hafter⟩ :
      ∃ after, HeaderAt port [idx, targetId, command, errorCode, dataLength] after ∧
        after.stream = back :=
    headerAt_of_stream havailable hstream rfl hfull
  have hlarge : (ResponseHeader.overwrite
      [idx, targetId, command, errorCode, dataLength]).dataLength >
        receivePacketMaxSlaveCount := hlength
  rw [receivePacket_header hat, receiveFrame_eq, if_pos hlarge]
  exact ⟨rfl, hafter⟩

/-! ## Runs of calls -/

theorem Segment.bytes_ne_nil (segment : Segment) : segment.bytes ≠ [] := by
  cases segment <;> simp [Segment.bytes, Frame.bytes]

theorem eq_nil_of_flatMap_bytes {segments : List Segment}
    (hnil : segments.flatMap Segment.bytes = []) : segments = [] := by
  rw [List.flatMap_eq_nil_iff] at hnil
  cases segments with
  | nil => rfl
  | cons segment segments =>
      exact absurd (hnil segment (List.mem_cons_self ..)) segment.bytes_ne_nil

/-- The outcomes that are due for a stream of segments. -/
def due (segments : List Segment) : List Segment :=
  segments.filter fun segment => !segment.isNoise

/-- One call on a stream of segments reports the first one that is due, or it
finds the line idle and has skipped nothing but noise. -/
theorem receivePacket_segments (segments : List Segment) (port : Serial)
    (hstream : port.stream = segments.flatMap Segment.bytes)
    (hfull : (receivePacket port).2.ReadsFull) :
    ∃ rest, (receivePacket port).2.stream = rest.flatMap Segment.bytes ∧
      ((isHeaderFailure (receivePacket port).1 = true ∧ due rest = due segments ∧
          rest.length ≤ segments.length ∧ (port.ticks = 0 → rest = [])) ∨
        (∃ segment, due segments = segment :: due rest ∧
          segment.Reported (receivePacket port).1 ∧
          rest.length < segments.length)) := by
  induction segments generalizing port with
  | nil =>
      have hidle : port.available.1 = 0 := by
        by_contra havailable
        obtain ⟨byte, hbyte⟩ := Serial.read_one_of_available havailable
        have hsplit := afterByte_stream hbyte
        rw [hstream] at hsplit
        contradiction
      rw [receivePacket_idle hidle]
      exact ⟨[], by simpa using hstream, .inl ⟨rfl, rfl, Nat.le_refl _, fun _ => rfl⟩⟩
  | cons segment segments ih =>
      by_cases havailable : port.available.1 = 0
      · rw [receivePacket_idle havailable]
        refine ⟨segment :: segments, by simpa using hstream,
          .inl ⟨rfl, rfl, Nat.le_refl _, fun hticks => ?_⟩⟩
        apply eq_nil_of_flatMap_bytes
        rw [← hstream]
        exact Serial.stream_eq_nil_of_idle hticks havailable
      · rw [List.flatMap_cons] at hstream
        cases segment with
        | noise byte hbyte =>
            obtain ⟨next, hnext⟩ := Serial.read_one_of_available havailable
            have hsplit := afterByte_stream hnext
            rw [hstream] at hsplit
            obtain ⟨hhead, htail⟩ := List.cons.inj hsplit
            subst hhead
            have hskip := receivePacket_skip havailable hnext hbyte
            rw [hskip] at hfull ⊢
            obtain ⟨rest, hrest, hcase⟩ := ih port.afterByte htail.symm hfull
            refine ⟨rest, hrest, ?_⟩
            rcases hcase with ⟨hfail, hdue, hlength, hticks⟩ | ⟨seen, hdue, hseen, hlength⟩
            · have hmono := (readsOnly_afterByte port).ticks
              exact .inl ⟨hfail, hdue, Nat.le_succ_of_le hlength,
                fun hzero => hticks (by omega)⟩
            · exact .inr ⟨seen, hdue, hseen, Nat.lt_succ_of_lt hlength⟩
        | frame frame =>
            obtain ⟨hcall, hback⟩ := receivePacket_frame havailable hstream hfull
            refine ⟨segments, hback, .inr ⟨.frame frame, rfl, ?_, Nat.lt_succ_self _⟩⟩
            exact ⟨frame.response, hcall, frame.response_packet,
              frame.response_validChecksum⟩
        | oversized idx targetId command errorCode dataLength hlength =>
            obtain ⟨hcall, hback⟩ :=
              receivePacket_oversized hlength havailable hstream hfull
            exact ⟨segments, hback, .inr ⟨_, rfl, hcall, Nat.lt_succ_self _⟩⟩

theorem Segment.Reported.isOk {segment : Segment} {outcome : Except Fault Receipt}
    (hreported : segment.Reported outcome) :
    ∃ receipt, outcome = .ok receipt ∧ isHeaderFailure outcome = false := by
  cases segment with
  | noise => exact hreported.elim
  | frame whole =>
      rcases hreported with ⟨packet, houtcome, _⟩
      exact ⟨_, houtcome, by rw [houtcome]; rfl⟩
  | oversized => exact ⟨_, hreported, by rw [hreported]; rfl⟩

theorem receiveCalls_succ_of_ok {calls : ℕ} {port : Serial} {receipt : Receipt}
    (hcall : (receivePacket port).1 = .ok receipt) :
    receiveCalls (calls + 1) port =
      (.ok receipt :: (receiveCalls calls (receivePacket port).2).1,
        (receiveCalls calls (receivePacket port).2).2) := by
  rw [receiveCalls]
  generalize receivePacket port = result at hcall
  obtain ⟨outcome, last⟩ := result
  cases hcall
  rfl

theorem readsOnly_receiveCalls (calls : ℕ) (port : Serial) :
    Serial.ReadsOnly port (receiveCalls calls port).2 := by
  induction calls generalizing port with
  | zero => exact .refl port
  | succ calls ih =>
      have hcall := readsOnly_receivePacket port
      rw [receiveCalls]
      generalize receivePacket port = result at hcall
      obtain ⟨outcome, last⟩ := result
      cases outcome with
      | error fault => exact hcall
      | ok receipt => exact hcall.trans (ih last)

/-- Repeated calls on a stream of segments, none of whose reads times out
short, report the segments that are due in their order, each once; after
enough calls they have reported all of them. -/
theorem receiveCalls_framing (segments : List Segment) (port : Serial) (calls : ℕ)
    (hstream : port.stream = segments.flatMap Segment.bytes)
    (hfull : (receiveCalls calls port).2.ReadsFull) :
    ∃ seen unseen, due segments = seen ++ unseen ∧
      List.Forall₂ Segment.Reported seen
        ((receiveCalls calls port).1.filter fun outcome => !isHeaderFailure outcome) ∧
      (segments.length + port.ticks ≤ calls → unseen = []) := by
  induction calls generalizing segments port with
  | zero =>
      refine ⟨[], due segments, rfl, .nil, fun hcalls => ?_⟩
      have hnil : segments = [] := List.length_eq_zero_iff.mp (by omega)
      rw [hnil]
      rfl
  | succ calls ih =>
      have hcallFull : (receivePacket port).2.ReadsFull := by
        rw [receiveCalls] at hfull
        generalize receivePacket port = result at hfull ⊢
        obtain ⟨outcome, last⟩ := result
        cases outcome with
        | error fault => exact hfull
        | ok receipt => exact (readsOnly_receiveCalls calls last).readsFull hfull
      have hticks := receivePacket_ticks port
      obtain ⟨rest, hrest, hcase⟩ :=
        receivePacket_segments segments port hstream hcallFull
      rcases hcase with ⟨hfail, hdue, hlength, hidle⟩ | ⟨segment, hdue, hreported, hlength⟩
      · obtain ⟨receipt, hok⟩ : ∃ receipt, (receivePacket port).1 = .ok receipt := by
          generalize (receivePacket port).1 = outcome at hfail
          cases outcome with
          | error fault => contradiction
          | ok receipt => exact ⟨receipt, rfl⟩
        rw [receiveCalls_succ_of_ok hok] at hfull ⊢
        obtain ⟨seen, unseen, hsplit, hseen, hall⟩ := ih rest _ hrest hfull
        rw [hok] at hfail
        refine ⟨seen, unseen, hdue ▸ hsplit, by simpa [hfail] using hseen, fun hcalls => ?_⟩
        by_cases hzero : port.ticks = 0
        · have hnil := hidle hzero
          rw [hnil] at hsplit
          exact (List.append_eq_nil_iff.mp hsplit.symm).2
        · exact hall (by omega)
      · obtain ⟨receipt, hok, hnotFail⟩ := hreported.isOk
        rw [receiveCalls_succ_of_ok hok] at hfull ⊢
        obtain ⟨seen, unseen, hsplit, hseen, hall⟩ := ih rest _ hrest hfull
        rw [hok] at hnotFail hreported
        refine ⟨segment :: seen, unseen, by rw [hdue, hsplit]; rfl, ?_, fun hcalls =>
          hall (by omega)⟩
        simpa [hnotFail] using List.Forall₂.cons hreported hseen

/-- A temperature read, noise, an oversized header of start bytes and a poll
answer with a bad checksum, arriving in pieces. -/
def mixedSegments : List Segment :=
  [.noise 0x0d (by decide),
    .frame ⟨0x27, 0x11, 0xc1, 0x80, [0x07, 0xd0, 0x23, 0x0d], 0x00, 0x23, by decide⟩,
    .oversized 0x23 0x23 0x23 0x23 200 (by decide),
    .frame ⟨0x21, 0xff, 0xa0, 0x80, [], 0xe3, 0x0d, by decide⟩]

def mixedPort : Serial where
  line := ⟨[], mixedSegments.flatMap Segment.bytes,
    [.deliver 0, .deliver 2, .deliver 7, .deliver 1, .deliver 30]⟩
  peer := fun _ _ => []
  trace := []

theorem receiveCalls_framing_mixed :
    List.Forall₂ Segment.Reported (due mixedSegments)
      ((receiveCalls 9 mixedPort).1.filter fun outcome => !isHeaderFailure outcome) := by
  obtain ⟨seen, unseen, hdue, hseen, hall⟩ :=
    receiveCalls_framing mixedSegments mixedPort 9 rfl (by decide +kernel)
  rw [hall (by decide), List.append_nil] at hdue
  rw [hdue]
  exact hseen

end IotGateway
