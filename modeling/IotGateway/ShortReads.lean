import IotGateway.ReceivePacket

/-!
# Reads that time out short

A read of the port may return fewer bytes than it was asked for.  Only a read
that returns nothing is noticed by `receivePacket`; this file determines
exactly when a call mistakes a truncated frame for a packet.
-/

namespace IotGateway

/-! ## The reads of a frame in the trace -/

def bodyEvents (length : UInt8) (body : List UInt8) : List PortEvent :=
  if length > 0 then [.got length.toNat body] else []

theorem HeaderAt.trace {port : Serial} {rest : List UInt8} {after : Serial}
    (hat : HeaderAt port rest after) :
    after.trace = port.available.2.trace ++ [.got 1 [kStart], .got 5 rest] := by
  have hstart : port.afterByte.trace =
      port.available.2.trace ++ [.got 1 (port.available.2.read 1).1] := rfl
  have hheader : (port.afterByte.read 5).2.trace =
      port.afterByte.trace ++ [.got 5 (port.afterByte.read 5).1] := rfl
  rw [hat.header, hstart, hat.start] at hheader
  simpa using hheader

theorem bodyRead_trace (length : UInt8) (port : Serial) :
    (bodyRead length port).2.trace =
      port.trace ++ bodyEvents length (bodyRead length port).1 := by
  unfold bodyRead bodyEvents
  split
  · rfl
  · simp

theorem tailRead_trace {port : Serial} (htail : (tailRead port).1 ≠ []) :
    ∃ first second, first.length = 1 ∧ (tailRead port).1 = first ++ second ∧
      (tailRead port).2.trace = port.trace ++ [.got 1 first, .got 1 second] := by
  rw [tailRead_eq_reads] at htail ⊢
  by_cases hnil : (port.read 1).1 = []
  · simp [hnil] at htail
  · rw [if_neg hnil]
    have hle := port.read_length_le 1
    have hpos := List.length_pos_iff.mpr hnil
    refine ⟨(port.read 1).1, ((port.read 1).2.read 1).1, by omega, rfl, ?_⟩
    simp [Serial.read]

theorem FrameReads.trace
    {header : ResponseHeader} {port : Serial} {body tail : List UInt8} {last : Serial}
    (hreads : FrameReads header port body tail last) :
    ∃ first second, first.length = 1 ∧ tail = first ++ second ∧
      last.trace = port.trace ++ bodyEvents header.dataLength body ++
        [.got 1 first, .got 1 second] := by
  have hbody := bodyRead_trace header.dataLength port
  have hne : (tailRead (bodyRead header.dataLength port).2).1 ≠ [] := by
    rw [hreads.tailRead_eq]
    exact hreads.tail_ne_nil
  obtain ⟨first, second, hfirst, htail, htrace⟩ := tailRead_trace hne
  rw [hreads.tailRead_eq] at htail htrace
  rw [hbody, hreads.bodyRead_fst] at htrace
  exact ⟨first, second, hfirst, htail, htrace⟩

/-! ## Whole and truncated frames -/

/-- The last reads of a call which took the port from `port` to `last` returned
a whole header, body and tail behind a start byte, and `packet` consists of
exactly these consecutive bytes of the line. -/
structure WholeFrame (port last : Serial) (packet : ResponsePacket) : Prop where
  contiguous : ∃ skipped, port.stream = skipped ++ packet.packet ++ last.stream
  reads : ∃ before header body first second,
    last.trace = before ++ ([.got 1 [kStart], .got 5 header] ++
      (bodyEvents packet.header.dataLength body ++
        [.got 1 [first], .got 1 [second]])) ∧
    header.length = 5 ∧ body.length = packet.header.dataLength.toNat ∧
    packet.packet = kStart :: header ++ body ++ [first, second]

/-- A call never takes a truncated frame for a packet, and it returns. -/
def ShortReadSafe (port : Serial) : Prop :=
  match receivePacket port with
  | (.ok (packet, .kSuccessReceive), last) => WholeFrame port last packet
  | (.ok _, _) => True
  | (.error _, _) => False

/-- The line lets one of the reads of the frame that a call ends on run out of
time in the middle and still delivers tail bytes afterwards, or the length byte
of that frame is one. -/
def CutFrame (port : Serial) : Prop :=
  ∃ start rest after body tail last,
    Scans port start ∧ HeaderAt start rest after ∧
      FrameReads (.overwrite rest) after body tail last ∧
      (rest.length < 5 ∨
        body.length < (ResponseHeader.overwrite rest).dataLength.toNat ∨
        tail.length < 2 ∨ (ResponseHeader.overwrite rest).dataLength.toNat = 1)

theorem WholeFrame.reads_full
    {port after last : Serial} {start : Serial} {rest body tail : List UInt8}
    {packet : ResponsePacket}
    (hwhole : WholeFrame port last packet)
    (hat : HeaderAt start rest after)
    (hreads : FrameReads (.overwrite rest) after body tail last)
    (hheader : packet.header = .overwrite rest) :
    rest.length = 5 ∧ tail.length = 2 ∧
      body.length = (ResponseHeader.overwrite rest).dataLength.toNat := by
  obtain ⟨before, header, whole, first, second, htrace, hlength, hbody, _⟩ :=
    hwhole.reads
  obtain ⟨front, back, _, htail, hlast⟩ := hreads.trace
  rw [hat.trace, htrace, hheader, List.append_assoc, List.append_assoc] at hlast
  rw [hheader] at hbody
  have hevents := (List.append_inj' hlast (by
    unfold bodyEvents
    split <;> rfl)).2
  unfold bodyEvents at hevents
  split at hevents
  next hpos =>
    simp only [List.cons_append, List.nil_append, List.cons.injEq,
      PortEvent.got.injEq, true_and, and_true] at hevents
    rcases hevents with ⟨hrest, hbodyEq, hfirst, hsecond⟩
    rw [← hrest, htail, ← hfirst, ← hsecond, ← hbodyEq]
    exact ⟨hlength, rfl, by rw [hrest]; exact hbody⟩
  next hzero =>
    simp only [List.cons_append, List.nil_append, List.cons.injEq,
      PortEvent.got.injEq, true_and, and_true] at hevents
    rcases hevents with ⟨hrest, hfirst, hsecond⟩
    have hnone : (ResponseHeader.overwrite rest).dataLength.toNat = 0 := by
      rw [gt_iff_lt, UInt8.lt_iff_toNat_lt] at hzero
      simpa using hzero
    have hle := hreads.body_length_le
    refine ⟨hrest ▸ hlength, ?_, by omega⟩
    rw [htail, ← hfirst, ← hsecond]
    rfl

theorem not_shortReadSafe_of_cutFrame {port : Serial} (hcut : CutFrame port) :
    ¬ ShortReadSafe port := by
  rcases hcut with ⟨start, rest, after, body, tail, last, hscan, hat, hreads, hshort⟩
  have hcall := receivePacket_of_frameReads hscan hat hreads
  unfold ShortReadSafe
  rw [hcall]
  intro hsafe
  cases hparts : ResponsePacket.ofParts (.overwrite rest)
      (bodyVector (.overwrite rest) body) (tailOf tail) with
  | error fault =>
      rw [hparts] at hsafe
      exact hsafe
  | ok packet =>
      rw [hparts] at hsafe
      have hwhole : WholeFrame port last packet := hsafe
      obtain ⟨hrest, htail, hbody⟩ :=
        hwhole.reads_full hat hreads (ResponsePacket.ofParts_header hparts)
      have hvector := (ResponsePacket.ofParts_isOk_iff _ _ _).mp ⟨packet, hparts⟩
      rw [bodyVector_length hreads.body_length_le] at hvector
      omega

theorem wholeFrame_of_full
    {port start after last : Serial} {rest body tail : List UInt8}
    {packet : ResponsePacket}
    (hscan : Scans port start) (hat : HeaderAt start rest after)
    (hreads : FrameReads (.overwrite rest) after body tail last)
    (hparts : ResponsePacket.ofParts (.overwrite rest)
      (bodyVector (.overwrite rest) body) (tailOf tail) = .ok packet)
    (hrest : rest.length = 5) (htail : tail.length = 2)
    (hbody : body.length = (ResponseHeader.overwrite rest).dataLength.toNat) :
    WholeFrame port last packet := by
  obtain ⟨front, back, hfront, htailEq, htrace⟩ := hreads.trace
  have hback : back.length = 1 := by
    rw [htailEq, List.length_append, hfront] at htail
    omega
  obtain ⟨first, rfl⟩ := List.length_eq_one_iff.mp hfront
  obtain ⟨second, rfl⟩ := List.length_eq_one_iff.mp hback
  have hvector : bodyVector (.overwrite rest) body = body := by
    simp [bodyVector, hbody]
  rw [hvector] at hparts
  obtain ⟨hcontent, htailOf⟩ :=
    ResponsePacket.packet_of_ofParts hparts hbody.symm
  have hheader := ResponsePacket.ofParts_header hparts
  have hpacket : packet.packet = kStart :: rest ++ body ++ [first, second] := by
    rw [ResponsePacket.packet_eq_content, hcontent, htailOf,
      ResponseHeader.overwrite_bytes hrest, htailEq]
    rfl
  constructor
  · obtain ⟨skipped, hskipped⟩ := hscan.readsOnly.stream
    refine ⟨skipped, ?_⟩
    rw [← hskipped, hat.stream, hreads.stream, hpacket, htailEq]
    simp
  · refine ⟨start.available.2.trace, rest, body, first, second, ?_, hrest, ?_, hpacket⟩
    · rw [htrace, hat.trace, hheader]
      simp
    · rw [hbody, hheader]

/-- A call is safe from short reads iff the line does not cut the frame that
the call ends on and the length byte of this frame is not one. -/
theorem shortReadSafe_iff (port : Serial) :
    ShortReadSafe port ↔ ¬ CutFrame port := by
  constructor
  · exact fun hsafe hcut => not_shortReadSafe_of_cutFrame hcut hsafe
  · intro hcut
    unfold ShortReadSafe
    rcases receivePacket_cases port with
      ⟨last, _, _, hcall⟩ | ⟨start, rest, after, hscan, hat, hcall⟩
    · rw [hcall]
      trivial
    · rcases receiveFrame_cases (.overwrite rest) after with
        ⟨code, last, hcode, hframe⟩ | ⟨body, tail, last, hreads⟩
      · rw [hcall, hframe]
        cases code
        case kSuccessReceive => contradiction
        all_goals trivial
      · have hlong : ¬ (rest.length < 5 ∨
            body.length < (ResponseHeader.overwrite rest).dataLength.toNat ∨
            tail.length < 2 ∨
            (ResponseHeader.overwrite rest).dataLength.toNat = 1) :=
          fun hshort =>
            hcut ⟨start, rest, after, body, tail, last, hscan, hat, hreads, hshort⟩
        push Not at hlong
        rcases hlong with ⟨hrest, hbody, htail, hone⟩
        have hrestLe := hat.rest_length_le
        have htailLe := hreads.tail_length_le
        have hbodyLe := hreads.body_length_le
        obtain ⟨packet, hparts⟩ := (ResponsePacket.ofParts_isOk_iff
          (.overwrite rest) (bodyVector (.overwrite rest) body) (tailOf tail)).mpr
            (by rw [bodyVector_length hbodyLe]; exact hone)
        rw [receivePacket_of_frameReads hscan hat hreads, hparts]
        exact wholeFrame_of_full hscan hat hreads hparts (by omega) (by omega)
          (by omega)

/-- Three bytes of a header, a timeout, and two late bytes which pass for a
tail: `23 27 11` sum up to `5b`. -/
def truncatedPort : Serial where
  line := ⟨[], [0x23, 0x27, 0x11, 0x5b, 0x0d], [.deliver 3, .timeout]⟩
  peer := fun _ _ => []
  trace := []

theorem truncatedPort_not_shortReadSafe : ¬ ShortReadSafe truncatedPort := by
  apply not_shortReadSafe_of_cutFrame
  refine ⟨truncatedPort, [0x27, 0x11], (truncatedPort.afterByte.read 5).2, [],
    [0x5b, 0x0d], (tailRead (truncatedPort.afterByte.read 5).2).2,
    .refl _, ⟨by decide, by decide, rfl, by decide⟩, ?_, .inl (by decide)⟩
  exact ⟨by decide, rfl, fun hpos => absurd hpos (by decide), rfl, by decide⟩

end IotGateway
