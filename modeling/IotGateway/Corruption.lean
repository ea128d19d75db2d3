import IotGateway.Framing
import IotGateway.ListeningMaster

/-!
# Corrupted frames

A frame with one wrong byte, which is neither the start byte nor the length
byte, is read to its end and rejected, and leaves the board and the rest of the
stream as if it had not been sent.
-/

namespace IotGateway

open ByteSum Faults GatewayManager TimedLine

/-! ## One wrong byte -/

namespace Frame

theorem exists_content_set {frame : Frame} {position : ℕ} (value : UInt8)
    (hstart : position ≠ 0) (hlength : position ≠ 5) :
    ∃ corrupted : Frame, corrupted.content = frame.content.set position value ∧
      corrupted.checksum = frame.checksum ∧ corrupted.end_ = frame.end_ := by
  match position, hstart, hlength with
  | 1, _, _ => exact ⟨{ frame with idx := value }, rfl, rfl, rfl⟩
  | 2, _, _ => exact ⟨{ frame with targetId := value }, rfl, rfl, rfl⟩
  | 3, _, _ => exact ⟨{ frame with command := value }, rfl, rfl, rfl⟩
  | 4, _, _ => exact ⟨{ frame with errorCode := value }, rfl, rfl, rfl⟩
  | position + 6, _, _ =>
      have hbody : (frame.body.set position value).length = 0 ∨
          2 ≤ (frame.body.set position value).length ∧
            (frame.body.set position value).length ≤ 129 := by
        rw [List.length_set]
        exact frame.body_length
      refine ⟨{ frame with body := frame.body.set position value, body_length := hbody },
        ?_, rfl, rfl⟩
      simp [content, header, ResponseHeader.bytes]

/-- A valid frame with one wrong byte is a frame with a wrong checksum. -/
theorem exists_corrupted
    {frame : Frame} {position : ℕ} {value : UInt8}
    (hvalid : frame.checksum.toNat = sumMod frame.content)
    (hposition : position + 1 < frame.bytes.length)
    (hstart : position ≠ 0) (hlength : position ≠ 5)
    (hvalue : frame.bytes[position]? ≠ some value) :
    ∃ corrupted : Frame, corrupted.bytes = frame.bytes.set position value ∧
      corrupted.response.validChecksum = false := by
  have hbytes : frame.bytes.length = frame.content.length + 2 := List.length_append
  by_cases hlast : position = frame.content.length
  · subst hlast
    refine ⟨{ frame with checksum := value }, ?_, ?_⟩
    · change frame.content ++ [value, frame.end_] = _
      unfold bytes
      rw [List.set_append_right _ _ (Nat.le_refl _), Nat.sub_self]
      rfl
    · rw [Bool.eq_false_iff]
      intro hchecksum
      have hsum := (response_validChecksum _).mp hchecksum
      have hsame : value = frame.checksum := UInt8.toNat_inj.mp (hsum.trans hvalid.symm)
      apply hvalue
      unfold bytes
      rw [List.getElem?_append_right (Nat.le_refl _), Nat.sub_self, hsame]
      rfl
  · have hinside : position < frame.content.length := by omega
    obtain ⟨corrupted, hcontent, hchecksum, hend⟩ :=
      @exists_content_set frame position value hstart hlength
    refine ⟨corrupted, ?_, ?_⟩
    · unfold bytes
      rw [hcontent, hchecksum, hend, List.set_append_left _ _ hinside]
    · rw [Bool.eq_false_iff, ne_eq, response_validChecksum, hcontent, hchecksum, hvalid]
      unfold bytes at hvalue
      rw [List.getElem?_append_left hinside] at hvalue
      exact (sumMod_set_ne hinside hvalue).symm

end Frame

/-! ## Frames that have arrived -/

theorem bodyRead_of_arrived {port : Serial} {body back : List UInt8} {length : UInt8}
    (hlength : length.toNat = body.length) (harrived : port.line.arrived = body ++ back) :
    (bodyRead length port).1 = body ∧ (bodyRead length port).2.line.arrived = back := by
  unfold bodyRead
  split
  next => exact Serial.read_of_arrived hlength.symm harrived
  next hzero =>
    have hnil : body = [] := by
      rw [gt_iff_lt, UInt8.lt_iff_toNat_lt, hlength] at hzero
      exact List.length_eq_zero_iff.mp (by simpa using hzero)
    subst hnil
    exact ⟨rfl, harrived⟩

theorem tailRead_of_arrived {port : Serial} {first second : UInt8} {back : List UInt8}
    (harrived : port.line.arrived = [first, second] ++ back) :
    (tailRead port).1 = [first, second] ∧ (tailRead port).2.line.arrived = back := by
  obtain ⟨hfirst, hrest⟩ := @Serial.read_of_arrived port [first] (second :: back) 1 rfl harrived
  obtain ⟨hsecond, hback⟩ := @Serial.read_of_arrived _ [second] back 1 rfl hrest
  rw [tailRead_eq_reads, hfirst, if_neg (List.cons_ne_nil _ _), hsecond]
  exact ⟨rfl, hback⟩

/-- A frame of which all bytes have arrived is received as a whole, and nothing
but the frame is taken from the stream. -/
theorem receivePacket_of_arrived {port : Serial} {frame : Frame} {back : List UInt8}
    (harrived : port.line.arrived = frame.bytes ++ back) :
    ∃ last, receivePacket port = (.ok (frame.response, .kSuccessReceive), last) ∧
      last.stream = back ++ port.line.inFlight ∧ back <+: last.line.arrived := by
  obtain ⟨delivered, hpass⟩ := port.line.arrived_prefix_pass
  rw [harrived] at hpass
  have hpolled : port.available.2.line.arrived = [kStart] ++
      ([frame.idx, frame.targetId, frame.command, frame.errorCode, frame.header.dataLength] ++
        (frame.body ++ ([frame.checksum, frame.end_] ++ (back ++ delivered)))) := by
    change port.line.pass.arrived = _
    rw [← hpass, List.append_assoc, frame.bytes_append, List.append_assoc frame.body]
    rfl
  obtain ⟨hstart, hrest⟩ := @Serial.read_of_arrived _ _ _ 1 rfl hpolled
  obtain ⟨hheader, hbehind⟩ := @Serial.read_of_arrived port.afterByte _ _ 5 rfl hrest
  obtain ⟨hbody, htail⟩ := bodyRead_of_arrived frame.dataLength_toNat hbehind
  obtain ⟨hends, hback⟩ := tailRead_of_arrived htail
  have havailable : port.available.1 ≠ 0 := by
    change port.available.2.line.arrived.length ≠ 0
    rw [hpolled]
    simp
  have hat : HeaderAt port
      [frame.idx, frame.targetId, frame.command, frame.errorCode, frame.header.dataLength]
      (port.afterByte.read 5).2 :=
    ⟨havailable, hstart, Prod.ext hheader rfl, List.cons_ne_nil _ _⟩
  have hreads : FrameReads frame.header (port.afterByte.read 5).2 frame.body
      [frame.checksum, frame.end_] (tailRead (bodyRead frame.header.dataLength
        (port.afterByte.read 5).2).2).2 := by
    refine ⟨frame.dataLength_le, hbody, ?_, Prod.ext hends rfl, List.cons_ne_nil _ _⟩
    intro hpos hnil
    rw [gt_iff_lt, UInt8.lt_iff_toNat_lt, frame.dataLength_toNat, hnil] at hpos
    contradiction
  refine ⟨_, receivePacket_of_wholeReads hat hreads, ?_, ?_⟩
  · have hstream := hat.stream
    have hwhole : port.stream = frame.bytes ++ (back ++ port.line.inFlight) := by
      unfold Serial.stream Line.stream
      rw [harrived, List.append_assoc]
    rw [hreads.stream, ← frame.bytes_append, hwhole] at hstream
    exact (List.append_cancel_left hstream).symm
  · rw [hback]
    exact List.prefix_append _ _

/-! ## Dispatch on ports with the same stream -/

/-- What follows when a packet has been received. -/
def dispatch (build : Build) (board : MasterBoard) (packet : ResponsePacket) :
    Except Fault Listened := do
  let (board, published) ← parseCommand build board packet
  return ⟨true, board, headerErrors build packet ++ published⟩

/-- Two calls have the same outcome, on ports from which the same bytes are
still to come. -/
def SameOutcome : Except Fault Listened → Except Fault Listened → Prop
  | .error first, .error second => first = second
  | .ok first, .ok second =>
      first.returned = second.returned ∧ first.published = second.published ∧
        first.board = { second.board with serialPort := first.board.serialPort } ∧
        first.board.serialPort.stream = second.board.serialPort.stream
  | _, _ => False

theorem parseCommand_of_port
    (build : Build) (board : MasterBoard) (port : Serial) (packet : ResponsePacket) :
    parseCommand build { board with serialPort := port } packet =
      (parseCommand build board packet).map fun result =>
        ({ result.1 with serialPort := port }, result.2) := by
  have hread : parseMemoryRead build { board with serialPort := port } packet
      (targetMemoryAddress packet) =
        parseMemoryRead build board packet (targetMemoryAddress packet) := rfl
  have hemergency : parseEmergency build { board with serialPort := port } packet
      (targetMemoryAddress packet) =
        parseEmergency build board packet (targetMemoryAddress packet) := rfl
  unfold parseCommand
  simp only [hread, hemergency]
  split
  · rfl
  · split
    · cases parseMemoryRead build board packet (targetMemoryAddress packet) <;> rfl
    · split
      · rfl
      · split
        · cases parseEmergency build board packet (targetMemoryAddress packet) <;> rfl
        · rfl

theorem sameOutcome_dispatch
    (build : Build) (board : MasterBoard) (packet : ResponsePacket) {first second : Serial}
    (hstream : first.stream = second.stream) :
    SameOutcome (dispatch build { board with serialPort := first } packet)
      (dispatch build { board with serialPort := second } packet) := by
  unfold dispatch
  rw [parseCommand_of_port build board first, parseCommand_of_port build board second]
  cases parseCommand build board packet with
  | error fault => exact rfl
  | ok result => exact ⟨rfl, rfl, rfl, hstream⟩

theorem listeningMaster_of_arrived
    (build : Build) {board : MasterBoard} {frame : Frame} {back : List UInt8}
    (hvalid : frame.checksum.toNat = sumMod frame.content)
    (harrived : board.serialPort.line.arrived = frame.bytes ++ back) :
    received board = some frame.response ∧
      ∃ last, last.stream = back ++ board.serialPort.line.inFlight ∧
        listeningMaster build board =
          dispatch build { board with serialPort := last } frame.response := by
  obtain ⟨last, hcall, hstream, _⟩ := receivePacket_of_arrived harrived
  have hafter : afterReceive board = { board with serialPort := last } := by
    unfold afterReceive
    rw [hcall]
  have hreceived : received board = some frame.response := by
    rw [received_eq_some_iff, receiveValid_eq_some_iff]
    exact ⟨last, hcall, frame.response_validChecksum.mpr hvalid, hafter⟩
  refine ⟨hreceived, last, hstream, ?_⟩
  rw [listeningMaster_of_received build hreceived, hafter]
  rfl

theorem listeningMaster_of_invalid
    (build : Build) {board : MasterBoard} {packet : ResponsePacket} {last : Serial}
    (hcall : receivePacket board.serialPort = (.ok (packet, .kSuccessReceive), last))
    (hinvalid : packet.validChecksum = false) :
    listeningMaster build board = .ok ⟨false, { board with serialPort := last }, []⟩ := by
  have hreceive : receiveValid board = .ok (none, { board with serialPort := last }) := by
    unfold receiveValid
    rw [hcall]
    simp [hinvalid]
  unfold listeningMaster
  rw [bind_of_ok hreceive]
  rfl

/-- The board on which `bytes` have arrived instead of what had arrived before. -/
def MasterBoard.withArrived (board : MasterBoard) (bytes : List UInt8) : MasterBoard :=
  { board with serialPort :=
      { board.serialPort with line := { board.serialPort.line with arrived := bytes } } }

/-- A valid frame with one wrong byte is taken from the stream as a whole and
rejected.  A valid frame behind it is decoded and dispatched as if the corrupted
one had not been there. -/
theorem corrupted_frame_contained
    {build : Build} {board : MasterBoard} {frame : Frame} {position : ℕ} {value : UInt8}
    {following : List UInt8}
    (hvalid : frame.checksum.toNat = sumMod frame.content)
    (hposition : position + 1 < frame.bytes.length)
    (hstart : position ≠ 0) (hlength : position ≠ 5)
    (hvalue : frame.bytes[position]? ≠ some value)
    (harrived : board.serialPort.line.arrived =
      frame.bytes.set position value ++ following) :
    ∃ last, listeningMaster build board = .ok ⟨false, { board with serialPort := last }, []⟩ ∧
      last.stream = following ++ board.serialPort.line.inFlight ∧
      ∀ (next : Frame) (back : List UInt8), next.checksum.toNat = sumMod next.content →
        following = next.bytes ++ back →
          received { board with serialPort := last } = some next.response ∧
            received (board.withArrived following) = some next.response ∧
            (∃ port, listeningMaster build { board with serialPort := last } =
              dispatch build { board with serialPort := port } next.response) ∧
            SameOutcome (listeningMaster build { board with serialPort := last })
              (listeningMaster build (board.withArrived following)) := by
  obtain ⟨corrupted, hbytes, hinvalid⟩ :=
    Frame.exists_corrupted hvalid hposition hstart hlength hvalue
  rw [← hbytes] at harrived
  obtain ⟨last, hcall, hstream, delivered, hdelivered⟩ := receivePacket_of_arrived harrived
  refine ⟨last, listeningMaster_of_invalid build hcall hinvalid, hstream, ?_⟩
  rintro next back hnext rfl
  have hfirst : last.line.arrived = next.bytes ++ (back ++ delivered) := by
    rw [← hdelivered, List.append_assoc]
  obtain ⟨hreceived, first, hfirstStream, hfirstCall⟩ :=
    @listeningMaster_of_arrived build { board with serialPort := last } next _ hnext hfirst
  obtain ⟨hreceived', second, hsecondStream, hsecondCall⟩ :=
    @listeningMaster_of_arrived build (board.withArrived (next.bytes ++ back)) next back
      hnext rfl
  have hsame : first.stream = second.stream := by
    unfold Serial.stream Line.stream at hstream
    rw [hfirst, List.append_assoc, List.append_assoc, List.append_assoc] at hstream
    have hlate := List.append_cancel_left hstream
    rw [hfirstStream, hsecondStream, List.append_assoc]
    exact hlate
  refine ⟨hreceived, hreceived', ⟨first, hfirstCall⟩, ?_⟩
  rw [hfirstCall, hsecondCall]
  exact sameOutcome_dispatch build board next.response hsame

/-- A temperature with a wrong sign and tens digit, and the answer to a poll. -/
theorem corrupted_frame_contained_temperature :
    ∃ last, listeningMaster .release
        (boardReceiving ([0x23, 0x22, 0x05, 0xc1, 0x80, 0x04, 0x07, 0xd0, 0x02, 0x80, 0xe7,
          0x0d] ++ [0x23, 0x27, 0xff, 0xa0, 0x80, 0x00, 0x69, 0x0d])) =
        .ok ⟨false, { boardReceiving ([0x23, 0x22, 0x05, 0xc1, 0x80, 0x04, 0x07, 0xd0, 0x02,
          0x80, 0xe7, 0x0d] ++ [0x23, 0x27, 0xff, 0xa0, 0x80, 0x00, 0x69, 0x0d]) with
            serialPort := last }, []⟩ ∧
      last.stream = [0x23, 0x27, 0xff, 0xa0, 0x80, 0x00, 0x69, 0x0d] := by
  obtain ⟨last, hcall, hstream, _⟩ := @corrupted_frame_contained .release
    (boardReceiving ([0x23, 0x22, 0x05, 0xc1, 0x80, 0x04, 0x07, 0xd0, 0x02, 0x80, 0xe7, 0x0d] ++
      [0x23, 0x27, 0xff, 0xa0, 0x80, 0x00, 0x69, 0x0d]))
    ⟨0x22, 0x05, 0xc1, 0x80, [0x07, 0xd0, 0x01, 0x80], 0xe7, 0x0d, by decide⟩ 8 0x02
    [0x23, 0x27, 0xff, 0xa0, 0x80, 0x00, 0x69, 0x0d]
    (by decide) (by decide) (by decide) (by decide) (by decide) rfl
  exact ⟨last, hcall, hstream⟩

end IotGateway
