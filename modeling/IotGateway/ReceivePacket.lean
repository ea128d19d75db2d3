import IotGateway.ResponsePacket
import IotGateway.Serial

/-!
# Receiving one packet

`receivePacket` scans the port for a start byte and reads the header, the body
and the tail behind it.  The second half of this file says once what a call
can do: how the scan proceeds, and what each read of the frame it ends on
contributes to the result.
-/

namespace IotGateway

abbrev Receipt := ResponsePacket × EReceiveErrorCode

def toStringBytes (number : ℕ) : List UInt8 :=
  (Nat.toDigits 10 number).map fun digit => UInt8.ofNat digit.toNat

/-- The constant of this name local to `ReceivePacket`. -/
def receivePacketMaxSlaveCount : UInt8 := 129

/-- The part of `ReceivePacket` that reads the tail and returns the packet. -/
def receiveTail (header : ResponseHeader) (body : List UInt8) (port : Serial) :
    Except Fault Receipt × Serial :=
  let (buffer, port) := port.readline PacketTail.size (toStringBytes kEnd.toNat)
  let tail : PacketTail := ⟨buffer.getD 0 0, buffer.getD 1 0⟩
  if buffer.length ≤ 0 then (.ok ({}, .kFailReceiveTail), port)
  else
    let packet := ResponsePacket.ofParts header body tail
    (packet.map fun packet => (packet, .kSuccessReceive), port)

/-- The part of `ReceivePacket` behind the header.  The body is a vector of
`data_length` zeros which the read overwrites from the front. -/
def receiveFrame (header : ResponseHeader) (port : Serial) :
    Except Fault Receipt × Serial :=
  if header.dataLength > receivePacketMaxSlaveCount then
    (.ok ({}, .kFailOverMaxSlaveCount), port)
  else if header.dataLength > 0 then
    let (bytes, port) := port.read header.dataLength.toNat
    let packetLength := UInt8.ofNat bytes.length
    if packetLength ≤ 0 then (.ok ({}, .kFailReceiveBodyData), port)
    else
      let body := bytes ++ List.replicate (header.dataLength.toNat - bytes.length) 0
      receiveTail header body port
  else receiveTail header [] port

theorem available_read_stream_length_lt {port : Serial}
    (havailable : port.available.1 ≠ 0) :
    (port.available.2.read 1).2.stream.length < port.stream.length := by
  obtain ⟨byte, hbyte⟩ := Serial.read_one_of_available havailable
  have hsplit := port.available.2.read_stream 1
  rw [hbyte, Serial.available_snd_stream] at hsplit
  rw [← hsplit]
  simp

theorem read_stream_length_le (size : ℕ) (port : Serial) :
    (port.read size).2.stream.length ≤ port.stream.length := by
  rw [← port.read_stream size, List.length_append]
  omega

def receivePacket (port : Serial) : Except Fault Receipt × Serial :=
  if havailable : port.available.1 = 0 then
    (.ok ({}, .kFailReceiveHeader), port.available.2)
  else
    let start := port.available.2.read 1
    if start.1.getD 0 0 = kStart then
      let rest := start.2.read (ResponseHeader.size - 1)
      if rest.1.length ≠ 0 then receiveFrame (.overwrite rest.1) rest.2
      else receivePacket rest.2
    else receivePacket start.2
termination_by port.stream.length
decreasing_by
  · exact Nat.lt_of_le_of_lt (read_stream_length_le _ _)
      (available_read_stream_length_lt havailable)
  · exact available_read_stream_length_lt havailable

/-! ## The scan for a start byte -/

def Serial.afterByte (port : Serial) : Serial := (port.available.2.read 1).2

/-- The scan goes from one port state to a later one without meeting a header:
each round skips a byte that is no start byte, or a start byte behind which no
header byte arrives in time. -/
inductive Scans : Serial → Serial → Prop where
  | refl (port : Serial) : Scans port port
  | skip {port last : Serial} {byte : UInt8}
      (havailable : port.available.1 ≠ 0)
      (hbyte : (port.available.2.read 1).1 = [byte])
      (hstart : byte ≠ kStart)
      (hscan : Scans port.afterByte last) : Scans port last
  | silent {port last : Serial}
      (havailable : port.available.1 ≠ 0)
      (hbyte : (port.available.2.read 1).1 = [kStart])
      (hheader : (port.afterByte.read 5).1 = [])
      (hscan : Scans (port.afterByte.read 5).2 last) : Scans port last

/-- The next bytes on the port are a start byte and the header bytes `rest`,
which leave the port in the state `after`. -/
structure HeaderAt (port : Serial) (rest : List UInt8) (after : Serial) : Prop where
  available : port.available.1 ≠ 0
  start : (port.available.2.read 1).1 = [kStart]
  header : port.afterByte.read 5 = (rest, after)
  rest_ne_nil : rest ≠ []

theorem receivePacket_idle {port : Serial} (hidle : port.available.1 = 0) :
    receivePacket port = (.ok ({}, .kFailReceiveHeader), port.available.2) := by
  rw [receivePacket, dif_pos hidle]

theorem receivePacket_skip {port : Serial} {byte : UInt8}
    (havailable : port.available.1 ≠ 0)
    (hbyte : (port.available.2.read 1).1 = [byte]) (hstart : byte ≠ kStart) :
    receivePacket port = receivePacket port.afterByte := by
  rw [receivePacket, dif_neg havailable]
  simp only [hbyte, List.getD_cons_zero, if_neg hstart]
  rfl

theorem receivePacket_silent {port : Serial}
    (havailable : port.available.1 ≠ 0)
    (hbyte : (port.available.2.read 1).1 = [kStart])
    (hheader : (port.afterByte.read 5).1 = []) :
    receivePacket port = receivePacket (port.afterByte.read 5).2 := by
  rw [receivePacket, dif_neg havailable]
  have hlength : ¬ (port.afterByte.read 5).1.length ≠ 0 := by simp [hheader]
  simp only [hbyte, List.getD_cons_zero, if_true]
  exact if_neg hlength

theorem receivePacket_header {port : Serial} {rest : List UInt8} {after : Serial}
    (hat : HeaderAt port rest after) :
    receivePacket port = receiveFrame (.overwrite rest) after := by
  have hlength : (port.afterByte.read 5).1.length ≠ 0 := by
    rw [hat.header]
    exact fun hzero => hat.rest_ne_nil (List.length_eq_zero_iff.mp hzero)
  rw [receivePacket, dif_neg hat.available]
  simp only [hat.start, List.getD_cons_zero, if_true]
  refine (if_pos hlength).trans ?_
  change receiveFrame (.overwrite (port.afterByte.read 5).1)
    (port.afterByte.read 5).2 = _
  rw [hat.header]

theorem receivePacket_of_scans {port last : Serial} (hscan : Scans port last) :
    receivePacket port = receivePacket last := by
  induction hscan with
  | refl => rfl
  | skip havailable hbyte hstart _ ih =>
      rw [receivePacket_skip havailable hbyte hstart, ih]
  | silent havailable hbyte hheader _ ih =>
      rw [receivePacket_silent havailable hbyte hheader, ih]

theorem exists_scans (port : Serial) :
    ∃ last, Scans port last ∧
      (last.available.1 = 0 ∨ ∃ rest after, HeaderAt last rest after) := by
  induction hlength : port.stream.length using Nat.strongRecOn generalizing port with
  | ind length ih =>
    by_cases havailable : port.available.1 = 0
    · exact ⟨port, .refl port, .inl havailable⟩
    · obtain ⟨byte, hbyte⟩ := Serial.read_one_of_available havailable
      have hshorter := available_read_stream_length_lt havailable
      rw [hlength] at hshorter
      by_cases hstart : byte = kStart
      · subst hstart
        by_cases hheader : (port.afterByte.read 5).1 = []
        · have hle := read_stream_length_le 5 port.afterByte
          obtain ⟨last, hscan, hend⟩ :=
            ih _ (Nat.lt_of_le_of_lt hle hshorter) (port.afterByte.read 5).2 rfl
          exact ⟨last, .silent havailable hbyte hheader hscan, hend⟩
        · exact ⟨port, .refl port, .inr ⟨_, _, havailable, hbyte, rfl, hheader⟩⟩
      · obtain ⟨last, hscan, hend⟩ := ih _ hshorter port.afterByte rfl
        exact ⟨last, .skip havailable hbyte hstart hscan, hend⟩

/-- Everything a call of `receivePacket` can do: find the line idle, or end
on the frame behind the first header that the scan meets. -/
theorem receivePacket_cases (port : Serial) :
    (∃ last, Scans port last ∧ last.available.1 = 0 ∧
      receivePacket port = (.ok ({}, .kFailReceiveHeader), last.available.2)) ∨
    (∃ last rest after, Scans port last ∧ HeaderAt last rest after ∧
      receivePacket port = receiveFrame (.overwrite rest) after) := by
  rcases exists_scans port with ⟨last, hscan, hidle | ⟨rest, after, hat⟩⟩
  · exact .inl ⟨last, hscan, hidle,
      (receivePacket_of_scans hscan).trans (receivePacket_idle hidle)⟩
  · exact .inr ⟨last, rest, after, hscan, hat,
      (receivePacket_of_scans hscan).trans (receivePacket_header hat)⟩

/-! ## The frame behind a header -/

/-- The read of the body, which is made for a nonzero length byte only. -/
def bodyRead (length : UInt8) (port : Serial) : List UInt8 × Serial :=
  if length > 0 then port.read length.toNat else ([], port)

def tailRead (port : Serial) : List UInt8 × Serial :=
  port.readline PacketTail.size (toStringBytes kEnd.toNat)

/-- Behind `header` the body read returns `body`, the tail read returns
`tail`, and neither comes back empty where the code gives up. -/
structure FrameReads (header : ResponseHeader) (port : Serial)
    (body tail : List UInt8) (last : Serial) : Prop where
  small : ¬ header.dataLength > receivePacketMaxSlaveCount
  bodyRead_fst : (bodyRead header.dataLength port).1 = body
  body_ne_nil : header.dataLength > 0 → body ≠ []
  tailRead_eq : tailRead (bodyRead header.dataLength port).2 = (tail, last)
  tail_ne_nil : tail ≠ []

/-- The body vector: what was read, followed by the zeros it was filled with. -/
def bodyVector (header : ResponseHeader) (body : List UInt8) : List UInt8 :=
  body ++ List.replicate (header.dataLength.toNat - body.length) 0

def tailOf (tail : List UInt8) : PacketTail := ⟨tail.getD 0 0, tail.getD 1 0⟩

theorem bodyRead_length_le (length : UInt8) (port : Serial) :
    (bodyRead length port).1.length ≤ length.toNat := by
  unfold bodyRead
  split
  · exact port.read_length_le _
  · simp

theorem receiveTail_eq (header : ResponseHeader) (body : List UInt8) (port : Serial) :
    receiveTail header body port =
      if (tailRead port).1 = [] then (.ok ({}, .kFailReceiveTail), (tailRead port).2)
      else
        ((ResponsePacket.ofParts header body (tailOf (tailRead port).1)).map
          fun packet => (packet, .kSuccessReceive), (tailRead port).2) := by
  unfold receiveTail
  simp only [Nat.le_zero, List.length_eq_zero_iff]
  rfl

theorem packetLength_le_zero_iff {bytes : List UInt8} (hlength : bytes.length < 256) :
    UInt8.ofNat bytes.length ≤ 0 ↔ bytes = [] := by
  rw [UInt8.le_iff_toNat_le, UInt8.toNat_ofNat', Nat.mod_eq_of_lt hlength]
  simp

theorem receiveFrame_eq (header : ResponseHeader) (port : Serial) :
    receiveFrame header port =
      if header.dataLength > receivePacketMaxSlaveCount then
        (.ok ({}, .kFailOverMaxSlaveCount), port)
      else if header.dataLength > 0 ∧ (bodyRead header.dataLength port).1 = [] then
        (.ok ({}, .kFailReceiveBodyData), (bodyRead header.dataLength port).2)
      else
        receiveTail header (bodyVector header (bodyRead header.dataLength port).1)
          (bodyRead header.dataLength port).2 := by
  unfold receiveFrame
  split
  next => rfl
  next hsmall =>
    unfold bodyRead
    split
    next hpos =>
      have hread := port.read_length_le header.dataLength.toNat
      have hbyte := header.dataLength.toNat_lt
      have hcount : UInt8.ofNat (port.read header.dataLength.toNat).1.length ≤ 0 ↔
          (port.read header.dataLength.toNat).1 = [] :=
        packetLength_le_zero_iff (by omega)
      simp only [hcount, hpos, true_and]
      rfl
    next hzero =>
      have hlength : header.dataLength.toNat = 0 := by
        rw [gt_iff_lt, UInt8.lt_iff_toNat_lt] at hzero
        simpa using hzero
      simp [hzero, bodyVector, hlength]

/-- Behind a header a call either reports a failure or hands the bytes of
`FrameReads` to the constructor. -/
theorem receiveFrame_cases (header : ResponseHeader) (port : Serial) :
    (∃ code last, code ≠ .kSuccessReceive ∧
      receiveFrame header port = (.ok ({}, code), last)) ∨
    (∃ body tail last, FrameReads header port body tail last) := by
  rw [receiveFrame_eq]
  by_cases hsmall : header.dataLength > receivePacketMaxSlaveCount
  · rw [if_pos hsmall]
    exact .inl ⟨_, _, by decide, rfl⟩
  · rw [if_neg hsmall]
    by_cases hbody : header.dataLength > 0 ∧
        (bodyRead header.dataLength port).1 = []
    · rw [if_pos hbody]
      exact .inl ⟨_, _, by decide, rfl⟩
    · rw [if_neg hbody, receiveTail_eq]
      by_cases htail : (tailRead (bodyRead header.dataLength port).2).1 = []
      · rw [if_pos htail]
        exact .inl ⟨_, _, by decide, rfl⟩
      · refine .inr ⟨_, _, _, hsmall, rfl, ?_, rfl, htail⟩
        exact fun hpos hnil => hbody ⟨hpos, hnil⟩

theorem receiveFrame_of_reads
    {header : ResponseHeader} {port : Serial} {body tail : List UInt8} {last : Serial}
    (hreads : FrameReads header port body tail last) :
    receiveFrame header port =
      ((ResponsePacket.ofParts header (bodyVector header body) (tailOf tail)).map
        fun packet => (packet, .kSuccessReceive), last) := by
  have hbody : ¬ (header.dataLength > 0 ∧
      (bodyRead header.dataLength port).1 = []) := by
    rintro ⟨hpos, hnil⟩
    exact hreads.body_ne_nil hpos (hreads.bodyRead_fst ▸ hnil)
  rw [receiveFrame_eq, if_neg hreads.small, if_neg hbody, receiveTail_eq,
    hreads.tailRead_eq, if_neg hreads.tail_ne_nil, hreads.bodyRead_fst]

/-! ## Bytes and reads of one call -/

/-- The tail is read byte by byte: its `eol` has two bytes, so it is compared
only after the second byte, when the buffer is full anyway. -/
theorem tailRead_eq_reads (port : Serial) :
    tailRead port =
      if (port.read 1).1 = [] then ([], (port.read 1).2)
      else ((port.read 1).1 ++ ((port.read 1).2.read 1).1,
        ((port.read 1).2.read 1).2) :=
  Serial.readline_two 0x31 0x33 port

theorem tailRead_length_le (port : Serial) : (tailRead port).1.length ≤ 2 := by
  have hone := port.read_length_le 1
  have htwo := (port.read 1).2.read_length_le 1
  rw [tailRead_eq_reads]
  split
  · simp
  · rw [List.length_append]
    omega

theorem tailRead_stream (port : Serial) :
    (tailRead port).1 ++ (tailRead port).2.stream = port.stream := by
  have hone := port.read_stream 1
  have htwo := (port.read 1).2.read_stream 1
  rw [tailRead_eq_reads]
  split
  next hnil => simpa [hnil] using hone
  next => rw [List.append_assoc, htwo, hone]

theorem readsOnly_tailRead (port : Serial) :
    Serial.ReadsOnly port (tailRead port).2 := by
  have hone := port.readsOnly_read 1
  rw [tailRead_eq_reads]
  split
  · exact hone
  · exact hone.trans ((port.read 1).2.readsOnly_read 1)

theorem tailRead_length_of_full {port : Serial}
    (hfull : (tailRead port).2.ReadsFull) : (tailRead port).1.length = 2 := by
  rw [tailRead_eq_reads] at hfull ⊢
  by_cases hnil : (port.read 1).1 = []
  · rw [if_pos hnil] at hfull
    have hlength := hfull.read_length
    rw [hnil] at hlength
    contradiction
  · rw [if_neg hnil] at hfull
    rw [if_neg hnil, List.length_append, hfull.read_length,
      ((Serial.readsOnly_read 1 _).readsFull hfull).read_length]

theorem bodyRead_stream (length : UInt8) (port : Serial) :
    (bodyRead length port).1 ++ (bodyRead length port).2.stream = port.stream := by
  unfold bodyRead
  split
  · exact port.read_stream _
  · rfl

theorem readsOnly_bodyRead (length : UInt8) (port : Serial) :
    Serial.ReadsOnly port (bodyRead length port).2 := by
  unfold bodyRead
  split
  · exact port.readsOnly_read _
  · exact .refl port

theorem bodyRead_length_of_full {length : UInt8} {port : Serial}
    (hfull : (bodyRead length port).2.ReadsFull) :
    (bodyRead length port).1.length = length.toNat := by
  unfold bodyRead at hfull ⊢
  split
  next hpos =>
    rw [if_pos hpos] at hfull
    exact hfull.read_length
  next hzero =>
    rw [gt_iff_lt, UInt8.lt_iff_toNat_lt] at hzero
    have hlength : length.toNat = 0 := by simpa using hzero
    simp [hlength]

theorem FrameReads.stream
    {header : ResponseHeader} {port : Serial} {body tail : List UInt8} {last : Serial}
    (hreads : FrameReads header port body tail last) :
    port.stream = body ++ tail ++ last.stream := by
  have hbody := bodyRead_stream header.dataLength port
  have htail := tailRead_stream (bodyRead header.dataLength port).2
  rw [hreads.tailRead_eq] at htail
  rw [← hbody, ← htail, hreads.bodyRead_fst, List.append_assoc]

theorem FrameReads.readsOnly
    {header : ResponseHeader} {port : Serial} {body tail : List UInt8} {last : Serial}
    (hreads : FrameReads header port body tail last) :
    Serial.ReadsOnly port last := by
  have htail := readsOnly_tailRead (bodyRead header.dataLength port).2
  rw [hreads.tailRead_eq] at htail
  exact (readsOnly_bodyRead header.dataLength port).trans htail

theorem FrameReads.complete
    {header : ResponseHeader} {port : Serial} {body tail : List UInt8} {last : Serial}
    (hreads : FrameReads header port body tail last) (hfull : last.ReadsFull) :
    body.length = header.dataLength.toNat ∧ tail.length = 2 := by
  have htail := readsOnly_tailRead (bodyRead header.dataLength port).2
  rw [hreads.tailRead_eq] at htail
  constructor
  · rw [← hreads.bodyRead_fst]
    exact bodyRead_length_of_full (htail.readsFull hfull)
  · have hlast : (tailRead (bodyRead header.dataLength port).2).2.ReadsFull := by
      rw [hreads.tailRead_eq]
      exact hfull
    have hlength := tailRead_length_of_full hlast
    rw [hreads.tailRead_eq] at hlength
    exact hlength

theorem readsOnly_afterByte (port : Serial) :
    Serial.ReadsOnly port port.afterByte :=
  port.readsOnly_available.trans (port.available.2.readsOnly_read 1)

theorem Scans.readsOnly {port last : Serial} (hscan : Scans port last) :
    Serial.ReadsOnly port last := by
  induction hscan with
  | refl port => exact .refl port
  | skip _ _ _ _ ih => exact (readsOnly_afterByte _).trans ih
  | silent _ _ _ _ ih =>
      exact ((readsOnly_afterByte _).trans (Serial.readsOnly_read 5 _)).trans ih

theorem HeaderAt.readsOnly {port : Serial} {rest : List UInt8} {after : Serial}
    (hat : HeaderAt port rest after) : Serial.ReadsOnly port after := by
  have hread := Serial.readsOnly_read 5 port.afterByte
  rw [hat.header] at hread
  exact (readsOnly_afterByte port).trans hread

theorem afterByte_stream {port : Serial} {byte : UInt8}
    (hbyte : (port.available.2.read 1).1 = [byte]) :
    port.stream = byte :: port.afterByte.stream := by
  have hsplit := port.available.2.read_stream 1
  rw [hbyte, Serial.available_snd_stream] at hsplit
  exact hsplit.symm

theorem HeaderAt.stream {port : Serial} {rest : List UInt8} {after : Serial}
    (hat : HeaderAt port rest after) :
    port.stream = kStart :: rest ++ after.stream := by
  have hread := Serial.read_stream 5 port.afterByte
  rw [hat.header] at hread
  rw [afterByte_stream hat.start, ← hread]
  rfl

theorem HeaderAt.complete {port : Serial} {rest : List UInt8} {after : Serial}
    (hat : HeaderAt port rest after) (hfull : after.ReadsFull) :
    rest.length = 5 := by
  have hlast : (port.afterByte.read 5).2.ReadsFull := by
    rw [hat.header]
    exact hfull
  have hlength := hlast.read_length
  rw [hat.header] at hlength
  exact hlength

theorem readsOnly_receiveFrame (header : ResponseHeader) (port : Serial) :
    Serial.ReadsOnly port (receiveFrame header port).2 := by
  have hbody := readsOnly_bodyRead header.dataLength port
  rw [receiveFrame_eq]
  split
  · exact .refl port
  · split
    · exact hbody
    · have htail := readsOnly_tailRead (bodyRead header.dataLength port).2
      rw [receiveTail_eq]
      split
      · exact hbody.trans htail
      · exact hbody.trans htail

theorem readsOnly_receivePacket (port : Serial) :
    Serial.ReadsOnly port (receivePacket port).2 := by
  rcases receivePacket_cases port with
    ⟨last, hscan, _, hresult⟩ | ⟨last, rest, after, hscan, hat, hresult⟩
  · rw [hresult]
    exact hscan.readsOnly.trans last.readsOnly_available
  · rw [hresult]
    exact (hscan.readsOnly.trans hat.readsOnly).trans (readsOnly_receiveFrame _ _)

/-- Every call lets time pass. -/
theorem receivePacket_ticks (port : Serial) :
    (receivePacket port).2.ticks ≤ port.ticks - 1 := by
  rcases receivePacket_cases port with
    ⟨last, hscan, _, hresult⟩ | ⟨last, rest, after, hscan, hat, hresult⟩
  · have hscanTicks := hscan.readsOnly.ticks
    rw [hresult]
    simp only
    rw [Serial.available_snd_ticks]
    omega
  · have hscanTicks := hscan.readsOnly.ticks
    have hpoll := last.available_snd_ticks
    have hbyte := (last.available.2.readsOnly_read 1).ticks
    have hheader := Serial.readsOnly_read 5 last.afterByte
    have hframe := (readsOnly_receiveFrame (.overwrite rest) after).ticks
    rw [hat.header] at hheader
    have hafter : after.ticks ≤ (last.available.2.read 1).2.ticks := hheader.ticks
    rw [hresult]
    omega

theorem bodyVector_length {header : ResponseHeader} {body : List UInt8}
    (hbody : body.length ≤ header.dataLength.toNat) :
    (bodyVector header body).length = header.dataLength.toNat := by
  simp only [bodyVector, List.length_append, List.length_replicate]
  omega

theorem FrameReads.body_length_le
    {header : ResponseHeader} {port : Serial} {body tail : List UInt8} {last : Serial}
    (hreads : FrameReads header port body tail last) :
    body.length ≤ header.dataLength.toNat := by
  rw [← hreads.bodyRead_fst]
  exact bodyRead_length_le _ _

theorem FrameReads.tail_length_le
    {header : ResponseHeader} {port : Serial} {body tail : List UInt8} {last : Serial}
    (hreads : FrameReads header port body tail last) : tail.length ≤ 2 := by
  have hle := tailRead_length_le (bodyRead header.dataLength port).2
  rw [hreads.tailRead_eq] at hle
  exact hle

theorem HeaderAt.rest_length_le {port : Serial} {rest : List UInt8} {after : Serial}
    (hat : HeaderAt port rest after) : rest.length ≤ 5 := by
  have hle := port.afterByte.read_length_le 5
  rw [hat.header] at hle
  exact hle

theorem receivePacket_of_frameReads
    {port start after last : Serial} {rest body tail : List UInt8}
    (hscan : Scans port start) (hat : HeaderAt start rest after)
    (hreads : FrameReads (.overwrite rest) after body tail last) :
    receivePacket port =
      ((ResponsePacket.ofParts (.overwrite rest) (bodyVector (.overwrite rest) body)
        (tailOf tail)).map fun packet => (packet, .kSuccessReceive), last) := by
  rw [receivePacket_of_scans hscan, receivePacket_header hat,
    receiveFrame_of_reads hreads]

theorem exists_frameReads_of_success
    {port last : Serial} {packet : ResponsePacket}
    (hcall : receivePacket port = (.ok (packet, .kSuccessReceive), last)) :
    ∃ start rest after body tail,
      Scans port start ∧ HeaderAt start rest after ∧
        FrameReads (.overwrite rest) after body tail last ∧
        ResponsePacket.ofParts (.overwrite rest) (bodyVector (.overwrite rest) body)
          (tailOf tail) = .ok packet := by
  rcases receivePacket_cases port with
    ⟨idle, _, _, hidle⟩ | ⟨start, rest, after, hscan, hat, hframe⟩
  · rw [hcall] at hidle
    cases hidle
  · rw [hcall] at hframe
    rcases receiveFrame_cases (.overwrite rest) after with
      ⟨code, final, hcode, hfail⟩ | ⟨body, tail, final, hreads⟩
    · rw [hfail] at hframe
      cases hframe
      contradiction
    · rw [receiveFrame_of_reads hreads] at hframe
      obtain ⟨houtcome, hlast⟩ := Prod.mk.inj hframe
      subst hlast
      refine ⟨start, rest, after, body, tail, hscan, hat, hreads, ?_⟩
      cases hparts : ResponsePacket.ofParts (.overwrite rest)
          (bodyVector (.overwrite rest) body) (tailOf tail) with
      | error fault =>
          rw [hparts] at houtcome
          cases houtcome
      | ok response =>
          rw [hparts] at houtcome
          cases houtcome
          rfl

/-- The only fault of a call is the one of the constructor. -/
theorem receivePacket_fault {port : Serial} {fault : Fault}
    (hfault : (receivePacket port).1 = .error fault) : fault = .packetBody := by
  rcases receivePacket_cases port with
    ⟨idle, _, _, hidle⟩ | ⟨start, rest, after, _, _, hframe⟩
  · rw [hidle] at hfault
    cases hfault
  · rw [hframe] at hfault
    rcases receiveFrame_cases (.overwrite rest) after with
      ⟨code, final, _, hfail⟩ | ⟨body, tail, final, hreads⟩
    · rw [hfail] at hfault
      cases hfault
    · rw [receiveFrame_of_reads hreads] at hfault
      unfold ResponsePacket.ofParts at hfault
      split at hfault <;> cases hfault
      rfl

/-- When no read times out short, the scan skips exactly the bytes in front of
the next start byte. -/
theorem Scans.skipped {port last : Serial}
    (hscan : Scans port last) (hfull : last.ReadsFull) :
    ∃ skipped, port.stream = skipped ++ last.stream ∧ ∀ byte ∈ skipped, byte ≠ kStart := by
  induction hscan with
  | refl port => exact ⟨[], rfl, by simp⟩
  | skip havailable hbyte hstart hscan ih =>
      obtain ⟨skipped, hstream, hnoise⟩ := ih hfull
      refine ⟨_ :: skipped, by rw [afterByte_stream hbyte, hstream]; rfl, ?_⟩
      intro byte hmem
      rcases List.mem_cons.mp hmem with heq | hrest
      · exact heq ▸ hstart
      · exact hnoise byte hrest
  | silent havailable hbyte hheader hscan ih =>
      have hread := (hscan.readsOnly.readsFull hfull).read_length
      rw [hheader] at hread
      contradiction

theorem exists_frameReads_of_full {header : ResponseHeader} {port : Serial}
    (hsmall : ¬ header.dataLength > receivePacketMaxSlaveCount)
    (hfull : (receiveFrame header port).2.ReadsFull) :
    ∃ body tail last, FrameReads header port body tail last ∧
      body.length = header.dataLength.toNat ∧ tail.length = 2 := by
  rw [receiveFrame_eq, if_neg hsmall] at hfull
  have hbody : ¬ (header.dataLength > 0 ∧
      (bodyRead header.dataLength port).1 = []) := by
    rintro ⟨hpos, hnil⟩
    rw [if_pos ⟨hpos, hnil⟩] at hfull
    have hlength := bodyRead_length_of_full hfull
    rw [hnil] at hlength
    rw [gt_iff_lt, UInt8.lt_iff_toNat_lt, ← hlength] at hpos
    simp at hpos
  rw [if_neg hbody, receiveTail_eq] at hfull
  have hfullTail : (tailRead (bodyRead header.dataLength port).2).2.ReadsFull := by
    split at hfull <;> exact hfull
  have htail := tailRead_length_of_full hfullTail
  have hreads : FrameReads header port (bodyRead header.dataLength port).1
      (tailRead (bodyRead header.dataLength port).2).1
      (tailRead (bodyRead header.dataLength port).2).2 :=
    ⟨hsmall, rfl, fun hpos hnil => hbody ⟨hpos, hnil⟩, rfl,
      fun hnil => by simp [hnil] at htail⟩
  exact ⟨_, _, _, hreads, hreads.complete hfullTail⟩

end IotGateway
