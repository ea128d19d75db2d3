import IotGateway.Library.Faults
import IotGateway.Serial

/-!
# The driver of the serial port

The driver waits for the terminal with `pselect`, reads what has arrived and
waits again, until it has all the bytes or its timer expires.  Seen from the
program, it is a timed line.
-/

namespace IotGateway

open TimedLine

/-- How the wait for a readable terminal ends. -/
inductive Select where
  | ready
  | timeout
  | interrupted
  | failed
  deriving DecidableEq, Repr

/-- What happens during a turn of the loop of `read`: the time left, the bytes
that arrive while `pselect` waits, and those that arrive in the extra wait for
the rest of a read. -/
structure Turn where
  remaining : ℤ
  arriving : ℕ
  select : Select
  later : ℕ
  deriving DecidableEq, Repr

/-- How the wait for the terminal ends in a turn of the loop of `write`, and how
many bytes it accepts then. -/
inductive Accept where
  | ready (count : ℕ)
  | interrupted
  | timeout
  | failed
  deriving DecidableEq, Repr

structure WriteTurn where
  remaining : ℤ
  accept : Accept
  deriving DecidableEq, Repr

inductive SerialError where
  | ioException
  | serialException
  deriving DecidableEq, Repr

/-- The terminal: the bytes in its input buffer, those on their way, and what the
kernel does in the turns of the reads to come and in those of every write. -/
structure Tty where
  buffer : List UInt8
  inFlight : List UInt8
  turns : List Turn
  writes : ℕ
  writeTurns : ℕ → List WriteTurn

namespace Tty

def stream (tty : Tty) : List UInt8 := tty.buffer ++ tty.inFlight

def arrive (count : ℕ) (tty : Tty) : Tty :=
  { tty with
    buffer := tty.buffer ++ tty.inFlight.take count
    inFlight := tty.inFlight.drop count }

/-- `read` of the system, which returns what the buffer has. -/
def sysRead (size : ℕ) (tty : Tty) : List UInt8 × Tty :=
  (tty.buffer.take size, { tty with buffer := tty.buffer.drop size })

/-- Time passes before a call. -/
def pass (tty : Tty) : Tty :=
  match tty.turns with
  | [] => tty
  | turn :: turns => { tty.arrive turn.arriving with turns := turns }

def available (tty : Tty) : ℕ × Tty := (tty.pass.buffer.length, tty.pass)

/-- The loop of `SerialImpl::read`, for a port without an inter-byte timeout.
Without another turn the timer has expired. -/
def readLoop (size : ℕ) :
    List Turn → List UInt8 → Tty → Except SerialError (List UInt8 × Tty)
  | [], bytes, tty => .ok (bytes, { tty with turns := [] })
  | turn :: turns, bytes, tty =>
      if size ≤ bytes.length then .ok (bytes, { tty with turns := turn :: turns })
      else if turn.remaining ≤ 0 then .ok (bytes, { tty with turns := turns })
      else
        let tty := tty.arrive turn.arriving
        match turn.select with
        | .failed => .error .ioException
        | .interrupted | .timeout => readLoop size turns bytes tty
        | .ready =>
            let tty :=
              if size > 1 ∧ tty.buffer.length + bytes.length < size then tty.arrive turn.later
              else tty
            let (now, tty) := tty.sysRead (size - bytes.length)
            -- a device that has been disconnected is ready and has no bytes
            if now = [] then .error .serialException
            else readLoop size turns (bytes ++ now) tty

def read (size : ℕ) (tty : Tty) : Except SerialError (List UInt8 × Tty) :=
  let (bytes, tty) := tty.pass.sysRead size
  readLoop size tty.turns bytes tty

/-! ## Reading -/

@[simp] theorem arrive_stream (count : ℕ) (tty : Tty) : (tty.arrive count).stream = tty.stream := by
  simp [arrive, stream]

@[simp] theorem pass_stream (tty : Tty) : tty.pass.stream = tty.stream := by
  unfold pass
  split
  · rfl
  · exact arrive_stream _ tty

@[simp] theorem pass_writes (tty : Tty) : tty.pass.writes = tty.writes := by
  unfold pass
  split <;> rfl

theorem buffer_prefix_pass (tty : Tty) : tty.buffer <+: tty.pass.buffer := by
  unfold pass
  split
  · exact List.prefix_rfl
  · exact List.prefix_append _ _

theorem sysRead_stream (size : ℕ) (tty : Tty) :
    (tty.sysRead size).1 ++ (tty.sysRead size).2.stream = tty.stream := by
  change tty.buffer.take size ++ (tty.buffer.drop size ++ tty.inFlight) = _
  rw [← List.append_assoc, List.take_append_drop]
  rfl

/-- The loop adds bytes from the front of the stream, and no more than it is
asked for. -/
theorem readLoop_stream {size : ℕ} {turns : List Turn} {bytes result : List UInt8}
    {tty last : Tty} (hbytes : bytes.length ≤ size)
    (hread : readLoop size turns bytes tty = .ok (result, last)) :
    result ++ last.stream = bytes ++ tty.stream ∧ bytes.length ≤ result.length ∧
      result.length ≤ size ∧ last.writes = tty.writes := by
  induction turns generalizing bytes tty with
  | nil =>
      cases hread
      exact ⟨rfl, Nat.le_refl _, hbytes, rfl⟩
  | cons turn turns ih =>
      unfold readLoop at hread
      split at hread
      next =>
        cases hread
        exact ⟨rfl, Nat.le_refl _, hbytes, rfl⟩
      next =>
        split at hread
        next =>
          cases hread
          exact ⟨rfl, Nat.le_refl _, hbytes, rfl⟩
        next =>
          simp only at hread
          split at hread
          next => cases hread
          next =>
            have hrest := ih hbytes hread
            rw [arrive_stream] at hrest
            exact hrest
          next =>
            have hrest := ih hbytes hread
            rw [arrive_stream] at hrest
            exact hrest
          next =>
            have hwaited : ∀ waited : Tty, waited.stream = tty.stream →
                waited.writes = tty.writes →
                (if (waited.sysRead (size - bytes.length)).1 = [] then
                    .error .serialException
                  else readLoop size turns (bytes ++ (waited.sysRead (size - bytes.length)).1)
                    (waited.sysRead (size - bytes.length)).2) = .ok (result, last) →
                result ++ last.stream = bytes ++ tty.stream ∧
                  bytes.length ≤ result.length ∧ result.length ≤ size ∧
                    last.writes = tty.writes := by
              intro waited hsame hwrites hnext
              split at hnext
              next => cases hnext
              next =>
                have hnow : (waited.sysRead (size - bytes.length)).1.length ≤
                    size - bytes.length := List.length_take_le _ _
                obtain ⟨hstream, hle, hsize, hlast⟩ := ih
                  (by rw [List.length_append]; omega) hnext
                rw [List.length_append] at hle
                rw [List.append_assoc, sysRead_stream, hsame] at hstream
                exact ⟨hstream, by omega, hsize, hlast.trans hwrites⟩
            split at hread
            next => exact hwaited _ ((arrive_stream _ _).trans (arrive_stream _ _)) rfl hread
            next => exact hwaited _ (arrive_stream _ _) rfl hread

/-- A read takes its bytes from the front of the stream, at least those that
are in the buffer. -/
theorem read_stream {size : ℕ} {tty last : Tty} {bytes : List UInt8}
    (hread : tty.read size = .ok (bytes, last)) :
    bytes ++ last.stream = tty.stream ∧ bytes.length ≤ size ∧
      min size tty.buffer.length ≤ bytes.length ∧ last.writes = tty.writes := by
  have hprefill : (tty.pass.sysRead size).1.length ≤ size := List.length_take_le _ _
  obtain ⟨hstream, hle, hsize, hwrites⟩ := readLoop_stream hprefill hread
  change _ = (tty.pass.sysRead size).1 ++ (tty.pass.sysRead size).2.stream at hstream
  rw [sysRead_stream, pass_stream] at hstream
  have hbuffer := (buffer_prefix_pass tty).length_le
  have htaken : (tty.pass.sysRead size).1.length = min size tty.pass.buffer.length :=
    List.length_take
  exact ⟨hstream, hsize, by omega, hwrites.trans (pass_writes tty)⟩

/-- A read of bytes that are in the buffer does not wait. -/
theorem read_of_buffered {size : ℕ} {tty : Tty} (hbuffered : size ≤ tty.pass.buffer.length) :
    tty.read size = .ok (tty.pass.buffer.take size,
      { tty.pass with buffer := tty.pass.buffer.drop size }) := by
  have hlength : size ≤ (tty.pass.buffer.take size).length := by
    rw [List.length_take]
    omega
  unfold read sysRead
  simp only
  cases hturns : tty.pass.turns with
  | nil => rfl
  | cons turn turns =>
      unfold readLoop
      rw [if_pos hlength]

end Tty

/-! ## Writing -/

/-- The loop of `SerialImpl::write`: it keeps the number of bytes written, and
`sent` is what the device has got. -/
def writeLoop (data : List UInt8) :
    List WriteTurn → Bool → ℕ → List UInt8 → Except SerialError (ℕ × List UInt8)
  | [], _, bytesWritten, sent => .ok (bytesWritten, sent)
  | turn :: turns, firstIteration, bytesWritten, sent =>
      if data.length ≤ bytesWritten then .ok (bytesWritten, sent)
      else if !firstIteration ∧ turn.remaining ≤ 0 then .ok (bytesWritten, sent)
      else
        match turn.accept with
        | .failed => .error .ioException
        | .timeout => .ok (bytesWritten, sent)
        | .interrupted => writeLoop data turns false bytesWritten sent
        | .ready count =>
            let now := (data.drop bytesWritten).take count
            if now = [] then .error .serialException
            else writeLoop data turns false (bytesWritten + now.length) (sent ++ now)

def Tty.write (data : List UInt8) (turns : List WriteTurn) :
    Except SerialError (ℕ × List UInt8) :=
  writeLoop data turns true 0 []

/-- The turn neither finds the timer expired nor times out. -/
def WriteTurn.InTime (turn : WriteTurn) : Prop := 0 < turn.remaining ∧ turn.accept ≠ .timeout

def WriteTurn.isReady (turn : WriteTurn) : Bool :=
  match turn.accept with
  | .ready _ => true
  | .interrupted | .timeout | .failed => false

theorem writeLoop_takes {data : List UInt8} {turns : List WriteTurn} {firstIteration : Bool}
    {bytesWritten : ℕ} {sent : List UInt8} {result : ℕ × List UInt8}
    (hsent : sent = data.take bytesWritten) (hle : bytesWritten ≤ data.length)
    (hwrite : writeLoop data turns firstIteration bytesWritten sent = .ok result) :
    result.2 = data.take result.1 ∧ result.1 ≤ data.length ∧
      ((∀ turn ∈ turns, turn.InTime) → data.length ≤ bytesWritten + turns.countP WriteTurn.isReady →
        result.1 = data.length) := by
  induction turns generalizing firstIteration bytesWritten sent with
  | nil =>
      cases hwrite
      exact ⟨hsent, hle, fun _ hready => by simpa using Nat.le_antisymm hle hready⟩
  | cons turn turns ih =>
      unfold writeLoop at hwrite
      split at hwrite
      next hdone =>
        cases hwrite
        exact ⟨hsent, hle, fun _ _ => Nat.le_antisymm hle hdone⟩
      next hmore =>
        split at hwrite
        next hexpired =>
          cases hwrite
          refine ⟨hsent, hle, fun hinTime _ => ?_⟩
          have hpos := (hinTime turn List.mem_cons_self).1
          omega
        next =>
          split at hwrite
          next => cases hwrite
          next htimeout =>
            cases hwrite
            exact ⟨hsent, hle, fun hinTime _ =>
              absurd htimeout (hinTime turn List.mem_cons_self).2⟩
          next hinterrupted =>
            obtain ⟨htake, hlength, hcomplete⟩ := ih hsent hle hwrite
            refine ⟨htake, hlength, fun hinTime hready => hcomplete
              (fun other hmem => hinTime other (List.mem_cons_of_mem _ hmem)) ?_⟩
            rw [List.countP_cons_of_neg (by simp [WriteTurn.isReady, hinterrupted])] at hready
            exact hready
          next count hready =>
            simp only at hwrite
            split at hwrite
            next => cases hwrite
            next hsome =>
              have hpos := List.length_pos_iff.mpr hsome
              have hnow : ((data.drop bytesWritten).take count).length ≤
                  data.length - bytesWritten := by
                rw [List.length_take, List.length_drop]
                exact Nat.min_le_right _ _
              have hnext : sent ++ (data.drop bytesWritten).take count =
                  data.take (bytesWritten + ((data.drop bytesWritten).take count).length) := by
                rw [hsent, List.take_add]
                congr 1
                rw [List.length_take, ← List.take_take, List.take_length]
              obtain ⟨htake, hlength, hcomplete⟩ := ih hnext (by omega) hwrite
              refine ⟨htake, hlength, fun hinTime henough => hcomplete
                (fun other hmem => hinTime other (List.mem_cons_of_mem _ hmem)) ?_⟩
              rw [List.countP_cons_of_pos (by simp [WriteTurn.isReady, hready])] at henough
              omega

/-- However often the terminal takes only some of the bytes or interrupts the
wait, a write that returns has passed on as many bytes as it says, from the
front and each once; these are all, if there is a turn for each byte in which
the terminal is ready before the timer expires. -/
theorem write_passes {data : List UInt8} {turns : List WriteTurn} {bytesWritten : ℕ}
    {sent : List UInt8} (hwrite : Tty.write data turns = .ok (bytesWritten, sent)) :
    sent = data.take bytesWritten ∧ bytesWritten ≤ data.length ∧
      ((∀ turn ∈ turns, turn.InTime) → data.length ≤ turns.countP WriteTurn.isReady →
        bytesWritten = data.length) := by
  obtain ⟨htake, hle, hcomplete⟩ := writeLoop_takes rfl (Nat.zero_le _) hwrite
  rw [Nat.zero_add] at hcomplete
  exact ⟨htake, hle, hcomplete⟩

/-- The first wait is made even though the timer has expired, the second is not. -/
theorem write_passes_late :
    Tty.write [0x23, 0x27, 0xff] [⟨0, .ready 2⟩, ⟨0, .ready 1⟩] = .ok (2, [0x23, 0x27]) ∧
      ([0x23, 0x27] : List UInt8) = List.take 2 [0x23, 0x27, 0xff] :=
  have hwrite : Tty.write [0x23, 0x27, 0xff] [⟨0, .ready 2⟩, ⟨0, .ready 1⟩] =
      .ok (2, [0x23, 0x27]) := rfl
  ⟨hwrite, (write_passes hwrite).1⟩

/-! ## The driver as a timed line -/

inductive PortOperation where
  | available
  | read (size : ℕ)
  | write (frame : List UInt8)
  deriving DecidableEq, Repr

inductive PortResponse where
  | count (number : ℕ)
  | bytes (bytes : List UInt8)
  deriving DecidableEq, Repr

/-- An operation on the terminal.  The device answers the bytes that it gets. -/
def Tty.operate (peer : ℕ → List UInt8 → List UInt8) (operation : PortOperation) (tty : Tty) :
    Except SerialError (PortResponse × Tty) :=
  match operation with
  | .available => .ok (.count tty.available.1, tty.available.2)
  | .read size => do
      let (bytes, tty) ← tty.read size
      return (.bytes bytes, tty)
  | .write frame => do
      let (bytesWritten, sent) ← Tty.write frame (tty.writeTurns tty.writes)
      return (.count bytesWritten, { tty with
        inFlight := tty.inFlight ++ if sent = [] then [] else peer tty.writes sent
        writes := tty.writes + 1 })

def Serial.operate (operation : PortOperation) (port : Serial) : PortResponse × Serial :=
  match operation with
  | .available => (.count port.available.1, port.available.2)
  | .read size => (.bytes (port.read size).1, (port.read size).2)
  | .write frame => (.count frame.length, port.write frame)

/-- A program that uses the terminal: its next operation depends on the
responses so far. -/
def Tty.use (peer : ℕ → List UInt8 → List UInt8) (program : List PortResponse → PortOperation) :
    ℕ → List PortResponse → Tty → Except SerialError (List PortResponse)
  | 0, responses, _ => .ok responses
  | count + 1, responses, tty => do
      let (response, tty) ← tty.operate peer (program responses)
      tty.use peer program count (responses ++ [response])

def Serial.use (program : List PortResponse → PortOperation) :
    ℕ → List PortResponse → Serial → List PortResponse
  | 0, responses, _ => responses
  | count + 1, responses, port =>
      let (response, port) := port.operate (program responses)
      port.use program count (responses ++ [response])

/-! ## Ticks for the operations -/

theorem exists_ticks_available {tty : Tty} {arrived inFlight : List UInt8}
    (hstream : arrived ++ inFlight = tty.stream) (harrived : arrived <+: tty.buffer) :
    ∃ ticks, ∀ schedule, (⟨arrived, inFlight, ticks ++ schedule⟩ : Line UInt8).pass =
      ⟨tty.pass.buffer, tty.pass.inFlight, schedule⟩ := by
  obtain ⟨more, hmore⟩ := harrived.trans tty.buffer_prefix_pass
  refine ⟨[.deliver more.length], fun schedule => ?_⟩
  have hsame : inFlight = more ++ tty.pass.inFlight := by
    rw [← tty.pass_stream, Tty.stream, ← hmore, List.append_assoc] at hstream
    exact List.append_cancel_left hstream
  unfold Line.pass
  rw [hsame, ← hmore]
  simp

/-- A read that has to wait returns what arrives before it is complete or its
timer expires. -/
theorem receive_deliver {size : ℕ} {arrived more rest : List UInt8} {schedule : List Tick}
    (hwait : arrived.length < size) (hle : arrived.length + more.length ≤ size) :
    (⟨arrived, more ++ rest, .deliver more.length ::
        ((if arrived.length + more.length < size then [.timeout] else []) ++ schedule)⟩ :
      Line UInt8).receive size = (arrived ++ more, ⟨[], rest, schedule⟩) := by
  unfold Line.receive Line.collect
  rw [if_neg (Nat.not_le.mpr hwait)]
  simp only [List.take_left, List.drop_left]
  unfold Line.collect
  rw [List.length_append]
  split
  next hfull =>
    have hsize : size = (arrived ++ more).length := by
      rw [List.length_append]
      omega
    rw [if_neg (by omega), hsize, List.take_length, List.drop_length]
    rfl
  next hshort =>
    rw [if_pos (by omega)]
    rfl

theorem exists_ticks_read {size : ℕ} {tty last : Tty} {bytes arrived inFlight : List UInt8}
    (hstream : arrived ++ inFlight = tty.stream) (harrived : arrived <+: tty.buffer)
    (hread : tty.read size = .ok (bytes, last)) :
    ∃ ticks arrived' inFlight', arrived' ++ inFlight' = last.stream ∧ arrived' <+: last.buffer ∧
      ∀ schedule, (⟨arrived, inFlight, ticks ++ schedule⟩ : Line UInt8).receive size =
        (bytes, ⟨arrived', inFlight', schedule⟩) := by
  obtain ⟨hsplit, hle, hbuffer, _⟩ := Tty.read_stream hread
  have harrivedLength := harrived.length_le
  by_cases hbuffered : size ≤ arrived.length
  · obtain ⟨more, hmore⟩ := harrived.trans tty.buffer_prefix_pass
    have hpassed : size ≤ tty.pass.buffer.length := by
      rw [← hmore, List.length_append]
      omega
    rw [Tty.read_of_buffered hpassed] at hread
    cases hread
    have htake : tty.pass.buffer.take size = arrived.take size := by
      rw [← hmore, List.take_append_of_le_length hbuffered]
    have hdrop : tty.pass.buffer.drop size = arrived.drop size ++ more := by
      rw [← hmore, List.drop_append_of_le_length hbuffered]
    refine ⟨[], arrived.drop size, inFlight, ?_, ?_, fun schedule => ?_⟩
    · rw [← hstream, htake, ← List.take_append_drop size arrived, List.append_assoc,
        List.take_append_drop] at hsplit
      exact (List.append_cancel_left hsplit).symm
    · exact ⟨more, hdrop.symm⟩
    · rw [htake]
      exact Line.receive_of_arrived hbuffered
  · have hlength : arrived.length ≤ bytes.length := by omega
    obtain ⟨more, hmore⟩ : arrived <+: bytes :=
      List.prefix_of_prefix_length_le ⟨inFlight, hstream⟩ ⟨last.stream, hsplit⟩ hlength
    have hsame : inFlight = more ++ last.stream := by
      rw [← hsplit, ← hmore, List.append_assoc] at hstream
      exact List.append_cancel_left hstream
    have hmoreLength : arrived.length + more.length ≤ size := by
      rw [← List.length_append, hmore]
      exact hle
    refine ⟨.deliver more.length ::
      (if arrived.length + more.length < size then [.timeout] else []), [], last.stream, rfl,
      List.nil_prefix, fun schedule => ?_⟩
    rw [hsame, List.cons_append, receive_deliver (by omega) hmoreLength, hmore]

/-- A write that returns the length of its packet has passed on the packet. -/
theorem Tty.sent_of_write {frame sent : List UInt8} {turns : List WriteTurn}
    (hwrite : Tty.write frame turns = .ok (frame.length, sent)) : sent = frame := by
  have htake := (writeLoop_takes rfl (Nat.zero_le _) hwrite).1
  rwa [List.take_length] at htake

/-- For an operation that the terminal performs there are ticks with which the
port gives the same response, unless a write is cut short. -/
theorem exists_ticks {peer : ℕ → List UInt8 → List UInt8} {operation : PortOperation}
    {tty last : Tty} {response : PortResponse} {arrived inFlight : List UInt8}
    (hstream : arrived ++ inFlight = tty.stream) (harrived : arrived <+: tty.buffer)
    (hoperate : tty.operate peer operation = .ok (response, last))
    (hcomplete : ∀ frame, operation = .write frame → response = .count frame.length) :
    ∃ ticks arrived' inFlight', arrived' ++ inFlight' = last.stream ∧ arrived' <+: last.buffer ∧
      ∀ schedule (port : Serial), port.line = ⟨arrived, inFlight, ticks ++ schedule⟩ →
        port.peer = peer → port.written.length = tty.writes →
          ∃ after, port.operate operation = (response, after) ∧
            after.line = ⟨arrived', inFlight', schedule⟩ ∧ after.peer = peer ∧
              after.written.length = last.writes := by
  cases operation with
  | available =>
      cases hoperate
      obtain ⟨ticks, hpass⟩ := exists_ticks_available hstream harrived
      refine ⟨ticks, tty.pass.buffer, tty.pass.inFlight, rfl, List.prefix_rfl,
        fun schedule port hline hpeer hwrites => ⟨port.available.2, ?_, ?_, hpeer, ?_⟩⟩
      · unfold Serial.operate Serial.available Tty.available
        rw [hline, hpass]
      · unfold Serial.available
        rw [hline, hpass]
      · rw [Serial.available_snd_written, hwrites]
        exact (Tty.pass_writes tty).symm
  | read size =>
      obtain ⟨⟨bytes, after⟩, hread, hresult⟩ := Faults.exists_of_bind_eq_ok hoperate
      cases hresult
      obtain ⟨ticks, arrived', inFlight', hrest, hprefix, hreceive⟩ :=
        exists_ticks_read hstream harrived hread
      refine ⟨ticks, arrived', inFlight', hrest, hprefix,
        fun schedule port hline hpeer hwrites => ⟨(port.read size).2, ?_, ?_, hpeer, ?_⟩⟩
      · unfold Serial.operate Serial.read
        simp only
        rw [hline, hreceive]
      · unfold Serial.read
        simp only
        rw [hline, hreceive]
      · rw [Serial.read_snd_written, hwrites, (Tty.read_stream hread).2.2.2]
  | write frame =>
      obtain ⟨⟨bytesWritten, sent⟩, hwrite, hresult⟩ := Faults.exists_of_bind_eq_ok hoperate
      cases hresult
      have hlength : bytesWritten = frame.length := by
        cases hcomplete frame rfl
        rfl
      rw [hlength] at hwrite
      have hsent := Tty.sent_of_write hwrite
      rw [hsent]
      refine ⟨[], arrived, inFlight ++ if frame = [] then [] else peer tty.writes frame, ?_,
        harrived, fun schedule port hline hpeer hwrites => ⟨port.write frame, ?_, ?_, hpeer, ?_⟩⟩
      · rw [← List.append_assoc, hstream]
        exact List.append_assoc ..
      · rw [hlength]
        rfl
      · unfold Serial.write Serial.answer Line.send
        rw [hline, hpeer, hwrites]
        rfl
      · rw [Serial.written_write, List.length_append, hwrites]
        rfl

/-- Every write returned the length of its packet. -/
def WritesComplete (program : List PortResponse → PortOperation)
    (responses : List PortResponse) : Prop :=
  ∀ earlier response frame, earlier ++ [response] <+: responses →
    program earlier = .write frame → response = .count frame.length

theorem Tty.prefix_use {peer : ℕ → List UInt8 → List UInt8}
    {program : List PortResponse → PortOperation} {count : ℕ} {tty : Tty}
    {earlier responses : List PortResponse}
    (huse : tty.use peer program count earlier = .ok responses) : earlier <+: responses := by
  induction count generalizing earlier tty with
  | zero =>
      cases huse
      exact List.prefix_rfl
  | succ count ih =>
      obtain ⟨⟨response, after⟩, _, hrest⟩ := Faults.exists_of_bind_eq_ok huse
      exact (List.prefix_append _ _).trans (ih hrest)

/-- Whatever the kernel does, a program that uses the terminal, meets no error and
has no write cut short gets the responses of a timed line with some schedule. -/
theorem terminal_simulated {peer : ℕ → List UInt8 → List UInt8}
    {program : List PortResponse → PortOperation} {count : ℕ} {tty : Tty}
    {responses : List PortResponse} (hfresh : tty.writes = 0)
    (huse : tty.use peer program count [] = .ok responses)
    (hcomplete : WritesComplete program responses) :
    ∃ schedule, Serial.use program count []
      ⟨⟨[], tty.stream, schedule⟩, peer, []⟩ = responses := by
  suffices hgeneral : ∀ count tty earlier arrived inFlight,
      arrived ++ inFlight = tty.stream → arrived <+: tty.buffer →
        Tty.use peer program count earlier tty = .ok responses →
          ∃ schedule, ∀ port : Serial, port.line = ⟨arrived, inFlight, schedule⟩ →
            port.peer = peer → port.written.length = tty.writes →
              port.use program count earlier = responses by
    obtain ⟨schedule, hsame⟩ := hgeneral count tty [] [] tty.stream rfl List.nil_prefix huse
    exact ⟨schedule, hsame _ rfl rfl hfresh.symm⟩
  intro count
  induction count with
  | zero =>
      intro tty earlier arrived inFlight _ _ hdone
      cases hdone
      exact ⟨[], fun _ _ _ _ => rfl⟩
  | succ count ih =>
      intro tty earlier arrived inFlight hstream harrived hnext
      obtain ⟨⟨response, after⟩, hoperate, hrest⟩ := Faults.exists_of_bind_eq_ok hnext
      obtain ⟨ticks, arrived', inFlight', hstream', harrived', hport⟩ :=
        exists_ticks hstream harrived hoperate
          (fun frame hwrite => hcomplete earlier response frame (Tty.prefix_use hrest) hwrite)
      obtain ⟨schedule, hsame⟩ := ih after _ arrived' inFlight' hstream' harrived' hrest
      refine ⟨ticks ++ schedule, fun port hline hpeer hwrites => ?_⟩
      obtain ⟨port', hoperated, hline', hpeer', hwrites'⟩ :=
        hport schedule port hline hpeer hwrites
      unfold Serial.use
      rw [hoperated]
      exact hsame port' hline' hpeer' hwrites'

/-- A terminal from which one read gets its bytes in two turns, with an
interrupted wait and a wait that times out between them, and another read times
out short.  A write is taken in two pieces. -/
def slowTty : Tty where
  buffer := [0x23, 0x27]
  inFlight := [0xff, 0xa0, 0x80]
  turns := [⟨20000, 0, .ready, 0⟩, ⟨20000, 0, .interrupted, 0⟩, ⟨20000, 0, .interrupted, 0⟩,
    ⟨20000, 0, .timeout, 0⟩, ⟨20000, 1, .ready, 1⟩, ⟨20000, 1, .ready, 0⟩, ⟨0, 0, .ready, 0⟩]
  writes := 0
  writeTurns := fun _ => [⟨20000, .ready 1⟩, ⟨20000, .interrupted⟩, ⟨20000, .ready 1⟩]

def slowProgram (responses : List PortResponse) : PortOperation :=
  [.available, .read 4, .write [0x01, 0x02], .read 3].getD responses.length .available

theorem writesComplete_slow :
    WritesComplete slowProgram
      [.count 2, .bytes [0x23, 0x27, 0xff, 0xa0], .count 2, .bytes [0x80]] := by
  intro earlier response frame hprefix hwrite
  have hlength := hprefix.length_le
  have heq := List.prefix_iff_eq_take.mp hprefix
  rw [List.length_append, List.length_singleton] at heq hlength
  rw [List.length_cons, List.length_cons, List.length_cons, List.length_cons,
    List.length_nil] at hlength
  have hcases : earlier.length = 0 ∨ earlier.length = 1 ∨ earlier.length = 2 ∨
      earlier.length = 3 := by
    omega
  unfold slowProgram at hwrite
  rcases hcases with hindex | hindex | hindex | hindex <;> rw [hindex] at heq hwrite
  · cases hwrite
  · cases hwrite
  · cases hwrite
    have hlast := congrArg List.getLast? heq
    rw [List.getLast?_concat] at hlast
    exact Option.some.inj hlast
  · cases hwrite

theorem terminal_simulated_slow :
    ∃ schedule, Serial.use slowProgram 4 []
        ⟨⟨[], slowTty.stream, schedule⟩, fun _ _ => [0x0d], []⟩ =
      [.count 2, .bytes [0x23, 0x27, 0xff, 0xa0], .count 2, .bytes [0x80]] :=
  @terminal_simulated (fun _ _ => [0x0d]) slowProgram 4 slowTty _ rfl rfl writesComplete_slow

end IotGateway
