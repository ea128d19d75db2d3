import IotGateway.Library.TimedLine
import IotGateway.Protocol

/-!
# The serial port

The port reads from a timed line of bytes.  The device at its other end reacts
to every write that puts a byte on the line with the bytes of `peer`, which then
are in flight on the line.  The port keeps a trace of what the program did with
it.
-/

namespace IotGateway

open TimedLine

inductive PortEvent where
  | wrote (frame : List UInt8)
  | polled (count : ℕ)
  | got (asked : ℕ) (bytes : List UInt8)
  deriving DecidableEq, Repr

def PortEvent.Full : PortEvent → Prop
  | .got asked bytes => bytes.length = asked
  | _ => True

instance : DecidablePred PortEvent.Full
  | .wrote _ => isTrue trivial
  | .polled _ => isTrue trivial
  | .got asked bytes => inferInstanceAs (Decidable (bytes.length = asked))

structure Serial where
  line : Line UInt8
  /-- What the device answers to a write, after so many writes before it. -/
  peer : ℕ → List UInt8 → List UInt8
  trace : List PortEvent

namespace Serial

/-- `available()`: time has passed since the port was used last. -/
def available (port : Serial) : ℕ × Serial :=
  let line := port.line.pass
  (line.arrived.length,
    { port with line := line, trace := port.trace ++ [.polled line.arrived.length] })

def read (size : ℕ) (port : Serial) : List UInt8 × Serial :=
  let (bytes, line) := port.line.receive size
  (bytes, { port with line := line, trace := port.trace ++ [.got size bytes] })

/-- The loop of `readline`, for an `eol` which is no longer than `size`: one
byte at a time until `eol` is found, a read returns nothing or the buffer is
full. -/
def readlineLoop (size : ℕ) (eol : List UInt8) :
    ℕ → List UInt8 → Serial → List UInt8 × Serial
  | 0, buffer, port => (buffer, port)
  | room + 1, buffer, port =>
      let (bytes, port) := port.read 1
      if bytes = [] then (buffer, port)
      else
        let buffer := buffer ++ bytes
        if buffer.length < eol.length then readlineLoop size eol room buffer port
        else if buffer.drop (buffer.length - eol.length) = eol then (buffer, port)
        else if buffer.length = size then (buffer, port)
        else readlineLoop size eol room buffer port

def readline (size : ℕ) (eol : List UInt8) (port : Serial) : List UInt8 × Serial :=
  readlineLoop size eol size [] port

def written (port : Serial) : List (List UInt8) :=
  port.trace.filterMap fun
    | .wrote frame => some frame
    | _ => none

/-- Nothing answers an empty write, which puts nothing on the line. -/
def answer (frame : List UInt8) (port : Serial) : List UInt8 :=
  if frame = [] then [] else port.peer port.written.length frame

def write (frame : List UInt8) (port : Serial) : Serial :=
  { port with
    line := port.line.send (port.answer frame)
    trace := port.trace ++ [.wrote frame] }

def stream (port : Serial) : List UInt8 := port.line.stream

def ticks (port : Serial) : ℕ := port.line.schedule.length

/-- No read so far timed out short. -/
def ReadsFull (port : Serial) : Prop := ∀ event ∈ port.trace, event.Full

instance (port : Serial) : Decidable port.ReadsFull :=
  inferInstanceAs (Decidable (∀ event ∈ port.trace, event.Full))

@[simp] theorem available_snd_stream (port : Serial) :
    port.available.2.stream = port.stream := by
  simp [available, stream]

@[simp] theorem available_snd_written (port : Serial) :
    port.available.2.written = port.written := by
  simp [available, written]

@[simp] theorem read_snd_written (size : ℕ) (port : Serial) :
    (port.read size).2.written = port.written := by
  simp [read, written]

@[simp] theorem written_write (frame : List UInt8) (port : Serial) :
    (port.write frame).written = port.written ++ [frame] := by
  simp [write, written]

@[simp] theorem stream_write (frame : List UInt8) (port : Serial) :
    (port.write frame).stream = port.stream ++ port.answer frame := by
  simp [write, stream]

theorem answer_of_ne_nil {frame : List UInt8} (hframe : frame ≠ []) (port : Serial) :
    port.answer frame = port.peer port.written.length frame :=
  if_neg hframe

theorem read_stream (size : ℕ) (port : Serial) :
    (port.read size).1 ++ (port.read size).2.stream = port.stream :=
  port.line.receive_stream size

theorem read_length_le (size : ℕ) (port : Serial) :
    (port.read size).1.length ≤ size :=
  port.line.receive_length_le size

theorem read_of_arrived {port : Serial} {front back : List UInt8} {size : ℕ}
    (hsize : front.length = size) (harrived : port.line.arrived = front ++ back) :
    (port.read size).1 = front ∧ (port.read size).2.line.arrived = back := by
  subst hsize
  unfold read
  rw [Line.receive_of_arrived_append harrived]
  exact ⟨rfl, rfl⟩

theorem read_one_of_available {port : Serial} (havailable : port.available.1 ≠ 0) :
    ∃ byte, (port.available.2.read 1).1 = [byte] := by
  have harrived : 1 ≤ port.line.pass.arrived.length :=
    Nat.one_le_iff_ne_zero.mpr havailable
  have hread :
      (port.available.2.read 1).1 = port.line.pass.arrived.take 1 := by
    change (port.line.pass.receive 1).1 = _
    rw [Line.receive_of_arrived harrived]
  rw [hread]
  match h : port.line.pass.arrived, harrived with
  | byte :: rest, _ => exact ⟨byte, rfl⟩

/-- A read with room for two bytes and a two-byte `eol` is two single reads,
the second of which is made iff the first returns a byte. -/
theorem readline_two (first second : UInt8) (port : Serial) :
    port.readline 2 [first, second] =
      if (port.read 1).1 = [] then ([], (port.read 1).2)
      else ((port.read 1).1 ++ ((port.read 1).2.read 1).1,
        ((port.read 1).2.read 1).2) := by
  have hone := port.read_length_le 1
  have htwo := (port.read 1).2.read_length_le 1
  unfold readline readlineLoop
  simp only [List.nil_append]
  split
  next => rfl
  next hfirst =>
    have hlength : (port.read 1).1.length = 1 := by
      have := List.length_pos_iff.mpr hfirst
      omega
    rw [if_pos (by simp [hlength])]
    unfold readlineLoop
    simp only
    split
    next hsecond => simp [hsecond]
    next hsecond =>
      have hfull : ((port.read 1).1 ++ ((port.read 1).2.read 1).1).length = 2 := by
        have := List.length_pos_iff.mpr hsecond
        rw [List.length_append]
        omega
      simp [hfull]

theorem read_append {port : Serial} {front back : List UInt8}
    (hstream : port.stream = front ++ back)
    (hfull : (port.read front.length).1.length = front.length) :
    (port.read front.length).1 = front ∧
      (port.read front.length).2.stream = back := by
  have hsplit := port.read_stream front.length
  rw [hstream] at hsplit
  exact List.append_inj hsplit hfull

theorem stream_eq_nil_of_idle {port : Serial}
    (hticks : port.ticks = 0) (hidle : port.available.1 = 0) :
    port.stream = [] := by
  have hschedule : port.line.schedule = [] := List.length_eq_zero_iff.mp hticks
  exact Line.stream_eq_nil_of_pass hschedule (List.length_eq_zero_iff.mp hidle)

/-! ## What reading leaves alone -/

/-- The port went from one state to the other by polls and reads only. -/
structure ReadsOnly (before after : Serial) : Prop where
  trace : before.trace <+: after.trace
  peer : after.peer = before.peer
  written : after.written = before.written
  stream : after.stream <:+ before.stream
  ticks : after.ticks ≤ before.ticks

theorem ReadsOnly.refl (port : Serial) : ReadsOnly port port :=
  ⟨List.prefix_rfl, rfl, rfl, List.suffix_rfl, Nat.le_refl _⟩

theorem ReadsOnly.trans {first second third : Serial}
    (hfirst : ReadsOnly first second) (hsecond : ReadsOnly second third) :
    ReadsOnly first third where
  trace := hfirst.trace.trans hsecond.trace
  peer := hsecond.peer.trans hfirst.peer
  written := hsecond.written.trans hfirst.written
  stream := hsecond.stream.trans hfirst.stream
  ticks := Nat.le_trans hsecond.ticks hfirst.ticks

theorem available_snd_ticks (port : Serial) :
    port.available.2.ticks = port.ticks - 1 :=
  port.line.pass_schedule_length

theorem readsOnly_available (port : Serial) : ReadsOnly port port.available.2 where
  trace := List.prefix_append _ _
  peer := rfl
  written := port.available_snd_written
  stream := by simp
  ticks := by
    rw [available_snd_ticks]
    exact Nat.sub_le _ _

theorem readsOnly_read (size : ℕ) (port : Serial) :
    ReadsOnly port (port.read size).2 where
  trace := List.prefix_append _ _
  peer := rfl
  written := port.read_snd_written size
  stream := ⟨_, port.read_stream size⟩
  ticks := (port.line.receive_schedule_suffix size).length_le

theorem readsFull_of_trace {before after : Serial}
    (htrace : before.trace <+: after.trace) (hfull : after.ReadsFull) :
    before.ReadsFull :=
  fun event hmem => hfull event (htrace.subset hmem)

theorem ReadsOnly.readsFull {before after : Serial}
    (hreads : ReadsOnly before after) (hfull : after.ReadsFull) :
    before.ReadsFull :=
  readsFull_of_trace hreads.trace hfull

theorem ReadsFull.read_length {port : Serial} {size : ℕ}
    (hfull : (port.read size).2.ReadsFull) : (port.read size).1.length = size :=
  hfull (.got size _) (List.mem_append_right _ (List.mem_singleton.mpr rfl))

/-! ## Ports without delays -/

theorem ReadsOnly.ticks_eq_zero {before after : Serial}
    (hreads : ReadsOnly before after) (hticks : before.ticks = 0) : after.ticks = 0 :=
  Nat.le_zero.mp (hticks ▸ hreads.ticks)

theorem available_ne_zero {port : Serial} (hticks : port.ticks = 0)
    (hstream : port.stream ≠ []) : port.available.1 ≠ 0 :=
  fun hidle => hstream (stream_eq_nil_of_idle hticks hidle)

theorem read_of_ticks_eq_zero {port : Serial} (size : ℕ) (hticks : port.ticks = 0) :
    (port.read size).1 = port.stream.take size :=
  Line.receive_of_schedule_nil size (List.length_eq_zero_iff.mp hticks)

theorem read_append_of_ticks_eq_zero {port : Serial} (front : List UInt8)
    {back : List UInt8} (hticks : port.ticks = 0) (hstream : port.stream = front ++ back) :
    (port.read front.length).1 = front ∧ (port.read front.length).2.stream = back := by
  refine read_append hstream ?_
  rw [read_of_ticks_eq_zero _ hticks, hstream, List.take_left]

theorem available_read_one {port : Serial} {byte : UInt8} {back : List UInt8}
    (hticks : port.ticks = 0) (hstream : port.stream = byte :: back) :
    (port.available.2.read 1).1 = [byte] := by
  have hpolled := (readsOnly_available port).ticks_eq_zero hticks
  rw [read_of_ticks_eq_zero 1 hpolled, available_snd_stream, hstream]
  rfl

/-! ## Exchanges -/

/-- The port went from one state to the other by polls, reads and the writes of
`frames`. -/
structure Exchanged (frames : List (List UInt8)) (before after : Serial) : Prop where
  written : after.written = before.written ++ frames
  trace : before.trace <+: after.trace
  peer : after.peer = before.peer

theorem exchanged_write_reads {frame : List UInt8} {port after : Serial}
    (hreads : ReadsOnly (port.write frame) after) : Exchanged [frame] port after where
  written := by
    rw [hreads.written]
    exact written_write frame port
  trace := (List.prefix_append _ _).trans hreads.trace
  peer := hreads.peer

theorem Exchanged.trans {frames frames' : List (List UInt8)} {first second third : Serial}
    (hfirst : Exchanged frames first second) (hsecond : Exchanged frames' second third) :
    Exchanged (frames ++ frames') first third where
  written := by
    rw [hsecond.written, hfirst.written, List.append_assoc]
  trace := hfirst.trace.trans hsecond.trace
  peer := hsecond.peer.trans hfirst.peer

end Serial

end IotGateway
