import Mathlib.Data.List.TakeDrop

/-!
# Timed receive lines

A receiver sees a stream of symbols through a line: some symbols have arrived
and wait in its buffer, the others are still in flight.  What happens while
the receiver waits is given by a schedule of ticks.  A tick delivers some of
the symbols in flight or lets a waiting read time out; once the schedule is
used up everything in flight arrives.
-/

namespace TimedLine

/-- What happens during one interval of waiting. -/
inductive Tick where
  | deliver (count : ℕ)
  | timeout
  deriving DecidableEq, Repr

structure Line (α : Type*) where
  arrived : List α
  inFlight : List α
  schedule : List Tick
  deriving DecidableEq, Repr

namespace Line

variable {α : Type*}

def stream (line : Line α) : List α := line.arrived ++ line.inFlight

def send (symbols : List α) (line : Line α) : Line α :=
  { line with inFlight := line.inFlight ++ symbols }

/-- One interval of waiting in which nobody reads. -/
def pass (line : Line α) : Line α :=
  match line.schedule with
  | [] => ⟨line.arrived ++ line.inFlight, [], []⟩
  | .deliver count :: rest =>
      ⟨line.arrived ++ line.inFlight.take count, line.inFlight.drop count, rest⟩
  | .timeout :: rest => ⟨line.arrived, line.inFlight, rest⟩

/-- A read which blocks until `wanted` symbols have arrived or a timeout
expires.  After a timeout it returns what has arrived by then. -/
def collect (wanted : ℕ) (arrived inFlight : List α) (schedule : List Tick) :
    List α × Line α :=
  if wanted ≤ arrived.length then
    (arrived.take wanted, ⟨arrived.drop wanted, inFlight, schedule⟩)
  else
    match schedule with
    | [] =>
        ((arrived ++ inFlight).take wanted,
          ⟨(arrived ++ inFlight).drop wanted, [], []⟩)
    | .deliver count :: rest =>
        collect wanted (arrived ++ inFlight.take count) (inFlight.drop count) rest
    | .timeout :: rest => (arrived, ⟨[], inFlight, rest⟩)

def receive (wanted : ℕ) (line : Line α) : List α × Line α :=
  collect wanted line.arrived line.inFlight line.schedule

/-! ## Waiting neither loses nor reorders symbols -/

@[simp] theorem stream_send (symbols : List α) (line : Line α) :
    (line.send symbols).stream = line.stream ++ symbols := by
  simp [stream, send]

@[simp] theorem pass_stream (line : Line α) : line.pass.stream = line.stream := by
  unfold pass
  split <;> simp [stream]

theorem pass_schedule_length (line : Line α) :
    line.pass.schedule.length = line.schedule.length - 1 := by
  unfold pass
  split
  next h => simp [h]
  next h => simp [h]
  next h => simp [h]

theorem stream_eq_nil_of_pass {line : Line α}
    (hschedule : line.schedule = []) (harrived : line.pass.arrived = []) :
    line.stream = [] := by
  simpa [pass, hschedule, stream] using harrived

theorem collect_stream
    (wanted : ℕ) (arrived inFlight : List α) (schedule : List Tick) :
    (collect wanted arrived inFlight schedule).1 ++
        (collect wanted arrived inFlight schedule).2.stream =
      arrived ++ inFlight := by
  induction schedule generalizing arrived inFlight with
  | nil =>
      unfold collect
      split
      · simp [stream, ← List.append_assoc]
      · simp [stream]
  | cons tick rest ih =>
      unfold collect
      split
      · simp [stream, ← List.append_assoc]
      · cases tick with
        | deliver count =>
            simp only
            rw [ih, List.append_assoc, List.take_append_drop]
        | timeout => simp [stream]

/-- A read takes its symbols from the front of the stream. -/
theorem receive_stream (wanted : ℕ) (line : Line α) :
    (line.receive wanted).1 ++ (line.receive wanted).2.stream = line.stream :=
  collect_stream wanted line.arrived line.inFlight line.schedule

theorem collect_length_le
    (wanted : ℕ) (arrived inFlight : List α) (schedule : List Tick) :
    (collect wanted arrived inFlight schedule).1.length ≤ wanted := by
  induction schedule generalizing arrived inFlight with
  | nil =>
      unfold collect
      split <;> exact List.length_take_le _ _
  | cons tick rest ih =>
      unfold collect
      split
      · exact List.length_take_le _ _
      · cases tick with
        | deliver count => exact ih _ _
        | timeout =>
            simp only
            omega

theorem receive_length_le (wanted : ℕ) (line : Line α) :
    (line.receive wanted).1.length ≤ wanted :=
  collect_length_le wanted line.arrived line.inFlight line.schedule

theorem collect_schedule_suffix
    (wanted : ℕ) (arrived inFlight : List α) (schedule : List Tick) :
    (collect wanted arrived inFlight schedule).2.schedule <:+ schedule := by
  induction schedule generalizing arrived inFlight with
  | nil =>
      unfold collect
      split <;> simp
  | cons tick rest ih =>
      unfold collect
      split
      · simp
      · cases tick with
        | deliver count => exact (ih _ _).trans (List.suffix_cons _ _)
        | timeout => exact List.suffix_cons _ _

theorem receive_schedule_suffix (wanted : ℕ) (line : Line α) :
    (line.receive wanted).2.schedule <:+ line.schedule :=
  collect_schedule_suffix wanted line.arrived line.inFlight line.schedule

theorem receive_of_arrived {wanted : ℕ} {line : Line α}
    (harrived : wanted ≤ line.arrived.length) :
    line.receive wanted =
      (line.arrived.take wanted,
        ⟨line.arrived.drop wanted, line.inFlight, line.schedule⟩) := by
  unfold receive collect
  rw [if_pos harrived]

/-- Without a schedule a read returns what the stream has. -/
theorem receive_of_schedule_nil {line : Line α} (wanted : ℕ) (hschedule : line.schedule = []) :
    (line.receive wanted).1 = line.stream.take wanted := by
  unfold receive collect stream
  rw [hschedule]
  split
  next harrived => rw [List.take_append_of_le_length harrived]
  next => rfl

/-- While time passes, what has arrived stays and more may come behind it. -/
theorem arrived_prefix_pass (line : Line α) : line.arrived <+: line.pass.arrived := by
  unfold pass
  split
  · exact List.prefix_append _ _
  · exact List.prefix_append _ _
  · exact List.prefix_rfl

theorem receive_of_arrived_append {front back : List α} {line : Line α}
    (harrived : line.arrived = front ++ back) :
    line.receive front.length = (front, { line with arrived := back }) := by
  rw [receive_of_arrived (by rw [harrived, List.length_append]; omega), harrived]
  simp

end Line

end TimedLine
