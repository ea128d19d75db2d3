import IotGateway.Broker
import IotGateway.System
import IotGateway.Timers

/-!
# The main loop of `run`

After the set-up the main thread and the writer thread take turns in any order.
The main thread takes the mutex anew for every packet, so that the writer may
come in between two packets of one call, and between a push and the
notification that follows it.
-/

namespace IotGateway

open Faults GatewayManager MqttManager Runs WaitQueue

/-- What the main thread has still to do before it looks for messages again. -/
inductive Instruction where
  | polling
  | push (packet : List UInt8) (notifies : Bool)
  | notify
  | increasePollingCount
  | requestTemperature
  | listeningMaster
  deriving DecidableEq, Repr

/-- What the main thread found at the board, and at which reading of the clock. -/
inductive Observation where
  | polled (now : Int64) (published : List Publication)
  | listened (now : Int64) (outcome : Except Fault Receipt) (packet : Option ResponsePacket)
      (published : List Publication)

def Observation.isPoll : Observation → Bool
  | .polled .. => true
  | .listened .. => false

def Observation.published : Observation → List Publication
  | .polled _ published => published
  | .listened _ _ _ published => published

/-- The calls of a round in which the broker is connected. -/
def Iteration.calls (iteration : Iteration) : List Instruction :=
  (if iteration.polling then [.polling] else []) ++
    (if iteration.requestTemperature then [.requestTemperature] else []) ++ [.listeningMaster]

structure MainLoop where
  board : MasterBoard
  packets : Monitor (List UInt8)
  timers : Timers
  now : Int64
  pending : List Instruction
  observed : List Observation

/-- The temperature requests for the slaves of the board. -/
def temperatureFrames (board : MasterBoard) : List (List UInt8) :=
  match requestTemperature board with
  | .ok frames => frames
  | .error _ => []

namespace MainLoop

/-- `loop()` of the broker's client hands over messages, and then reports
whether the broker is connected. -/
inductive Action where
  | onMessage (message : Message)
  | connected (now : Int64)
  | reconnect
  | execute
  | writePacket (step : ConsumerStep)

/-- The state in which the writer thread is started. -/
def start (board : MasterBoard) : MainLoop := ⟨board, .initial, {}, 0, [], []⟩

def system (state : MainLoop) : System := ⟨.running, state.board, state.packets⟩

/-- The next instruction of the main thread.  It waits for the mutex before a
push, and ends with a fault. -/
def execute (build : Build) (state : MainLoop) : Option MainLoop :=
  match state.pending with
  | [] => none
  | .polling :: rest =>
      let polled := GatewayManager.polling state.board
      some { state with
        pending := .push polled.pushed true :: .increasePollingCount :: rest
        observed := state.observed ++ [.polled state.now polled.published] }
  | .push packet notifies :: rest => do
      let packets ← state.packets.enqueue [packet]
      return { state with
        packets := packets
        pending := if notifies then .notify :: rest else rest }
  | .notify :: rest => some { state with packets := state.packets.notify, pending := rest }
  | .increasePollingCount :: rest =>
      some { state with board := state.board.increasePollingCount, pending := rest }
  | .requestTemperature :: rest =>
      match GatewayManager.requestTemperature state.board with
      | .error _ => none
      | .ok frames => some { state with pending := frames.map (.push · false) ++ rest }
  | .listeningMaster :: rest =>
      match GatewayManager.listeningMaster build state.board with
      | .error _ => none
      | .ok listened =>
          let outcome := (receivePacket state.board.serialPort).1
          some { state with
            board := listened.board
            pending := rest
            observed := state.observed ++
              [.listened state.now outcome (received state.board) listened.published] }

/-- A step of one of the two threads. -/
def step (parse : Parser) (build : Build) (action : Action)
    (state : MainLoop) : Option MainLoop :=
  match action with
  | .onMessage message =>
      match state.pending, MqttManager.onMessage parse message with
      | [], .ok packet => some { state with pending := [.push packet true] }
      | _, _ => none
  | .connected now =>
      match state.pending with
      | [] =>
          let (iteration, timers) := iterate now state.timers
          some { state with timers := timers, now := now, pending := iteration.calls }
      | _ => none
  | .reconnect =>
      match state.pending with
      | [] => some state
      | _ => none
  | .execute => state.execute build
  | .writePacket step => do
      let written ← state.system.writePacket step
      return { state with board := written.board, packets := written.packets }

/-- What a step does. -/
inductive Effect (parse : Parser) (build : Build) (state : MainLoop) :
    Action → MainLoop → Prop where
  | onMessage {message : Message} {packet : List UInt8}
      (hidle : state.pending = [])
      (hpacket : MqttManager.onMessage parse message = .ok packet) :
      Effect parse build state (.onMessage message)
        { state with pending := [.push packet true] }
  | connected {now : Int64} (hidle : state.pending = []) :
      Effect parse build state (.connected now)
        { state with
          timers := (iterate now state.timers).2
          now := now
          pending := (iterate now state.timers).1.calls }
  | reconnect (hidle : state.pending = []) : Effect parse build state .reconnect state
  | polling {rest : List Instruction} (hpending : state.pending = .polling :: rest) :
      Effect parse build state .execute
        { state with
          pending := .push pollingRequest true :: .increasePollingCount :: rest
          observed := state.observed ++
            [.polled state.now (GatewayManager.polling state.board).published] }
  | push {packet : List UInt8} {notifies : Bool} {rest : List Instruction}
      {packets : Monitor (List UInt8)}
      (hpending : state.pending = .push packet notifies :: rest)
      (henqueue : state.packets.enqueue [packet] = some packets) :
      Effect parse build state .execute
        { state with
          packets := packets
          pending := if notifies then .notify :: rest else rest }
  | notify {rest : List Instruction} (hpending : state.pending = .notify :: rest) :
      Effect parse build state .execute
        { state with packets := state.packets.notify, pending := rest }
  | increasePollingCount {rest : List Instruction}
      (hpending : state.pending = .increasePollingCount :: rest) :
      Effect parse build state .execute
        { state with board := state.board.increasePollingCount, pending := rest }
  | requestTemperature {rest : List Instruction} {frames : List (List UInt8)}
      (hpending : state.pending = .requestTemperature :: rest)
      (hframes : GatewayManager.requestTemperature state.board = .ok frames) :
      Effect parse build state .execute
        { state with pending := frames.map (.push · false) ++ rest }
  | listeningMaster {rest : List Instruction} {listened : Listened}
      (hpending : state.pending = .listeningMaster :: rest)
      (hlistened : GatewayManager.listeningMaster build state.board = .ok listened) :
      Effect parse build state .execute
        { state with
          board := listened.board
          pending := rest
          observed := state.observed ++
            [.listened state.now (receivePacket state.board.serialPort).1
              (received state.board) listened.published] }
  | writePacket {step : ConsumerStep} {packets : Monitor (List UInt8)}
      (hconsume : state.packets.consume step = some packets) :
      Effect parse build state (.writePacket step)
        { state with
          board := (state.system.handedOver step).foldl (fun board frame => board.write frame)
            state.board
          packets := packets }

variable {parse : Parser} {build : Build} {action : Action}
  {state next last : MainLoop} {actions : List Action}

theorem effect_of_execute (hstep : state.execute build = some next) :
    Effect parse build state .execute next := by
  unfold execute at hstep
  split at hstep
  next => cases hstep
  next rest hpending =>
    cases hstep
    exact .polling hpending
  next packet notifies rest hpending =>
    obtain ⟨packets, henqueue, hresult⟩ := Option.bind_eq_some_iff.mp hstep
    cases hresult
    exact .push hpending henqueue
  next rest hpending =>
    cases hstep
    exact .notify hpending
  next rest hpending =>
    cases hstep
    exact .increasePollingCount hpending
  next rest hpending =>
    split at hstep
    next => cases hstep
    next frames hframes =>
      cases hstep
      exact .requestTemperature hpending hframes
  next rest hpending =>
    split at hstep
    next => cases hstep
    next listened hlistened =>
      cases hstep
      exact .listeningMaster hpending hlistened

theorem effect_of_step (hstep : step parse build action state = some next) :
    Effect parse build state action next := by
  unfold step at hstep
  split at hstep
  next message =>
    split at hstep
    next packet hidle hpacket =>
      cases hstep
      exact .onMessage hidle hpacket
    next => cases hstep
  next now =>
    split at hstep
    next hidle =>
      cases hstep
      exact .connected hidle
    next => cases hstep
  next =>
    split at hstep
    next hidle =>
      cases hstep
      exact .reconnect hidle
    next => cases hstep
  next => exact effect_of_execute hstep
  next writerStep =>
    obtain ⟨written, hwritten, hresult⟩ := Option.bind_eq_some_iff.mp hstep
    cases hresult
    obtain ⟨packets, hconsume, hlast⟩ := Option.bind_eq_some_iff.mp hwritten
    cases hlast
    exact .writePacket hconsume

/-! ## The table of the slaves -/

theorem foldl_write_eq (frames : List (List UInt8)) (board : MasterBoard) :
    frames.foldl (fun board frame => board.write frame) board =
      { board with
        serialPort := frames.foldl (fun port frame => port.write frame) board.serialPort } := by
  induction frames generalizing board with
  | nil => rfl
  | cons frame frames ih =>
      rw [List.foldl_cons, ih]
      rfl

theorem listeningMaster_slaves {build : Build} {board : MasterBoard} {listened : Listened}
    (hlistened : GatewayManager.listeningMaster build board = .ok listened) :
    listened.board.slaveCount = board.slaveCount ∧
      listened.board.slaveIds = board.slaveIds := by
  rcases listeningMaster_cases hlistened with
    ⟨_, _, _, hboard⟩ | ⟨packet, published, _, _, hparse, _⟩
  · rw [hboard]
    exact ⟨rfl, rfl⟩
  · rw [parseCommand_board hparse]
    split
    · exact ⟨rfl, rfl⟩
    · exact ⟨rfl, rfl⟩

theorem step_slaves (hstep : step parse build action state = some next) :
    next.board.slaveCount = state.board.slaveCount ∧
      next.board.slaveIds = state.board.slaveIds := by
  cases effect_of_step hstep with
  | listeningMaster hpending hlistened => exact listeningMaster_slaves hlistened
  | writePacket hconsume =>
      rw [foldl_write_eq]
      exact ⟨rfl, rfl⟩
  | _ => exact ⟨rfl, rfl⟩

theorem step_temperatureFrames (hstep : step parse build action state = some next) :
    temperatureFrames next.board = temperatureFrames state.board := by
  obtain ⟨hcount, hids⟩ := step_slaves hstep
  unfold temperatureFrames
  rw [requestTemperature_congr hcount hids]

theorem frames_of_requestTemperature {board : MasterBoard} {frames : List (List UInt8)}
    (hframes : GatewayManager.requestTemperature board = .ok frames) :
    temperatureFrames board = frames := by
  unfold temperatureFrames
  rw [hframes]

/-! ## What is pending -/

/-- The end of a round, when it does not poll or has done so. -/
inductive Tail (temperature : List (List UInt8)) : List Instruction → Prop where
  | requestTemperature : Tail temperature [.requestTemperature, .listeningMaster]
  | pushes {frames : List (List UInt8)} (hframes : frames <:+ temperature) :
      Tail temperature (frames.map (.push · false) ++ [.listeningMaster])

/-- The pending instructions at any time. -/
inductive Shaped (temperature : List (List UInt8)) : List Instruction → Prop where
  | idle : Shaped temperature []
  | message (packet : List UInt8) : Shaped temperature [.push packet true]
  | notifyMessage : Shaped temperature [.notify]
  | polling {tail : List Instruction} (htail : Tail temperature tail) :
      Shaped temperature (.polling :: tail)
  | push {tail : List Instruction} (htail : Tail temperature tail) :
      Shaped temperature (.push pollingRequest true :: .increasePollingCount :: tail)
  | notifyPolling {tail : List Instruction} (htail : Tail temperature tail) :
      Shaped temperature (.notify :: .increasePollingCount :: tail)
  | increasePollingCount {tail : List Instruction} (htail : Tail temperature tail) :
      Shaped temperature (.increasePollingCount :: tail)
  | tail {tail : List Instruction} (htail : Tail temperature tail) : Shaped temperature tail

theorem tail_listeningMaster (temperature : List (List UInt8)) :
    Tail temperature [.listeningMaster] := .pushes (List.nil_suffix)

theorem shaped_calls (temperature : List (List UInt8)) (iteration : Iteration) :
    Shaped temperature iteration.calls := by
  unfold Iteration.calls
  cases iteration.polling with
  | true =>
      cases iteration.requestTemperature with
      | true => exact .polling .requestTemperature
      | false => exact .polling (tail_listeningMaster temperature)
  | false =>
      cases iteration.requestTemperature with
      | true => exact .tail .requestTemperature
      | false => exact .tail (tail_listeningMaster temperature)

theorem tail_cons {temperature : List (List UInt8)} {first : Instruction}
    {rest : List Instruction} (htail : Tail temperature (first :: rest)) :
    (first = .requestTemperature ∧ rest = [.listeningMaster]) ∨
      (first = .listeningMaster ∧ rest = []) ∨
      ∃ packet, first = .push packet false ∧ Tail temperature rest := by
  generalize hpending : first :: rest = pending at htail
  cases htail with
  | requestTemperature => exact .inl (List.cons.inj hpending)
  | @pushes frames hframes =>
      cases frames with
      | nil => exact .inr (.inl (List.cons.inj hpending))
      | cons frame frames =>
          obtain ⟨hfirst, hrest⟩ := List.cons.inj hpending
          refine .inr (.inr ⟨frame, hfirst, ?_⟩)
          rw [hrest]
          exact .pushes ((List.suffix_cons frame frames).trans hframes)

section Shaped

variable {temperature : List (List UInt8)} {packet : List UInt8} {rest : List Instruction}

theorem Shaped.of_polling (hshaped : Shaped temperature (.polling :: rest)) :
    Tail temperature rest := by
  cases hshaped with
  | polling htail => exact htail
  | tail htail => rcases tail_cons htail with ⟨hfirst, _⟩ | ⟨hfirst, _⟩ | ⟨_, hfirst, _⟩ <;>
      cases hfirst

theorem Shaped.of_push_true (hshaped : Shaped temperature (.push packet true :: rest)) :
    Shaped temperature (.notify :: rest) := by
  cases hshaped with
  | message => exact .notifyMessage
  | push htail => exact .notifyPolling htail
  | tail htail => rcases tail_cons htail with ⟨hfirst, _⟩ | ⟨hfirst, _⟩ | ⟨_, hfirst, _⟩ <;>
      cases hfirst

theorem Shaped.of_push_false (hshaped : Shaped temperature (.push packet false :: rest)) :
    Tail temperature rest := by
  cases hshaped with
  | tail htail =>
      rcases tail_cons htail with ⟨hfirst, _⟩ | ⟨hfirst, _⟩ | ⟨_, _, hrest⟩
      · cases hfirst
      · cases hfirst
      · exact hrest

theorem Shaped.of_notify (hshaped : Shaped temperature (.notify :: rest)) :
    rest = [] ∨ ∃ tail, rest = .increasePollingCount :: tail ∧ Tail temperature tail := by
  cases hshaped with
  | notifyMessage => exact .inl rfl
  | notifyPolling htail => exact .inr ⟨_, rfl, htail⟩
  | tail htail => rcases tail_cons htail with ⟨hfirst, _⟩ | ⟨hfirst, _⟩ | ⟨_, hfirst, _⟩ <;>
      cases hfirst

theorem Shaped.step_notify (hshaped : Shaped temperature (.notify :: rest)) :
    Shaped temperature rest := by
  rcases hshaped.of_notify with hrest | ⟨tail, hrest, htail⟩
  · rw [hrest]
    exact .idle
  · rw [hrest]
    exact .increasePollingCount htail

theorem Shaped.of_increasePollingCount
    (hshaped : Shaped temperature (.increasePollingCount :: rest)) : Tail temperature rest := by
  cases hshaped with
  | increasePollingCount htail => exact htail
  | tail htail => rcases tail_cons htail with ⟨hfirst, _⟩ | ⟨hfirst, _⟩ | ⟨_, hfirst, _⟩ <;>
      cases hfirst

theorem Shaped.of_requestTemperature
    (hshaped : Shaped temperature (.requestTemperature :: rest)) :
    rest = [.listeningMaster] := by
  cases hshaped with
  | tail htail =>
      rcases tail_cons htail with ⟨_, hrest⟩ | ⟨hfirst, _⟩ | ⟨_, hfirst, _⟩
      · exact hrest
      · cases hfirst
      · cases hfirst

theorem Shaped.of_listeningMaster (hshaped : Shaped temperature (.listeningMaster :: rest)) :
    rest = [] := by
  cases hshaped with
  | tail htail =>
      rcases tail_cons htail with ⟨hfirst, _⟩ | ⟨_, hrest⟩ | ⟨_, hfirst, _⟩
      · cases hfirst
      · exact hrest
      · cases hfirst

end Shaped

theorem step_shaped (hshaped : Shaped (temperatureFrames state.board) state.pending)
    (hstep : step parse build action state = some next) :
    Shaped (temperatureFrames next.board) next.pending := by
  rw [step_temperatureFrames hstep]
  cases effect_of_step hstep with
  | onMessage hidle hpacket => exact .message _
  | connected hidle => exact shaped_calls _ _
  | reconnect hidle => exact hshaped
  | polling hpending =>
      rw [hpending] at hshaped
      exact .push hshaped.of_polling
  | @push packet notifies rest packets hpending henqueue =>
      rw [hpending] at hshaped
      cases notifies with
      | true => exact hshaped.of_push_true
      | false => exact .tail hshaped.of_push_false
  | notify hpending =>
      rw [hpending] at hshaped
      exact hshaped.step_notify
  | increasePollingCount hpending =>
      rw [hpending] at hshaped
      exact .tail hshaped.of_increasePollingCount
  | requestTemperature hpending hframes =>
      rw [hpending] at hshaped
      rw [hshaped.of_requestTemperature, frames_of_requestTemperature hframes]
      exact .tail (.pushes List.suffix_rfl)
  | listeningMaster hpending hlistened =>
      rw [hpending] at hshaped
      rw [hshaped.of_listeningMaster]
      exact .idle
  | writePacket hconsume => exact hshaped

theorem shaped_of_run {board : MasterBoard}
    (hrun : run (step parse build) actions (start board) = some last) :
    Shaped (temperatureFrames last.board) last.pending :=
  @invariant_run_of_step MainLoop Action (step parse build)
    (fun state => Shaped (temperatureFrames state.board) state.pending) (start board) last
    actions .idle (fun _ _ _ hstate hstep => step_shaped hstate hstep) hrun

theorem slaves_of_run {board : MasterBoard}
    (hrun : run (step parse build) actions (start board) = some last) :
    last.board.slaveCount = board.slaveCount ∧ last.board.slaveIds = board.slaveIds := by
  apply @invariant_run_of_step MainLoop Action (step parse build)
    (fun state => state.board.slaveCount = board.slaveCount ∧
      state.board.slaveIds = board.slaveIds) (start board) last actions _ _ hrun
  · exact ⟨rfl, rfl⟩
  · intro action state next hstate hstep
    obtain ⟨hcount, hids⟩ := step_slaves hstep
    exact ⟨hcount.trans hstate.1, hids.trans hstate.2⟩

theorem temperatureFrames_of_run {board : MasterBoard}
    (hrun : run (step parse build) actions (start board) = some last) :
    temperatureFrames last.board = temperatureFrames board := by
  obtain ⟨hcount, hids⟩ := slaves_of_run hrun
  unfold temperatureFrames
  rw [requestTemperature_congr hcount hids]

/-! ## The clock -/

/-- The readings of the clock, one for each round. -/
def readings : List Action → List Int64
  | [] => []
  | .connected now :: actions => now :: readings actions
  | _ :: actions => readings actions

/-- The clock is not set back behind a reading. -/
def Forward (first : Int64) (actions : List Action) : Prop :=
  (first :: readings actions).Pairwise fun earlier later => earlier.toInt ≤ later.toInt

theorem Forward.tail {first : Int64} (hforward : Forward first (action :: actions)) :
    (∀ now, action = .connected now → first.toInt ≤ now.toInt ∧ Forward now actions) ∧
      ((∀ now, action ≠ .connected now) → Forward first actions) := by
  cases action with
  | connected later =>
      constructor
      · intro now hnow
        cases hnow
        obtain ⟨hfirst, hrest⟩ := List.pairwise_cons.mp hforward
        exact ⟨hfirst _ List.mem_cons_self, hrest⟩
      · intro hother
        exact absurd rfl (hother later)
  | _ => exact ⟨(fun _ hnow => nomatch hnow), fun _ => hforward⟩

theorem step_now (hstep : step parse build action state = some next) :
    (∃ now, action = .connected now ∧ next.now = now) ∨
      (∀ now, action ≠ .connected now) ∧ next.now = state.now := by
  cases effect_of_step hstep with
  | connected hidle => exact .inl ⟨_, rfl, rfl⟩
  | _ => exact .inr ⟨by simp, rfl⟩

/-- What is preserved while the clock goes forward. -/
theorem invariant_run_forward {Invariant : MainLoop → Prop} (hstart : Invariant state)
    (hstep : ∀ action state next, Invariant state →
      (∀ now, action = .connected now → state.now.toInt ≤ now.toInt) →
        step parse build action state = some next → Invariant next)
    (hforward : Forward state.now actions)
    (hrun : run (step parse build) actions state = some last) : Invariant last := by
  induction actions generalizing state with
  | nil =>
      cases hrun
      exact hstart
  | cons action actions ih =>
      obtain ⟨next, hfirst, hrest⟩ := Option.bind_eq_some_iff.mp hrun
      obtain ⟨hconnected, hother⟩ := hforward.tail
      have hnext := hstep action state next hstart (fun now hnow => (hconnected now hnow).1) hfirst
      apply ih hnext _ hrest
      rcases step_now hfirst with ⟨now, haction, hnow⟩ | ⟨haction, hnow⟩
      · rw [hnow]
        exact (hconnected now haction).2
      · rw [hnow]
        exact hother haction

end MainLoop

end IotGateway
