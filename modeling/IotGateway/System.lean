import IotGateway.Library.Runs
import IotGateway.Library.WaitQueue
import IotGateway.MqttManager
import IotGateway.Setup

/-!
# The running gateway

`run` first repeats the set-up exchanges until they succeed.  Then the main
thread polls the master board, requests temperatures, listens to the board and
handles messages of the broker, while the writer thread sends the packets of
the queue.
-/

namespace IotGateway

open GatewayManager MqttManager Runs WaitQueue

inductive Stage where
  | setupMasterId
  | setupSlaveIds
  | running
  deriving DecidableEq, Repr

structure System where
  stage : Stage
  board : MasterBoard
  packets : Monitor (List UInt8)

inductive Action where
  | setup
  | onMessage (message : Message)
  | polling
  | requestTemperature
  | listeningMaster (build : Build)
  | writePacket (step : ConsumerStep)

namespace System

def initial (board : MasterBoard) : System := ⟨.setupMasterId, board, .initial⟩

/-- The gateway when the writer thread begins. -/
def started (board : MasterBoard) : System := ⟨.running, board, .initial⟩

/-- One round of a set-up loop, which is left when the exchange succeeds. -/
def setup (exchange : MasterBoard → Except Fault (Bool × MasterBoard)) (next : Stage)
    (system : System) : Option System :=
  match exchange system.board with
  | .error _ => none
  | .ok (success, board) =>
      some { system with stage := if success then next else system.stage, board := board }

def pushAndNotify (packet : List UInt8) (system : System) : Option System := do
  let packets ← system.packets.enqueue [packet]
  return { system with packets := packets.notify }

def handedOver (step : ConsumerStep) (system : System) : List (List UInt8) :=
  if step = .handle then system.packets.inHand else []

def writePacket (step : ConsumerStep) (system : System) : Option System := do
  let packets ← system.packets.consume step
  let board := (system.handedOver step).foldl (fun board frame => board.write frame) system.board
  return { system with board := board, packets := packets }

/-- A step of the gateway.  After a fault there is none. -/
def step (parse : Parser) (action : Action) (system : System) :
    Option System :=
  match action, system.stage with
  | .setup, .setupMasterId => system.setup GatewayManager.setupMasterId .setupSlaveIds
  | .setup, .setupSlaveIds => system.setup GatewayManager.setupSlaveIds .running
  | .onMessage message, .running =>
      match MqttManager.onMessage parse message with
      | .error _ => none
      | .ok packet => system.pushAndNotify packet
  | .polling, .running =>
      let polled := GatewayManager.polling system.board
      { system with board := polled.board }.pushAndNotify polled.pushed
  | .requestTemperature, .running =>
      match GatewayManager.requestTemperature system.board with
      | .error _ => none
      | .ok frames => do
          let packets ← system.packets.enqueue frames
          return { system with packets := packets }
  | .listeningMaster build, .running =>
      match GatewayManager.listeningMaster build system.board with
      | .error _ => none
      | .ok listened => some { system with board := listened.board }
  | .writePacket step, .running => system.writePacket step
  | _, _ => none

def written (system : System) : List (List UInt8) := system.board.serialPort.written

inductive Effect (parse : Parser) (system next : System) :
    Action → Prop where
  | setup {requests : List (List UInt8)} (hstage : system.stage ≠ .running)
      (hrequests : ∀ request ∈ requests, SetupRequest request)
      (hpackets : next.packets = system.packets)
      (hwritten : next.written = system.written ++ requests) :
      Effect parse system next .setup
  | onMessage {message : Message} {packet : List UInt8} {packets : Monitor (List UInt8)}
      (hstage : next.stage = system.stage)
      (hpacket : MqttManager.onMessage parse message = .ok packet)
      (henqueue : system.packets.enqueue [packet] = some packets)
      (hpackets : next.packets = packets.notify)
      (hwritten : next.written = system.written) :
      Effect parse system next (.onMessage message)
  | polling {packets : Monitor (List UInt8)}
      (hstage : next.stage = system.stage)
      (henqueue : system.packets.enqueue [pollingRequest] = some packets)
      (hpackets : next.packets = packets.notify)
      (hwritten : next.written = system.written) :
      Effect parse system next .polling
  | requestTemperature {frames : List (List UInt8)}
      (hstage : next.stage = system.stage)
      (hframes : GatewayManager.requestTemperature system.board = .ok frames)
      (henqueue : system.packets.enqueue frames = some next.packets)
      (hwritten : next.written = system.written) :
      Effect parse system next .requestTemperature
  | listeningMaster {build : Build}
      (hstage : next.stage = system.stage)
      (hpackets : next.packets = system.packets)
      (hwritten : next.written = system.written) :
      Effect parse system next (.listeningMaster build)
  | writePacket {step : ConsumerStep}
      (hstage : next.stage = system.stage)
      (hconsume : system.packets.consume step = some next.packets)
      (hwritten : next.written = system.written ++ system.handedOver step) :
      Effect parse system next (.writePacket step)

theorem foldl_write_written (frames : List (List UInt8)) (board : MasterBoard) :
    (frames.foldl (fun board frame => board.write frame) board).serialPort.written =
      board.serialPort.written ++ frames := by
  induction frames generalizing board with
  | nil => simp
  | cons frame frames ih =>
      rw [List.foldl_cons, ih]
      simp [MasterBoard.write]

theorem setup_eq_some
    {exchange : MasterBoard → Except Fault (Bool × MasterBoard)} {stage : Stage}
    {system next : System} (hstep : system.setup exchange stage = some next) :
    ∃ success board, exchange system.board = .ok (success, board) ∧
      next = { system with stage := if success then stage else system.stage, board := board } := by
  unfold setup at hstep
  split at hstep
  next => cases hstep
  next success board hrun =>
    cases hstep
    exact ⟨success, board, hrun, rfl⟩

theorem setup_effect
    {parse : Parser}
    {exchange : MasterBoard → Except Fault (Bool × MasterBoard)} {stage : Stage}
    {system next : System} (hstage : system.stage ≠ .running)
    (hstep : system.setup exchange stage = some next)
    (hexchange : ∀ success after, exchange system.board = .ok (success, after) →
      ∃ requests, after.serialPort.written = system.written ++ requests ∧
        ∀ request ∈ requests, SetupRequest request) :
    Effect parse system next .setup := by
  obtain ⟨success, board, hrun, rfl⟩ := setup_eq_some hstep
  obtain ⟨requests, hwritten, hrequests⟩ := hexchange success board hrun
  exact .setup hstage hrequests rfl hwritten

theorem pushAndNotify_eq_some
    {packet : List UInt8} {system next : System}
    (hstep : system.pushAndNotify packet = some next) :
    ∃ packets, system.packets.enqueue [packet] = some packets ∧
      next = { system with packets := packets.notify } := by
  obtain ⟨packets, henqueue, hresult⟩ := Option.bind_eq_some_iff.mp hstep
  cases hresult
  exact ⟨packets, henqueue, rfl⟩

theorem effect_of_step
    {parse : Parser} {action : Action} {system next : System}
    (hstep : step parse action system = some next) :
    Effect parse system next action := by
  unfold step at hstep
  split at hstep
  next hstage =>
    apply setup_effect (by simp [hstage]) hstep
    intro success after hrun
    refine ⟨[masterIdRequest], (setupMasterId_exchanged hrun).written, ?_⟩
    intro request hmem
    rw [List.mem_singleton.mp hmem]
    exact .masterId
  next hstage =>
    apply setup_effect (by simp [hstage]) hstep
    intro success after hrun
    obtain ⟨requests, hexchanged, hrequests⟩ := setupSlaveIds_exchanged hrun
    exact ⟨requests, hexchanged.written, hrequests⟩
  next message _ =>
    split at hstep
    next => cases hstep
    next packet hpacket =>
      obtain ⟨packets, henqueue, rfl⟩ := pushAndNotify_eq_some hstep
      exact .onMessage rfl hpacket henqueue rfl rfl
  next =>
    obtain ⟨packets, henqueue, rfl⟩ := pushAndNotify_eq_some hstep
    exact .polling rfl henqueue rfl rfl
  next =>
    split at hstep
    next => cases hstep
    next frames hframes =>
      obtain ⟨packets, henqueue, hresult⟩ := Option.bind_eq_some_iff.mp hstep
      cases hresult
      exact .requestTemperature rfl hframes henqueue rfl
  next build _ =>
    split at hstep
    next => cases hstep
    next listened hlistened =>
      cases hstep
      exact .listeningMaster rfl rfl (listeningMaster_readsOnly hlistened).written
  next step _ =>
    obtain ⟨packets, hconsume, hresult⟩ := Option.bind_eq_some_iff.mp hstep
    cases hresult
    exact .writePacket rfl hconsume (foldl_write_written _ _)
  next => cases hstep

end System

end IotGateway
