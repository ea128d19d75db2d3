import IotGateway.System

/-!
# Quiescence of the packet queue

The writer thread waits for packets without a notification only when it has
written everything, except after a temperature request that found it waiting:
`RequestTemperature` is the one producer that does not notify.
-/

namespace IotGateway

open Faults GatewayManager Runs WaitQueue

namespace System

structure Accounted (board : MasterBoard) (system : System) : Prop where
  conserved : system.packets.Conserved
  written : system.written = board.serialPort.written ++ system.packets.handled
  running : system.stage = .running

theorem accounted_started (board : MasterBoard) : (started board).Accounted board where
  conserved := Monitor.conserved_initial
  written := (List.append_nil _).symm
  running := rfl

theorem Accounted.enqueue
    {board : MasterBoard} {system next : System} {frames : List (List UInt8)}
    {packets : Monitor (List UInt8)} (haccounted : system.Accounted board)
    (hstage : next.stage = system.stage)
    (henqueue : system.packets.enqueue frames = some packets)
    (hpackets : next.packets = packets ∨ next.packets = packets.notify)
    (hsame : next.written = system.written) : next.Accounted board := by
  have hconserved := haccounted.conserved.enqueue henqueue
  have hhandled := congrArg Monitor.handled (Monitor.enqueue_eq_some henqueue)
  constructor
  · rcases hpackets with hpackets | hpackets
    · rw [hpackets]
      exact hconserved
    · rw [hpackets]
      exact hconserved.notify
  · rw [hsame, haccounted.written]
    rcases hpackets with hpackets | hpackets
    · rw [hpackets, hhandled]
    · rw [hpackets, Monitor.notify_handled, hhandled]
  · rw [hstage, haccounted.running]

theorem Accounted.step
    {parse : Parser} {board : MasterBoard} {action : Action}
    {system next : System} (haccounted : system.Accounted board)
    (hstep : step parse action system = some next) : next.Accounted board := by
  have hrunning := haccounted.running
  have hconserved := haccounted.conserved
  have hwritten := haccounted.written
  cases effect_of_step hstep with
  | setup hstage => exact absurd hrunning hstage
  | onMessage hstage hpacket henqueue hpackets hsame =>
      exact haccounted.enqueue hstage henqueue (.inr hpackets) hsame
  | polling hstage henqueue hpackets hsame =>
      exact haccounted.enqueue hstage henqueue (.inr hpackets) hsame
  | requestTemperature hstage hframes henqueue hsame =>
      exact haccounted.enqueue hstage henqueue (.inl rfl) hsame
  | listeningMaster hstage hpackets hsame =>
      constructor
      · rw [hpackets]
        exact hconserved
      · rw [hsame, hwritten, hpackets]
      · rw [hstage, hrunning]
  | writePacket hstage hconsume hmore =>
      have hhandled := (Monitor.consume_handled hconsume).2
      constructor
      · exact hconserved.consume hconsume
      · rw [hmore, hwritten, hhandled, List.append_assoc]
        rfl
      · rw [hstage, hrunning]

/-- Whenever the writer waits and no notification is pending for it, the queue
is empty and the enqueued packets have been written, in their order. -/
def Quiescent (board : MasterBoard) (system : System) : Prop :=
  system.packets.phase = .blocked →
    system.packets.queue = [] ∧
      system.written = board.serialPort.written ++ system.packets.enqueued

theorem quiescent_iff_awake {board : MasterBoard} {system : System}
    (haccounted : system.Accounted board) :
    system.Quiescent board ↔ system.packets.Awake := by
  rw [← Monitor.quiescent_iff_awake haccounted.conserved]
  unfold Quiescent Monitor.Quiescent
  rw [haccounted.written]
  simp only [List.append_cancel_left_eq]

/-- A temperature request that has frames to send is made while the writer
waits and no notification is pending for it. -/
def Unnoticed (parse : Parser) (action : Action) (system : System) : Prop :=
  action = .requestTemperature ∧ (step parse action system).isSome ∧
    system.packets.phase = .blocked ∧ system.board.slaveCount ≠ 0

theorem requestTemperature_eq_nil_iff {board : MasterBoard} {frames : List (List UInt8)}
    (hframes : GatewayManager.requestTemperature board = .ok frames) :
    frames = [] ↔ board.slaveCount = 0 := by
  have hlength := mapM_length hframes
  rw [List.length_range] at hlength
  rw [← List.length_eq_zero_iff, hlength, ← UInt8.toNat_inj]
  rfl

theorem awake_step_iff
    {parse : Parser} {action : Action} {system next : System}
    (hawake : system.packets.Awake) (hstep : step parse action system = some next) :
    next.packets.Awake ↔ ¬ Unnoticed parse action system := by
  have hother : action ≠ .requestTemperature → ¬ Unnoticed parse action system :=
    fun hne hunnoticed => hne hunnoticed.1
  cases effect_of_step hstep with
  | setup hstage hrequests hpackets hwritten =>
      rw [hpackets]
      exact iff_of_true hawake (hother (by simp))
  | onMessage hstage hpacket henqueue hpackets hwritten =>
      rw [hpackets]
      exact iff_of_true (Monitor.awake_notify _) (hother (by simp))
  | polling hstage henqueue hpackets hwritten =>
      rw [hpackets]
      exact iff_of_true (Monitor.awake_notify _) (hother (by simp))
  | requestTemperature hstage hframes henqueue hwritten =>
      rw [Monitor.awake_enqueue_iff hawake henqueue, requestTemperature_eq_nil_iff hframes]
      unfold Unnoticed
      rw [hstep]
      simp
  | listeningMaster hstage hpackets hwritten =>
      rw [hpackets]
      exact iff_of_true hawake (hother (by simp))
  | writePacket hstage hconsume hwritten =>
      exact iff_of_true (Monitor.awake_consume hconsume) (hother (by simp))

/-- In every run of the gateway, whatever the interleaving, all states visited
are quiescent iff no temperature request goes unnoticed. -/
theorem quiescent_iff
    (parse : Parser) (board : MasterBoard) (actions : List Action) :
    (∀ before system, before <+: actions →
      run (step parse) before (started board) = some system → system.Quiescent board) ↔
    (∀ action system, Visits (step parse) actions (started board) system action →
      ¬ Unnoticed parse action system) := by
  have haccounted : ∀ before system,
      run (step parse) before (started board) = some system → system.Accounted board :=
    fun before system hrun => invariant_run_of_step (accounted_started board)
      (fun action state next hstate hstep => hstate.step hstep) hrun
  constructor
  · intro hquiescent action system hvisits hunnoticed
    rcases hvisits with ⟨before, hinitial, hrun⟩
    obtain ⟨next, hstep⟩ := Option.isSome_iff_exists.mp hunnoticed.2.1
    have hnextRun : run (step parse) (before ++ [action]) (started board) = some next := by
      rw [run_concat, hrun]
      exact hstep
    have hawake := (quiescent_iff_awake (haccounted _ _ hrun)).mp
      (hquiescent before system ((List.prefix_append _ _).trans hinitial) hrun)
    have hnext := (quiescent_iff_awake (haccounted _ _ hnextRun)).mp
      (hquiescent _ _ hinitial hnextRun)
    exact (awake_step_iff hawake hstep).mp hnext hunnoticed
  · intro hnoticed before system hinitial hrun
    rw [quiescent_iff_awake (haccounted _ _ hrun)]
    have hstep : ∀ (action : Action) (state next : System), state.packets.Awake →
        ¬ Unnoticed parse action state → step parse action state = some next →
          next.packets.Awake :=
      fun action state next hawake hallowed hstep => (awake_step_iff hawake hstep).mpr hallowed
    exact @invariant_run System Action (step parse) (fun state => state.packets.Awake)
      (fun action state => ¬ Unnoticed parse action state) (started board) system before
      Monitor.awake_initial hstep
      (fun action state hvisits => hnoticed action state (hvisits.mono hinitial)) hrun

theorem unnoticedRequest_not_quiescent :
    ¬ ∀ (parse : Parser) (board : MasterBoard) (actions before : List Action)
      (system : System), before <+: actions →
        run (step parse) before (started board) = some system → system.Quiescent board := by
  intro hall
  obtain ⟨system, hrun, hblocked, hqueue⟩ : ∃ system,
      run (step fun _ => .ok none)
          [.writePacket .lock, .writePacket .check, .requestTemperature]
          (started ((boardReceiving []).setSlaveCount 1)) = some system ∧
        system.packets.phase = .blocked ∧ system.packets.queue ≠ [] :=
    ⟨_, rfl, rfl, by decide⟩
  exact hqueue (hall _ _ _ _ system List.prefix_rfl hrun hblocked).1

end System

end IotGateway
