import IotGateway.System

/-!
# Rejected messages

`MakePacket` turns a rejected message into an empty packet, which `on_message`
enqueues like any other.  The writer hands it over to the port when its turn
comes.
-/

namespace IotGateway

open Faults GatewayManager Runs WaitQueue

/-- The broker has delivered a message that does not describe a request. -/
def MqttManager.Rejects (parse : Parser) (message : Message) : Prop :=
  ∃ payload packet code, message.payload = some payload ∧
    parseMqttMessage parse (cString message.topic) (cString payload) = .ok (packet, code) ∧
    code ≠ .kSuccessParse

theorem MqttManager.onMessage_of_rejects
    {parse : Parser} {message : Message} (hrejects : Rejects parse message) :
    onMessage parse message = .ok [] := by
  obtain ⟨payload, packet, code, hpayload, hparse, hcode⟩ := hrejects
  unfold onMessage makePacket
  rw [hpayload]
  change parseMqttMessage parse _ _ >>= _ = _
  rw [bind_of_ok hparse]
  simp only [hcode, ne_eq, not_false_eq_true, if_true]
  rfl

namespace System

/-- What has been written when the writer has handled all that there is. -/
def outstanding (system : System) : List (List UInt8) :=
  system.written ++ system.packets.inHand ++ system.packets.queue

/-- After the step the queue is what it was, and whatever the writer does from
then on, it writes nothing but what was outstanding before. -/
structure Unaffected (parse : Parser) (system next : System) : Prop where
  queue : next.packets.queue = system.packets.queue
  written : ∀ (steps : List ConsumerStep) (last : System),
    run (step parse) (steps.map Action.writePacket) next = some last →
      last.written <+: system.outstanding

theorem step_writePacket
    (parse : Parser) {step : ConsumerStep} {system : System}
    {packets : Monitor (List UInt8)} (hrunning : system.stage = .running)
    (hconsume : system.packets.consume step = some packets) :
    ∃ next, System.step parse (.writePacket step) system = some next ∧
      next.packets = packets := by
  unfold System.step
  simp only [hrunning]
  unfold writePacket
  rw [hconsume]
  exact ⟨_, rfl, rfl⟩

/-- The runs of the consumer are runs of the writer, which writes what the
consumer handles. -/
theorem exists_run_writePacket
    (parse : Parser) {steps : List ConsumerStep} {system : System}
    {packets : Monitor (List UInt8)} (hrunning : system.stage = .running)
    (hrun : run Monitor.consume steps system.packets = some packets) :
    ∃ last frames, run (step parse) (steps.map Action.writePacket) system = some last ∧
      last.written = system.written ++ frames ∧
      packets.handled = system.packets.handled ++ frames := by
  induction steps generalizing system with
  | nil =>
      cases hrun
      exact ⟨system, [], rfl, (List.append_nil _).symm, (List.append_nil _).symm⟩
  | cons step steps ih =>
      obtain ⟨middle, hconsume, hrest⟩ := Option.bind_eq_some_iff.mp hrun
      obtain ⟨next, hstep, rfl⟩ := step_writePacket parse hrunning hconsume
      cases effect_of_step hstep with
      | writePacket hstage _ hwritten =>
          obtain ⟨last, frames, hlast, hframes, hhandled⟩ :=
            ih (hstage.trans hrunning) hrest
          refine ⟨last, system.handedOver step ++ frames, ?_, ?_, ?_⟩
          · change System.step parse _ system >>= _ = _
            rw [hstep]
            exact hlast
          · rw [hframes, hwritten, List.append_assoc]
          · rw [hhandled, (Monitor.consume_handled hconsume).2, List.append_assoc]
            rfl

theorem onMessage_pushes
    {parse : Parser} {message : Message} {system next : System}
    (hrejects : MqttManager.Rejects parse message)
    (hstep : step parse (.onMessage message) system = some next) :
    system.packets.locked = false ∧ next.packets.locked = false ∧
      next.packets.queue = system.packets.queue ++ [[]] ∧ next.written = system.written := by
  cases effect_of_step hstep with
  | onMessage hstage hpacket henqueue hpackets hwritten =>
      rw [MqttManager.onMessage_of_rejects hrejects] at hpacket
      cases hpacket
      have hunlocked := Monitor.locked_of_enqueue (List.cons_ne_nil _ _) henqueue
      have hmonitor := Monitor.enqueue_eq_some henqueue
      refine ⟨hunlocked, ?_, ?_, hwritten⟩
      · rw [hpackets, Monitor.notify_locked, hmonitor]
        exact hunlocked
      · rw [hpackets, Monitor.notify_queue, hmonitor]

theorem running_of_onMessage
    {parse : Parser} {message : Message} {system next : System}
    (hstep : step parse (.onMessage message) system = some next) :
    system.stage = .running := by
  unfold step at hstep
  cases hstage : system.stage with
  | running => rfl
  | setupMasterId => simp [hstage] at hstep
  | setupSlaveIds => simp [hstage] at hstep

/-- A rejected message always affects the system: the queue gets longer, and
the writer can write one more frame than was outstanding. -/
theorem rejected_message_affects
    {parse : Parser} {message : Message} {system next : System}
    (hrejects : MqttManager.Rejects parse message)
    (hstep : step parse (.onMessage message) system = some next) :
    next.packets.queue ≠ system.packets.queue ∧
      (∃ (steps : List ConsumerStep) (last : System),
        run (step parse) (steps.map Action.writePacket) next = some last ∧
          last.written = system.outstanding ++ [[]]) ∧
      ¬ Unaffected parse system next := by
  obtain ⟨hunlocked, hnext, hqueue, hsame⟩ := onMessage_pushes hrejects hstep
  have hlonger : next.packets.queue ≠ system.packets.queue := by
    rw [hqueue]
    simp
  refine ⟨hlonger, ?_, fun hunaffected => hlonger hunaffected.queue⟩
  obtain ⟨steps, packets, hdrain, hhandled⟩ := Monitor.exists_drain hnext
  have hrunning : next.stage = .running := by
    cases effect_of_step hstep with
    | onMessage hstage => exact hstage.trans (running_of_onMessage hstep)
  obtain ⟨last, frames, hrun, hwritten, hframes⟩ :=
    exists_run_writePacket parse hrunning hdrain
  rw [hhandled] at hframes
  have hfinal : next.packets.queue = frames := List.append_cancel_left hframes
  refine ⟨steps, last, hrun, ?_⟩
  unfold outstanding
  rw [hwritten, ← hfinal, hqueue, hsame, Monitor.inHand_of_unlocked hunlocked]
  simp

/-- A message whose payload is no JSON. -/
def noJson : Message := ⟨[], some [0x78]⟩

def onePending : System :=
  { started (boardReceiving []) with packets := ⟨[pollingRequest], .away, [pollingRequest], []⟩ }

theorem rejects_noJson : MqttManager.Rejects (fun _ => .ok none) noJson :=
  ⟨[0x78], [], .kFailParsePayload, rfl, rfl, by decide⟩

theorem rejected_message_affects_noJson :
    ∃ next, step (fun _ => .ok none) (.onMessage noJson) onePending = some next ∧
      next.packets.queue ≠ onePending.packets.queue ∧
      (∃ (steps : List ConsumerStep) (last : System),
        run (step fun _ => .ok none) (steps.map Action.writePacket) next = some last ∧
          last.written = onePending.outstanding ++ [[]]) ∧
      ¬ Unaffected (fun _ => .ok none) onePending next :=
  ⟨_, rfl, rejected_message_affects rejects_noJson rfl⟩

theorem noJson_enqueued :
    ¬ ∀ (parse : Parser) (message : Message) (system next : System),
      MqttManager.Rejects parse message →
      step parse (.onMessage message) system = some next →
        Unaffected parse system next := by
  intro hall
  have hqueue := (hall _ noJson onePending _ rejects_noJson rfl).queue
  have hlength := congrArg List.length hqueue
  contradiction

end System

end IotGateway
