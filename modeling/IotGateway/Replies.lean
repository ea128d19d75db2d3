import IotGateway.Framing
import IotGateway.PacketFlow

/-!
# Replies to the written packets

The master board answers every packet that reaches it with frames, which may be
damaged and have noise between them; an empty packet does not reach it.  The
main loop takes these answers from the line in the order of the packets, however
the two threads take turns.
-/

namespace IotGateway

open Faults GatewayManager Runs WaitQueue

/-- The answers to the packets of a list that are not empty.  Each packet has its
number, the first one `number`. -/
def answered {β : Type*} (answer : ℕ → List UInt8 → β) : ℕ → List (List UInt8) → List β
  | _, [] => []
  | number, frame :: frames =>
      if frame = [] then answered answer (number + 1) frames
      else answer number frame :: answered answer (number + 1) frames

theorem answered_append {β : Type*} (answer : ℕ → List UInt8 → β) (number : ℕ)
    (first second : List (List UInt8)) :
    answered answer number (first ++ second) =
      answered answer number first ++ answered answer (number + first.length) second := by
  induction first generalizing number with
  | nil => rfl
  | cons frame first ih =>
      rw [List.cons_append, answered, answered, ih, List.length_cons,
        show number + 1 + first.length = number + (first.length + 1) by omega]
      split <;> rfl

theorem exists_of_mem_answered {β : Type*} {answer : ℕ → List UInt8 → β} {number : ℕ}
    {frames : List (List UInt8)} {given : β} (hmem : given ∈ answered answer number frames) :
    ∃ number frame, given = answer number frame := by
  induction frames generalizing number with
  | nil => cases hmem
  | cons frame frames ih =>
      unfold answered at hmem
      split at hmem
      · exact ih hmem
      · rcases List.mem_cons.mp hmem with hfirst | hrest
        · exact ⟨number, frame, hfirst⟩
        · exact ih hrest

/-- The outcome of a call of `ReceivePacket` that found a frame. -/
def Observation.outcome? : Observation → Option (Except Fault Receipt)
  | .polled .. => none
  | .listened _ outcome _ _ => if isHeaderFailure outcome then none else some outcome

namespace MainLoop

variable {parse : Parser} {build : Build} {action : Action}
  {state next last : MainLoop} {actions : List Action}

def outcomes (state : MainLoop) : List (Except Fault Receipt) :=
  state.observed.filterMap Observation.outcome?

theorem due_append (first second : List Segment) :
    due (first ++ second) = due first ++ due second := List.filter_append ..

theorem receiveValid_serialPort {board board' : MasterBoard} {packet? : Option ResponsePacket}
    (hreceive : receiveValid board = .ok (packet?, board')) :
    board'.serialPort = (receivePacket board.serialPort).2 := by
  unfold receiveValid at hreceive
  split at hreceive
  next => cases hreceive
  next packet receiveFail port hcall =>
    rw [hcall]
    simp only at hreceive
    split at hreceive
    · cases hreceive
      rfl
    · cases hreceive
      rfl

theorem listeningMaster_serialPort {board : MasterBoard} {listened : Listened}
    (hlistened : GatewayManager.listeningMaster build board = .ok listened) :
    listened.board.serialPort = (receivePacket board.serialPort).2 := by
  obtain ⟨⟨packet?, board'⟩, hreceive, hnext⟩ := exists_of_bind_eq_ok hlistened
  have hport := receiveValid_serialPort hreceive
  cases packet? with
  | none =>
      cases hnext
      exact hport
  | some packet =>
      obtain ⟨⟨board'', published⟩, hparse, hresult⟩ := exists_of_bind_eq_ok hnext
      cases hresult
      rw [parseCommand_serialPort hparse]
      exact hport

/-- The board answers a packet with the bytes of `answer`. -/
def Answers (answer : ℕ → List UInt8 → List Segment) (peer : ℕ → List UInt8 → List UInt8) :
    Prop :=
  ∀ number frame, frame ≠ [] → peer number frame = (answer number frame).flatMap Segment.bytes

/-- The outcomes so far are those of the first segments that are due, and the
others are still on the line. -/
structure Paired (board : MasterBoard) (initial : List Segment)
    (answer : ℕ → List UInt8 → List Segment) (state : MainLoop) : Prop where
  peer : Answers answer state.board.serialPort.peer
  paired : ∃ frames seen rest, state.written = board.serialPort.written ++ frames ∧
    state.board.serialPort.stream = rest.flatMap Segment.bytes ∧
    due (initial ++ (answered answer board.serialPort.written.length frames).flatten) =
      seen ++ due rest ∧
    List.Forall₂ Segment.Reported seen state.outcomes

section Paired

variable {board : MasterBoard} {initial : List Segment}
  {answer : ℕ → List UInt8 → List Segment}

theorem paired_start (hpeer : Answers answer board.serialPort.peer)
    (hstream : board.serialPort.stream = initial.flatMap Segment.bytes) :
    (start board).Paired board initial answer where
  peer := hpeer
  paired := ⟨[], [], initial, (List.append_nil _).symm, hstream, by simp [answered], .nil⟩

theorem Paired.of_same (hpaired : state.Paired board initial answer)
    (hport : next.board.serialPort = state.board.serialPort)
    (hobserved : next.outcomes = state.outcomes) : next.Paired board initial answer where
  peer := hport ▸ hpaired.peer
  paired := by
    unfold written
    rw [hport, hobserved]
    exact hpaired.paired

/-- A packet is written: its answer joins the stream. -/
theorem Paired.write (hpaired : state.Paired board initial answer) (frame : List UInt8)
    (hport : next.board.serialPort = state.board.serialPort.write frame)
    (hobserved : next.outcomes = state.outcomes) : next.Paired board initial answer where
  peer := by
    rw [hport]
    exact hpaired.peer
  paired := by
    obtain ⟨frames, seen, rest, hwritten, hstream, hdue, hseen⟩ := hpaired.paired
    have hnumber : state.board.serialPort.written.length =
        board.serialPort.written.length + frames.length := by
      rw [show state.board.serialPort.written = _ from hwritten, List.length_append]
    have hall : next.written = board.serialPort.written ++ (frames ++ [frame]) := by
      unfold written at hwritten ⊢
      rw [hport, Serial.written_write, hwritten, List.append_assoc]
    rw [← hobserved] at hseen
    rw [hport]
    by_cases hempty : frame = []
    · refine ⟨frames ++ [frame], seen, rest, hall, ?_, ?_, hseen⟩
      · rw [Serial.stream_write, hstream, Serial.answer, if_pos hempty, List.append_nil]
      · rw [answered_append, answered, if_pos hempty, answered, List.append_nil, hdue]
    · refine ⟨frames ++ [frame], seen,
        rest ++ answer state.board.serialPort.written.length frame, hall, ?_, ?_, hseen⟩
      · rw [Serial.stream_write, hstream, Serial.answer_of_ne_nil hempty,
          hpaired.peer _ _ hempty, List.flatMap_append]
      · rw [answered_append, answered, if_neg hempty, answered, List.flatten_append,
          ← List.append_assoc, due_append, hdue, due_append, List.append_assoc, hnumber]
        simp

/-- A call of `ReceivePacket` takes the next segment that is due, if any. -/
theorem Paired.receive (hpaired : state.Paired board initial answer) {now : Int64}
    {packet : Option ResponsePacket} {published : List Publication}
    (hport : next.board.serialPort = (receivePacket state.board.serialPort).2)
    (hobserved : next.observed = state.observed ++
      [.listened now (receivePacket state.board.serialPort).1 packet published])
    (hfull : (receivePacket state.board.serialPort).2.ReadsFull) :
    next.Paired board initial answer where
  peer := by
    rw [hport, (readsOnly_receivePacket state.board.serialPort).peer]
    exact hpaired.peer
  paired := by
    obtain ⟨frames, seen, rest, hwritten, hstream, hdue, hseen⟩ := hpaired.paired
    obtain ⟨rest', hrest, hcase⟩ := receivePacket_segments rest _ hstream hfull
    have hsame : next.written = state.written := by
      unfold written
      rw [hport]
      exact (readsOnly_receivePacket state.board.serialPort).written
    unfold outcomes at hseen ⊢
    rw [hobserved, List.filterMap_append]
    rcases hcase with ⟨hfail, hsameDue, _⟩ | ⟨segment, hnextDue, hreported, _⟩
    · refine ⟨frames, seen, rest', hsame.trans hwritten, hport ▸ hrest, hsameDue ▸ hdue, ?_⟩
      simpa [Observation.outcome?, hfail] using hseen
    · obtain ⟨receipt, hok, hnotFail⟩ := hreported.isOk
      refine ⟨frames, seen ++ [segment], rest', hsame.trans hwritten, hport ▸ hrest, ?_, ?_⟩
      · rw [hdue, hnextDue, List.append_assoc]
        rfl
      · have hlast : List.Forall₂ Segment.Reported [segment]
            [(receivePacket state.board.serialPort).1] := .cons hreported .nil
        simpa [Observation.outcome?, hnotFail] using List.rel_append hseen hlast

theorem handedOver_cases (state : MainLoop) (writerStep : ConsumerStep) :
    state.system.handedOver writerStep = [] ∨
      ∃ frame, state.system.handedOver writerStep = [frame] := by
  change (if writerStep = .handle then state.packets.inHand else []) = [] ∨
    ∃ frame, (if writerStep = .handle then state.packets.inHand else []) = [frame]
  split
  next =>
    unfold Monitor.inHand
    split
    next frame _ => exact .inr ⟨frame, rfl⟩
    next => exact .inl rfl
  next => exact .inl rfl

theorem step_trace (hstep : step parse build action state = some next) :
    state.board.serialPort.trace <+: next.board.serialPort.trace := by
  cases effect_of_step hstep with
  | listeningMaster hpending hlistened => exact (listeningMaster_readsOnly hlistened).trace
  | @writePacket writerStep packets hconsume =>
      rcases handedOver_cases state writerStep with hnone | ⟨frame, hone⟩
      · rw [hnone]
        exact List.prefix_rfl
      · rw [hone]
        exact List.prefix_append _ _
  | _ => exact List.prefix_rfl

theorem Paired.step (hpaired : state.Paired board initial answer)
    (hfull : next.board.serialPort.ReadsFull)
    (hstep : step parse build action state = some next) :
    next.Paired board initial answer := by
  cases effect_of_step hstep with
  | polling hpending =>
      refine hpaired.of_same rfl ?_
      simp [outcomes, Observation.outcome?]
  | listeningMaster hpending hlistened =>
      have hport := listeningMaster_serialPort hlistened
      exact hpaired.receive hport rfl (hport ▸ hfull)
  | @writePacket writerStep packets hconsume =>
      rcases handedOver_cases state writerStep with hnone | ⟨frame, hone⟩
      · rw [hnone]
        exact hpaired.of_same rfl rfl
      · rw [hone]
        exact hpaired.write frame rfl rfl
  | _ => exact hpaired.of_same rfl rfl

theorem paired_of_run (hpeer : Answers answer board.serialPort.peer)
    (hstream : board.serialPort.stream = initial.flatMap Segment.bytes)
    (hrun : run (step parse build) actions (start board) = some last)
    (hfull : last.board.serialPort.ReadsFull) : last.Paired board initial answer := by
  have hlast : last.board.serialPort.ReadsFull → last.Paired board initial answer := by
    apply @invariant_run_of_step MainLoop Action (step parse build)
      (fun state => state.board.serialPort.ReadsFull → state.Paired board initial answer)
      (start board) last actions _ _ hrun
    · exact fun _ => paired_start hpeer hstream
    · intro action state next hstate hstep hnext
      exact (hstate (Serial.readsFull_of_trace (step_trace hstep) hnext)).step hnext hstep
  exact hlast hfull

/-- Whatever the order in which the threads take turns, as long as no read
times out short, the calls of `ReceivePacket` report the segments that the
board answers to the written packets: in the order of the packets, each once
and as what it is, up to those that are still on the line. -/
theorem replies_in_order (hpeer : Answers answer board.serialPort.peer)
    (hstream : board.serialPort.stream = initial.flatMap Segment.bytes)
    (hrun : run (step parse build) actions (start board) = some last)
    (hfull : last.board.serialPort.ReadsFull) :
    ∃ frames seen rest, last.written = board.serialPort.written ++ frames ∧
      last.board.serialPort.stream = rest.flatMap Segment.bytes ∧
      due (initial ++ (answered answer board.serialPort.written.length frames).flatten) =
        seen ++ due rest ∧
      List.Forall₂ Segment.Reported seen last.outcomes :=
  (paired_of_run hpeer hstream hrun hfull).paired

end Paired

/-! ## Dispatched packets -/

/-- The packet that an outcome leads to, if its checksum is right. -/
def accepted : Except Fault Receipt → Option ResponsePacket
  | .ok (packet, .kSuccessReceive) => if packet.validChecksum then some packet else none
  | _ => none

theorem received_eq_accepted (board : MasterBoard) :
    received board = accepted (receivePacket board.serialPort).1 := by
  unfold received receiveValid accepted
  generalize receivePacket board.serialPort = result
  obtain ⟨outcome, port⟩ := result
  rcases outcome with fault | ⟨packet, receiveFail⟩
  · rfl
  · cases receiveFail with
    | kSuccessReceive => cases hvalid : packet.validChecksum <;> simp [hvalid]
    | _ => simp

theorem accepted_of_isHeaderFailure {outcome : Except Fault Receipt}
    (hfail : isHeaderFailure outcome = true) : accepted outcome = none := by
  unfold isHeaderFailure at hfail
  split at hfail
  · rfl
  · cases hfail

/-- The bytes of an undamaged frame. -/
def validBytes : Segment → Option (List UInt8)
  | .frame whole =>
      if whole.checksum.toNat = ByteSum.sumMod whole.content then some whole.bytes else none
  | _ => none

theorem accepted_of_reported {segment : Segment} {outcome : Except Fault Receipt}
    (hreported : segment.Reported outcome) :
    (accepted outcome).map ResponsePacket.packet = validBytes segment := by
  cases segment with
  | noise => exact hreported.elim
  | frame whole =>
      obtain ⟨packet, rfl, hbytes, hvalid⟩ := hreported
      unfold accepted validBytes
      by_cases hchecksum : packet.validChecksum = true
      · simp [hchecksum, hbytes, hvalid.mp hchecksum]
      · simp [hchecksum, mt hvalid.mpr hchecksum]
  | oversized =>
      rw [show outcome = _ from hreported]
      rfl

/-- A board that gives the same answer to every packet. -/
def boardAnswering (answer : List Segment) : MasterBoard :=
  { boardReceiving [] with
    serialPort :=
      { line := ⟨[], [], []⟩, peer := fun _ _ => answer.flatMap Segment.bytes, trace := [] } }

/-- Two polls, the second of which is written before the first is answered. -/
def twoPolls : List Action :=
  [.connected 8000, .execute, .execute, .execute, .execute, .writePacket .lock,
    .writePacket .check, .writePacket .handle, .execute, .connected 16000, .execute, .execute,
    .writePacket .lock, .writePacket .check, .writePacket .handle, .execute, .execute, .execute,
    .execute]

theorem replies_in_order_twoPolls :
    ∃ last frames seen rest,
      run (step (fun _ => .ok none) .release) twoPolls
        (start (boardAnswering [.noise 0x0d (by decide), .frame pollAnswer])) = some last ∧
      last.written = frames ∧
      last.board.serialPort.stream = rest.flatMap Segment.bytes ∧
      due (answered (fun _ _ => [.noise 0x0d (by decide), .frame pollAnswer]) 0
        frames).flatten = seen ++ due rest ∧
      List.Forall₂ Segment.Reported seen last.outcomes ∧ last.outcomes.length = 2 := by
  have hresult : (run (step (fun _ => .ok none) .release) twoPolls
      (start (boardAnswering [.noise 0x0d (by decide), .frame pollAnswer]))).map
        (fun last => (decide last.board.serialPort.ReadsFull, last.outcomes.length)) =
      some (true, 2) := by
    decide +kernel
  obtain ⟨last, hrun, hlast⟩ := Option.map_eq_some_iff.mp hresult
  obtain ⟨hfull, hlength⟩ := Prod.mk.inj hlast
  obtain ⟨frames, seen, rest, hwritten, hrest, hdue, hseen⟩ :=
    @replies_in_order (fun _ => .ok none) .release last twoPolls
      (boardAnswering [.noise 0x0d (by decide), .frame pollAnswer]) []
      (fun _ _ => [.noise 0x0d (by decide), .frame pollAnswer]) (fun _ _ _ => rfl) rfl hrun
      (of_decide_eq_true hfull)
  exact ⟨last, frames, seen, rest, hrun, hwritten, hrest, hdue, hseen, hlength⟩

/-! ## What is published of the replies -/

section ReportsOn

variable {packet : ResponsePacket} {publication : Publication} {published : List Publication}

end ReportsOn

theorem step_masterId (hstep : step parse build action state = some next) :
    next.board.masterId = state.board.masterId := by
  cases effect_of_step hstep with
  | listeningMaster hpending hlistened =>
      rcases listeningMaster_cases hlistened with
        ⟨_, _, _, hboard⟩ | ⟨packet, published, _, _, hparse, _⟩
      · rw [hboard]
      · rw [parseCommand_board hparse]
        split <;> rfl
  | writePacket hconsume => rw [foldl_write_eq]
  | _ => rfl

end MainLoop

end IotGateway
