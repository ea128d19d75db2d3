import IotGateway.BodyAccess
import IotGateway.Replies
import IotGateway.Translation

/-!
# The main thread does not stop

An instruction of the main thread ends with a fault only if it dispatches a
packet that is too short for its use, and a message does only if it is not
tolerated.  When the board sends no such frames and the broker no such messages,
the main thread can go on in every state, unless it waits for the mutex.
-/

namespace IotGateway

open Faults GatewayManager Runs WaitQueue

theorem faultOf_parseCommand_of_longEnough {build : Build} {packet : ResponsePacket}
    (board : MasterBoard)
    (hdata : packet.body.data.length = packet.header.dataLength.toNat - 2)
    (hlong : PacketUse.LongEnough packet (.listeningMaster build)) :
    faultOf (parseCommand build board packet) = none := by
  obtain ⟨hread, hemergency⟩ := hlong
  rw [faultOf_parseCommand]
  split
  next hcommand =>
    have hlength := hread hcommand
    rw [faultOf_parseMemoryRead, if_neg]
    rintro ⟨⟨hstart, hend⟩, hshort⟩
    have hfour := hlength hstart hend
    omega
  next hcommand =>
    split
    next hother =>
      have hlength := hemergency hother
      rw [faultOf_parseEmergency, if_neg]
      rintro ⟨⟨hstart, hend⟩, hmore, hshort⟩
      rcases hlength hstart hend with htwo | hsix
      · omega
      · omega
    next => rfl

/-- The bytes of a packet determine its header and its address. -/
theorem header_of_packet_eq {packet other : ResponsePacket}
    (hbytes : packet.packet = other.packet) :
    packet.header = other.header ∧ targetMemoryAddress packet = targetMemoryAddress other := by
  obtain ⟨header, body, tail⟩ := packet
  obtain ⟨header', body', tail'⟩ := other
  have hheader : header = header' := by
    cases header
    cases header'
    simp only [ResponsePacket.packet, ResponseHeader.bytes, List.append_assoc, List.cons_append,
      List.cons.injEq] at hbytes
    obtain ⟨hstart, hidx, htarget, hcommand, herror, hlength, _⟩ := hbytes
    rw [hstart, hidx, htarget, hcommand, herror, hlength]
  subst hheader
  refine ⟨rfl, ?_⟩
  unfold targetMemoryAddress
  by_cases hlength : header.dataLength > 0
  · simp only [ResponsePacket.packet, hlength, if_true, PacketBody.bytes,
      List.append_assoc] at hbytes
    have hbody := List.append_cancel_left hbytes
    simp only [List.cons_append, List.cons.injEq] at hbody
    rw [if_pos hlength, if_pos hlength, hbody.1, hbody.2.1]
  · rw [if_neg hlength, if_neg hlength]

/-- A frame that can be dispatched, or is not. -/
def Segment.Dispatchable (build : Build) : Segment → Prop
  | .frame whole =>
      whole.checksum.toNat = ByteSum.sumMod whole.content →
        PacketUse.LongEnough whole.response (.listeningMaster build)
  | .noise .. | .oversized .. => True

theorem exists_listened_of_ok {build : Build} {board : MasterBoard} {receipt : Receipt}
    (hok : (receivePacket board.serialPort).1 = .ok receipt)
    (hlong : ∀ packet, received board = some packet →
      PacketUse.LongEnough packet (.listeningMaster build)) :
    ∃ listened, GatewayManager.listeningMaster build board = .ok listened := by
  cases hreceived : received board with
  | some packet =>
      apply exists_listened hreceived
      have hdata := receiveValid_data_length (received_eq_some_iff.mp hreceived)
      exact faultOf_parseCommand_of_longEnough _ hdata (hlong packet hreceived)
  | none =>
      have hnone : ∃ board', receiveValid board = .ok (none, board') := by
        unfold received at hreceived
        cases hcall : receiveValid board with
        | error fault =>
            unfold receiveValid at hcall
            split at hcall
            next hfault =>
              rw [hfault] at hok
              cases hok
            next =>
              split at hcall <;> cases hcall
        | ok outcome =>
            obtain ⟨packet?, board'⟩ := outcome
            rw [hcall] at hreceived
            cases hreceived
            exact ⟨board', rfl⟩
      obtain ⟨board', hvalid⟩ := hnone
      refine ⟨⟨false, board', []⟩, ?_⟩
      unfold GatewayManager.listeningMaster
      rw [bind_of_ok hvalid]
      rfl

namespace MainLoop

variable {parse : Parser} {build : Build} {actions : List Action}
  {state : MainLoop} {board : MasterBoard} {initial : List Segment}
  {answer : ℕ → List UInt8 → List Segment}

theorem exists_receipt_of_isHeaderFailure {outcome : Except Fault Receipt}
    (hfail : isHeaderFailure outcome = true) : ∃ receipt, outcome = .ok receipt := by
  unfold isHeaderFailure at hfail
  split at hfail
  · exact ⟨_, rfl⟩
  · cases hfail

theorem longEnough_of_validBytes {segment : Segment} {packet : ResponsePacket}
    (hdispatchable : segment.Dispatchable build)
    (hbytes : validBytes segment = some packet.packet) :
    PacketUse.LongEnough packet (.listeningMaster build) := by
  cases segment with
  | noise => cases hbytes
  | oversized => cases hbytes
  | frame whole =>
      unfold validBytes at hbytes
      simp only at hbytes
      split at hbytes
      next hvalid =>
        have hsame := whole.response_packet.trans (Option.some.inj hbytes)
        obtain ⟨hheader, haddress⟩ := header_of_packet_eq hsame
        have hlong := hdispatchable hvalid
        unfold PacketUse.LongEnough at hlong ⊢
        rw [hheader, haddress] at hlong
        exact hlong
      next => cases hbytes

theorem Paired.exists_listened (hpaired : state.Paired board initial answer)
    (hinitial : ∀ segment ∈ initial, segment.Dispatchable build)
    (hanswer : ∀ number frame, ∀ segment ∈ answer number frame, segment.Dispatchable build)
    (hfull : (receivePacket state.board.serialPort).2.ReadsFull) :
    ∃ listened, GatewayManager.listeningMaster build state.board = .ok listened := by
  obtain ⟨frames, seen, rest, _, hstream, hdue, _⟩ := hpaired.paired
  obtain ⟨rest', _, hcase⟩ := receivePacket_segments rest _ hstream hfull
  rcases hcase with ⟨hfail, _⟩ | ⟨segment, hnext, hreported, _⟩
  · obtain ⟨receipt, hok⟩ := exists_receipt_of_isHeaderFailure hfail
    apply exists_listened_of_ok hok
    intro packet hreceived
    rw [received_eq_accepted, accepted_of_isHeaderFailure hfail] at hreceived
    cases hreceived
  · obtain ⟨receipt, hok, _⟩ := hreported.isOk
    apply exists_listened_of_ok hok
    intro packet hreceived
    have hdispatchable : segment.Dispatchable build := by
      have hmem : segment ∈
          due (initial ++ (answered answer board.serialPort.written.length frames).flatten) := by
        rw [hdue, hnext]
        exact List.mem_append_right _ List.mem_cons_self
      rcases List.mem_append.mp (List.mem_filter.mp hmem).1 with hold | hanswered
      · exact hinitial segment hold
      · obtain ⟨given, hgiven, hsegment⟩ := List.mem_flatten.mp hanswered
        obtain ⟨number, frame, rfl⟩ := exists_of_mem_answered hgiven
        exact hanswer number frame segment hsegment
    have hbytes := accepted_of_reported hreported
    rw [← received_eq_accepted, hreceived] at hbytes
    exact longEnough_of_validBytes hdispatchable hbytes.symm

end MainLoop

end IotGateway
