import IotGateway.PacketReading
import IotGateway.Library.Runs

/-!
# Writing packets to the broker

`packet__queue` appends a packet to the queue, and `packet__write` passes the bytes
of the queue to the socket until the socket takes no more.  A packet that is not
written completely stays the current one.  The packets of a lost connection are
dropped.
-/

namespace IotGateway

open Runs

namespace Mosquitto

/-- The result of a write to the socket: one byte more than `count` is taken, if there
are so many. -/
inductive NetWrite where
  | wrote (count : ℕ)
  | error (error : NetError)
  deriving DecidableEq, Repr

structure OutPacket where
  payload : List UInt8
  pos : ℕ
  toProcess : ℕ
  deriving DecidableEq, Repr

/-- The bytes that are still to be written. -/
def OutPacket.rest (packet : OutPacket) : List UInt8 :=
  (packet.payload.drop packet.pos).take packet.toProcess

structure Outgoing where
  currentOutPacket : Option OutPacket := none
  outPacket : List OutPacket := []
  deriving DecidableEq, Repr

/-- The loop over the pieces of a packet: why it ended, if not with the whole packet,
what is left, the bytes that the socket took, and the results not used. -/
def writePacket : OutPacket → List NetWrite →
    Option ReturnCode × OutPacket × List UInt8 × List NetWrite
  | packet, [] => (if packet.toProcess > 0 then some .success else none, packet, [], [])
  | packet, result :: results =>
      if packet.toProcess > 0 then
        match result with
        | .error error => (some (payloadCode error), packet, [], results)
        | .wrote count =>
            let writeLength := min (count + 1) packet.toProcess
            let (code, last, taken, rest) := writePacket
              { packet with
                pos := packet.pos + writeLength
                toProcess := packet.toProcess - writeLength } results
            (code, last, (packet.payload.drop packet.pos).take writeLength ++ taken, rest)
      else (none, packet, [], result :: results)

/-- The loop over the packets, the first of which is the current one. -/
def writePackets : OutPacket → List OutPacket → List NetWrite →
    ReturnCode × Outgoing × List UInt8
  | packet, queue, results =>
      match writePacket packet results with
      | (some code, packet, taken, _) => (code, ⟨some packet, queue⟩, taken)
      | (none, _, taken, results) =>
          match queue with
          | [] => (.success, {}, taken)
          | next :: queue =>
              let (code, outgoing, more) := writePackets next queue results
              (code, outgoing, taken ++ more)

def packetWrite (results : List NetWrite) (outgoing : Outgoing) :
    ReturnCode × Outgoing × List UInt8 :=
  match outgoing.currentOutPacket, outgoing.outPacket with
  | some packet, queue => writePackets packet queue results
  | none, packet :: queue => writePackets packet queue results
  | none, [] => (.success, outgoing, [])

/-! ## The bytes of the queue -/

/-- The bytes behind `pos` are those to process. -/
def OutPacket.Whole (packet : OutPacket) : Prop :=
  packet.pos + packet.toProcess = packet.payload.length

def Outgoing.packets (outgoing : Outgoing) : List OutPacket :=
  outgoing.currentOutPacket.toList ++ outgoing.outPacket

/-- The bytes that are still to be written. -/
def Outgoing.rest (outgoing : Outgoing) : List UInt8 :=
  outgoing.packets.flatMap OutPacket.rest

def Outgoing.Whole (outgoing : Outgoing) : Prop :=
  ∀ packet ∈ outgoing.packets, packet.Whole

section Writing

variable {packet last : OutPacket} {queue : List OutPacket} {results later : List NetWrite}
  {taken : List UInt8} {code : ReturnCode} {ended : Option ReturnCode} {outgoing next : Outgoing}

theorem OutPacket.Whole.rest_length (hwhole : packet.Whole) :
    packet.rest.length = packet.toProcess := by
  unfold OutPacket.Whole at hwhole
  unfold OutPacket.rest
  rw [List.length_take, List.length_drop]
  omega

/-- What the socket takes is the first part of the bytes. -/
theorem rest_of_wrote (packet : OutPacket) {count : ℕ} (hcount : count ≤ packet.toProcess) :
    (packet.payload.drop packet.pos).take count ++
        OutPacket.rest
          { packet with pos := packet.pos + count, toProcess := packet.toProcess - count } =
      packet.rest := by
  unfold OutPacket.rest
  simp only
  rw [← List.drop_drop, ← List.take_add, Nat.add_sub_cancel' hcount]

theorem writePacket_rest (hwhole : packet.Whole)
    (hwrite : writePacket packet results = (ended, last, taken, later)) :
    taken ++ last.rest = packet.rest ∧ last.Whole ∧ (ended = none → last.rest = []) := by
  have hdone : packet.toProcess = 0 → packet.rest = [] := fun hzero =>
    List.length_eq_zero_iff.mp (hwhole.rest_length.trans hzero)
  induction results generalizing packet taken with
  | nil =>
      cases hwrite
      refine ⟨rfl, hwhole, fun hended => hdone ?_⟩
      by_contra hpos
      rw [if_pos (Nat.pos_of_ne_zero hpos)] at hended
      cases hended
  | cons result results ih =>
      unfold writePacket at hwrite
      by_cases hpos : packet.toProcess > 0
      · rw [if_pos hpos] at hwrite
        cases result with
        | error error =>
            cases hwrite
            exact ⟨rfl, hwhole, fun hended => by cases hended⟩
        | wrote count =>
            simp only at hwrite
            have hle : min (count + 1) packet.toProcess ≤ packet.toProcess := Nat.min_le_right _ _
            generalize min (count + 1) packet.toProcess = writeLength at hwrite hle
            generalize hmore : writePacket _ results = more at hwrite
            obtain ⟨ended', last', taken', later'⟩ := more
            cases hwrite
            have hwhole' : OutPacket.Whole
                { packet with
                  pos := packet.pos + writeLength
                  toProcess := packet.toProcess - writeLength } := by
              unfold OutPacket.Whole at hwhole ⊢
              simp only
              omega
            obtain ⟨hrest, hlast, hend⟩ := ih hwhole' hmore fun hzero =>
              List.length_eq_zero_iff.mp (hwhole'.rest_length.trans hzero)
            refine ⟨?_, hlast, hend⟩
            rw [List.append_assoc, hrest]
            exact rest_of_wrote packet hle
      · rw [if_neg hpos] at hwrite
        cases hwrite
        exact ⟨rfl, hwhole, fun _ => hdone (Nat.eq_zero_of_not_pos hpos)⟩

theorem writePackets_rest (hwhole : ∀ other ∈ packet :: queue, other.Whole)
    (hwrite : writePackets packet queue results = (code, next, taken)) :
    taken ++ next.rest = (packet :: queue).flatMap OutPacket.rest ∧ next.Whole := by
  induction queue generalizing packet results code next taken with
  | nil =>
      unfold writePackets at hwrite
      generalize hpacket : writePacket packet results = result at hwrite
      obtain ⟨ended, last, written, later⟩ := result
      obtain ⟨hrest, hlast, hend⟩ := writePacket_rest (List.forall_mem_cons.mp hwhole).1 hpacket
      cases ended with
      | some _ =>
          cases hwrite
          refine ⟨?_, List.forall_mem_cons.mpr ⟨hlast, fun _ hmem => absurd hmem List.not_mem_nil⟩⟩
          change taken ++ [last].flatMap OutPacket.rest = _
          rw [List.flatMap_singleton, List.flatMap_singleton, hrest]
      | none =>
          cases hwrite
          refine ⟨?_, fun _ hmem => absurd hmem List.not_mem_nil⟩
          rw [hend rfl, List.append_nil] at hrest
          rw [List.flatMap_singleton, ← hrest]
          exact List.append_nil taken
  | cons second queue ih =>
      unfold writePackets at hwrite
      obtain ⟨hfirst, hothers⟩ := List.forall_mem_cons.mp hwhole
      generalize hpacket : writePacket packet results = result at hwrite
      obtain ⟨ended, last, written, later⟩ := result
      obtain ⟨hrest, hlast, hend⟩ := writePacket_rest hfirst hpacket
      cases ended with
      | some _ =>
          cases hwrite
          refine ⟨?_, List.forall_mem_cons.mpr ⟨hlast, hothers⟩⟩
          change taken ++ (last :: second :: queue).flatMap OutPacket.rest = _
          rw [List.flatMap_cons, ← List.append_assoc, hrest]
          rfl
      | none =>
          simp only at hwrite
          generalize hmore : writePackets second queue later = more at hwrite
          obtain ⟨code', next', taken'⟩ := more
          cases hwrite
          obtain ⟨hothersRest, hnext⟩ := ih hothers hmore
          rw [hend rfl, List.append_nil] at hrest
          refine ⟨?_, hnext⟩
          rw [List.append_assoc, hothersRest, hrest]
          rfl

theorem packetWrite_rest (hwhole : outgoing.Whole)
    (hwrite : packetWrite results outgoing = (code, next, taken)) :
    taken ++ next.rest = outgoing.rest ∧ next.Whole := by
  obtain ⟨current, queue⟩ := outgoing
  unfold packetWrite at hwrite
  cases current with
  | some packet => exact writePackets_rest hwhole hwrite
  | none =>
      cases queue with
      | cons packet queue => exact writePackets_rest hwhole hwrite
      | nil =>
          cases hwrite
          exact ⟨rfl, hwhole⟩

/-- The socket takes something of what it is offered. -/
def NetWrite.Takes (result : NetWrite) : Prop := ∃ count, result = .wrote count

theorem writePacket_takes (hresults : ∀ result ∈ results, result.Takes)
    (henough : packet.toProcess ≤ results.length) :
    ∃ last taken later, writePacket packet results = (none, last, taken, later) ∧
      (∀ result ∈ later, result.Takes) ∧ results.length ≤ packet.toProcess + later.length := by
  induction results generalizing packet with
  | nil =>
      have hzero : ¬packet.toProcess > 0 := Nat.not_lt.mpr henough
      refine ⟨packet, [], [], ?_, hresults, Nat.zero_le _⟩
      rw [writePacket, if_neg hzero]
  | cons result results ih =>
      obtain ⟨⟨count, rfl⟩, hmore⟩ := List.forall_mem_cons.mp hresults
      unfold writePacket
      by_cases hpos : packet.toProcess > 0
      · rw [if_pos hpos]
        simp only
        have hwritten : 0 < min (count + 1) packet.toProcess :=
          Nat.lt_min.mpr ⟨Nat.succ_pos _, hpos⟩
        generalize min (count + 1) packet.toProcess = writeLength at hwritten
        rw [List.length_cons] at henough ⊢
        have hfewer : OutPacket.toProcess
            { packet with
              pos := packet.pos + writeLength
              toProcess := packet.toProcess - writeLength } ≤ results.length := by
          simp only
          omega
        obtain ⟨last, taken, later, hwrite, hlater, hlength⟩ := ih hmore hfewer
        rw [hwrite]
        refine ⟨_, _, _, rfl, hlater, ?_⟩
        change results.length + 1 ≤ packet.toProcess + later.length
        simp only at hlength
        omega
      · rw [if_neg hpos]
        exact ⟨_, _, _, rfl, hresults, Nat.le_add_left _ _⟩

theorem rest_length_cons (packet : OutPacket) (queue : List OutPacket) :
    ((packet :: queue).flatMap OutPacket.rest).length =
      packet.rest.length + (queue.flatMap OutPacket.rest).length := by
  rw [List.flatMap_cons, List.length_append]

/-- With room for a byte at least at each of enough writes everything is written. -/
theorem writePackets_takes (hwhole : ∀ other ∈ packet :: queue, other.Whole)
    (hresults : ∀ result ∈ results, result.Takes)
    (henough : ((packet :: queue).flatMap OutPacket.rest).length ≤ results.length) :
    (writePackets packet queue results).2.1.rest = [] := by
  induction queue generalizing packet results with
  | nil =>
      rw [rest_length_cons, (List.forall_mem_cons.mp hwhole).1.rest_length] at henough
      obtain ⟨last, taken, later, hwrite, -⟩ :=
        writePacket_takes hresults (Nat.le_of_add_right_le henough)
      unfold writePackets
      rw [hwrite]
      rfl
  | cons second queue ih =>
      obtain ⟨hfirst, hothers⟩ := List.forall_mem_cons.mp hwhole
      rw [rest_length_cons, hfirst.rest_length] at henough
      obtain ⟨last, taken, later, hwrite, hlater, hlength⟩ :=
        writePacket_takes hresults (Nat.le_of_add_right_le henough)
      unfold writePackets
      rw [hwrite]
      exact ih hothers hlater (by omega)

theorem packetWrite_takes (hwhole : outgoing.Whole) (hresults : ∀ result ∈ results, result.Takes)
    (henough : outgoing.rest.length ≤ results.length) :
    (packetWrite results outgoing).2.1.rest = [] := by
  obtain ⟨current, queue⟩ := outgoing
  unfold packetWrite
  cases current with
  | some packet => exact writePackets_takes hwhole hresults henough
  | none =>
      cases queue with
      | cons packet queue => exact writePackets_takes hwhole hresults henough
      | nil => rfl

end Writing

/-! ## A client -/

/-- `sent` has the bytes that the socket of the connection took. -/
structure Client where
  connected : Bool
  outgoing : Outgoing
  sent : List UInt8
  deriving DecidableEq, Repr

/-- What happens on the client's side of the connection.  In a callback nothing is
written at once. -/
inductive ClientAction where
  | publish (topic payload : List UInt8) (inCallback : Bool) (results : List NetWrite)
  | queue (packet : List UInt8) (inCallback : Bool) (results : List NetWrite)
  | loopWrite (results : List NetWrite)
  | lose
  | reconnect

/-- The packet that the action queues on an open connection. -/
def ClientAction.packet? : ClientAction → Option (List UInt8)
  | .publish topic payload _ _ => (Mosquitto.publish topic payload).toOption
  | .queue packet _ _ => some packet
  | _ => none

namespace Client

def start : Client := ⟨false, {}, []⟩

def write (results : List NetWrite) (client : Client) : Client :=
  let (_, outgoing, taken) := packetWrite results client.outgoing
  { client with outgoing := outgoing, sent := client.sent ++ taken }

def packetQueue (packet : List UInt8) (inCallback : Bool) (results : List NetWrite)
    (client : Client) : Client :=
  let queued : Client :=
    { client with
      outgoing :=
        { client.outgoing with
          outPacket := client.outgoing.outPacket ++ [⟨packet, 0, packet.length⟩] } }
  if inCallback then queued else queued.write results

def step (client : Client) : ClientAction → Client
  | .publish topic payload inCallback results =>
      match publish topic payload with
      | .error _ => client
      | .ok packet =>
          if client.connected then client.packetQueue packet inCallback results else client
  | .queue packet inCallback results =>
      if client.connected then client.packetQueue packet inCallback results else client
  | .loopWrite results => if client.connected then client.write results else client
  | .lose => { client with connected := false }
  | .reconnect => ⟨true, {}, []⟩

def after (actions : List ClientAction) : Client := actions.foldl step start

/-- Whether the connection is open, and what was entered since it was opened. -/
def note {Entry : Type} (entry : ClientAction → Option Entry) (history : Bool × List Entry)
    (action : ClientAction) : Bool × List Entry :=
  match action with
  | .lose => (false, history.2)
  | .reconnect => (true, [])
  | _ => if history.1 then (true, history.2 ++ (entry action).toList) else history

/-- The packets queued on the connection. -/
def queued (actions : List ClientAction) : List (List UInt8) :=
  (actions.foldl (note ClientAction.packet?) (false, [])).2

/-! ## Nothing is lost or reordered on a connection -/

/-- The bytes that were sent and those still to be sent are the packets that were
queued. -/
structure InOrder (history : Bool × List (List UInt8)) (client : Client) : Prop where
  connected : client.connected = history.1
  whole : client.outgoing.Whole
  bytes : client.sent ++ client.outgoing.rest = history.2.flatten

variable {history : Bool × List (List UInt8)} {client : Client}

theorem InOrder.write (hclient : client.InOrder history) (results : List NetWrite) :
    (client.write results).InOrder history := by
  unfold Client.write
  generalize hwrite : packetWrite results client.outgoing = result
  obtain ⟨code, next, taken⟩ := result
  obtain ⟨hrest, hwhole⟩ := packetWrite_rest hclient.whole hwrite
  refine ⟨hclient.connected, hwhole, ?_⟩
  simp only
  rw [List.append_assoc, hrest, hclient.bytes]

theorem packets_append (current : Option OutPacket) (queue more : List OutPacket) :
    Outgoing.packets ⟨current, queue ++ more⟩ = Outgoing.packets ⟨current, queue⟩ ++ more :=
  (List.append_assoc ..).symm

theorem InOrder.packetQueue {packets : List (List UInt8)} (hclient : client.InOrder (true, packets))
    (packet : List UInt8) (inCallback : Bool) (results : List NetWrite) :
    (client.packetQueue packet inCallback results).InOrder (true, packets ++ [packet]) := by
  have hrest : OutPacket.rest ⟨packet, 0, packet.length⟩ = packet := List.take_length
  have hqueued : InOrder (true, packets ++ [packet])
      { client with
        outgoing :=
          { client.outgoing with
            outPacket := client.outgoing.outPacket ++ [⟨packet, 0, packet.length⟩] } } := by
    refine ⟨hclient.connected, ?_, ?_⟩
    · intro other hmem
      rw [packets_append] at hmem
      rcases List.mem_append.mp hmem with hold | hnew
      · exact hclient.whole other hold
      · rw [List.mem_singleton.mp hnew]
        exact Nat.zero_add _
    · unfold Outgoing.rest
      rw [packets_append, List.flatMap_append, List.flatMap_singleton, hrest, ← List.append_assoc,
        List.flatten_append, List.flatten_singleton]
      exact congrArg (· ++ packet) hclient.bytes
  unfold Client.packetQueue
  simp only
  split
  · exact hqueued
  · exact hqueued.write results

theorem InOrder.step (hclient : client.InOrder history) (action : ClientAction) :
    (client.step action).InOrder (note ClientAction.packet? history action) := by
  obtain ⟨connected, packets⟩ := history
  have hconnected : client.connected = connected := hclient.connected
  cases action with
  | lose => exact ⟨rfl, hclient.whole, hclient.bytes⟩
  | reconnect => exact ⟨rfl, fun _ hmem => absurd hmem List.not_mem_nil, rfl⟩
  | loopWrite results =>
      unfold Client.step note
      simp only [hconnected]
      cases connected with
      | false => exact hclient
      | true =>
          change (client.write results).InOrder (true, packets ++ [])
          rw [List.append_nil]
          exact hclient.write results
  | queue packet inCallback results =>
      unfold Client.step note
      simp only [hconnected]
      cases connected with
      | false => exact hclient
      | true => exact hclient.packetQueue packet inCallback results
  | publish topic payload inCallback results =>
      unfold Client.step note ClientAction.packet?
      simp only [hconnected]
      cases Mosquitto.publish topic payload with
      | error code =>
          cases connected with
          | false => exact hclient
          | true =>
              change client.InOrder (true, packets ++ [])
              rw [List.append_nil]
              exact hclient
      | ok packet =>
          cases connected with
          | false => exact hclient
          | true => exact hclient.packetQueue packet inCallback results

theorem inOrder_after (actions : List ClientAction) :
    (after actions).InOrder (actions.foldl (note ClientAction.packet?) (false, [])) := by
  induction actions using List.reverseRecOn with
  | nil => exact ⟨rfl, fun _ hmem => absurd hmem List.not_mem_nil, rfl⟩
  | append_singleton actions action ih =>
      unfold after
      rw [List.foldl_concat, List.foldl_concat]
      exact ih.step action

/-- Whatever the socket takes at each write, the bytes sent on a connection are the
first ones of the packets queued on it; and all of them when it takes something often
enough. -/
theorem sent_in_order (actions : List ClientAction) :
    (after actions).sent <+: (queued actions).flatten ∧
      ∀ results, (after actions).connected = true → (∀ result ∈ results, result.Takes) →
        (queued actions).flatten.length ≤ (after actions).sent.length + results.length →
          (after (actions ++ [.loopWrite results])).sent = (queued actions).flatten := by
  have hactions := inOrder_after actions
  refine ⟨⟨_, hactions.bytes⟩, ?_⟩
  intro results hconnected hresults henough
  have hrest : (after actions).outgoing.rest.length ≤ results.length := by
    have hlength := congrArg List.length hactions.bytes
    rw [List.length_append] at hlength
    unfold queued at henough
    omega
  have hafter : after (actions ++ [.loopWrite results]) = (after actions).write results := by
    unfold after at hconnected ⊢
    rw [List.foldl_concat, Client.step, if_pos hconnected]
  have hbytes := (hactions.write results).bytes
  have hdone : ((after actions).write results).outgoing.rest = [] :=
    packetWrite_takes hactions.whole hresults hrest
  rw [hdone, List.append_nil] at hbytes
  rw [hafter]
  exact hbytes

end Client

end Mosquitto

end IotGateway
