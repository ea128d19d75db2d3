import IotGateway.PacketWriting

/-!
# Delivery of messages over a connection

One end of a connection queues the packets of messages, and other packets between
them.  The other end reads packets from the bytes that arrive.  The messages arrive
in order and each once, in whatever pieces the sockets take and hand over the bytes.
-/

namespace IotGateway

namespace Mosquitto

/-- The message that `handle__publish` finds in the packet. -/
def Packet.publish? (packet : Packet) : Option Publish :=
  if packet.command &&& 0xF0 = cmdPublish then (handlePublish packet).toOption else none

/-- The bytes of a packet that carries no message. -/
def Control (bytes : List UInt8) : Prop :=
  ∃ packet, Encodes packet bytes ∧ packet.command &&& 0xF0 ≠ cmdPublish

/-- The packets that are queued for messages, with other packets between them. -/
inductive Sent : List Publish → List (List UInt8) → Prop where
  | nil : Sent [] []
  | publish {publish : Publish} {messages : List Publish} {bytes : List UInt8}
      {packets : List (List UInt8)} (hcarried : publish.Carried)
      (hbytes : realPublish publish = .ok bytes) (hmore : Sent messages packets) :
      Sent (publish :: messages) (bytes :: packets)
  | control {messages : List Publish} {bytes : List UInt8} {packets : List (List UInt8)}
      (hcontrol : Control bytes) (hmore : Sent messages packets) :
      Sent messages (bytes :: packets)

variable {messages : List Publish} {sent : List (List UInt8)} {arrivals : List Arrival}

theorem Sent.append {others : List Publish} {more : List (List UInt8)}
    (hsent : Sent messages sent) (hmore : Sent others more) :
    Sent (messages ++ others) (sent ++ more) := by
  induction hsent with
  | nil => exact hmore
  | publish hcarried hbytes _ ih => exact .publish hcarried hbytes ih
  | control hcontrol _ ih => exact .control hcontrol ih

/-- The bytes are read as packets that carry the messages. -/
theorem Sent.streams (hsent : Sent messages sent) :
    ∃ packets, Streams packets sent.flatten ∧ packets.filterMap Packet.publish? = messages ∧
      packets.length = sent.length := by
  induction hsent with
  | nil => exact ⟨[], .nil, rfl, rfl⟩
  | @publish publish _ _ _ hcarried hbytes _ ih =>
      obtain ⟨packets, hstreams, hmessages, hlength⟩ := ih
      obtain ⟨packet, hencodes, hcommand, hhandled⟩ := exists_packet_of_realPublish hcarried hbytes
      have hpublish : packet.publish? = some publish := by
        unfold Packet.publish?
        rw [if_pos hcommand, hhandled]
        rfl
      refine ⟨packet :: packets, .cons hencodes hstreams, ?_, congrArg (· + 1) hlength⟩
      rw [List.filterMap_cons_some hpublish, hmessages]
  | control hcontrol _ ih =>
      obtain ⟨packets, hstreams, hmessages, hlength⟩ := ih
      obtain ⟨packet, hencodes, hcommand⟩ := hcontrol
      have hpublish : packet.publish? = none := if_neg hcommand
      refine ⟨packet :: packets, .cons hencodes hstreams, ?_, congrArg (· + 1) hlength⟩
      rw [List.filterMap_cons_none hpublish, hmessages]

/-! ## Messages that a client publishes -/

/-- The message that is sent for a call of `mosquitto_publish`, if the call succeeds. -/
def sentMessage (topic payload : List UInt8) : Option Publish :=
  (Mosquitto.publish topic payload).toOption.map fun _ => atMostOnce (cString topic) payload

def ClientAction.publication? : ClientAction → Option Publish
  | .publish topic payload _ _ => sentMessage topic payload
  | _ => none

namespace Client

/-- The messages published on the connection. -/
def published (actions : List ClientAction) : List Publish :=
  (actions.foldl (note ClientAction.publication?) (false, [])).2

/-- Apart from messages only other packets are queued. -/
def ControlsOnly (actions : List ClientAction) : Prop :=
  ∀ packet inCallback results, .queue packet inCallback results ∈ actions → Control packet

/-- The messages and the packets entered so far belong together. -/
structure Matched (publications : Bool × List Publish) (packets : Bool × List (List UInt8)) :
    Prop where
  connected : publications.1 = packets.1
  sent : Sent publications.2 packets.2

variable {publications : Bool × List Publish} {packets : Bool × List (List UInt8)}
  {action : ClientAction} {actions : List ClientAction}

theorem sent_of_action (hcontrol : ControlsOnly [action]) :
    Sent action.publication?.toList action.packet?.toList := by
  cases action with
  | publish topic payload inCallback results =>
      change Sent ((Mosquitto.publish topic payload).toOption.map _).toList
        (Mosquitto.publish topic payload).toOption.toList
      generalize hpublish : Mosquitto.publish topic payload = result
      cases result with
      | error code => exact .nil
      | ok bytes =>
          obtain ⟨hcarried, -, -, hbytes⟩ := publish_eq_ok_iff.mp hpublish
          exact .publish hcarried hbytes .nil
  | queue packet inCallback results =>
      exact .control (hcontrol packet inCallback results (List.mem_singleton.mpr rfl)) .nil
  | loopWrite results => exact .nil
  | lose => exact .nil
  | reconnect => exact .nil

theorem Matched.note (hmatched : Matched publications packets)
    (hcontrol : ControlsOnly [action]) :
    Matched (note ClientAction.publication? publications action)
      (note ClientAction.packet? packets action) := by
  obtain ⟨connected, messages⟩ := publications
  obtain ⟨_, sent⟩ := packets
  obtain ⟨rfl, hsent⟩ := hmatched
  have haction := sent_of_action hcontrol
  have hentered : Matched (if connected then (true, messages ++ action.publication?.toList)
      else (connected, messages)) (if connected then (true, sent ++ action.packet?.toList)
        else (connected, sent)) := by
    cases connected with
    | false => exact ⟨rfl, hsent⟩
    | true => exact ⟨rfl, hsent.append haction⟩
  cases action with
  | lose => exact ⟨rfl, hsent⟩
  | reconnect => exact ⟨rfl, .nil⟩
  | publish topic payload inCallback results => exact hentered
  | queue packet inCallback results => exact hentered
  | loopWrite results => exact hentered

theorem sent_queued (hcontrol : ControlsOnly actions) :
    Sent (published actions) (queued actions) := by
  suffices hmatched : Matched (actions.foldl (Client.note ClientAction.publication?) (false, []))
      (actions.foldl (Client.note ClientAction.packet?) (false, [])) from hmatched.sent
  induction actions using List.reverseRecOn with
  | nil => exact ⟨rfl, .nil⟩
  | append_singleton actions action ih =>
      rw [List.foldl_concat, List.foldl_concat]
      refine (ih fun packet inCallback results hmem => ?_).note
        fun packet inCallback results hmem => ?_
      · exact hcontrol packet inCallback results (List.mem_append_left _ hmem)
      · exact hcontrol packet inCallback results (List.mem_append_right _ hmem)

variable {handle : Packet → ReturnCode} {calls : ℕ}

theorem first_received (hcontrol : ControlsOnly actions)
    (harrived : received arrivals <+: (after actions).sent) :
    (packetReads handle calls ⟨{}, arrivals⟩).1.filterMap Packet.publish? <+:
      published actions := by
  obtain ⟨packets, hstreams, hmessages, -⟩ := (sent_queued hcontrol).streams
  have hqueued : (after actions).sent <+: (queued actions).flatten :=
    ⟨_, (inOrder_after actions).bytes⟩
  obtain ⟨missing, hmissing⟩ := harrived.trans hqueued
  rw [← hmissing] at hstreams
  rw [← hmessages]
  exact (packetReads_first hstreams.awaiting).filterMap _

theorem all_received (hcontrol : ControlsOnly actions)
    (hall : received arrivals = (queued actions).flatten)
    (htransient : ∀ error ∈ errors arrivals, error.Transient)
    (hhandle : ∀ packet, handle packet = .success)
    (hcalls : (queued actions).length + (errors arrivals).length ≤ calls) :
    (packetReads handle calls ⟨{}, arrivals⟩).1.filterMap Packet.publish? = published actions := by
  obtain ⟨packets, hstreams, hmessages, hlength⟩ := (sent_queued hcontrol).streams
  rw [← hall, ← List.append_nil (received arrivals)] at hstreams
  rw [← hlength] at hcalls
  rw [packetReads_all hstreams.awaiting htransient (fun packet _ => hhandle packet) hcalls,
    hmessages]

/-- What the other end of the connection makes of the bytes that have arrived: the
first ones of the messages published on the connection, in order and each once; and
all of them when all bytes have arrived with no errors but EAGAIN and EINTR, the packets
are handled with success and `packet__read` is called often enough. -/
theorem publications_received (handle : Packet → ReturnCode) (calls : ℕ)
    (hcontrol : ControlsOnly actions) (harrived : received arrivals <+: (after actions).sent) :
    (packetReads handle calls ⟨{}, arrivals⟩).1.filterMap Packet.publish? <+:
        published actions ∧
      (received arrivals = (queued actions).flatten →
        (∀ error ∈ errors arrivals, error.Transient) → (∀ packet, handle packet = .success) →
          (queued actions).length + (errors arrivals).length ≤ calls →
            (packetReads handle calls ⟨{}, arrivals⟩).1.filterMap Packet.publish? =
              published actions) := by
  constructor
  · exact first_received hcontrol harrived
  · intro hall htransient hhandle hcalls
    exact all_received hcontrol hall htransient hhandle hcalls

/-- A message that the socket takes in two parts, and a PINGREQ. -/
def exchange : List ClientAction :=
  [.reconnect, .publish (literal "a") (literal "1") false [.wrote 2, .error .again],
    .queue [0xC0, 0x00] true [], .loopWrite [.wrote 9, .wrote 9]]

def exchanged : List Arrival :=
  [.data 0x30 [0x04], .error .again, .data 0x00 [0x01, 0x61, 0x31, 0xC0, 0x00]]

theorem publications_received_exchange :
    (packetReads (fun _ => .success) 3 ⟨{}, exchanged⟩).1.filterMap Packet.publish? =
        published exchange ∧
      published exchange = [⟨false, 0, false, [0x61], 0, [0x31]⟩] := by
  have hcontrol : ControlsOnly exchange := by
    intro packet inCallback results hmem
    have hpacket : packet = [0xC0, 0x00] := by
      simp [exchange] at hmem
      exact hmem.1
    exact ⟨⟨0xC0, []⟩,
      hpacket ▸ @Encodes.packet ⟨_, _⟩ [0x00] (by decide) (.last rfl) (by decide) rfl, by decide⟩
  refine ⟨(publications_received (fun _ => .success) 3 hcontrol ?_).2 ?_ ?_ (fun _ => rfl) ?_, ?_⟩
  · decide +kernel
  · decide +kernel
  · intro error hmem
    exact .inl (List.mem_singleton.mp hmem)
  · decide +kernel
  · decide +kernel

end Client

end Mosquitto

end IotGateway
