import IotGateway.Library.Numerals
import IotGateway.MessageDelivery
import IotGateway.PublishedTopics
import IotGateway.Replies

/-!
# Delivery of publications

Each publication of the gateway manager is a call of `mosquitto_publish`.  The library
accepts it, and the messages reach the broker in the order of the calls.
-/

namespace IotGateway

open Mosquitto Runs

namespace Mosquitto

/-- The topic and the payload of a call of `mosquitto_publish`. -/
def ClientAction.call? : ClientAction → Option (List UInt8 × List UInt8)
  | .publish topic payload _ _ => some (topic, payload)
  | _ => none

/-- The connection is neither lost nor opened anew. -/
def StaysOpen (actions : List ClientAction) : Prop :=
  ∀ action ∈ actions, action ≠ .lose ∧ action ≠ .reconnect

namespace Client

variable {actions : List ClientAction} {action : ClientAction}

theorem note_of_open (connected : Bool) (messages : List Publish) (hlose : action ≠ .lose)
    (hreconnect : action ≠ .reconnect) :
    note ClientAction.publication? (connected, messages) action =
      if connected then (true, messages ++ action.publication?.toList)
      else (connected, messages) := by
  cases action with
  | lose => exact absurd rfl hlose
  | reconnect => exact absurd rfl hreconnect
  | _ => rfl

theorem filterMap_publication_concat (actions : List ClientAction) (action : ClientAction) :
    (actions ++ [action]).filterMap ClientAction.publication? =
      actions.filterMap ClientAction.publication? ++ action.publication?.toList := by
  rw [List.filterMap_append]
  congr 1

/-- The messages of a connection are a part of those of all calls, and the last ones while
the connection is open. -/
theorem published_part (actions : List ClientAction) :
    published actions <:+: actions.filterMap ClientAction.publication? ∧
      ((actions.foldl (note ClientAction.publication?) (false, [])).1 = true →
        published actions <:+ actions.filterMap ClientAction.publication?) := by
  unfold published
  induction actions using List.reverseRecOn with
  | nil => exact ⟨List.infix_rfl, fun hopen => by cases hopen⟩
  | append_singleton actions action ih =>
      rw [List.foldl_concat, filterMap_publication_concat]
      generalize actions.foldl (note ClientAction.publication?) (false, []) = history at ih
      obtain ⟨connected, messages⟩ := history
      obtain ⟨hpart, hsuffix⟩ := ih
      have hkept : messages <:+: actions.filterMap ClientAction.publication? ++
          action.publication?.toList := hpart.trans (List.prefix_append _ _).isInfix
      by_cases hlose : action = .lose
      · subst hlose
        exact ⟨hkept, fun hopen => by cases hopen⟩
      · by_cases hreconnect : action = .reconnect
        · subst hreconnect
          have hnothing : [] <:+ actions.filterMap ClientAction.publication? ++ [] :=
            List.nil_suffix
          exact ⟨hnothing.isInfix, fun _ => hnothing⟩
        · rw [note_of_open connected messages hlose hreconnect]
          cases connected with
          | false => exact ⟨hkept, fun hopen => by cases hopen⟩
          | true =>
              obtain ⟨front, hfront⟩ := hsuffix rfl
              have happended : messages ++ action.publication?.toList <:+
                  actions.filterMap ClientAction.publication? ++ action.publication?.toList :=
                ⟨front, by rw [← List.append_assoc, hfront]⟩
              exact ⟨happended.isInfix, fun _ => happended⟩

theorem foldl_note_of_open (messages : List Publish) (hopen : StaysOpen actions) :
    actions.foldl (note ClientAction.publication?) (true, messages) =
      (true, messages ++ actions.filterMap ClientAction.publication?) := by
  induction actions using List.reverseRecOn with
  | nil => exact congrArg (true, ·) (List.append_nil messages).symm
  | append_singleton actions action ih =>
      obtain ⟨hlose, hreconnect⟩ :=
        hopen action (List.mem_append_right _ (List.mem_singleton.mpr rfl))
      have hbefore : StaysOpen actions := fun other hmem =>
        hopen other (List.mem_append_left _ hmem)
      rw [List.foldl_concat, ih hbefore, note_of_open _ _ hlose hreconnect, if_pos rfl,
        filterMap_publication_concat, List.append_assoc]

theorem published_of_open (hopen : StaysOpen actions) :
    published (.reconnect :: actions) = actions.filterMap ClientAction.publication? := by
  unfold published
  rw [List.foldl_cons]
  exact congrArg Prod.snd (foldl_note_of_open [] hopen)

end Client

end Mosquitto

namespace MainLoop

variable {parse : Parser} {build : Build} {print : Payload → List UInt8}
  {actions : List Action} {last : MainLoop} {board : MasterBoard} {publication : Publication}
  {published : List Publication} {clientActions : List ClientAction} {arrivals : List Arrival}

/-- Everything that has been published, in order. -/
def publications (state : MainLoop) : List Publication :=
  state.observed.flatMap Observation.published

theorem publications_concat (state : MainLoop) (observation : Observation) :
    (state.observed ++ [observation]).flatMap Observation.published =
      state.publications ++ observation.published := by
  rw [List.flatMap_append, List.flatMap_singleton]
  rfl

theorem sound_of_run (hmaster : board.masterId < 10 ^ 10)
    (hrun : run (step parse build) actions (start board) = some last) :
    Sound last.publications := by
  suffices hinvariant : last.board.masterId < 10 ^ 10 ∧ Sound last.publications from hinvariant.2
  apply @invariant_run_of_step MainLoop Action (step parse build)
    (fun state => state.board.masterId < 10 ^ 10 ∧ Sound state.publications) (start board) last
    actions _ _ hrun
  · exact ⟨hmaster, sound_nil⟩
  · intro action state next hstate hstep
    obtain ⟨hid, hsound⟩ := hstate
    refine ⟨(step_masterId hstep).symm ▸ hid, ?_⟩
    cases effect_of_step hstep with
    | polling hpending =>
        unfold publications
        rw [publications_concat]
        exact hsound.append sound_polling
    | listeningMaster hpending hlistened =>
        unfold publications
        rw [publications_concat]
        exact hsound.append (sound_listeningMaster hid hlistened)
    | _ => exact hsound

/-- In every run the client library accepts each publication, unless its payload is too
long for a packet. -/
theorem publications_accepted (hmaster : board.masterId < 10 ^ 10)
    (hrun : run (step parse build) actions (start board) = some last) :
    ∀ publication ∈ last.publications, ∀ payload : List UInt8,
      (∃ bytes, Mosquitto.publish (literal publication.topic) payload = .ok bytes) ↔
        2 + publication.topic.toList.length + payload.length < 128 ^ 4 :=
  fun publication hmem _ => (sound_of_run hmaster hrun publication hmem).publish_eq_ok_iff

theorem publications_accepted_twoPolls :
    ∃ last, run (step (fun _ => .ok none) .release) twoPolls
        (start (boardAnswering [.frame pollAnswer])) = some last ∧
      last.publications.map Publication.topic = ["master/1/polling", "master/1/polling"] ∧
      ∀ publication ∈ last.publications, ∀ payload : List UInt8,
        (∃ bytes, Mosquitto.publish (literal publication.topic) payload = .ok bytes) ↔
          2 + publication.topic.toList.length + payload.length < 128 ^ 4 := by
  have hresult : (run (step (fun _ => .ok none) .release) twoPolls
      (start (boardAnswering [.frame pollAnswer]))).map
        (fun last => last.publications.map Publication.topic) =
      some ["master/1/polling", "master/1/polling"] := by
    decide +kernel
  obtain ⟨last, hrun, hlast⟩ := Option.map_eq_some_iff.mp hresult
  exact ⟨last, hrun, hlast, publications_accepted (by decide) hrun⟩

/-- The message of a publication. -/
def messageOf (print : Payload → List UInt8) (publication : Publication) : Publish :=
  atMostOnce (literal publication.topic) (print publication.payload)

/-- The payload is not too long for a packet. -/
def Fits (print : Payload → List UInt8) (publication : Publication) : Prop :=
  2 + publication.topic.toList.length + (print publication.payload).length < 128 ^ 4

theorem sentMessage_of_fits (htopic : Publishable publication.topic)
    (hfits : Fits print publication) :
    sentMessage (literal publication.topic) (print publication.payload) =
      some (messageOf print publication) := by
  obtain ⟨bytes, hbytes⟩ := htopic.publish_eq_ok_iff.mpr hfits
  unfold sentMessage
  rw [hbytes, htopic.cString_literal]
  rfl

theorem publication_eq_bind (action : ClientAction) :
    action.publication? = action.call?.bind fun call => sentMessage call.1 call.2 := by
  cases action <;> rfl

/-- The calls for the publications send their messages. -/
theorem filterMap_publication (hsound : Sound published)
    (hfits : ∀ publication ∈ published, Fits print publication)
    (hcalls : clientActions.filterMap ClientAction.call? =
      published.map fun publication => (literal publication.topic, print publication.payload)) :
    clientActions.filterMap ClientAction.publication? = published.map (messageOf print) := by
  have hcomposed : clientActions.filterMap ClientAction.publication? =
      (clientActions.filterMap ClientAction.call?).filterMap fun call =>
        sentMessage call.1 call.2 := by
    rw [List.filterMap_filterMap]
    exact List.filterMap_congr fun action _ => publication_eq_bind action
  rw [hcomposed, hcalls, List.filterMap_map, ← List.filterMap_eq_map]
  exact List.filterMap_congr fun publication hmem =>
    sentMessage_of_fits (hsound publication hmem) (hfits publication hmem)

/-- What the broker reads on the connection of the gateway is a part of what has been
published, in order and each message once.  It is all of it if the connection was opened
at first and has stayed open, all bytes have arrived with no errors but EAGAIN and EINTR,
the packets are handled with success, and there are calls enough. -/
theorem publications_delivered (handle : Packet → ReturnCode) (calls : ℕ)
    (hmaster : board.masterId < 10 ^ 10)
    (hrun : run (step parse build) actions (start board) = some last)
    (hfits : ∀ publication ∈ last.publications, Fits print publication)
    (hcalls : clientActions.filterMap ClientAction.call? = last.publications.map
      fun publication => (literal publication.topic, print publication.payload))
    (hcontrol : Client.ControlsOnly clientActions)
    (harrived : received arrivals <+: (Client.after clientActions).sent) :
    (packetReads handle calls ⟨{}, arrivals⟩).1.filterMap Packet.publish? <:+:
        last.publications.map (messageOf print) ∧
      (∀ more, clientActions = .reconnect :: more → StaysOpen more →
        received arrivals = (Client.queued clientActions).flatten →
          (∀ error ∈ errors arrivals, error.Transient) → (∀ packet, handle packet = .success) →
            (Client.queued clientActions).length + (errors arrivals).length ≤ calls →
              (packetReads handle calls ⟨{}, arrivals⟩).1.filterMap Packet.publish? =
                last.publications.map (messageOf print)) := by
  have hmessages := filterMap_publication (sound_of_run hmaster hrun) hfits hcalls
  rw [← hmessages]
  constructor
  · exact (Client.first_received hcontrol harrived).isInfix.trans
      (Client.published_part clientActions).1
  · rintro more rfl hopen hall htransient hhandle hcount
    rw [Client.all_received hcontrol hall htransient hhandle hcount,
      Client.published_of_open hopen]
    rfl

def printNumber : Payload → List UInt8
  | .number value => Numerals.numeral value
  | _ => []

/-- The two answers of the board, with a socket that takes the first packet in two parts. -/
def pollingActions : List ClientAction :=
  [.reconnect,
    .publish (literal "master/1/polling") (literal "128") false [.wrote 6, .error .again],
    .publish (literal "master/1/polling") (literal "128") false [.wrote 50, .wrote 50]]

def pollingArrivals : List Arrival :=
  unread ((Client.after pollingActions).sent.take 9)
    (.error .again :: unread ((Client.after pollingActions).sent.drop 9) [])

theorem publications_delivered_twoPolls :
    ∃ last, run (step (fun _ => .ok none) .release) twoPolls
        (start (boardAnswering [.frame pollAnswer])) = some last ∧
      last.publications.length = 2 ∧
      (packetReads (fun _ => .success) 3 ⟨{}, pollingArrivals⟩).1.filterMap Packet.publish? =
        last.publications.map (messageOf printNumber) := by
  have hresult : (run (step (fun _ => .ok none) .release) twoPolls
      (start (boardAnswering [.frame pollAnswer]))).map publications =
      some [⟨"master/1/polling", .number 128⟩, ⟨"master/1/polling", .number 128⟩] := by
    decide +kernel
  obtain ⟨last, hrun, hlast⟩ := Option.map_eq_some_iff.mp hresult
  have hreceived : received pollingArrivals = (Client.after pollingActions).sent :=
    received_unread_pause 9 .again (Client.after pollingActions).sent
  have hfits : ∀ publication ∈ last.publications, Fits printNumber publication := by
    rw [hlast]
    unfold Fits
    decide +kernel
  have hcalls : pollingActions.filterMap ClientAction.call? = last.publications.map
      fun publication => (literal publication.topic, printNumber publication.payload) := by
    rw [hlast]
    decide +kernel
  have hcontrol : Client.ControlsOnly pollingActions := by
    intro packet inCallback results hmem
    simp [pollingActions] at hmem
  have harrived : received pollingArrivals <+: (Client.after pollingActions).sent := by
    exact ⟨[], by rw [List.append_nil, hreceived]⟩
  have hdelivered := publications_delivered (fun _ => .success) 3 (by decide) hrun hfits hcalls
    hcontrol harrived
  have herrors : errors pollingArrivals = [.again] := by decide +kernel
  refine ⟨last, hrun, hlast ▸ rfl, hdelivered.2 _ rfl ?_ ?_ ?_ (fun _ => rfl) ?_⟩
  · intro action hmem
    rcases List.mem_pair.mp hmem with rfl | rfl
    · exact ⟨ClientAction.noConfusion, ClientAction.noConfusion⟩
    · exact ⟨ClientAction.noConfusion, ClientAction.noConfusion⟩
  · rw [hreceived]
    decide +kernel
  · intro error hmem
    rw [herrors] at hmem
    exact .inl (List.mem_singleton.mp hmem)
  · decide +kernel

end MainLoop

end IotGateway
