import IotGateway.Provenance
import IotGateway.TopicFilters
import IotGateway.WrittenFrames

/-!
# The gateway on the broker

The broker delivers a message to the gateway when its topic matches one of the
filters that `SubscribeTopics` subscribes to.  These filters contain no
wildcards, and none of them is a topic that the gateway publishes on.
-/

namespace IotGateway

open GatewayManager Levels Mosquitto MqttManager MqttTopic Runs

namespace MqttTopic

def temperatureTopic (masterId : ℕ) : String :=
  kMasterTopic ++ toString masterId ++ "/temperature"

def waterPumpTopic (masterId : ℕ) : String := kMasterTopic ++ toString masterId ++ "/water"

def ledTopic (masterId : ℕ) : String := kMasterTopic ++ toString masterId ++ "/led"

def fanTopic (masterId : ℕ) : String := kMasterTopic ++ toString masterId ++ "/fan"

def readMasterMemoryTopic (masterId : ℕ) : String :=
  kMasterTopic ++ toString masterId ++ "/read"

def writeMasterMemoryTopic (masterId : ℕ) : String :=
  kMasterTopic ++ toString masterId ++ "/write"

def kTestRawPacket : String := "test-raw-packet"

end MqttTopic

namespace MqttManager

/-- The filters that the gateway subscribes to when it has connected. -/
def subscribeTopics (masterId : ℕ) : List String :=
  [temperatureTopic masterId, waterPumpTopic masterId, ledTopic masterId, fanTopic masterId,
    readMasterMemoryTopic masterId, writeMasterMemoryTopic masterId, kTestRawPacket,
    "test/topic"]

def onDisconnect : List Publication := [⟨"dis/1", .text "disconnect"⟩]

/-- What the broker publishes when the connection to the gateway is lost. -/
def lastWill : Publication := ⟨"lwt/1", .text "hello, LWT"⟩

end MqttManager

/-- The topics of all publications of the gateway. -/
inductive GatewayTopic : String → Prop where
  | notice {topic : String} (hnotice : Notice topic) : GatewayTopic topic
  | slave (masterId slaveId : ℕ) (message : SlaveMessage) :
      GatewayTopic (slaveTopic masterId slaveId message.suffix)
  | disconnect : GatewayTopic "dis/1"
  | lastWill : GatewayTopic "lwt/1"

/-! ## Topics and filters -/

/-- The first and the third level of the topics of the gateway. -/
theorem GatewayTopic.levels_mem {topic : String} (htopic : GatewayTopic topic) :
    (levels topic)[0]? ∈ [some "master".toList, some "test-res-packet".toList,
      some "dis".toList, some "lwt".toList] ∧
    (levels topic)[2]? ∈ [none, some "slave".toList, some "assert".toList,
      some "error".toList, some "polling".toList] := by
  cases htopic with
  | notice hnotice =>
      cases hnotice with
      | assert name =>
          rw [assertTopic_eq, levels_masterTopic, levels_cons rfl (by decide)]
          simp
      | error => decide
      | polling => decide
      | pollingError => decide
      | testResponsePacket => decide
  | slave masterId slaveId message =>
      rw [levels_slaveTopic]
      simp
  | disconnect => decide
  | lastWill => decide

theorem append_eq_masterTopic (masterId : ℕ) (word : String) :
    kMasterTopic ++ toString masterId ++ ("/" ++ word) = masterTopic masterId word := by
  rw [← String.append_assoc]
  rfl

theorem exists_of_mem_subscribeTopics {masterId : ℕ} {filter : String}
    (hmem : filter ∈ subscribeTopics masterId) :
    (∃ word ∈ ["temperature", "water", "led", "fan", "read", "write"],
      filter = masterTopic masterId word) ∨
    filter ∈ [kTestRawPacket, "test/topic"] := by
  unfold subscribeTopics at hmem
  rw [List.mem_cons, List.mem_cons, List.mem_cons, List.mem_cons, List.mem_cons,
    List.mem_cons] at hmem
  rcases hmem with rfl | rfl | rfl | rfl | rfl | rfl | hmem
  · exact .inl ⟨"temperature", by simp, append_eq_masterTopic masterId "temperature"⟩
  · exact .inl ⟨"water", by simp, append_eq_masterTopic masterId "water"⟩
  · exact .inl ⟨"led", by simp, append_eq_masterTopic masterId "led"⟩
  · exact .inl ⟨"fan", by simp, append_eq_masterTopic masterId "fan"⟩
  · exact .inl ⟨"read", by simp, append_eq_masterTopic masterId "read"⟩
  · exact .inl ⟨"write", by simp, append_eq_masterTopic masterId "write"⟩
  · exact .inr hmem

theorem plain_toString (number : ℕ) : Plain (toString number).toList := by
  intro character hmem
  by_contra hwildcard
  have hdigit : character.isDigit = false := by
    unfold isWildcard at hwildcard
    simp only [Bool.not_eq_false, Bool.or_eq_true, decide_eq_true_eq] at hwildcard
    rcases hwildcard with rfl | rfl <;> decide
  exact notMem_toString hdigit number hmem

theorem plain_masterTopic (masterId : ℕ) {word : String} (hword : Plain word.toList) :
    Plain (masterTopic masterId word).toList := by
  unfold masterTopic
  simp only [String.toList_append]
  have hmaster : Plain "master/".toList := by simp [Plain, isWildcard]
  have hslash : Plain "/".toList := by simp [Plain, isWildcard]
  exact ((hmaster.append (plain_toString masterId)).append hslash).append hword

theorem plain_of_mem_subscribeTopics {masterId : ℕ} {filter : String}
    (hmem : filter ∈ subscribeTopics masterId) : Plain filter.toList := by
  have hwords : ∀ word ∈ ["temperature", "water", "led", "fan", "read", "write"],
      Plain word.toList := by simp [Plain, isWildcard]
  have htests : ∀ test ∈ [kTestRawPacket, "test/topic"], Plain test.toList := by
    simp [Plain, isWildcard, kTestRawPacket]
  rcases exists_of_mem_subscribeTopics hmem with ⟨word, hword, rfl⟩ | htest
  · exact plain_masterTopic masterId (hwords word hword)
  · exact htests filter htest

/-- The words below the master differ from those of the filters, and the other
filters begin differently. -/
theorem GatewayTopic.notMem_subscribeTopics {topic : String} (htopic : GatewayTopic topic)
    (masterId : ℕ) : topic ∉ subscribeTopics masterId := by
  intro hmem
  rcases exists_of_mem_subscribeTopics hmem with ⟨word, hword, rfl⟩ | htest
  · have hwords : ∀ word ∈ ["temperature", "water", "led", "fan", "read", "write"],
        (levels word)[0]? ∉ [none, some "slave".toList, some "assert".toList,
          some "error".toList, some "polling".toList] := by decide
    have hthird := htopic.levels_mem.2
    rw [levels_masterTopic] at hthird
    exact hwords word hword hthird
  · have htests : ∀ test ∈ [kTestRawPacket, "test/topic"],
        (levels test)[0]? ∉ [some "master".toList, some "test-res-packet".toList,
          some "dis".toList, some "lwt".toList] := by decide
    exact htests topic htest htopic.levels_mem.1

theorem GatewayTopic.not_matched {topic : String} (htopic : GatewayTopic topic)
    {masterId : ℕ} {filter : String} (hmem : filter ∈ subscribeTopics masterId) :
    topicMatchesSub filter topic ≠ .ok true := by
  intro hmatches
  have heq := ((topicMatchesSub_eq_ok_true_iff (plain_of_mem_subscribeTopics hmem)).mp hmatches).1
  rw [heq] at hmem
  exact htopic.notMem_subscribeTopics masterId hmem

/-! ## Publications of the gateway -/

/-- What the gateway publishes in a step. -/
def Action.published (action : Action) (board : MasterBoard) : List Publication :=
  match action with
  | .polling => (GatewayManager.polling board).published
  | .listeningMaster build =>
      match GatewayManager.listeningMaster build board with
      | .error _ => []
      | .ok listened => listened.published
  | _ => []

theorem Action.gatewayTopic_of_mem_published
    {action : Action} {board : MasterBoard} {publication : Publication}
    (hmem : publication ∈ action.published board) : GatewayTopic publication.topic := by
  unfold Action.published at hmem
  split at hmem
  next => exact .notice (notice_of_mem_polling hmem)
  next build =>
    split at hmem
    next => cases hmem
    next listened hlistened =>
      obtain ⟨packet, _, hsourced⟩ := sourced_of_mem_listeningMaster hlistened hmem
      cases hsourced with
      | notice hnotice => exact .notice hnotice
      | slave hreports htopic =>
          rw [htopic]
          exact .slave _ _ _
  next => cases hmem

/-! ## Messages on the broker -/

inductive Origin where
  | gateway
  | other
  deriving DecidableEq, Repr

/-- A message on the broker.  One without a payload reaches a client with a null
pointer. -/
structure Post where
  origin : Origin
  topic : String
  payload : List UInt8
  deriving DecidableEq

def Post.message (post : Post) : Message where
  topic := literal post.topic
  payload := if post.payload = [] then none else some post.payload

structure Network where
  system : System
  posts : List Post
  delivered : List Post

inductive Event where
  | gateway (action : Action)
  | disconnect
  | lastWill
  | other (topic : String) (payload : List UInt8)
  | deliver (post : Post)

namespace Network

def start (board : MasterBoard) : Network := ⟨System.initial board, [], []⟩

section Step

variable (parse : Parser) (print : Payload → List UInt8) (masterId : ℕ)

def publish (publications : List Publication) (network : Network) : Network :=
  { network with posts := network.posts ++ publications.map fun publication =>
      ⟨.gateway, publication.topic, print publication.payload⟩ }

/-- A message is delivered any number of times and at any time after it was
published, if its topic matches a filter. -/
def step (event : Event) (network : Network) : Option Network :=
  match event with
  | .gateway (.onMessage _) => none
  | .gateway action => do
      let system ← System.step parse action network.system
      return { network with system := system }.publish print
        (action.published network.system.board)
  | .disconnect => some (network.publish print MqttManager.onDisconnect)
  | .lastWill => some (network.publish print [MqttManager.lastWill])
  | .other topic payload =>
      some { network with posts := network.posts ++ [⟨.other, topic, payload⟩] }
  | .deliver post =>
      if post ∈ network.posts ∧
          ∃ filter ∈ subscribeTopics masterId, topicMatchesSub filter post.topic = .ok true then do
        let system ← System.step parse (.onMessage post.message) network.system
        return { network with system := system, delivered := network.delivered ++ [post] }
      else none

end Step

/-- The frames that the gateway writes of its own accord or for a message of
another client. -/
def Requested (parse : Parser) (board : MasterBoard) (network : Network)
    (frame : List UInt8) : Prop :=
  frame ∈ board.serialPort.written ∨ System.OwnRequest frame ∨
    ∃ post ∈ network.delivered, post.origin = .other ∧
      MqttManager.onMessage parse post.message = .ok frame

structure NoFeedback (parse : Parser) (board : MasterBoard)
    (network : Network) : Prop where
  posts : ∀ post ∈ network.posts, post.origin = .gateway → GatewayTopic post.topic
  delivered : ∀ post ∈ network.delivered, post.origin = .other
  frames : network.system.OnlyFrames (network.Requested parse board)

section NoFeedback

variable {parse : Parser} {print : Payload → List UInt8} {masterId : ℕ}
  {board : MasterBoard} {network next : Network}

theorem noFeedback_start : (start board).NoFeedback parse board where
  posts := fun _ hmem => (List.not_mem_nil hmem).elim
  delivered := fun _ hmem => (List.not_mem_nil hmem).elim
  frames := System.onlyFrames_initial fun _ hmem => .inl hmem

theorem NoFeedback.publish {publications : List Publication}
    (hnetwork : network.NoFeedback parse board)
    (htopics : ∀ publication ∈ publications, GatewayTopic publication.topic) :
    (network.publish print publications).NoFeedback parse board where
  posts := by
    intro post hmem horigin
    rcases List.mem_append.mp hmem with hold | hnew
    · exact hnetwork.posts post hold horigin
    · obtain ⟨publication, hpublication, rfl⟩ := List.mem_map.mp hnew
      exact htopics publication hpublication
  delivered := hnetwork.delivered
  frames := hnetwork.frames

theorem NoFeedback.gateway {action : Action} {system : System}
    (hnetwork : network.NoFeedback parse board)
    (haction : ∀ message, action ≠ .onMessage message)
    (hstep : System.step parse action network.system = some system) :
    ({ network with system := system } : Network).NoFeedback parse board where
  posts := hnetwork.posts
  delivered := hnetwork.delivered
  frames := by
    apply hnetwork.frames.step (fun _ hown => .inr (.inl hown)) _ hstep
    intro message frame hmessage
    exact (haction message hmessage).elim

theorem NoFeedback.other {topic : String} {payload : List UInt8}
    (hnetwork : network.NoFeedback parse board) :
    ({ network with posts := network.posts ++ [⟨.other, topic, payload⟩] } :
      Network).NoFeedback parse board where
  posts := by
    intro post hmem horigin
    rcases List.mem_append.mp hmem with hold | hnew
    · exact hnetwork.posts post hold horigin
    · rw [List.mem_singleton.mp hnew] at horigin
      contradiction
  delivered := hnetwork.delivered
  frames := hnetwork.frames

/-- A delivered message is not one of the gateway, because its topic matches a
filter. -/
theorem NoFeedback.deliver {post : Post} {system : System}
    (hnetwork : network.NoFeedback parse board) (hmem : post ∈ network.posts)
    (hmatches : ∃ filter ∈ subscribeTopics masterId,
      topicMatchesSub filter post.topic = .ok true)
    (hstep : System.step parse (.onMessage post.message) network.system = some system) :
    ({ network with system := system, delivered := network.delivered ++ [post] } :
      Network).NoFeedback parse board := by
  have horigin : post.origin = .other := by
    cases heq : post.origin with
    | other => rfl
    | gateway =>
        obtain ⟨filter, hfilter, hmatch⟩ := hmatches
        exact ((hnetwork.posts post hmem heq).not_matched hfilter hmatch).elim
  constructor
  · exact hnetwork.posts
  · intro other hother
    rcases List.mem_append.mp hother with hold | hnew
    · exact hnetwork.delivered other hold
    · rw [List.mem_singleton.mp hnew]
      exact horigin
  · apply System.OnlyFrames.step (hnetwork.frames.mono _) (fun _ hown => .inr (.inl hown)) _ hstep
    · rintro frame (hbefore | hown | ⟨other, hother, hrest⟩)
      · exact .inl hbefore
      · exact .inr (.inl hown)
      · exact .inr (.inr ⟨other, List.mem_append_left _ hother, hrest⟩)
    · intro message frame hmessage hpacket
      cases hmessage
      exact .inr (.inr ⟨post, by simp, horigin, hpacket⟩)

theorem NoFeedback.step {event : Event} (hnetwork : network.NoFeedback parse board)
    (hstep : step parse print masterId event network = some next) :
    next.NoFeedback parse board := by
  unfold Network.step at hstep
  split at hstep
  next => cases hstep
  next action haction =>
    obtain ⟨system, hsystem, hresult⟩ := Option.bind_eq_some_iff.mp hstep
    cases hresult
    apply (hnetwork.gateway haction hsystem).publish
    exact fun publication hmem => Action.gatewayTopic_of_mem_published hmem
  next =>
    cases hstep
    apply hnetwork.publish
    intro publication hmem
    rw [List.mem_singleton.mp hmem]
    exact .disconnect
  next =>
    cases hstep
    apply hnetwork.publish
    intro publication hmem
    rw [List.mem_singleton.mp hmem]
    exact .lastWill
  next topic payload =>
    cases hstep
    exact hnetwork.other
  next post =>
    split at hstep
    next hguard =>
      obtain ⟨system, hsystem, hresult⟩ := Option.bind_eq_some_iff.mp hstep
      cases hresult
      exact hnetwork.deliver hguard.1 hguard.2 hsystem
    next => cases hstep

end NoFeedback

/-- In every run, no message of the gateway matches a filter, all messages that
reach `onMessage` come from other clients, and the gateway writes only its own
requests and what `onMessage` makes of these messages.  This holds of all topics
that the gateway can publish on, whatever its id is. -/
theorem no_feedback
    {parse : Parser} {print : Payload → List UInt8} {masterId : ℕ}
    {board : MasterBoard} {events : List Event} {network : Network}
    (hrun : run (step parse print masterId) events (start board) = some network) :
    (∀ topic, GatewayTopic topic → ∀ filter ∈ subscribeTopics masterId,
      topicMatchesSub filter topic ≠ .ok true) ∧
    (∀ post ∈ network.posts, post.origin = .gateway →
      ∀ filter ∈ subscribeTopics masterId, topicMatchesSub filter post.topic ≠ .ok true) ∧
    (∀ post ∈ network.delivered, post.origin = .other) ∧
    ∀ frame ∈ network.system.written, network.Requested parse board frame := by
  have hnetwork : network.NoFeedback parse board :=
    invariant_run_of_step noFeedback_start
      (fun event state next hstate hstep => hstate.step hstep) hrun
  refine ⟨?_, ?_, hnetwork.delivered, hnetwork.frames.written⟩
  · intro topic htopic filter hfilter
    exact htopic.not_matched hfilter
  · intro post hmem horigin filter hfilter
    exact (hnetwork.posts post hmem horigin).not_matched hfilter

def examplePrint : Payload → List UInt8
  | .text message => literal message
  | .packet bytes => bytes
  | .number value => literal (toString value)
  | .decimal value => literal (toString value.num)

/-- The port of a board that has answered the set-up and a poll: its id is 1,
and its only slave has id 17. -/
def polledBoard : MasterBoard :=
  boardReceiving
    [0x23, 0x27, 0xff, 0xc1, 0x80, 0x04, 0x1f, 0xa5, 0x00, 0x01, 0x53, 0x0d,
      0x23, 0x21, 0xff, 0xc1, 0x80, 0x03, 0x20, 0x6c, 0x01, 0x14, 0x0d,
      0x23, 0x27, 0xff, 0xc1, 0x80, 0x03, 0x20, 0x6d, 0x11, 0x2b, 0x0d,
      0x23, 0x27, 0xff, 0xa0, 0x80, 0x00, 0x69, 0x0d]

def exampleEvents : List Event :=
  [.gateway .setup, .gateway .setup, .gateway (.listeningMaster .debug), .lastWill,
    .other "master/1/led" (examplePayload (toString 193)),
    .deliver ⟨.other, "master/1/led", examplePayload (toString 193)⟩,
    .gateway (.writePacket .lock), .gateway (.writePacket .check),
    .gateway (.writePacket .handle)]

theorem no_feedback_example :
    ∃ network, run (step (exampleParse 193) examplePrint 1) exampleEvents
        (start polledBoard) = some network ∧
      network.posts.map Post.topic = ["master/1/polling", "lwt/1", "master/1/led"] ∧
      network.delivered.map Post.topic = ["master/1/led"] ∧
      network.system.written.length = 4 ∧
      ∀ post ∈ network.delivered, post.origin = .other := by
  have hresult : (run (step (exampleParse 193) examplePrint 1) exampleEvents
        (start polledBoard)).map (fun network =>
          (network.posts.map Post.topic, network.delivered.map Post.topic,
            network.system.written.length)) =
      some (["master/1/polling", "lwt/1", "master/1/led"], ["master/1/led"], 4) := by
    decide +kernel
  obtain ⟨network, hrun, hvalues⟩ := Option.map_eq_some_iff.mp hresult
  simp only [Prod.mk.injEq] at hvalues
  obtain ⟨hposts, hdelivered, hwritten⟩ := hvalues
  exact ⟨network, hrun, hposts, hdelivered, hwritten, (no_feedback hrun).2.2.1⟩

end Network

end IotGateway
