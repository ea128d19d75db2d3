import IotGateway.Library.Runs
import IotGateway.Requests

/-!
# Sessions of the gateway manager

The main loop of `run` calls `Polling` and `ListeningMaster` again and again.
A session keeps, for every call so far, the board the call was made with and
what it enqueued and published.
-/

namespace IotGateway

open Faults GatewayManager Runs

inductive Call where
  | polling
  | listeningMaster
  deriving DecidableEq, Repr

structure Performed where
  call : Call
  before : MasterBoard
  board : MasterBoard
  pushed : List (List UInt8)
  published : List Publication

def perform (build : Build) (call : Call) (board : MasterBoard) : Except Fault Performed :=
  match call with
  | .polling =>
      let polled := polling board
      .ok ⟨.polling, board, polled.board, [polled.pushed], polled.published⟩
  | .listeningMaster => do
      let listened ← listeningMaster build board
      return ⟨.listeningMaster, board, listened.board, [], listened.published⟩

structure Session where
  board : MasterBoard
  history : List Performed

/-! ## One call -/

/-- The two kinds of calls and what they do. -/
theorem perform_cases
    {build : Build} {call : Call} {board : MasterBoard} {performed : Performed}
    (hperform : perform build call board = .ok performed) :
    performed.call = call ∧ performed.before = board ∧
      ((call = .polling ∧ performed.board = board.increasePollingCount ∧
          performed.pushed = [pollingRequest] ∧
          performed.published = (polling board).published) ∨
        (call = .listeningMaster ∧ performed.pushed = [] ∧
          ∃ listened, listeningMaster build board = .ok listened ∧
            performed.board = listened.board ∧
            performed.published = listened.published)) := by
  cases call with
  | polling =>
      cases hperform
      exact ⟨rfl, rfl, .inl ⟨rfl, rfl, rfl, rfl⟩⟩
  | listeningMaster =>
      obtain ⟨listened, hlistened, hresult⟩ := exists_of_bind_eq_ok hperform
      cases hresult
      exact ⟨rfl, rfl, .inr ⟨rfl, rfl, listened, hlistened, rfl, rfl⟩⟩

theorem perform_masterId
    {build : Build} {call : Call} {board : MasterBoard} {performed : Performed}
    (hperform : perform build call board = .ok performed) :
    performed.board.masterId = board.masterId := by
  obtain ⟨_, _, ⟨_, hboard, _⟩ | ⟨_, _, listened, hlistened, hboard, _⟩⟩ :=
    perform_cases hperform
  · rw [hboard]
    rfl
  · rw [hboard]
    rcases listeningMaster_cases hlistened with
      ⟨_, _, _, hsame⟩ | ⟨packet, published, _, _, hparse, _⟩
    · rw [hsame]
    · rw [parseCommand_board hparse]
      split <;> rfl

/-! ## Runs -/

namespace Session

def start (board : MasterBoard) : Session := ⟨board, []⟩

/-- The next call.  After a fault there is none. -/
def step (build : Build) (call : Call) (session : Session) : Option Session :=
  match perform build call session.board with
  | .error _ => none
  | .ok performed => some ⟨performed.board, session.history ++ [performed]⟩

theorem step_eq_some
    {build : Build} {call : Call} {session next : Session}
    (hstep : step build call session = some next) :
    ∃ performed, perform build call session.board = .ok performed ∧
      next = ⟨performed.board, session.history ++ [performed]⟩ := by
  unfold step at hstep
  split at hstep
  · cases hstep
  next performed hperform =>
    cases hstep
    exact ⟨performed, hperform, rfl⟩

theorem history_calls
    {build : Build} {calls : List Call} {board : MasterBoard} {session : Session}
    (hrun : run (step build) calls (start board) = some session) :
    session.history.map Performed.call = calls := by
  induction calls using List.reverseRecOn generalizing session with
  | nil =>
      cases hrun
      rfl
  | append_singleton calls call ih =>
      obtain ⟨before, hbefore, hlast⟩ := exists_of_run_concat hrun
      obtain ⟨performed, hperform, rfl⟩ := step_eq_some hlast
      have hcall := (perform_cases hperform).1
      rw [List.map_append, ih hbefore, List.map_singleton, hcall]

/-- Every entry of the history is a call that was made, and all of them were
made with the same master id. -/
structure Recorded (build : Build) (masterId : ℕ) (session : Session) : Prop where
  board : session.board.masterId = masterId
  history : ∀ performed ∈ session.history,
    perform build performed.call performed.before = .ok performed ∧
      performed.before.masterId = masterId

theorem Recorded.step
    {build : Build} {masterId : ℕ} {call : Call} {session next : Session}
    (hrecorded : session.Recorded build masterId)
    (hstep : step build call session = some next) : next.Recorded build masterId := by
  obtain ⟨performed, hperform, rfl⟩ := step_eq_some hstep
  obtain ⟨hcall, hbefore, _⟩ := perform_cases hperform
  constructor
  · exact (perform_masterId hperform).trans hrecorded.board
  · intro other hmem
    rcases List.mem_append.mp hmem with hold | hnew
    · exact hrecorded.history other hold
    · rw [List.mem_singleton.mp hnew, hcall, hbefore]
      exact ⟨hperform, hrecorded.board⟩

theorem recorded_of_run
    {build : Build} {calls : List Call} {board : MasterBoard} {session : Session}
    (hrun : run (step build) calls (start board) = some session) :
    session.Recorded build board.masterId := by
  apply invariant_run_of_step _ _ hrun
  · exact ⟨rfl, fun performed hmem => (List.not_mem_nil hmem).elim⟩
  · exact fun call state next hstate hstep => hstate.step hstep

end Session

end IotGateway
