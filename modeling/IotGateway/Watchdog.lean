import IotGateway.Library.Histories
import IotGateway.Sessions

/-!
# The polling watchdog

The polling count is the number of polls since the board last answered one.
A poll that finds more than ten of them reports that there is no response.
-/

namespace IotGateway

open Faults GatewayManager Histories MqttTopic Runs

/-- The call has dispatched an answer to a poll. -/
def Performed.answersPoll (performed : Performed) : Bool :=
  performed.call = .listeningMaster &&
    (received performed.before).any fun packet => packet.header.command = kPolling

def Performed.isPoll (performed : Performed) : Bool := performed.call = .polling

def pollsSinceAnswer (history : List Performed) : ℕ :=
  countSince Performed.answersPoll Performed.isPoll history

/-- What the calls before a call determine about it. -/
structure Watched (before : List Performed) (performed : Performed) : Prop where
  count : performed.before.pollingCount = pollsSinceAnswer before
  next : performed.board.pollingCount = pollsSinceAnswer (before ++ [performed])
  polling : performed.call = .polling →
    performed.pushed = [[0x23, 0x27, 0xff, 0xa0, 0x00, 0xe9, 0x0d]] ∧
      performed.published =
        if 11 ≤ pollsSinceAnswer before then
          [⟨"master/1/polling/error", .text "no response"⟩]
        else []
  other : performed.isPoll = false → performed.answersPoll = false →
    performed.board.pollingCount = performed.before.pollingCount ∧ performed.pushed = []

theorem listeningMaster_pollingCount
    {build : Build} {board : MasterBoard} {listened : Listened}
    (hcall : listeningMaster build board = .ok listened) :
    listened.board.pollingCount =
      if (received board).any fun packet => packet.header.command = kPolling then 0
      else board.pollingCount := by
  rcases listeningMaster_cases hcall with
    ⟨hreceived, _, _, hboard⟩ | ⟨packet, published, hreceived, _, hparse, _⟩
  · rw [hboard, hreceived]
    rfl
  · rw [parseCommand_board hparse, hreceived]
    simp only [Option.any_some, decide_eq_true_eq]
    split
    · rfl
    · rfl

theorem perform_watched
    {build : Build} {call : Call} {board : MasterBoard} {performed : Performed}
    {before : List Performed} (hperform : perform build call board = .ok performed)
    (hcount : board.pollingCount = pollsSinceAnswer before) :
    Watched before performed := by
  obtain ⟨hcall, hbefore, ⟨hpolling, hboard, hpushed, hpublished⟩ |
    ⟨hlistening, hpushed, listened, hlistened, hboard, hpublished⟩⟩ := perform_cases hperform
  · have hpoll : performed.isPoll = true := by simp [Performed.isPoll, hcall, hpolling]
    have hanswer : performed.answersPoll = false := by
      simp [Performed.answersPoll, hcall, hpolling]
    constructor
    · rw [hbefore, hcount]
    · rw [pollsSinceAnswer, countSince_concat _ _ hanswer, if_pos hpoll, hboard]
      exact congrArg (· + 1) hcount
    · intro _
      refine ⟨hpushed.trans (congrArg ([·]) pollingRequest_eq), ?_⟩
      rw [hpublished]
      unfold polling
      simp only [hcount, kMaxPollingCount, gt_iff_lt, Nat.lt_iff_add_one_le, publishNoResponse]
    · intro hother
      rw [hpoll] at hother
      contradiction
  · have hpoll : performed.isPoll = false := by simp [Performed.isPoll, hcall, hlistening]
    have hlast := listeningMaster_pollingCount hlistened
    have hanswers : performed.answersPoll =
        (received board).any fun packet => packet.header.command = kPolling := by
      simp [Performed.answersPoll, hcall, hlistening, hbefore]
    rw [← hanswers, ← hboard] at hlast
    constructor
    · rw [hbefore, hcount]
    · rw [hlast, pollsSinceAnswer]
      cases hanswer : performed.answersPoll with
      | true => rw [countSince_concat_of_reset _ _ hanswer, if_pos rfl]
      | false =>
          rw [countSince_concat _ _ hanswer, hpoll, hcount]
          rfl
    · intro hcontra
      rw [hcall, hlistening] at hcontra
      cases hcontra
    · intro _ hanswer
      rw [hlast, hanswer, hbefore]
      exact ⟨rfl, hpushed⟩

namespace Session

structure Watchful (session : Session) : Prop where
  count : session.board.pollingCount = pollsSinceAnswer session.history
  history : Throughout Watched session.history

theorem watchful_start {board : MasterBoard} (hfresh : board.pollingCount = 0) :
    (start board).Watchful where
  count := hfresh
  history := throughout_nil Watched

theorem Watchful.step
    {build : Build} {call : Call} {session next : Session}
    (hwatchful : session.Watchful) (hstep : step build call session = some next) :
    next.Watchful := by
  obtain ⟨performed, hperform, rfl⟩ := step_eq_some hstep
  have hwatched := perform_watched hperform hwatchful.count
  exact ⟨hwatched.next, hwatchful.history.concat hwatched⟩

/-- In every session that begins with a fresh board, a poll reports that there
is no response iff at least eleven polls have been made since the board last
answered one.  Every poll enqueues one frame, no other call changes the count,
and with fewer than 2^31 polls the count stays in the range of an `int`. -/
theorem polling_watchdog
    {build : Build} {calls : List Call} {board : MasterBoard} {session : Session}
    (hfresh : board.pollingCount = 0) (hpolls : calls.count .polling < 2 ^ 31)
    (hrun : run (step build) calls (start board) = some session) :
    Throughout (fun before performed => Watched before performed ∧
      performed.board.pollingCount < 2 ^ 31) session.history := by
  have hwatchful : session.Watchful :=
    invariant_run_of_step (watchful_start hfresh)
      (fun call state next hstate hstep => hstate.step hstep) hrun
  intro before performed after hsplit
  have hwatched := hwatchful.history before performed after hsplit
  refine ⟨hwatched, ?_⟩
  have hcalls : session.history.countP Performed.isPoll = calls.count .polling := by
    rw [← history_calls hrun, List.count, List.countP_map]
    rfl
  have hinitial : (before ++ [performed]).countP Performed.isPoll ≤
      session.history.countP Performed.isPoll := by
    rw [hsplit]
    simp only [List.countP_append, List.countP_cons, List.countP_nil]
    omega
  have hle := countSince_le Performed.answersPoll Performed.isPoll (before ++ [performed])
  rw [hwatched.next]
  unfold pollsSinceAnswer
  omega

/-- Twelve polls without an answer, an answer, and another poll. -/
theorem polling_watchdog_example :
    ∃ session, run (step .release)
        (List.replicate 12 .polling ++ [.listeningMaster, .polling])
        (start (boardReceiving [0x23, 0x27, 0xff, 0xa0, 0x80, 0x00, 0x69, 0x0d])) =
          some session ∧
      session.history.map (fun performed => performed.published.length) =
        [0, 0, 0, 0, 0, 0, 0, 0, 0, 0, 0, 1, 1, 0] ∧
      Throughout (fun before performed => Watched before performed ∧
        performed.board.pollingCount < 2 ^ 31) session.history := by
  have hresult : (run (step .release)
      (List.replicate 12 .polling ++ [.listeningMaster, .polling])
      (start (boardReceiving [0x23, 0x27, 0xff, 0xa0, 0x80, 0x00, 0x69, 0x0d]))).map
        (fun session =>
          session.history.map fun performed => performed.published.length) =
      some [0, 0, 0, 0, 0, 0, 0, 0, 0, 0, 0, 1, 1, 0] := by
    decide +kernel
  obtain ⟨session, hrun, hlengths⟩ := Option.map_eq_some_iff.mp hresult
  exact ⟨session, hrun, hlengths, polling_watchdog rfl (by decide) hrun⟩

end Session

end IotGateway
