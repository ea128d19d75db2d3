import IotGateway.Requests
import Mathlib.Data.Vector.Basic

/-!
# The set-up exchanges

Before it starts, the gateway reads its master id, the number of slaves and
their ids from the master board.  Every step writes a request and takes the
next packet from the port.
-/

namespace IotGateway

open Faults

namespace GatewayManager

def parseMasterId (packet : ResponsePacket) : Except Fault ℕ := do
  let highData ← dataAt packet 0
  let lowData ← dataAt packet 1
  let ten := highData.toNat <<< 8
  let one := lowData.toNat
  return ten + one

def setupMasterId (board : MasterBoard) : Except Fault (Bool × MasterBoard) := do
  let board := requestMasterId board
  let (received, board) ← receiveValid board
  match received with
  | none => return (false, board)
  | some packet =>
      let masterId ← parseMasterId packet
      return (true, board.setMasterId masterId)

def getSlaveCount (board : MasterBoard) :
    Except Fault ((UInt8 × Bool) × MasterBoard) := do
  let board := requestSlaveCount board
  let (received, board) ← receiveValid board
  match received with
  | none => return ((0, false), board)
  | some packet =>
      let slaveCount ← dataAt packet 0
      return ((slaveCount, true), board)

/-- `std::copy` of the ids into a zero-filled array. -/
def copySlaveIds (data : List UInt8) : Except Fault (Vector UInt8 kMaxSlaveCount) :=
  if data.length ≤ kMaxSlaveCount then
    .ok (Vector.ofFn fun index => data.getD index 0)
  else .error .slaveIds

def getSlaveIds (slaveCount : UInt8) (board : MasterBoard) :
    Except Fault ((Vector UInt8 kMaxSlaveCount × Bool) × MasterBoard) := do
  let board := requestSlaveIds slaveCount board
  let (received, board) ← receiveValid board
  match received with
  | none => return ((Vector.replicate _ 0, false), board)
  | some packet =>
      let slaveIds ← copySlaveIds packet.body.data
      return ((slaveIds, true), board)

def setupSlaveIds (board : MasterBoard) : Except Fault (Bool × MasterBoard) := do
  let ((slaveCount, countReceiveSuccess), board) ← getSlaveCount board
  if countReceiveSuccess = false then return (false, board)
  let board := board.setSlaveCount slaveCount
  let ((slaveIds, idsReceiveSuccess), board) ← getSlaveIds slaveCount board
  if idsReceiveSuccess = false then return (false, board)
  let board := board.setSlaveIds slaveIds
  -- the ids are printed one by one, up to the slave count
  let _ ← (List.range board.slaveCount.toNat).mapM board.slaveIdAt
  return (true, board)

/-! ## The requests of the set-up -/

inductive SetupRequest : List UInt8 → Prop where
  | masterId : SetupRequest masterIdRequest
  | slaveCount : SetupRequest slaveCountRequest
  | slaveIds (slaveCount : UInt8) : SetupRequest (slaveIdsRequest slaveCount)

theorem exchanged_receiveValid
    {board board' : MasterBoard} {request : List UInt8} {packet? : Option ResponsePacket}
    (hreceive : receiveValid (board.write request) = .ok (packet?, board')) :
    Serial.Exchanged [request] board.serialPort board'.serialPort :=
  Serial.exchanged_write_reads (receiveValid_readsOnly hreceive).1

theorem setupMasterId_cases
    {board after : MasterBoard} {success : Bool}
    (hsetup : setupMasterId board = .ok (success, after)) :
    (success = false ∧ receiveValid (requestMasterId board) = .ok (none, after)) ∨
    (∃ packet board' masterId, success = true ∧
      receiveValid (requestMasterId board) = .ok (some packet, board') ∧
      parseMasterId packet = .ok masterId ∧ after = board'.setMasterId masterId) := by
  obtain ⟨⟨packet?, board'⟩, hreceive, hnext⟩ := exists_of_bind_eq_ok hsetup
  cases packet? with
  | none =>
      cases hnext
      exact .inl ⟨rfl, hreceive⟩
  | some packet =>
      obtain ⟨masterId, hparse, hresult⟩ := exists_of_bind_eq_ok hnext
      cases hresult
      exact .inr ⟨packet, board', masterId, rfl, hreceive, hparse, rfl⟩

theorem getSlaveCount_cases
    {board after : MasterBoard} {slaveCount : UInt8} {success : Bool}
    (hcount : getSlaveCount board = .ok ((slaveCount, success), after)) :
    (success = false ∧ receiveValid (requestSlaveCount board) = .ok (none, after)) ∨
    (∃ packet, success = true ∧
      receiveValid (requestSlaveCount board) = .ok (some packet, after) ∧
      dataAt packet 0 = .ok slaveCount) := by
  obtain ⟨⟨packet?, board'⟩, hreceive, hnext⟩ := exists_of_bind_eq_ok hcount
  cases packet? with
  | none =>
      cases hnext
      exact .inl ⟨rfl, hreceive⟩
  | some packet =>
      obtain ⟨first, hdata, hresult⟩ := exists_of_bind_eq_ok hnext
      cases hresult
      exact .inr ⟨packet, rfl, hreceive, hdata⟩

theorem getSlaveIds_cases
    {slaveCount : UInt8} {board after : MasterBoard}
    {slaveIds : Vector UInt8 kMaxSlaveCount} {success : Bool}
    (hids : getSlaveIds slaveCount board = .ok ((slaveIds, success), after)) :
    (success = false ∧
      receiveValid (requestSlaveIds slaveCount board) = .ok (none, after)) ∨
    (∃ packet, success = true ∧
      receiveValid (requestSlaveIds slaveCount board) = .ok (some packet, after) ∧
      copySlaveIds packet.body.data = .ok slaveIds) := by
  obtain ⟨⟨packet?, board'⟩, hreceive, hnext⟩ := exists_of_bind_eq_ok hids
  cases packet? with
  | none =>
      cases hnext
      exact .inl ⟨rfl, hreceive⟩
  | some packet =>
      obtain ⟨copied, hcopy, hresult⟩ := exists_of_bind_eq_ok hnext
      cases hresult
      exact .inr ⟨packet, rfl, hreceive, hcopy⟩

theorem setupMasterId_exchanged
    {board after : MasterBoard} {success : Bool}
    (hsetup : setupMasterId board = .ok (success, after)) :
    Serial.Exchanged [masterIdRequest] board.serialPort after.serialPort := by
  rcases setupMasterId_cases hsetup with
    ⟨_, hreceive⟩ | ⟨packet, board', masterId, _, hreceive, _, rfl⟩
  · exact exchanged_receiveValid hreceive
  · have hexchanged := exchanged_receiveValid hreceive
    exact hexchanged

theorem getSlaveCount_receives
    {board after : MasterBoard} {slaveCount : UInt8} {success : Bool}
    (hcount : getSlaveCount board = .ok ((slaveCount, success), after)) :
    ∃ packet?, receiveValid (requestSlaveCount board) = .ok (packet?, after) := by
  rcases getSlaveCount_cases hcount with ⟨_, hreceive⟩ | ⟨packet, _, hreceive, _⟩
  · exact ⟨none, hreceive⟩
  · exact ⟨some packet, hreceive⟩

theorem getSlaveIds_receives
    {slaveCount : UInt8} {board after : MasterBoard}
    {slaveIds : Vector UInt8 kMaxSlaveCount} {success : Bool}
    (hids : getSlaveIds slaveCount board = .ok ((slaveIds, success), after)) :
    ∃ packet?, receiveValid (requestSlaveIds slaveCount board) = .ok (packet?, after) := by
  rcases getSlaveIds_cases hids with ⟨_, hreceive⟩ | ⟨packet, _, hreceive, _⟩
  · exact ⟨none, hreceive⟩
  · exact ⟨some packet, hreceive⟩

theorem getSlaveCount_exchanged
    {board after : MasterBoard} {slaveCount : UInt8} {success : Bool}
    (hcount : getSlaveCount board = .ok ((slaveCount, success), after)) :
    Serial.Exchanged [slaveCountRequest] board.serialPort after.serialPort := by
  obtain ⟨packet?, hreceive⟩ := getSlaveCount_receives hcount
  exact exchanged_receiveValid hreceive

theorem getSlaveIds_exchanged
    {slaveCount : UInt8} {board after : MasterBoard}
    {slaveIds : Vector UInt8 kMaxSlaveCount} {success : Bool}
    (hids : getSlaveIds slaveCount board = .ok ((slaveIds, success), after)) :
    Serial.Exchanged [slaveIdsRequest slaveCount] board.serialPort after.serialPort := by
  obtain ⟨packet?, hreceive⟩ := getSlaveIds_receives hids
  exact exchanged_receiveValid hreceive

theorem getSlaveCount_board
    {board after : MasterBoard} {slaveCount : UInt8} {success : Bool}
    (hcount : getSlaveCount board = .ok ((slaveCount, success), after)) :
    after = { board with serialPort := after.serialPort } := by
  obtain ⟨packet?, hreceive⟩ := getSlaveCount_receives hcount
  exact (receiveValid_readsOnly hreceive).2

theorem getSlaveIds_board
    {slaveCount : UInt8} {board after : MasterBoard}
    {slaveIds : Vector UInt8 kMaxSlaveCount} {success : Bool}
    (hids : getSlaveIds slaveCount board = .ok ((slaveIds, success), after)) :
    after = { board with serialPort := after.serialPort } := by
  obtain ⟨packet?, hreceive⟩ := getSlaveIds_receives hids
  exact (receiveValid_readsOnly hreceive).2

theorem setupSlaveIds_cases
    {board after : MasterBoard} {success : Bool}
    (hsetup : setupSlaveIds board = .ok (success, after)) :
    (∃ slaveCount, success = false ∧
      getSlaveCount board = .ok ((slaveCount, false), after)) ∨
    (∃ slaveCount counted slaveIds listed idsSuccess,
      getSlaveCount board = .ok ((slaveCount, true), counted) ∧
      getSlaveIds slaveCount (counted.setSlaveCount slaveCount) =
        .ok ((slaveIds, idsSuccess), listed) ∧
      success = idsSuccess ∧
      after = if idsSuccess then listed.setSlaveIds slaveIds else listed) := by
  obtain ⟨⟨⟨slaveCount, counted⟩, board'⟩, hcount, hnext⟩ := exists_of_bind_eq_ok hsetup
  cases counted with
  | false =>
      cases hnext
      exact .inl ⟨slaveCount, rfl, hcount⟩
  | true =>
      obtain ⟨⟨⟨slaveIds, listed⟩, board''⟩, hids, hnext⟩ := exists_of_bind_eq_ok hnext
      refine .inr ⟨slaveCount, board', slaveIds, board'', listed, hcount, hids, ?_⟩
      cases listed with
      | false =>
          cases hnext
          exact ⟨rfl, rfl⟩
      | true =>
          obtain ⟨printed, _, hresult⟩ := exists_of_bind_eq_ok hnext
          cases hresult
          exact ⟨rfl, rfl⟩

theorem setupSlaveIds_exchanged
    {board after : MasterBoard} {success : Bool}
    (hsetup : setupSlaveIds board = .ok (success, after)) :
    ∃ requests, Serial.Exchanged requests board.serialPort after.serialPort ∧
      ∀ request ∈ requests, SetupRequest request := by
  rcases setupSlaveIds_cases hsetup with
    ⟨slaveCount, _, hcount⟩ |
      ⟨slaveCount, counted, slaveIds, listed, success', hcount, hids, _, hafter⟩
  · refine ⟨[slaveCountRequest], getSlaveCount_exchanged hcount, ?_⟩
    intro request hmem
    rw [List.mem_singleton.mp hmem]
    exact .slaveCount
  · have hport : after.serialPort = listed.serialPort := by
      rw [hafter]
      split <;> rfl
    refine ⟨[slaveCountRequest] ++ [slaveIdsRequest slaveCount], ?_, ?_⟩
    · have hexchanged := getSlaveIds_exchanged hids
      rw [hport]
      exact (getSlaveCount_exchanged hcount).trans hexchanged
    · intro request hmem
      rcases List.mem_append.mp hmem with hfirst | hsecond
      · rw [List.mem_singleton.mp hfirst]
        exact .slaveCount
      · rw [List.mem_singleton.mp hsecond]
        exact .slaveIds slaveCount

theorem setupSlaveIds_masterId
    {board after : MasterBoard} {success : Bool}
    (hsetup : setupSlaveIds board = .ok (success, after)) :
    after.masterId = board.masterId := by
  rcases setupSlaveIds_cases hsetup with
    ⟨slaveCount, _, hcount⟩ |
      ⟨slaveCount, counted, slaveIds, listed, found, hcount, hids, _, hafter⟩
  · rw [getSlaveCount_board hcount]
  · calc after.masterId = listed.masterId := by
          rw [hafter]
          split <;> rfl
      _ = counted.masterId := by
          rw [getSlaveIds_board hids]
          rfl
      _ = board.masterId := by rw [getSlaveCount_board hcount]

/-! ## Steps of the set-up that fail -/

theorem setupMasterId_failed
    {board after : MasterBoard} (hsetup : setupMasterId board = .ok (false, after)) :
    after = { board with serialPort := after.serialPort } := by
  rcases setupMasterId_cases hsetup with
    ⟨_, hreceive⟩ | ⟨packet, board', masterId, hsuccess, _⟩
  · have hreads := (receiveValid_readsOnly hreceive).2
    exact hreads
  · cases hsuccess

/-- A failed step has read nothing into the board but the slave count, and that
only when the count was received and the ids were not. -/
theorem setupSlaveIds_failed
    {board after : MasterBoard} (hsetup : setupSlaveIds board = .ok (false, after)) :
    (received (requestSlaveCount board) = none ∧
      after = { board with serialPort := after.serialPort }) ∨
    (∃ countReply slaveCount, received (requestSlaveCount board) = some countReply ∧
      dataAt countReply 0 = .ok slaveCount ∧
      after = { board with
        serialPort := after.serialPort
        slaveCount := slaveCount }) := by
  rcases setupSlaveIds_cases hsetup with
    ⟨slaveCount, _, hcount⟩ |
      ⟨slaveCount, counted, slaveIds, listed, success, hcount, hids, hsuccess, hafter⟩
  · rcases getSlaveCount_cases hcount with ⟨_, hreceive⟩ | ⟨packet, hcounted, _⟩
    · have hnone : received (requestSlaveCount board) = none := by
        unfold received
        rw [hreceive]
      exact .inl ⟨hnone, getSlaveCount_board hcount⟩
    · cases hcounted
  · rw [← hsuccess] at hafter
    have hlast : after = listed := hafter
    rcases getSlaveCount_cases hcount with ⟨hfailed, _⟩ | ⟨packet, _, hreceive, hdata⟩
    · cases hfailed
    · have hsome : received (requestSlaveCount board) = some packet := by
        unfold received
        rw [hreceive]
      refine .inr ⟨packet, slaveCount, hsome, hdata, ?_⟩
      rw [hlast, getSlaveIds_board hids, getSlaveCount_board hcount]
      rfl

/-- A step of the set-up that returns false keeps the master id, the slave ids
and the polling count.  It keeps the slave count as well, unless it has received
the answer to its request for the count, which it then has stored. -/
theorem setup_failure_keeps {board after : MasterBoard} :
    (setupMasterId board = .ok (false, after) →
      after.masterId = board.masterId ∧ after.slaveCount = board.slaveCount ∧
        after.slaveIds = board.slaveIds ∧ after.pollingCount = board.pollingCount) ∧
    (setupSlaveIds board = .ok (false, after) →
      after.masterId = board.masterId ∧ after.slaveIds = board.slaveIds ∧
        after.pollingCount = board.pollingCount ∧
        match received (requestSlaveCount board) with
        | none => after.slaveCount = board.slaveCount
        | some countReply => dataAt countReply 0 = .ok after.slaveCount) := by
  constructor
  · intro hsetup
    rw [setupMasterId_failed hsetup]
    exact ⟨rfl, rfl, rfl, rfl⟩
  · intro hsetup
    rcases setupSlaveIds_failed hsetup with
      ⟨hnone, hafter⟩ | ⟨countReply, slaveCount, hsome, hdata, hafter⟩
    · rw [hafter, hnone]
      exact ⟨rfl, rfl, rfl, rfl⟩
    · rw [hafter, hsome]
      exact ⟨rfl, rfl, rfl, hdata⟩

/-- A board that answers the request for the count and not the one for the ids. -/
def countOnlyBoard : MasterBoard :=
  boardReceiving [0x23, 0x21, 0xff, 0xc1, 0x80, 0x03, 0x20, 0x6c, 0x02, 0x15, 0x0d]

theorem setupSlaveIds_countOnlyBoard :
    ∃ after, setupSlaveIds countOnlyBoard = .ok (false, after) ∧ after.slaveCount = 2 := by
  have hresult : (match setupSlaveIds countOnlyBoard with
      | .ok (success, after) => some (success, after.slaveCount)
      | .error _ => none) = some (false, 2) := by
    decide +kernel
  split at hresult
  next success after hsetup =>
    simp only [Option.some.injEq, Prod.mk.injEq] at hresult
    obtain ⟨rfl, hcount⟩ := hresult
    exact ⟨after, hsetup, hcount⟩
  next => cases hresult

theorem setupMasterId_silentBoard :
    ∃ after, setupMasterId (boardReceiving []) = .ok (false, after) := by
  have hresult : (match setupMasterId (boardReceiving []) with
      | .ok (success, _) => some success
      | .error _ => none) = some false := by
    decide +kernel
  split at hresult
  next success after hsetup =>
    cases hresult
    exact ⟨after, hsetup⟩
  next => cases hresult

theorem setup_failure_keeps_countOnly :
    (∃ after, setupMasterId (boardReceiving []) = .ok (false, after) ∧
      after.masterId = 1) ∧
    ∃ after, setupSlaveIds countOnlyBoard = .ok (false, after) ∧
      after.masterId = 1 ∧ after.slaveCount = 2 ∧ after.pollingCount = 0 := by
  obtain ⟨silent, hsilent⟩ := setupMasterId_silentBoard
  obtain ⟨after, hsetup, hcount⟩ := setupSlaveIds_countOnlyBoard
  obtain ⟨hmaster, _, hpolling, _⟩ := setup_failure_keeps.2 hsetup
  exact ⟨⟨silent, hsilent, (setup_failure_keeps.1 hsilent).1⟩,
    after, hsetup, hmaster, hcount, hpolling⟩

theorem setupSlaveIds_not_atomic :
    ¬ ∀ board after : MasterBoard, setupSlaveIds board = .ok (false, after) →
      after.masterId = board.masterId ∧ after.slaveCount = board.slaveCount ∧
        after.slaveIds = board.slaveIds ∧ after.pollingCount = board.pollingCount := by
  intro hall
  obtain ⟨after, hsetup, hcount⟩ := setupSlaveIds_countOnlyBoard
  have hkept := (hall countOnlyBoard after hsetup).2.1
  rw [hcount] at hkept
  exact absurd hkept (by decide)

end GatewayManager

end IotGateway
