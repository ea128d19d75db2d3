import IotGateway.Framing
import IotGateway.SlaveTable
import IotGateway.System

/-!
# The set-up handshake

The master board answers every memory read, in order, but possibly late.  The
gateway takes whatever reply comes first for the answer to its latest request.
When the replies are in step with the requests at the end of the set-up, the
gateway knows the registers of the board, whatever happened before.
-/

namespace IotGateway

open ByteSum Faults GatewayManager Runs

/-! ## A board that answers memory reads -/

def registers (memory : ℕ → UInt8) (address count : ℕ) : List UInt8 :=
  (List.range count).map fun offset => memory (address + offset)

/-- Every memory read of up to 127 registers is answered, each time in the same way,
by a frame with a valid checksum that holds the address and the registers. -/
def AnswersReads (memory : ℕ → UInt8) (peer : ℕ → List UInt8 → List UInt8) : Prop :=
  ∀ idx targetId dataLength highAddress lowAddress : UInt8,
    0 < dataLength.toNat → dataLength.toNat ≤ 127 →
      ∃ frame : Frame,
        (∀ number,
          peer number (memoryReadRequest idx targetId dataLength highAddress lowAddress) =
            frame.bytes) ∧
        frame.body = highAddress :: lowAddress ::
          registers memory (highAddress.toNat <<< 8 + lowAddress.toNat)
            dataLength.toNat ∧
        frame.response.validChecksum = true

theorem Frame.response_data
    {frame : Frame} {highAddress lowAddress : UInt8} {data : List UInt8}
    (hbody : frame.body = highAddress :: lowAddress :: data) :
    frame.response.body.data = data := by
  unfold Frame.response
  rw [hbody]

/-- With a valid frame in front of the unread bytes, a receiver finds the line
idle or takes exactly this frame. -/
theorem receiveValid_reply
    {board board' : MasterBoard} {frame : Frame} {back : List UInt8}
    {packet? : Option ResponsePacket}
    (hstream : board.serialPort.stream = frame.bytes ++ back)
    (hvalid : frame.response.validChecksum = true)
    (hreceive : receiveValid board = .ok (packet?, board'))
    (hfull : board'.serialPort.ReadsFull) :
    (packet? = none ∧ board'.serialPort.stream = board.serialPort.stream) ∨
      (packet? = some frame.response ∧ board'.serialPort.stream = back) := by
  by_cases havailable : board.serialPort.available.1 = 0
  · have hcall := receivePacket_idle havailable
    unfold receiveValid at hreceive
    rw [hcall] at hreceive
    cases hreceive
    exact .inl ⟨rfl, Serial.available_snd_stream _⟩
  · have hport : board'.serialPort = (receivePacket board.serialPort).2 := by
      unfold receiveValid at hreceive
      split at hreceive
      next => cases hreceive
      next packet receiveFail port hcall =>
        rw [hcall]
        simp only at hreceive
        split at hreceive <;> cases hreceive <;> rfl
    rw [hport] at hfull ⊢
    obtain ⟨hcall, hback⟩ := receivePacket_frame havailable hstream hfull
    refine .inr ⟨?_, hback⟩
    have hpair : receivePacket board.serialPort =
        (.ok (frame.response, .kSuccessReceive), (receivePacket board.serialPort).2) :=
      Prod.ext hcall rfl
    have hsome := receiveValid_eq_some_iff.mpr ⟨_, hpair, hvalid, rfl⟩
    rw [hreceive] at hsome
    exact (Prod.mk.inj (Except.ok.inj hsome)).1

/-! ## The master id -/

def Pending (request : List UInt8) (port : Serial) : Prop :=
  ∃ count, port.stream = (List.replicate count (port.peer 0 request)).flatten

/-- As long as only the master id has been asked for, every reply is an answer
to the latest request. -/
theorem setupMasterId_step
    {memory : ℕ → UInt8} {board after : MasterBoard} {success : Bool}
    (hanswers : AnswersReads memory board.serialPort.peer)
    (hpending : Pending masterIdRequest board.serialPort)
    (hsetup : setupMasterId board = .ok (success, after))
    (hfull : after.serialPort.ReadsFull) :
    (success = false ∧ Pending masterIdRequest after.serialPort) ∨
      (success = true ∧
        after.masterId = (memory 0x1fa5).toNat <<< 8 + (memory 0x1fa6).toNat) := by
  obtain ⟨frame, hreply, hbody, hvalid⟩ :=
    hanswers 0x27 0xff 2 0x1f 0xa5 (by decide) (by decide)
  rcases hpending with ⟨count, hcount⟩
  have hpeer := (setupMasterId_exchanged hsetup).peer
  change ∀ number, board.serialPort.peer number masterIdRequest = frame.bytes at hreply
  rw [hreply] at hcount
  have hstream : (requestMasterId board).serialPort.stream =
      frame.bytes ++ (List.replicate count frame.bytes).flatten := by
    change (board.serialPort.write masterIdRequest).stream = _
    have hrequest : masterIdRequest ≠ [] := List.cons_ne_nil _ _
    rw [Serial.stream_write, hcount, Serial.answer_of_ne_nil hrequest, hreply,
      ← List.flatten_cons, ← List.replicate_succ,
      List.replicate_succ', List.flatten_append]
    simp
  rcases setupMasterId_cases hsetup with
    ⟨hfalse, hreceive⟩ | ⟨packet, board', masterId, htrue, hreceive, hparse, hafter⟩
  · rcases receiveValid_reply hstream hvalid hreceive hfull with ⟨_, hsame⟩ | ⟨hsome, _⟩
    · refine .inl ⟨hfalse, count + 1, ?_⟩
      rw [hsame, hstream, hpeer, hreply, List.replicate_succ, List.flatten_cons]
    · cases hsome
  · have hport : after.serialPort = board'.serialPort := by
      rw [hafter]
      rfl
    rw [hport] at hfull
    rcases receiveValid_reply hstream hvalid hreceive hfull with ⟨hnone, _⟩ | ⟨hsome, _⟩
    · cases hnone
    · refine .inr ⟨htrue, ?_⟩
      have hpacket := Option.some.inj hsome
      have hdata : packet.body.data = [memory 0x1fa5, memory 0x1fa6] := by
        rw [hpacket, Frame.response_data hbody]
        rfl
      have hvalue : parseMasterId packet =
          .ok ((memory 0x1fa5).toNat <<< 8 + (memory 0x1fa6).toNat) := by
        unfold parseMasterId dataAt
        rw [hdata]
        rfl
      rw [hvalue] at hparse
      rw [hafter]
      exact (Except.ok.inj hparse).symm

/-! ## The slave table -/

/-- The oldest unread reply answers the request that has just been written. -/
def AnswersFirst (request : List UInt8) (board : MasterBoard) : Prop :=
  board.serialPort.peer (board.serialPort.written.length - 1) request <+:
    board.serialPort.stream

instance (request : List UInt8) (board : MasterBoard) :
    Decidable (AnswersFirst request board) :=
  inferInstanceAs (Decidable (_ <+: _))

structure InStep (memory : ℕ → UInt8) (board : MasterBoard) : Prop where
  slaveCount : AnswersFirst slaveCountRequest (requestSlaveCount board)
  slaveIds : AnswersFirst (slaveIdsRequest (memory 0x206c))
    (idsRequested board (memory 0x206c))

theorem data_of_answersFirst
    {memory : ℕ → UInt8} {board board' : MasterBoard} {packet : ResponsePacket}
    {idx targetId dataLength highAddress lowAddress : UInt8}
    (hanswers : AnswersReads memory board.serialPort.peer)
    (hpos : 0 < dataLength.toNat) (hle : dataLength.toNat ≤ 127)
    (hfirst : AnswersFirst
      (memoryReadRequest idx targetId dataLength highAddress lowAddress) board)
    (hreceive : receiveValid board = .ok (some packet, board'))
    (hfull : board'.serialPort.ReadsFull) :
    packet.body.data = registers memory (highAddress.toNat <<< 8 + lowAddress.toNat)
      dataLength.toNat := by
  obtain ⟨frame, hreply, hbody, hvalid⟩ :=
    hanswers idx targetId dataLength highAddress lowAddress hpos hle
  rcases hfirst with ⟨back, hstream⟩
  rw [hreply] at hstream
  rcases receiveValid_reply hstream.symm hvalid hreceive hfull with ⟨hnone, _⟩ | ⟨hsome, _⟩
  · cases hnone
  · rw [Option.some.inj hsome, Frame.response_data hbody]

theorem registers_length (memory : ℕ → UInt8) (address count : ℕ) :
    (registers memory address count).length = count := by
  simp [registers]

theorem getSlaveCount_step
    {memory : ℕ → UInt8} {board counted : MasterBoard} {slaveCount : UInt8}
    (hanswers : AnswersReads memory board.serialPort.peer)
    (hfirst : AnswersFirst slaveCountRequest (requestSlaveCount board))
    (hcount : getSlaveCount board = .ok ((slaveCount, true), counted))
    (hfull : counted.serialPort.ReadsFull) :
    slaveCount = memory 0x206c ∧ counted = afterReceive (requestSlaveCount board) := by
  rcases getSlaveCount_cases hcount with ⟨hfalse, _⟩ | ⟨packet, _, hreceive, hdata⟩
  · cases hfalse
  · have hrequested : AnswersReads memory (requestSlaveCount board).serialPort.peer := hanswers
    have hregisters : packet.body.data = registers memory 0x206c 1 :=
      data_of_answersFirst hrequested (by decide) (by decide) hfirst hreceive hfull
    have hvalue : dataAt packet 0 = .ok (memory 0x206c) := by
      unfold dataAt
      rw [hregisters]
      rfl
    rw [hvalue] at hdata
    exact ⟨(Except.ok.inj hdata).symm, eq_afterReceive hreceive⟩

theorem getSlaveIds_step
    {memory : ℕ → UInt8} {slaveCount : UInt8} {board listed : MasterBoard}
    {slaveIds : Vector UInt8 kMaxSlaveCount}
    (hanswers : AnswersReads memory board.serialPort.peer)
    (hpos : 0 < slaveCount.toNat) (hle : slaveCount.toNat ≤ 127)
    (hfirst : AnswersFirst (slaveIdsRequest slaveCount) (requestSlaveIds slaveCount board))
    (hids : getSlaveIds slaveCount board = .ok ((slaveIds, true), listed))
    (hfull : listed.serialPort.ReadsFull) :
    slaveIds.toList.take slaveCount.toNat = registers memory 0x206d slaveCount.toNat := by
  rcases getSlaveIds_cases hids with ⟨hfalse, _⟩ | ⟨packet, _, hreceive, hcopy⟩
  · cases hfalse
  · have hrequested : AnswersReads memory (requestSlaveIds slaveCount board).serialPort.peer :=
      hanswers
    have hregisters : packet.body.data = registers memory 0x206d slaveCount.toNat :=
      data_of_answersFirst hrequested hpos hle hfirst hreceive hfull
    have hlength : packet.body.data.length = slaveCount.toNat := by
      rw [hregisters, registers_length]
    obtain ⟨copied, hcopied, hvalues⟩ := copySlaveIds_of_le (hlength ▸ hle)
    rw [hcopy] at hcopied
    rw [Except.ok.inj hcopied, hvalues, ← hlength, List.take_left, hregisters,
      registers_length]

theorem setupSlaveIds_step
    {memory : ℕ → UInt8} {board after : MasterBoard}
    (hanswers : AnswersReads memory board.serialPort.peer)
    (hpos : 0 < (memory 0x206c).toNat) (hle : (memory 0x206c).toNat ≤ 127)
    (hinStep : InStep memory board)
    (hsetup : setupSlaveIds board = .ok (true, after))
    (hfull : after.serialPort.ReadsFull) :
    after.slaveCount = memory 0x206c ∧
      after.slaveIds.toList.take after.slaveCount.toNat =
        registers memory 0x206d after.slaveCount.toNat := by
  rcases setupSlaveIds_cases hsetup with
    ⟨_, hfalse, _⟩ | ⟨slaveCount, counted, slaveIds, listed, listedOk, hcount, hids, htrue, hafter⟩
  · cases hfalse
  · subst htrue
    have hlistedFull : listed.serialPort.ReadsFull := by
      rw [hafter] at hfull
      exact hfull
    have hcountedFull : counted.serialPort.ReadsFull :=
      Serial.readsFull_of_trace (getSlaveIds_exchanged hids).trace hlistedFull
    have hcountedAnswers :
        AnswersReads memory (counted.setSlaveCount slaveCount).serialPort.peer := by
      change AnswersReads memory counted.serialPort.peer
      rw [(getSlaveCount_exchanged hcount).peer]
      exact hanswers
    obtain ⟨rfl, hcounted⟩ :=
      getSlaveCount_step hanswers hinStep.slaveCount hcount hcountedFull
    have hfirst : AnswersFirst (slaveIdsRequest (memory 0x206c))
        (requestSlaveIds (memory 0x206c) (counted.setSlaveCount (memory 0x206c))) := by
      rw [hcounted]
      exact hinStep.slaveIds
    have htable := getSlaveIds_step hcountedAnswers hpos hle hfirst hids hlistedFull
    have hslaveCount : after.slaveCount = memory 0x206c := by
      rw [hafter, getSlaveIds_board hids]
      rfl
    refine ⟨hslaveCount, ?_⟩
    rw [hslaveCount, hafter]
    exact htable

/-! ## Runs of the set-up -/

namespace System

/-- What the gateway knows at each stage of the set-up, as long as no read has
timed out short. -/
structure Knows (memory : ℕ → UInt8) (peer : ℕ → List UInt8 → List UInt8) (system : System) :
    Prop where
  peer : system.board.serialPort.peer = peer
  pending : system.stage = .setupMasterId → system.board.serialPort.ReadsFull →
    Pending masterIdRequest system.board.serialPort
  masterId : system.stage ≠ .setupMasterId → system.board.serialPort.ReadsFull →
    system.board.masterId = (memory 0x1fa5).toNat <<< 8 + (memory 0x1fa6).toNat
  slaves : system.stage = .running → system.board.serialPort.ReadsFull →
    system.board.slaveCount = memory 0x206c ∧
      system.board.slaveIds.toList.take system.board.slaveCount.toNat =
        registers memory 0x206d system.board.slaveCount.toNat

theorem Knows.setupMasterId
    {memory : ℕ → UInt8} {peer : ℕ → List UInt8 → List UInt8} {system next : System}
    (hanswers : AnswersReads memory peer) (hknows : system.Knows memory peer)
    (hstage : system.stage = .setupMasterId)
    (hstep : system.setup GatewayManager.setupMasterId .setupSlaveIds = some next) :
    next.Knows memory peer := by
  obtain ⟨success, board, hsetup, rfl⟩ := setup_eq_some hstep
  have hexchanged := setupMasterId_exchanged hsetup
  have houtcome := fun hfull : board.serialPort.ReadsFull =>
    setupMasterId_step (hknows.peer ▸ hanswers)
      (hknows.pending hstage (Serial.readsFull_of_trace hexchanged.trace hfull)) hsetup hfull
  constructor
  · exact hexchanged.peer.trans hknows.peer
  · intro hlast hfull
    rcases houtcome hfull with ⟨_, hpending⟩ | ⟨htrue, _⟩
    · exact hpending
    · rw [htrue] at hlast
      cases hlast
  · intro hlast hfull
    rcases houtcome hfull with ⟨hfalse, _⟩ | ⟨_, hmasterId⟩
    · rw [hfalse] at hlast
      exact absurd hstage hlast
    · exact hmasterId
  · intro hlast
    cases success with
    | false =>
        change system.stage = .running at hlast
        rw [hstage] at hlast
        cases hlast
    | true => cases hlast

theorem Knows.setupSlaveIds
    {memory : ℕ → UInt8} {peer : ℕ → List UInt8 → List UInt8} {system next : System}
    (hanswers : AnswersReads memory peer) (hpos : 0 < (memory 0x206c).toNat)
    (hle : (memory 0x206c).toNat ≤ 127) (hknows : system.Knows memory peer)
    (hstage : system.stage = .setupSlaveIds)
    (hinStep : next.stage = .running → InStep memory system.board)
    (hstep : system.setup GatewayManager.setupSlaveIds .running = some next) :
    next.Knows memory peer := by
  obtain ⟨success, board, hsetup, rfl⟩ := setup_eq_some hstep
  obtain ⟨requests, hexchanged, _⟩ := setupSlaveIds_exchanged hsetup
  have hne : system.stage ≠ .setupMasterId := by
    rw [hstage]
    decide
  constructor
  · exact hexchanged.peer.trans hknows.peer
  · intro hlast
    cases success with
    | false => exact absurd hlast hne
    | true => cases hlast
  · intro _ hfull
    exact (setupSlaveIds_masterId hsetup).trans
      (hknows.masterId hne (Serial.readsFull_of_trace hexchanged.trace hfull))
  · intro hlast hfull
    cases success with
    | false =>
        change system.stage = .running at hlast
        rw [hstage] at hlast
        cases hlast
    | true => exact setupSlaveIds_step (hknows.peer ▸ hanswers) hpos hle (hinStep rfl) hsetup hfull

end System

end IotGateway
