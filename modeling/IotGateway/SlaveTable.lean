import IotGateway.BodyAccess

/-!
# The slave table

The slave count and the slave ids come from two replies of the master board and
are stored separately.  This file determines for which pairs of replies they
fit together, so that later temperature requests go to the reported slaves.
-/

namespace IotGateway

open Faults GatewayManager

theorem slaveIdAt_of_lt (board : MasterBoard) {index : ℕ} (hindex : index < kMaxSlaveCount) :
    board.slaveIdAt index = .ok (board.slaveIds.toList.getD index 0) := by
  unfold MasterBoard.slaveIdAt
  rw [dif_pos hindex]
  simp [hindex]

theorem requestTemperature_eq {board : MasterBoard}
    (hcount : board.slaveCount.toNat ≤ kMaxSlaveCount) :
    requestTemperature board =
      .ok ((board.slaveIds.toList.take board.slaveCount.toNat).map temperatureRequest) := by
  have hround : ∀ index ∈ List.range board.slaveCount.toNat,
      (do
        let slaveId ← board.slaveIdAt index
        return temperatureRequest slaveId : Except Fault (List UInt8)) =
        .ok (temperatureRequest (board.slaveIds.toList.getD index 0)) := by
    intro index hmem
    have hindex : index < kMaxSlaveCount :=
      Nat.lt_of_lt_of_le (List.mem_range.mp hmem) hcount
    rw [slaveIdAt_of_lt board hindex]
    rfl
  unfold requestTemperature
  rw [mapM_eq_ok_map hround]
  congr 1
  apply List.ext_getElem
  · simp [hcount]
  · intro index hleft hright
    have hindex : index < kMaxSlaveCount := by
      simp only [List.length_map, List.length_range] at hleft
      omega
    simp [hindex]

/-! ## The copied ids -/

theorem copySlaveIds_of_le {data : List UInt8} (hdata : data.length ≤ kMaxSlaveCount) :
    ∃ slaveIds, copySlaveIds data = .ok slaveIds ∧
      slaveIds.toList = data ++ List.replicate (kMaxSlaveCount - data.length) 0 := by
  refine ⟨Vector.ofFn fun index => data.getD index 0, if_pos hdata, ?_⟩
  apply List.ext_getElem
  · simp [hdata]
  · intro index hleft hright
    by_cases hindex : index < data.length
    · simp [hindex]
    · simp [hindex, List.getElem_append_right (Nat.not_lt.mp hindex)]

theorem received_data_length_le {board : MasterBoard} {packet : ResponsePacket}
    (hreceived : received board = some packet) :
    packet.body.data.length ≤ kMaxSlaveCount := by
  obtain ⟨port, hcall, _, _⟩ :=
    receiveValid_eq_some_iff.mp (received_eq_some_iff.mp hreceived)
  obtain ⟨hdata, hlength⟩ := receivePacket_data_length hcall
  unfold kMaxSlaveCount
  omega

/-- The ids of every reply that is copied fit into the array, which then holds
these ids and zeros behind them. -/
theorem getSlaveIds_copies
    {slaveCount : UInt8} {board : MasterBoard} {packet : ResponsePacket}
    (hreceived : received (requestSlaveIds slaveCount board) = some packet) :
    packet.body.data.length ≤ 127 ∧
      ∃ slaveIds : Vector UInt8 127,
        getSlaveIds slaveCount board =
          .ok ((slaveIds, true), afterReceive (requestSlaveIds slaveCount board)) ∧
        slaveIds.toList =
          packet.body.data ++ List.replicate (127 - packet.body.data.length) 0 := by
  have hfits := received_data_length_le hreceived
  obtain ⟨slaveIds, hcopy, hids⟩ := copySlaveIds_of_le hfits
  refine ⟨hfits, slaveIds, ?_, hids⟩
  unfold getSlaveIds
  rw [bind_of_ok (received_eq_some_iff.mp hreceived)]
  change copySlaveIds packet.body.data >>= _ = _
  rw [hcopy]
  rfl

theorem getSlaveIds_copies_twoSlaves :
    ∃ slaveIds : Vector UInt8 127,
      getSlaveIds 2 (boardReceiving
          [0x23, 0x27, 0xff, 0xc1, 0x80, 0x04, 0x20, 0x6d, 0x05, 0x09, 0x29, 0x0d]) =
        .ok ((slaveIds, true), afterReceive (requestSlaveIds 2 (boardReceiving
          [0x23, 0x27, 0xff, 0xc1, 0x80, 0x04, 0x20, 0x6d, 0x05, 0x09, 0x29, 0x0d]))) ∧
      slaveIds.toList = [0x05, 0x09] ++ List.replicate 125 0 :=
  (getSlaveIds_copies (by decide +kernel : received _ =
    some ⟨⟨0x23, 0x27, 0xff, 0xc1, 0x80, 0x04⟩, ⟨0x20, 0x6d, [0x05, 0x09]⟩,
      ⟨0x29, 0x0d⟩⟩)).2

/-! ## A set-up that receives both replies -/

def idsRequested (board : MasterBoard) (slaveCount : UInt8) : MasterBoard :=
  requestSlaveIds slaveCount
    ((afterReceive (requestSlaveCount board)).setSlaveCount slaveCount)

/-- The board receives a count reply whose first data byte is `slaveCount` and
then an id reply, both with valid checksums. -/
structure SlaveReplies (board : MasterBoard) (countReply : ResponsePacket)
    (slaveCount : UInt8) (idsReply : ResponsePacket) : Prop where
  countReceived : received (requestSlaveCount board) = some countReply
  count : countReply.body.data.head? = some slaveCount
  idsReceived : received (idsRequested board slaveCount) = some idsReply

theorem setupSlaveIds_of_replies
    {board : MasterBoard} {countReply idsReply : ResponsePacket} {slaveCount : UInt8}
    {slaveIds : Vector UInt8 kMaxSlaveCount}
    (hreplies : SlaveReplies board countReply slaveCount idsReply)
    (hcopy : copySlaveIds idsReply.body.data = .ok slaveIds) :
    setupSlaveIds board =
      (List.range slaveCount.toNat).mapM
          ((afterReceive (idsRequested board slaveCount)).setSlaveIds slaveIds).slaveIdAt >>=
        fun _ => pure
          (true, (afterReceive (idsRequested board slaveCount)).setSlaveIds slaveIds) := by
  have hdata : dataAt countReply 0 = .ok slaveCount := by
    have hcount := hreplies.count
    rw [List.head?_eq_getElem?] at hcount
    unfold dataAt
    rw [hcount]
  have hgetCount : getSlaveCount board =
      .ok ((slaveCount, true), afterReceive (requestSlaveCount board)) := by
    change receiveValid (requestSlaveCount board) >>= _ = _
    rw [received_eq_some_iff.mp hreplies.countReceived]
    change dataAt countReply 0 >>= _ = _
    rw [hdata]
    rfl
  have hgetIds : getSlaveIds slaveCount
      ((afterReceive (requestSlaveCount board)).setSlaveCount slaveCount) =
      .ok ((slaveIds, true), afterReceive (idsRequested board slaveCount)) := by
    change receiveValid (idsRequested board slaveCount) >>= _ = _
    rw [received_eq_some_iff.mp hreplies.idsReceived]
    change copySlaveIds idsReply.body.data >>= _ = _
    rw [hcopy]
    rfl
  unfold setupSlaveIds
  rw [hgetCount]
  change getSlaveIds slaveCount _ >>= _ = _
  rw [hgetIds]
  rfl

theorem exists_setupSlaveIds
    {board : MasterBoard} {countReply idsReply : ResponsePacket} {slaveCount : UInt8}
    (hreplies : SlaveReplies board countReply slaveCount idsReply) :
    ∃ after, after.slaveCount = slaveCount ∧
      after.slaveIds.toList.take idsReply.body.data.length = idsReply.body.data ∧
      setupSlaveIds board =
        (List.range slaveCount.toNat).mapM after.slaveIdAt >>= fun _ => pure (true, after) := by
  obtain ⟨slaveIds, hcopy, hids⟩ :=
    copySlaveIds_of_le (received_data_length_le hreplies.idsReceived)
  have htake : slaveIds.toList.take idsReply.body.data.length = idsReply.body.data := by
    rw [hids, List.take_left]
  exact ⟨(afterReceive (idsRequested board slaveCount)).setSlaveIds slaveIds, rfl, htake,
    setupSlaveIds_of_replies hreplies hcopy⟩

/-- If the set-up succeeds, the table holds exactly the ids that were reported,
and whenever temperatures are requested later, the requests go to them in order;
it never reads or writes outside the table. -/
def SlaveTableAgrees (board : MasterBoard) (reported : List UInt8) : Prop :=
  match setupSlaveIds board with
  | .error _ => False
  | .ok (false, _) => True
  | .ok (true, after) =>
      after.slaveCount.toNat ≤ kMaxSlaveCount ∧
        reported.length = after.slaveCount.toNat ∧
        after.slaveIds.toList.take after.slaveCount.toNat = reported ∧
        ∀ later : MasterBoard, later.slaveCount = after.slaveCount →
          later.slaveIds = after.slaveIds →
            requestTemperature later = .ok (reported.map fun slaveId =>
              [0x23, 0x22, slaveId, 0xc1, 0x02, 0x07, 0xd0,
                0x23 + 0x22 + slaveId + 0xc1 + 0x02 + 0x07 + 0xd0, 0x0d])

theorem slaveTableAgrees_of_fits
    {board : MasterBoard} {countReply idsReply : ResponsePacket} {slaveCount : UInt8}
    (hreplies : SlaveReplies board countReply slaveCount idsReply)
    (hcount : slaveCount.toNat ≤ kMaxSlaveCount)
    (hsame : idsReply.body.data.length = slaveCount.toNat) :
    SlaveTableAgrees board idsReply.body.data := by
  obtain ⟨after, rfl, htable, hsetup⟩ := exists_setupSlaveIds hreplies
  have hprint := mapM_eq_ok_map fun index hmem =>
    slaveIdAt_of_lt after (Nat.lt_of_lt_of_le (List.mem_range.mp hmem) hcount)
  have hrequests := requestTemperature_eq hcount
  rw [hsame] at htable
  rw [htable] at hrequests
  unfold SlaveTableAgrees
  rw [hsetup, hprint]
  refine ⟨hcount, hsame, htable, fun later hlaterCount hlaterIds => ?_⟩
  rw [requestTemperature_congr hlaterCount hlaterIds, hrequests, funext temperatureRequest_eq]

theorem SlaveTableAgrees.fits
    {board : MasterBoard} {countReply idsReply : ResponsePacket} {slaveCount : UInt8}
    (hagrees : SlaveTableAgrees board idsReply.body.data)
    (hreplies : SlaveReplies board countReply slaveCount idsReply) :
    slaveCount.toNat ≤ kMaxSlaveCount ∧
      idsReply.body.data.length = slaveCount.toNat := by
  obtain ⟨after, rfl, _, hsetup⟩ := exists_setupSlaveIds hreplies
  unfold SlaveTableAgrees at hagrees
  rw [hsetup] at hagrees
  cases hprint : (List.range after.slaveCount.toNat).mapM after.slaveIdAt with
  | ok ids =>
      rw [hprint] at hagrees
      rcases hagrees with ⟨hcount, hsame, _, _⟩
      exact ⟨hcount, hsame⟩
  | error fault =>
      rw [hprint] at hagrees
      exact hagrees.elim

/-- The slave table agrees with the board iff the reported count fits into the
table and is the number of reported ids. -/
theorem slaveTableAgrees_iff
    {board : MasterBoard} {countReply idsReply : ResponsePacket} {slaveCount : UInt8}
    (hreplies : SlaveReplies board countReply slaveCount idsReply) :
    SlaveTableAgrees board idsReply.body.data ↔
      slaveCount.toNat ≤ kMaxSlaveCount ∧
        idsReply.body.data.length = slaveCount.toNat := by
  constructor
  · exact fun hagrees => hagrees.fits hreplies
  · rintro ⟨hcount, hsame⟩
    exact slaveTableAgrees_of_fits hreplies hcount hsame

theorem slaveTableAgrees_iff_twoSlaves :
    SlaveTableAgrees
      (boardReceiving
        [0x23, 0x21, 0xff, 0xc1, 0x80, 0x03, 0x20, 0x6c, 0x02, 0x15, 0x0d,
          0x23, 0x27, 0xff, 0xc1, 0x80, 0x04, 0x20, 0x6d, 0x05, 0x09, 0x29, 0x0d])
      [0x05, 0x09] := by
  have hreplies : SlaveReplies _ _ 0x02 _ :=
    ⟨(by decide +kernel : received (requestSlaveCount (boardReceiving
        [0x23, 0x21, 0xff, 0xc1, 0x80, 0x03, 0x20, 0x6c, 0x02, 0x15, 0x0d,
          0x23, 0x27, 0xff, 0xc1, 0x80, 0x04, 0x20, 0x6d, 0x05, 0x09, 0x29, 0x0d])) =
      some ⟨⟨0x23, 0x21, 0xff, 0xc1, 0x80, 0x03⟩, ⟨0x20, 0x6c, [0x02]⟩, ⟨0x15, 0x0d⟩⟩),
    rfl,
    (by decide +kernel : _ =
      some ⟨⟨0x23, 0x27, 0xff, 0xc1, 0x80, 0x04⟩, ⟨0x20, 0x6d, [0x05, 0x09]⟩,
        ⟨0x29, 0x0d⟩⟩)⟩
  exact (slaveTableAgrees_iff hreplies).mpr (by decide)

/-- Two slaves are counted, but only one id is reported. -/
theorem missingSlaveId_disagrees :
    ¬ ∀ (board : MasterBoard) (countReply idsReply : ResponsePacket) (slaveCount : UInt8),
      SlaveReplies board countReply slaveCount idsReply →
        SlaveTableAgrees board idsReply.body.data := by
  intro hall
  have hreplies : SlaveReplies
      (boardReceiving
        [0x23, 0x21, 0xff, 0xc1, 0x80, 0x03, 0x20, 0x6c, 0x02, 0x15, 0x0d,
          0x23, 0x27, 0xff, 0xc1, 0x80, 0x03, 0x20, 0x6d, 0x05, 0x1f, 0x0d])
      ⟨⟨0x23, 0x21, 0xff, 0xc1, 0x80, 0x03⟩, ⟨0x20, 0x6c, [0x02]⟩, ⟨0x15, 0x0d⟩⟩ 0x02
      ⟨⟨0x23, 0x27, 0xff, 0xc1, 0x80, 0x03⟩, ⟨0x20, 0x6d, [0x05]⟩, ⟨0x1f, 0x0d⟩⟩ :=
    ⟨by decide +kernel, rfl, by decide +kernel⟩
  have hfits := (hall _ _ _ _ hreplies).fits hreplies
  exact absurd hfits.2 (by decide)

end IotGateway
