import IotGateway.Library.Faults
import IotGateway.Setup

/-!
# Accesses to the data of a received packet

`ParseCommand`, `ParseMasterId` and `GetSlaveCount` index the data of a packet
that may hold any number of bytes up to 127.  This file determines, for each
of them, the packets on which the index stays in range.
-/

namespace IotGateway

open Faults GatewayManager

/-! ## The length of the data -/

theorem ofParts_data_length
    {header : ResponseHeader} {body : List UInt8} {tail : PacketTail}
    {packet : ResponsePacket}
    (hparts : ResponsePacket.ofParts header body tail = .ok packet) :
    packet.body.data.length = body.length - 2 := by
  match body, hparts with
  | [], hparts =>
      cases hparts
      rfl
  | _ :: _ :: _, hparts =>
      cases hparts
      rfl

/-- A received packet has the data that its length byte announces, at most 127
bytes of it: missing bytes are the zeros that the body was filled with. -/
theorem receivePacket_data_length
    {port last : Serial} {packet : ResponsePacket}
    (hcall : receivePacket port = (.ok (packet, .kSuccessReceive), last)) :
    packet.body.data.length = packet.header.dataLength.toNat - 2 ∧
      packet.header.dataLength.toNat ≤ 129 := by
  obtain ⟨start, rest, after, body, tail, _, _, hreads, hparts⟩ :=
    exists_frameReads_of_success hcall
  have hdata := ofParts_data_length hparts
  have hsmall := hreads.small
  rw [bodyVector_length hreads.body_length_le] at hdata
  rw [gt_iff_lt, UInt8.lt_iff_toNat_lt] at hsmall
  change ¬ 129 < _ at hsmall
  rw [ResponsePacket.ofParts_header hparts]
  exact ⟨hdata, by omega⟩

/-! ## The accesses, one by one -/

theorem faultOf_dataAt (packet : ResponsePacket) (index : ℕ) :
    faultOf (dataAt packet index) =
      if packet.body.data.length ≤ index then some .bodyData else none := by
  unfold dataAt
  split
  next byte hbyte =>
    have hlt := (List.getElem?_eq_some_iff.mp hbyte).1
    rw [if_neg (by omega)]
    rfl
  next hnone =>
    rw [if_pos (List.getElem?_eq_none_iff.mp hnone)]
    rfl

theorem faultOf_dataAt_two {α : Type} (packet : ResponsePacket) (index : ℕ)
    {next : UInt8 → UInt8 → Except Fault α}
    (hnext : ∀ first second, faultOf (next first second) = none) :
    faultOf (do
      let first ← dataAt packet index
      let second ← dataAt packet (index + 1)
      next first second) =
      if packet.body.data.length ≤ index + 1 then some .bodyData else none := by
  have hfirst := faultOf_dataAt packet index
  cases hdata : dataAt packet index with
  | error fault =>
      rw [hdata] at hfirst
      split at hfirst
      next hle =>
        rw [if_pos (by omega)]
        exact hfirst
      next => cases hfirst
  | ok first =>
      change faultOf (dataAt packet (index + 1) >>= next first) = _
      rw [faultOf_bind_total _ (hnext first)]
      exact faultOf_dataAt packet (index + 1)

theorem faultOf_publishTemperature (board : MasterBoard) (packet : ResponsePacket) :
    faultOf (publishTemperature board packet) =
      if packet.body.data.length ≤ 1 then some .bodyData else none :=
  faultOf_dataAt_two packet 0 fun _ _ => rfl

theorem faultOf_publishSensorStateTopic
    (board : MasterBoard) (packet : ResponsePacket) (sensorName : String) :
    faultOf (publishSensorStateTopic board packet sensorName) =
      if 2 < packet.header.dataLength.toNat ∧ packet.body.data.length ≤ 3 then
        some .bodyData
      else none := by
  unfold publishSensorStateTopic
  by_cases hshort : packet.header.dataLength ≤ 2
  · have hle : packet.header.dataLength.toNat ≤ 2 := UInt8.le_iff_toNat_le.mp hshort
    rw [if_pos hshort, if_neg (by omega)]
    rfl
  · have hlong : 2 < packet.header.dataLength.toNat := by
      rw [UInt8.le_iff_toNat_le] at hshort
      change ¬ _ ≤ 2 at hshort
      omega
    rw [if_neg hshort, faultOf_dataAt_two packet 2 fun _ _ => rfl]
    simp only [hlong, true_and]

theorem faultOf_parseMasterId (packet : ResponsePacket) :
    faultOf (parseMasterId packet) =
      if packet.body.data.length ≤ 1 then some .bodyData else none :=
  faultOf_dataAt_two packet 0 fun _ _ => rfl

theorem faultOf_parseMemoryRead
    (build : Build) (board : MasterBoard) (packet : ResponsePacket) (address : ℕ) :
    faultOf (parseMemoryRead build board packet address) =
      if (kTemperatureStart ≤ address ∧ address ≤ kTemperatureEnd) ∧
          packet.body.data.length ≤ 1 then some .bodyData
      else none := by
  unfold parseMemoryRead
  by_cases htemperature : kTemperatureStart ≤ address ∧ address ≤ kTemperatureEnd
  · rw [if_pos htemperature, faultOf_publishTemperature]
    simp only [htemperature, true_and, and_self]
  · have hright : ¬ ((kTemperatureStart ≤ address ∧ address ≤ kTemperatureEnd) ∧
        packet.body.data.length ≤ 1) := fun h => htemperature h.1
    rw [if_neg htemperature, if_neg hright]
    repeat' split
    all_goals rfl

theorem faultOf_parseEmergency
    (build : Build) (board : MasterBoard) (packet : ResponsePacket) (address : ℕ) :
    faultOf (parseEmergency build board packet address) =
      if (kMotorStart ≤ address ∧ address ≤ kFanEnd) ∧
          2 < packet.header.dataLength.toNat ∧ packet.body.data.length ≤ 3 then
        some .bodyData
      else none := by
  have hsensor := faultOf_publishSensorStateTopic board packet
  unfold parseEmergency kTemperatureStart kTemperatureEnd kHumidityStart kHumidityEnd
    kMotorStart kMotorEnd kLedStart kLedEnd kFanStart kFanEnd
  by_cases hrange : 4000 ≤ address ∧ address ≤ 4179
  · rw [if_neg (by omega), if_neg (by omega)]
    simp only [hrange, true_and, and_true]
    by_cases hmotor : address ≤ 4059
    · rw [if_pos hmotor, faultOf_bind_total _ fun _ => rfl, hsensor]
    · rw [if_neg hmotor]
      by_cases hled : 4060 ≤ address ∧ address ≤ 4119
      · rw [if_pos hled, faultOf_bind_total _ fun _ => rfl, hsensor]
      · have hfan : 4120 ≤ address := by omega
        rw [if_neg hled, if_pos hfan, faultOf_bind_total _ fun _ => rfl, hsensor]
  · have hright : ¬ ((4000 ≤ address ∧ address ≤ 4179) ∧
        2 < packet.header.dataLength.toNat ∧ packet.body.data.length ≤ 3) :=
      fun h => hrange h.1
    have hmotor : ¬ (4000 ≤ address ∧ address ≤ 4059) := by omega
    have hled : ¬ (4060 ≤ address ∧ address ≤ 4119) := by omega
    have hfan : ¬ (4120 ≤ address ∧ address ≤ 4179) := by omega
    rw [if_neg hright, if_neg hmotor, if_neg hled, if_neg hfan]
    split
    · rfl
    · split <;> rfl

theorem faultOf_parseCommand
    (build : Build) (board : MasterBoard) (packet : ResponsePacket) :
    faultOf (parseCommand build board packet) =
      if packet.header.command = kMemoryRead then
        faultOf (parseMemoryRead build board packet (targetMemoryAddress packet))
      else if packet.header.command = kEmergency then
        faultOf (parseEmergency build board packet (targetMemoryAddress packet))
      else none := by
  unfold parseCommand
  by_cases hpolling : packet.header.command = kPolling
  · rw [if_pos hpolling, hpolling]
    rfl
  · rw [if_neg hpolling]
    by_cases hread : packet.header.command = kMemoryRead
    · rw [if_pos hread, if_pos hread]
      exact faultOf_bind_total _ fun _ => rfl
    · rw [if_neg hread, if_neg hread]
      by_cases hwrite : packet.header.command = kMemoryWrite
      · rw [if_pos hwrite, hwrite]
        rfl
      · rw [if_neg hwrite]
        split
        · exact faultOf_bind_total _ fun _ => rfl
        · rfl

/-! ## The three places where a packet is used -/

/-- Who takes the next packet from the port. -/
inductive PacketUse where
  | listeningMaster (build : Build)
  | setupMasterId
  | setupSlaveIds
  deriving DecidableEq, Repr

namespace PacketUse

def requested : PacketUse → MasterBoard → MasterBoard
  | .listeningMaster _, board => board
  | .setupMasterId, board => requestMasterId board
  | .setupSlaveIds, board => requestSlaveCount board

def fault : PacketUse → MasterBoard → Option Fault
  | .listeningMaster build, board => faultOf (GatewayManager.listeningMaster build board)
  | .setupMasterId, board => faultOf (GatewayManager.setupMasterId board)
  | .setupSlaveIds, board => faultOf (GatewayManager.setupSlaveIds board)

/-- The length bytes with which a packet is long enough for its use. -/
def LongEnough (packet : ResponsePacket) : PacketUse → Prop
  | .listeningMaster _ =>
      (packet.header.command = kMemoryRead →
        kTemperatureStart ≤ targetMemoryAddress packet →
        targetMemoryAddress packet ≤ kTemperatureEnd →
          4 ≤ packet.header.dataLength.toNat) ∧
      (packet.header.command = kEmergency →
        kMotorStart ≤ targetMemoryAddress packet →
        targetMemoryAddress packet ≤ kFanEnd →
          packet.header.dataLength.toNat ≤ 2 ∨ 6 ≤ packet.header.dataLength.toNat)
  | .setupMasterId => 4 ≤ packet.header.dataLength.toNat
  | .setupSlaveIds => 3 ≤ packet.header.dataLength.toNat

end PacketUse

theorem receiveValid_data_length
    {board board' : MasterBoard} {packet : ResponsePacket}
    (hreceive : receiveValid board = .ok (some packet, board')) :
    packet.body.data.length = packet.header.dataLength.toNat - 2 := by
  obtain ⟨port, hcall, _, _⟩ := receiveValid_eq_some_iff.mp hreceive
  exact (receivePacket_data_length hcall).1

theorem faultOf_listeningMaster
    {build : Build} {board board' : MasterBoard} {packet : ResponsePacket}
    (hreceive : receiveValid board = .ok (some packet, board')) :
    faultOf (GatewayManager.listeningMaster build board) =
      faultOf (parseCommand build board' packet) := by
  unfold GatewayManager.listeningMaster
  rw [bind_of_ok hreceive]
  exact faultOf_bind_total _ fun _ => rfl

theorem exists_listened
    {build : Build} {board : MasterBoard} {packet : ResponsePacket}
    (hreceived : received board = some packet)
    (hfault : faultOf (parseCommand build (afterReceive board) packet) = none) :
    ∃ listened, GatewayManager.listeningMaster build board = .ok listened := by
  have hreceive := received_eq_some_iff.mp hreceived
  apply exists_of_faultOf_eq_none
  rw [faultOf_listeningMaster hreceive]
  exact hfault

theorem faultOf_setupMasterId
    {board board' : MasterBoard} {packet : ResponsePacket}
    (hreceive : receiveValid (requestMasterId board) = .ok (some packet, board')) :
    faultOf (GatewayManager.setupMasterId board) = faultOf (parseMasterId packet) := by
  unfold GatewayManager.setupMasterId
  rw [bind_of_ok hreceive]
  exact faultOf_bind_total _ fun _ => rfl

theorem faultOf_copySlaveIds_ne (data : List UInt8) :
    faultOf (copySlaveIds data) ≠ some .bodyData := by
  unfold copySlaveIds
  split <;> simp

theorem faultOf_slaveIdAt_ne (board : MasterBoard) (index : ℕ) :
    faultOf (board.slaveIdAt index) ≠ some .bodyData := by
  unfold MasterBoard.slaveIdAt
  split <;> simp

theorem faultOf_receiveValid_ne (board : MasterBoard) :
    faultOf (receiveValid board) ≠ some .bodyData := by
  unfold receiveValid
  split
  next fault port hcall =>
    have hpacket : fault = .packetBody := receivePacket_fault (congrArg Prod.fst hcall)
    simp [hpacket]
  next =>
    simp only
    split <;> simp

theorem faultOf_getSlaveIds_ne (slaveCount : UInt8) (board : MasterBoard) :
    faultOf (getSlaveIds slaveCount board) ≠ some .bodyData := by
  intro hfault
  unfold getSlaveIds at hfault
  rcases faultOf_bind_eq_some hfault with hreceive | ⟨⟨received, board'⟩, _, hnext⟩
  · exact faultOf_receiveValid_ne _ hreceive
  · cases received with
    | none => cases hnext
    | some packet =>
        rw [faultOf_bind_total _ fun _ => rfl] at hnext
        exact faultOf_copySlaveIds_ne _ hnext

theorem faultOf_setupSlaveIds
    {board board' : MasterBoard} {packet : ResponsePacket}
    (hreceive : receiveValid (requestSlaveCount board) = .ok (some packet, board')) :
    faultOf (GatewayManager.setupSlaveIds board) = some .bodyData ↔
      faultOf (dataAt packet 0) = some .bodyData := by
  have hcount : getSlaveCount board =
      dataAt packet 0 >>= fun slaveCount => pure ((slaveCount, true), board') := by
    change receiveValid (requestSlaveCount board) >>= _ = _
    rw [hreceive]
    rfl
  unfold GatewayManager.setupSlaveIds
  rw [hcount]
  cases hdata : dataAt packet 0 with
  | error fault => exact Iff.rfl
  | ok slaveCount =>
      constructor
      · intro hfault
        change faultOf (getSlaveIds slaveCount _ >>= _) = _ at hfault
        rcases faultOf_bind_eq_some hfault with hids | ⟨⟨⟨ids, success⟩, last⟩, _, hnext⟩
        · exact absurd hids (faultOf_getSlaveIds_ne _ _)
        · cases success with
          | false => cases hnext
          | true =>
              change faultOf (List.mapM _ _ >>= _) = _ at hnext
              rw [faultOf_bind_total _ fun _ => rfl] at hnext
              obtain ⟨index, _, hindex⟩ := faultOf_mapM_eq_some hnext
              exact absurd hindex (faultOf_slaveIdAt_ne _ _)
      · intro hfault
        cases hfault

/-- In each of its three uses a packet with a valid checksum is indexed within
its data iff it is long enough for the use. -/
theorem fault_ne_bodyData_iff
    (use : PacketUse) {board : MasterBoard} {packet : ResponsePacket}
    (hreceived : received (use.requested board) = some packet) :
    use.fault board ≠ some .bodyData ↔ use.LongEnough packet := by
  have hreceive := received_eq_some_iff.mp hreceived
  have hdata := receiveValid_data_length hreceive
  cases use with
  | listeningMaster build =>
      change receiveValid board = _ at hreceive
      change faultOf (GatewayManager.listeningMaster build board) ≠ _ ↔ _
      rw [faultOf_listeningMaster hreceive, faultOf_parseCommand,
        faultOf_parseMemoryRead, faultOf_parseEmergency, hdata]
      unfold PacketUse.LongEnough
      by_cases hread : packet.header.command = kMemoryRead
      · have hemergency : kMemoryRead ≠ kEmergency := by decide
        simp only [hread, if_true, hemergency, false_implies, true_implies, and_true]
        split <;> simp <;> omega
      · by_cases hemergency : packet.header.command = kEmergency
        · have hread' : kEmergency ≠ kMemoryRead := by decide
          simp only [hemergency, hread', if_true, if_false, false_implies,
            true_implies, true_and]
          split <;> simp <;> omega
        · simp [hread, hemergency]
  | setupMasterId =>
      change receiveValid (requestMasterId board) = _ at hreceive
      change faultOf (GatewayManager.setupMasterId board) ≠ _ ↔ _
      rw [faultOf_setupMasterId hreceive, faultOf_parseMasterId, hdata]
      unfold PacketUse.LongEnough
      split <;> simp <;> omega
  | setupSlaveIds =>
      change receiveValid (requestSlaveCount board) = _ at hreceive
      change faultOf (GatewayManager.setupSlaveIds board) ≠ _ ↔ _
      rw [ne_eq, faultOf_setupSlaveIds hreceive, faultOf_dataAt, hdata]
      unfold PacketUse.LongEnough
      split <;> simp <;> omega

theorem fault_ne_bodyData_iff_temperature :
    PacketUse.fault (.listeningMaster .release)
      (boardReceiving
        [0x23, 0x22, 0x05, 0xc1, 0x80, 0x04, 0x07, 0xd0, 0x01, 0x80, 0xe7, 0x0d]) ≠
      some .bodyData :=
  (fault_ne_bodyData_iff (.listeningMaster .release)
    (by decide +kernel : received _ = some
      ⟨⟨0x23, 0x22, 0x05, 0xc1, 0x80, 0x04⟩, ⟨0x07, 0xd0, [0x01, 0x80]⟩,
        ⟨0xe7, 0x0d⟩⟩)).mpr (by unfold PacketUse.LongEnough; decide)

theorem emptyTemperature_bodyData :
    ¬ ∀ (use : PacketUse) (board : MasterBoard) (packet : ResponsePacket),
      received (use.requested board) = some packet →
        use.fault board ≠ some .bodyData := by
  intro hall
  apply hall (.listeningMaster .release)
    (boardReceiving [0x23, 0x22, 0x05, 0xc1, 0x80, 0x02, 0x07, 0xd0, 0x64, 0x0d])
    ⟨⟨0x23, 0x22, 0x05, 0xc1, 0x80, 0x02⟩, ⟨0x07, 0xd0, []⟩, ⟨0x64, 0x0d⟩⟩
  · decide +kernel
  · decide +kernel

end IotGateway
