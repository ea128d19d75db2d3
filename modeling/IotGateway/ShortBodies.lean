import IotGateway.MasterBoard
import IotGateway.ReceivePacket

/-!
# Bodies of one byte

The constructor of a packet takes two bytes from every body that is not empty.
A call of `receivePacket` gets into a body of one byte only when the length
byte says one and nothing behind the header is late.
-/

namespace IotGateway

/-- The scan ends on a header that announces a body of one byte, and this byte
and a byte of the tail arrive in time. -/
def MeetsOneByteBody (port : Serial) : Prop :=
  ∃ (start after : Serial) (idx targetId command errorCode body : UInt8),
    Scans port start ∧ HeaderAt start [idx, targetId, command, errorCode, 1] after ∧
      (after.read 1).1 = [body] ∧ ((after.read 1).2.read 1).1 ≠ []

theorem tailRead_ne_nil_iff (port : Serial) :
    (tailRead port).1 ≠ [] ↔ (port.read 1).1 ≠ [] := by
  rw [tailRead_eq_reads]
  by_cases hnil : (port.read 1).1 = []
  · rw [if_pos hnil, hnil]
  · rw [if_neg hnil]
    simp [hnil]

theorem overwrite_eq_five {rest : List UInt8} (hlength : rest.length ≤ 5)
    (hone : (ResponseHeader.overwrite rest).dataLength = 1) :
    ∃ idx targetId command errorCode, rest = [idx, targetId, command, errorCode, 1] := by
  have hlast : rest.getD 4 0 = 1 := hone
  match rest, hlength, hlast with
  | [idx, targetId, command, errorCode, dataLength], _, hlast =>
      obtain rfl : dataLength = 1 := hlast
      exact ⟨idx, targetId, command, errorCode, rfl⟩
  | [], _, hlast => cases hlast
  | [_], _, hlast => cases hlast
  | [_, _], _, hlast => cases hlast
  | [_, _, _], _, hlast => cases hlast
  | [_, _, _, _], _, hlast => cases hlast

/-- Only a length byte of one gives the constructor a body of one byte. -/
theorem meetsOneByteBody_of_frameReads
    {port start after last : Serial} {rest body tail : List UInt8}
    (hscan : Scans port start) (hat : HeaderAt start rest after)
    (hreads : FrameReads (.overwrite rest) after body tail last)
    (hone : (ResponseHeader.overwrite rest).dataLength = 1) : MeetsOneByteBody port := by
  obtain ⟨idx, targetId, command, errorCode, rfl⟩ :=
    overwrite_eq_five hat.rest_length_le hone
  have hbody := hreads.bodyRead_fst
  have htail := hreads.tailRead_eq
  have hbody_ne := hreads.body_ne_nil (by decide : (1 : UInt8) > 0)
  have hbody_le := hreads.body_length_le
  change (after.read 1).1 = body at hbody
  change tailRead (after.read 1).2 = (tail, last) at htail
  change body.length ≤ 1 at hbody_le
  have hlength : body.length = 1 := by
    have hpos := List.length_pos_iff.mpr hbody_ne
    omega
  obtain ⟨byte, rfl⟩ := List.length_eq_one_iff.mp hlength
  refine ⟨start, after, idx, targetId, command, errorCode, byte, hscan, hat, hbody, ?_⟩
  rw [← tailRead_ne_nil_iff, htail]
  exact hreads.tail_ne_nil

theorem receivePacket_of_oneByteBody {port : Serial} (hmeets : MeetsOneByteBody port) :
    (receivePacket port).1 = .error .packetBody := by
  obtain ⟨start, after, idx, targetId, command, errorCode, body, hscan, hat, hbody, htail⟩ :=
    hmeets
  have hreads : FrameReads (.overwrite [idx, targetId, command, errorCode, 1]) after [body]
      (tailRead (after.read 1).2).1 (tailRead (after.read 1).2).2 := by
    constructor
    · exact (by decide : ¬ (1 : UInt8) > receivePacketMaxSlaveCount)
    · exact hbody
    · exact fun _ => List.cons_ne_nil _ _
    · rfl
    · exact (tailRead_ne_nil_iff _).mpr htail
  rw [receivePacket_of_frameReads hscan hat hreads]
  rfl

/-- A call returns a packet or a receive error code iff it does not get into a
frame with a body of one byte. -/
theorem receivePacket_returns_iff (port : Serial) :
    (∃ receipt, (receivePacket port).1 = .ok receipt) ↔ ¬ MeetsOneByteBody port := by
  constructor
  · rintro ⟨receipt, hreturns⟩ hmeets
    rw [receivePacket_of_oneByteBody hmeets] at hreturns
    cases hreturns
  · intro hmeets
    rcases receivePacket_cases port with
      ⟨last, _, _, hcall⟩ | ⟨start, rest, after, hscan, hat, hcall⟩
    · rw [hcall]
      exact ⟨_, rfl⟩
    · rcases receiveFrame_cases (.overwrite rest) after with
        ⟨code, last, _, hframe⟩ | ⟨body, tail, last, hreads⟩
      · rw [hcall, hframe]
        exact ⟨_, rfl⟩
      · have hlength : (bodyVector (.overwrite rest) body).length ≠ 1 := by
          rw [bodyVector_length hreads.body_length_le]
          intro hone
          exact hmeets (meetsOneByteBody_of_frameReads hscan hat hreads
            (UInt8.toNat_inj.mp hone))
        obtain ⟨packet, hparts⟩ := (ResponsePacket.ofParts_isOk_iff _ _ (tailOf tail)).mpr
          hlength
        rw [receivePacket_of_frameReads hscan hat hreads, hparts]
        exact ⟨_, rfl⟩

/-! ## Lines without delays -/

theorem Serial.ticks_afterByte {port : Serial} (hticks : port.ticks = 0) :
    port.afterByte.ticks = 0 :=
  (readsOnly_afterByte port).ticks_eq_zero hticks

theorem Scans.exists_noise {port start : Serial} (hscan : Scans port start)
    (hticks : port.ticks = 0) (hstart : start.stream ≠ []) :
    ∃ noise, port.stream = noise ++ start.stream ∧ kStart ∉ noise := by
  induction hscan with
  | refl port => exact ⟨[], rfl, List.not_mem_nil⟩
  | skip havailable hbyte hother hscan ih =>
      obtain ⟨noise, hstream, hnoise⟩ := ih (Serial.ticks_afterByte hticks) hstart
      refine ⟨_ :: noise, by rw [afterByte_stream hbyte, hstream]; rfl, ?_⟩
      rw [List.mem_cons, not_or]
      exact ⟨hother.symm, hnoise⟩
  | @silent port last havailable hbyte hheader hscan ih =>
      have hempty : port.afterByte.stream = [] := by
        rw [Serial.read_of_ticks_eq_zero 5 (Serial.ticks_afterByte hticks)] at hheader
        simpa using hheader
      have hreads := (Serial.readsOnly_read 5 port.afterByte).trans hscan.readsOnly
      have hsuffix := hreads.stream
      rw [hempty, List.suffix_nil] at hsuffix
      exact (hstart hsuffix).elim

theorem exists_scans_of_noise {noise back : List UInt8} {port : Serial}
    (hticks : port.ticks = 0) (hnoise : kStart ∉ noise) (hstream : port.stream = noise ++ back) :
    ∃ start, Scans port start ∧ start.ticks = 0 ∧ start.stream = back := by
  induction noise generalizing port with
  | nil => exact ⟨port, .refl port, hticks, hstream⟩
  | cons byte noise ih =>
      rw [List.mem_cons, not_or] at hnoise
      have hbyte := Serial.available_read_one hticks hstream
      have hbehind := afterByte_stream hbyte
      rw [hstream] at hbehind
      obtain ⟨start, hscan, hstart⟩ := ih (Serial.ticks_afterByte hticks) hnoise.2
        (List.cons.inj hbehind).2.symm
      have havailable := Serial.available_ne_zero hticks (by rw [hstream]; simp)
      exact ⟨start, .skip havailable hbyte (Ne.symm hnoise.1) hscan, hstart⟩

/-- When no byte is late, a call gets into a body of one byte iff the length
byte of the first frame is one and two more bytes follow it. -/
theorem meetsOneByteBody_iff_of_ticks_eq_zero {port : Serial} (hticks : port.ticks = 0) :
    MeetsOneByteBody port ↔
      ∃ noise idx targetId command errorCode body tail back, kStart ∉ noise ∧
        port.stream =
          noise ++ kStart :: [idx, targetId, command, errorCode, 1] ++ body :: tail :: back := by
  constructor
  · rintro ⟨start, after, idx, targetId, command, errorCode, body, hscan, hat, hbody, htail⟩
    have hstart := hat.stream
    have hafter := after.read_stream 1
    have hbehind := (after.read 1).2.read_stream 1
    obtain ⟨noise, hstream, hnoise⟩ := hscan.exists_noise hticks (by rw [hstart]; simp)
    match htailRead : ((after.read 1).2.read 1).1, htail with
    | tail :: late, _ =>
        refine ⟨noise, idx, targetId, command, errorCode, body, tail,
          late ++ ((after.read 1).2.read 1).2.stream, hnoise, ?_⟩
        rw [hstream, hstart, ← hafter, ← hbehind, hbody, htailRead]
        simp
  · rintro ⟨noise, idx, targetId, command, errorCode, body, tail, back, hnoise, hstream⟩
    rw [List.append_assoc] at hstream
    obtain ⟨start, hscan, hstart, hfront⟩ := exists_scans_of_noise hticks hnoise hstream
    have hbyte := Serial.available_read_one hstart hfront
    have hbehind := afterByte_stream hbyte
    rw [hfront] at hbehind
    have hafterByte := Serial.ticks_afterByte hstart
    obtain ⟨hheader, hframe⟩ := Serial.read_append_of_ticks_eq_zero
      [idx, targetId, command, errorCode, 1] hafterByte (List.cons.inj hbehind).2.symm
    have hafter := (Serial.readsOnly_read 5 start.afterByte).ticks_eq_zero hafterByte
    obtain ⟨hbody, htail⟩ := Serial.read_append_of_ticks_eq_zero [body] hafter hframe
    have hlast := (Serial.readsOnly_read 1 _).ticks_eq_zero hafter
    obtain ⟨hlastRead, _⟩ := Serial.read_append_of_ticks_eq_zero [tail] hlast htail
    refine ⟨start, (start.afterByte.read 5).2, idx, targetId, command, errorCode, body,
      hscan, ⟨?_, hbyte, Prod.ext hheader rfl, List.cons_ne_nil _ _⟩, hbody, ?_⟩
    · exact Serial.available_ne_zero hstart (by rw [hfront]; simp)
    · exact hlastRead ▸ List.cons_ne_nil tail []

theorem oneByteBody_indexed_past_end :
    ¬ ∀ port : Serial, ∃ receipt, (receivePacket port).1 = .ok receipt := by
  intro hall
  obtain ⟨receipt, hreturns⟩ := hall
    (boardReceiving [0x23, 0x27, 0x11, 0xc1, 0x80, 0x01, 0x07, 0xa4, 0x0d]).serialPort
  have hfault : (match (receivePacket
      (boardReceiving [0x23, 0x27, 0x11, 0xc1, 0x80, 0x01, 0x07, 0xa4, 0x0d]).serialPort).1 with
      | .ok _ => false
      | .error _ => true) = true := by
    decide +kernel
  rw [hreturns] at hfault
  cases hfault

end IotGateway
