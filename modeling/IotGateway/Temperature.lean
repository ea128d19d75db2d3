import IotGateway.BodyAccess
import IotGateway.Dispatch
import Mathlib.Tactic.FieldSimp
import Mathlib.Tactic.Linarith
import Mathlib.Tactic.NormNum

/-!
# Temperatures

A temperature is sent as a sign and three decimal digits, one in each half of
two bytes.  What is computed from it takes the tens for a hexadecimal digit
and for the tenths as well.
-/

namespace IotGateway

open Faults GatewayManager

/-- A temperature between -99.9 and 99.9, in the format that the comment in
`PublishTemperature` describes. -/
structure Reading where
  negative : Bool
  tens : Fin 10
  ones : Fin 10
  tenths : Fin 10
  deriving DecidableEq, Repr

namespace Reading

def highByte (reading : Reading) : UInt8 :=
  (if reading.negative then 0xf0 else 0x00) + UInt8.ofNat reading.tens

def lowByte (reading : Reading) : UInt8 :=
  UInt8.ofNat reading.ones * 0x10 + UInt8.ofNat reading.tenths

def magnitude (reading : Reading) : ℚ :=
  10 * (reading.tens : ℕ) + (reading.ones : ℕ) + (reading.tenths : ℕ) / 10

def value (reading : Reading) : ℚ :=
  if reading.negative then -reading.magnitude else reading.magnitude

/-- The magnitude that the gateway computes. -/
def computed (reading : Reading) : ℚ :=
  16 * (reading.tens : ℕ) + (reading.ones : ℕ) + (reading.tens : ℕ) / 10

/-! ## Digits -/

theorem highByte_tens (reading : Reading) :
    (reading.highByte &&& 0x0f).toNat = reading.tens ∧
      ((reading.highByte &&& 0x0f) * 0x10).toNat = 16 * reading.tens := by
  have hdigits : ∀ (negative : Bool) (tens : Fin 10),
      (((if negative then 0xf0 else 0x00) + UInt8.ofNat tens) &&& 0x0f).toNat = tens ∧
        ((((if negative then 0xf0 else 0x00) + UInt8.ofNat tens) &&& 0x0f) * 0x10).toNat =
          16 * tens := by
    decide
  exact hdigits reading.negative reading.tens

theorem lowByte_ones (reading : Reading) :
    ((reading.lowByte &&& 0xf0) / 0x10).toNat = reading.ones := by
  have hdigits : ∀ ones tenths : Fin 10,
      (((UInt8.ofNat ones * 0x10 + UInt8.ofNat tenths) &&& 0xf0) / 0x10).toNat = ones := by
    decide
  exact hdigits reading.ones reading.tenths

theorem highByte_sign (reading : Reading) :
    reading.highByte > 0xf0 ↔ reading.negative = true ∧ reading.tens ≠ 0 := by
  have hdigits : ∀ (negative : Bool) (tens : Fin 10),
      (if negative then 0xf0 else 0x00) + UInt8.ofNat tens > 0xf0 ↔
        negative = true ∧ tens ≠ 0 := by
    decide
  exact hdigits reading.negative reading.tens

theorem temperatureOf_eq (reading : Reading) :
    temperatureOf reading.highByte reading.lowByte =
      if reading.negative = true ∧ reading.tens ≠ 0 then -reading.computed
      else reading.computed := by
  have hround : (round (((16 * reading.tens + reading.ones : ℕ) +
      ((reading.tens : ℕ) : ℚ) * (1 / 10)) * 100) : ℚ) / 100 = reading.computed := by
    have hinteger : ((16 * reading.tens + reading.ones : ℕ) +
        ((reading.tens : ℕ) : ℚ) * (1 / 10)) * 100 =
        ((1610 * reading.tens + 100 * reading.ones : ℕ) : ℚ) := by
      push_cast
      ring
    rw [hinteger, round_natCast]
    unfold computed
    push_cast
    ring
  unfold temperatureOf
  simp only [reading.highByte_tens, lowByte_ones, highByte_sign, hround]
  split
  · ring
  · rfl

theorem computed_eq_magnitude_iff (reading : Reading) :
    reading.computed = reading.magnitude ↔ reading.tens = 0 ∧ reading.tenths = 0 := by
  have hscaled : reading.computed = reading.magnitude ↔
      61 * (reading.tens : ℕ) = (reading.tenths : ℕ) := by
    unfold computed magnitude
    rw [← @Nat.cast_inj ℚ]
    push_cast
    constructor
    · intro heq
      linarith
    · intro heq
      linarith
  have hsmall := reading.tenths.isLt
  rw [hscaled, Fin.ext_iff, Fin.ext_iff]
  simp only [Fin.val_zero]
  omega

theorem computed_eq_neg_magnitude_iff {reading : Reading} (htens : reading.tens = 0) :
    reading.computed = -reading.magnitude ↔ reading.ones = 0 ∧ reading.tenths = 0 := by
  have hscaled : reading.computed = -reading.magnitude ↔
      20 * (reading.ones : ℕ) + (reading.tenths : ℕ) = 0 := by
    have hzero : (reading.tens : ℕ) = 0 := by
      rw [htens]
      rfl
    unfold computed magnitude
    rw [hzero, ← @Nat.cast_inj ℚ]
    push_cast
    constructor
    · intro heq
      linarith
    · intro heq
      linarith
  rw [hscaled, Fin.ext_iff, Fin.ext_iff]
  simp only [Fin.val_zero]
  omega

/-- The right number is computed for the readings from 0 to 9 without tenths,
and for no others. -/
theorem temperatureOf_eq_value_iff (reading : Reading) :
    temperatureOf reading.highByte reading.lowByte = reading.value ↔
      reading.tens = 0 ∧ reading.tenths = 0 ∧
        (reading.negative = true → reading.ones = 0) := by
  have hsame := reading.computed_eq_magnitude_iff
  rw [temperatureOf_eq]
  unfold value
  by_cases htens : reading.tens = 0
  · have hopposite := computed_eq_neg_magnitude_iff htens
    cases hnegative : reading.negative with
    | false => simpa [htens] using hsame
    | true => simpa [htens, and_comm] using hopposite
  · cases hnegative : reading.negative with
    | false => simpa [htens] using hsame
    | true => simpa [htens, neg_inj] using hsame

end Reading

/-! ## Published temperatures -/

section Published

variable {build : Build} {board : MasterBoard} {packet : ResponsePacket}
  {published : List Publication}

theorem Dispatched.of_temperature {masterId : ℕ} {high low : UInt8} {more : List UInt8}
    (hcommand : packet.header.command = kMemoryRead)
    (hstart : kTemperatureStart ≤ targetMemoryAddress packet)
    (hend : targetMemoryAddress packet ≤ kTemperatureEnd)
    (hdata : packet.body.data = high :: low :: more)
    (hdispatched : Dispatched build masterId packet published) :
    published =
      [slavePublication masterId packet .temperature (.decimal (temperatureOf high low))] := by
  cases hdispatched with
  | temperature _ _ _ hbytes =>
      rw [hdata] at hbytes
      cases hbytes
      rfl
  | humidity _ hafter => exact absurd (hafter.trans hend) (by decide)
  | readState actuator _ _ haddress =>
      exact absurd hend (Nat.not_le.mpr haddress.temperatureEnd_lt)
  | readDefault _ houtside => exact (houtside ⟨hstart, hend⟩).elim
  | unknown _ hread => exact (hread hcommand).elim
  | polling hother | response _ hother | responseFail _ hother | writeNotice _ hother
  | emergencyState _ _ hother | emergencyShort _ _ hother | emergencyNotice _ hother =>
      rw [hcommand] at hother
      contradiction

theorem headerErrors_eq_nil_iff :
    headerErrors build packet = [] ↔ build = .release ∨ packet.header.errorCode = kOK := by
  unfold headerErrors
  by_cases hcode : packet.header.errorCode = kOK
  · simp [hcode]
  · cases build with
    | release => simp [Build.ifDebug]
    | debug => simp [Build.ifDebug, publishError, hcode]

theorem faultOf_parseCommand_temperature {high low : UInt8} {more : List UInt8}
    (hcommand : packet.header.command = kMemoryRead)
    (hdata : packet.body.data = high :: low :: more) :
    faultOf (parseCommand build board packet) = none := by
  rw [faultOf_parseCommand, if_pos hcommand, faultOf_parseMemoryRead, hdata]
  apply if_neg
  simp

/-- The one message for a temperature, with the right number, is what is
published iff the reading is one of the few that are computed right, and no
notice of a debug build about an error code comes with it. -/
theorem temperature_published_iff
    {reading : Reading} {more : List UInt8}
    (hreceived : received board = some packet)
    (hcommand : packet.header.command = kMemoryRead)
    (hstart : kTemperatureStart ≤ targetMemoryAddress packet)
    (hend : targetMemoryAddress packet ≤ kTemperatureEnd)
    (hdata : packet.body.data = reading.highByte :: reading.lowByte :: more) :
    (∃ listened, listeningMaster build board = .ok listened ∧
      listened.published = [slavePublication board.masterId packet .temperature
        (.decimal reading.value)]) ↔
      (reading.tens = 0 ∧ reading.tenths = 0 ∧
        (reading.negative = true → reading.ones = 0)) ∧
      (build = .release ∨ packet.header.errorCode = kOK) := by
  have hfault : faultOf (parseCommand build (afterReceive board) packet) = none :=
    faultOf_parseCommand_temperature hcommand hdata
  obtain ⟨listened, hcall⟩ := exists_listened hreceived hfault
  obtain ⟨published, hdispatched, hpublished⟩ := exists_dispatched hreceived hcall
  rw [hdispatched.of_temperature hcommand hstart hend hdata] at hpublished
  rw [← reading.temperatureOf_eq_value_iff, ← headerErrors_eq_nil_iff]
  constructor
  · rintro ⟨other, hother, hvalue⟩
    rw [hcall] at hother
    cases hother
    rw [hpublished] at hvalue
    have hsplit : headerErrors build packet ++ [_] = [] ++ [_] := hvalue
    obtain ⟨herrors, hsingle⟩ := List.append_inj' hsplit rfl
    have hpayload := congrArg Publication.payload (List.singleton_inj.mp hsingle)
    exact ⟨Payload.decimal.inj hpayload, herrors⟩
  · rintro ⟨hvalue, herrors⟩
    refine ⟨listened, hcall, ?_⟩
    rw [hpublished, hvalue, herrors]
    rfl

end Published

/-- The temperature 7.0 of the slave 5, as plus, 0, 7, 0. -/
theorem temperature_published_iff_seven :
    (∃ listened, listeningMaster .release (boardReceiving
        [0x23, 0x22, 0x05, 0xc1, 0x80, 0x04, 0x07, 0xd0, 0x00, 0x70, 0xd6, 0x0d]) =
          .ok listened ∧
      listened.published = [slavePublication 1
        ⟨⟨0x23, 0x22, 0x05, 0xc1, 0x80, 0x04⟩, ⟨0x07, 0xd0, [0x00, 0x70]⟩, ⟨0xd6, 0x0d⟩⟩
        .temperature (.decimal (Reading.mk false 0 7 0).value)]) ↔
      ((0 : Fin 10) = 0 ∧ (0 : Fin 10) = 0 ∧ (false = true → (7 : Fin 10) = 0)) ∧
      (Build.release = .release ∨ (0x80 : UInt8) = kOK) :=
  @temperature_published_iff .release _ _ (Reading.mk false 0 7 0) []
    (by decide +kernel) (by decide) (by decide) (by decide) (by decide)

/-- The first example of the comment in `PublishTemperature`, 23.5. -/
def exampleReading : Reading := ⟨false, 2, 3, 5⟩

def exampleBoard : MasterBoard :=
  boardReceiving [0x23, 0x22, 0x05, 0xc1, 0x80, 0x04, 0x07, 0xd0, 0x02, 0x35, 0x9d, 0x0d]

def examplePacket : ResponsePacket where
  header := ⟨0x23, 0x22, 0x05, 0xc1, 0x80, 0x04⟩
  body := ⟨0x07, 0xd0, [0x02, 0x35]⟩
  tail := ⟨0x9d, 0x0d⟩

theorem exampleReading_published_wrong :
    ¬ ∀ (build : Build) (board : MasterBoard) (packet : ResponsePacket) (reading : Reading)
      (more : List UInt8), received board = some packet →
        packet.header.command = kMemoryRead →
        kTemperatureStart ≤ targetMemoryAddress packet →
        targetMemoryAddress packet ≤ kTemperatureEnd →
        packet.body.data = reading.highByte :: reading.lowByte :: more →
          ∃ listened, listeningMaster build board = .ok listened ∧
            listened.published = [slavePublication board.masterId packet .temperature
              (.decimal reading.value)] := by
  intro hall
  obtain ⟨listened, hcall, hpublished⟩ := hall .release exampleBoard examplePacket
    exampleReading [] (by decide +kernel) (by decide) (by decide) (by decide) (by decide)
  have hcomputed : (listeningMaster .release exampleBoard).map Listened.published =
      .ok [slavePublication exampleBoard.masterId examplePacket .temperature
        (.decimal (temperatureOf exampleReading.highByte exampleReading.lowByte))] := by
    decide +kernel
  rw [hcall] at hcomputed
  have hsame := (Except.ok.inj hcomputed).symm.trans hpublished
  have hpayload := congrArg Publication.payload (List.singleton_inj.mp hsame)
  have hright := exampleReading.temperatureOf_eq_value_iff.mp (Payload.decimal.inj hpayload)
  exact absurd hright.1 (by decide)

end IotGateway
