import IotGateway.Library.IntervalTimer

/-!
# The timers of the main loop

While the broker is connected, the main loop of `run` reads the clock in every
round, and polls the master board or requests the temperatures when their
intervals have passed.  A reading is a signed number of milliseconds, the
readings it is compared with are kept as `unsigned long`.
-/

namespace IotGateway

open Histories IntervalTimer

structure Timers where
  pollingInterval : UInt64 := 0
  temperatureInterval : UInt64 := 0
  deriving DecidableEq, Repr

/-- What a round of the loop calls before it listens to the board. -/
structure Iteration where
  now : Int64
  polling : Bool
  requestTemperature : Bool
  deriving DecidableEq, Repr

def iterate (now : Int64) (timers : Timers) : Iteration × Timers :=
  let polling : Bool := now.toUInt64 - timers.pollingInterval > 7000
  let timers :=
    if polling then { timers with pollingInterval := now.toUInt64 } else timers
  let requestTemperature : Bool := now.toUInt64 - timers.temperatureInterval > 15000
  let timers :=
    if requestTemperature then { timers with temperatureInterval := now.toUInt64 }
    else timers
  (⟨now, polling, requestTemperature⟩, timers)

/-- The rounds of the loop in which the broker is connected. -/
def loop (timers : Timers) : List Int64 → List Iteration
  | [] => []
  | now :: readings => (iterate now timers).1 :: loop (iterate now timers).2 readings

def Iteration.pollingEntry (iteration : Iteration) : Entry := (iteration.now, iteration.polling)

def Iteration.temperatureEntry (iteration : Iteration) : Entry :=
  (iteration.now, iteration.requestTemperature)

/-- The reading at the last call of `Polling`, or zero. -/
def lastPolling (iterations : List Iteration) : Int64 :=
  lastFiring (iterations.map Iteration.pollingEntry)

def lastRequest (iterations : List Iteration) : Int64 :=
  lastFiring (iterations.map Iteration.temperatureEntry)

/-- Both calls are made iff more than their interval has passed since they were
made last. -/
structure Iteration.OnTime (before : List Iteration) (iteration : Iteration) : Prop where
  polling : iteration.polling = true ↔
    7000 < iteration.now.toInt - (lastPolling before).toInt
  requestTemperature : iteration.requestTemperature = true ↔
    15000 < iteration.now.toInt - (lastRequest before).toInt

/-- The readings at successive calls are more than the interval apart. -/
structure Iteration.Spaced (before : List Iteration) (iteration : Iteration) : Prop where
  polling : iteration.polling = true →
    7001 ≤ iteration.now.toInt - (lastPolling before).toInt
  requestTemperature : iteration.requestTemperature = true →
    15001 ≤ iteration.now.toInt - (lastRequest before).toInt

theorem Iteration.OnTime.spaced {before : List Iteration} {iteration : Iteration}
    (honTime : iteration.OnTime before) : iteration.Spaced before where
  polling hcalled := Int.add_one_le_of_lt (honTime.polling.mp hcalled)
  requestTemperature hcalled := Int.add_one_le_of_lt (honTime.requestTemperature.mp hcalled)

/-! ## The two timers -/

theorem iterate_eq (now : Int64) (timers : Timers) :
    iterate now timers =
      (⟨now, isDue 7000 now timers.pollingInterval, isDue 15000 now timers.temperatureInterval⟩,
        ⟨if isDue 7000 now timers.pollingInterval then now.toUInt64
          else timers.pollingInterval,
        if isDue 15000 now timers.temperatureInterval then now.toUInt64
          else timers.temperatureInterval⟩) := by
  unfold iterate isDue
  by_cases hpolling : now.toUInt64 - timers.pollingInterval > 7000
  · by_cases htemperature : now.toUInt64 - timers.temperatureInterval > 15000
    · simp [hpolling, htemperature]
    · simp [hpolling, htemperature]
  · by_cases htemperature : now.toUInt64 - timers.temperatureInterval > 15000
    · simp [hpolling, htemperature]
    · simp [hpolling, htemperature]

theorem loop_pollingEntry (timers : Timers) (readings : List Int64) :
    (loop timers readings).map Iteration.pollingEntry =
      record 7000 timers.pollingInterval readings := by
  induction readings generalizing timers with
  | nil => rfl
  | cons now readings ih =>
      unfold loop record
      rw [List.map_cons, ih, iterate_eq]
      rfl

theorem loop_temperatureEntry (timers : Timers) (readings : List Int64) :
    (loop timers readings).map Iteration.temperatureEntry =
      record 15000 timers.temperatureInterval readings := by
  induction readings generalizing timers with
  | nil => rfl
  | cons now readings ih =>
      unfold loop record
      rw [List.map_cons, ih, iterate_eq]
      rfl

theorem Iteration.onTime_iff (before : List Iteration) (iteration : Iteration) :
    iteration.OnTime before ↔
      IntervalTimer.OnTime 7000 (before.map pollingEntry) iteration.pollingEntry ∧
        IntervalTimer.OnTime 15000 (before.map temperatureEntry) iteration.temperatureEntry :=
  ⟨fun honTime => ⟨honTime.polling, honTime.requestTemperature⟩,
    fun honTime => ⟨honTime.1, honTime.2⟩⟩

/-- In all rounds of the loop both timers are on time iff no reading of the
clock is behind the last firing of one of them. -/
theorem timers_onTime_iff (readings : List Int64) :
    Throughout (fun before iteration =>
        iteration.OnTime before ∧ iteration.Spaced before) (loop {} readings) ↔
      Throughout (NotSetBack 7000) readings ∧ Throughout (NotSetBack 15000) readings := by
  simp only [and_iff_left_of_imp Iteration.OnTime.spaced]
  simp only [Iteration.onTime_iff]
  rw [throughout_and_iff, ← throughout_map_iff, ← throughout_map_iff, loop_pollingEntry,
    loop_temperatureEntry]
  exact and_congr (onTime_iff 7000 readings) (onTime_iff 15000 readings)

/-- A clock that is set back by a second behind a poll. -/
theorem setBackClock_polls_early :
    ¬ ∀ readings : List Int64,
      Throughout (fun before iteration =>
        iteration.OnTime before ∧ iteration.Spaced before) (loop {} readings) := by
  intro hall
  have hearly := hall [1660000000000, 1659999999000] [⟨1660000000000, true, true⟩]
    ⟨1659999999000, true, true⟩ [] (by decide +kernel)
  have hlate := hearly.1.polling.mp rfl
  exact absurd hlate (by decide +kernel)

end IotGateway
