import IotGateway.JsonDocument
import IotGateway.JsonText

/-!
# Numbers in the texts of JSON

The reader takes the digits of an integer in two loops, for 32 and for 64 bits,
and goes over to doubles when they do not fit.  Together they take the numeral
and tell whether it is within the limit.
-/

namespace IotGateway

open Numerals Reader

namespace JsonText

variable {bytes rest text : List UInt8} {byte : UInt8}

def NoDigit (rest : List UInt8) : Prop := ∀ byte, rest.head? = some byte → isDigit byte = false

/-- No number goes on here. -/
def Ends (rest : List UInt8) : Prop :=
  ∀ byte, rest.head? = some byte →
    isDigit byte = false ∧ byte ≠ decimalPoint ∧ isExponentMark byte = false

theorem Ends.noDigit (hends : Ends rest) : NoDigit rest := fun byte hhead => (hends byte hhead).1

theorem noDigit_cons (hbyte : isDigit byte = false) : NoDigit (byte :: rest) := by
  intro other hhead
  cases hhead
  exact hbyte

theorem noDigit_dropWhile (bytes : List UInt8) : NoDigit (bytes.dropWhile isDigit) := by
  intro byte hhead
  have hnot := List.head?_dropWhile_not isDigit bytes
  rw [hhead] at hnot
  simpa using hnot

section Digits

variable {digits : List UInt8}

theorem dropWhile_digits (hdigits : ∀ digit ∈ digits, isDigit digit = true)
    (hrest : NoDigit rest) : (digits ++ rest).dropWhile isDigit = rest := by
  rw [List.dropWhile_append_of_pos hdigits]
  cases rest with
  | nil => rfl
  | cons byte rest => rw [List.dropWhile_cons, if_neg (by simp [hrest byte rfl])]

theorem digitValue_le {digit : UInt8} (hdigit : isDigit digit = true) : digitValue digit ≤ 9 :=
  Nat.le_of_lt_succ (digitOf_digitValue hdigit).2

/-- `takeDigits` takes all digits, or stops in front of the first one with which the
value is too large. -/
theorem takeDigits_append {bound last value : ℕ} (hlast : last ≤ 9)
    (hdigits : ∀ digit ∈ digits, isDigit digit = true) (hrest : NoDigit rest)
    (hvalue : value ≤ bound * 10 + last) :
    ofDigits value digits ≤ bound * 10 + last ∧
        takeDigits bound last value (digits ++ rest) = (ofDigits value digits, false, rest) ∨
      bound * 10 + last < ofDigits value digits ∧
        ∃ front back, digits = front ++ back ∧ ofDigits value front ≤ bound * 10 + last ∧
          takeDigits bound last value (digits ++ rest) =
            (ofDigits value front, true, back ++ rest) := by
  induction digits generalizing value with
  | nil =>
      refine .inl ⟨hvalue, ?_⟩
      cases rest with
      | nil => rfl
      | cons byte rest =>
          rw [List.nil_append, takeDigits, if_neg (by simp [hrest byte rfl])]
          rfl
  | cons digit digits ih =>
      have hdigit := hdigits digit List.mem_cons_self
      have hle := digitValue_le hdigit
      have hstep : takeDigits bound last value (digit :: digits ++ rest) =
          if bound ≤ value ∧ (value ≠ bound ∨ last < digitValue digit) then
            (value, true, digit :: digits ++ rest)
          else takeDigits bound last (value * 10 + digitValue digit) (digits ++ rest) := by
        rw [List.cons_append, takeDigits, if_pos hdigit]
      rw [hstep, ofDigits_cons]
      by_cases hnext : value * 10 + digitValue digit ≤ bound * 10 + last
      · rw [if_neg (by omega)]
        rcases ih (fun other hmem => hdigits other (List.mem_cons_of_mem _ hmem)) hnext with
          hall | ⟨hlarge, front, back, rfl, hfront, htake⟩
        · exact .inl hall
        · exact .inr ⟨hlarge, digit :: front, back, rfl, hfront, htake⟩
      · rw [if_pos (by omega)]
        exact .inr ⟨Nat.lt_of_lt_of_le (Nat.lt_of_not_le hnext) (le_ofDigits _ _), [],
          digit :: digits, rfl, hvalue, rfl⟩

end Digits

theorem limit_eq (minus : Bool) :
    limit minus = (if minus then 0x0CCCCCCCCCCCCCCC else 0x1999999999999999) * 10 +
      (if minus then 8 else 5) := by
  cases minus <;> rfl

theorem parseInteger_numeral {number : ℕ} (minus : Bool) (hrest : NoDigit rest) :
    parseInteger minus (numeral number ++ rest) =
      some (if number ≤ limit minus then some number else none, rest) := by
  by_cases hzero : number = 0
  · rw [hzero, if_pos (Nat.zero_le _)]
    rfl
  · obtain ⟨first, digits, hnumeral, hfirst, hne, hdigits, hvalue⟩ :=
      exists_numeral (Nat.pos_of_ne_zero hzero)
    have hfirstLe := digitValue_le hfirst
    have hlast : (if minus then 8 else 5) ≤ 9 := by cases minus <;> decide
    rw [hnumeral, List.cons_append, parseInteger, if_neg hne, if_pos hfirst]
    have hfits : digitValue first ≤
        (if minus then 214748364 else 429496729) * 10 + (if minus then 8 else 5) := by
      cases minus <;> simp <;> omega
    rcases takeDigits_append hlast hdigits hrest hfits with
      ⟨hle, htake⟩ | ⟨hlarge, front, back, rfl, hfront, htake⟩
    · have hlimit : number ≤ limit minus := by
        rw [hvalue] at hle
        cases minus <;> simp [limit] at hle ⊢ <;> omega
      rw [htake, hvalue, if_pos hlimit]
    · rw [htake]
      simp only
      have hback : ∀ digit ∈ back, isDigit digit = true := fun digit hmem =>
        hdigits digit (List.mem_append_right _ hmem)
      rw [ofDigits_append] at hvalue
      have hfits : ofDigits (digitValue first) front ≤
          (if minus then 0x0CCCCCCCCCCCCCCC else 0x1999999999999999) * 10 +
            (if minus then 8 else 5) := by
        cases minus <;> simp at hfront ⊢ <;> omega
      rcases takeDigits_append hlast hback hrest hfits with
        ⟨hle, htake⟩ | ⟨hlarge, front, behind, rfl, -, htake⟩
      · rw [hvalue, ← limit_eq] at hle
        rw [htake, hvalue, if_pos hle]
      · rw [hvalue, ← limit_eq] at hlarge
        rw [htake, if_neg (Nat.not_le.mpr hlarge)]
        simp only
        rw [dropWhile_digits (fun digit hmem => hback digit (List.mem_append_right _ hmem)) hrest]

theorem exists_numeral_of_parseInteger {minus : Bool} {result : Option ℕ}
    (hrun : parseInteger minus bytes = some (result, rest)) :
    ∃ number, bytes = numeral number ++ rest ∧
      result = if number ≤ limit minus then some number else none := by
  cases bytes with
  | nil => cases hrun
  | cons byte behind =>
      by_cases hzero : byte = 0x30
      · rw [parseInteger, if_pos hzero] at hrun
        cases hrun
        exact ⟨0, congrArg (· :: rest) hzero, (if_pos (Nat.zero_le _)).symm⟩
      · have hdigit : isDigit byte = true := by
          by_contra hnot
          rw [parseInteger, if_neg hzero, if_neg hnot] at hrun
          cases hrun
        have hall : ∀ digit ∈ behind.takeWhile isDigit, isDigit digit = true :=
          fun digit hmem => List.mem_takeWhile_imp hmem
        have hnumeral := numeral_ofDigits hdigit hzero hall
        have hbytes : byte :: behind = numeral (ofDigits (digitValue byte)
            (behind.takeWhile isDigit)) ++ behind.dropWhile isDigit := by
          rw [hnumeral, List.cons_append, List.takeWhile_append_dropWhile]
        rw [hbytes, parseInteger_numeral minus (noDigit_dropWhile behind)] at hrun
        cases hrun
        exact ⟨_, hbytes, rfl⟩

theorem skipDigits_sound (hrun : skipDigits bytes = some rest) :
    ∃ digits, digits ≠ [] ∧ (∀ digit ∈ digits, isDigit digit = true) ∧ bytes = digits ++ rest := by
  cases bytes with
  | nil => cases hrun
  | cons byte behind =>
      rw [skipDigits] at hrun
      split at hrun
      next hdigit =>
        cases hrun
        refine ⟨byte :: behind.takeWhile isDigit, List.cons_ne_nil _ _, ?_, ?_⟩
        · intro digit hmem
          rcases List.mem_cons.mp hmem with rfl | hmem
          · exact hdigit
          · exact List.mem_takeWhile_imp hmem
        · rw [List.cons_append, List.takeWhile_append_dropWhile]
      next => cases hrun

theorem skipDigits_append {digits : List UInt8} (hne : digits ≠ [])
    (hdigits : ∀ digit ∈ digits, isDigit digit = true) (hrest : NoDigit rest) :
    skipDigits (digits ++ rest) = some rest := by
  cases digits with
  | nil => exact absurd rfl hne
  | cons digit digits =>
      rw [List.cons_append, skipDigits, if_pos (hdigits digit List.mem_cons_self),
        dropWhile_digits (fun other hmem => hdigits other (List.mem_cons_of_mem _ hmem)) hrest]

theorem parseFraction_sound {fraction : Bool}
    (hrun : parseFraction bytes = some (fraction, rest)) :
    ∃ text, Fraction fraction text ∧ bytes = text ++ rest := by
  unfold parseFraction at hrun
  split at hrun
  next =>
    cases hrun
    exact ⟨[], .absent, rfl⟩
  next behind hpoint =>
    obtain ⟨_, hskip, hresult⟩ := Option.bind_eq_some_iff.mp hrun
    cases hresult
    obtain ⟨digits, hne, hdigits, rfl⟩ := skipDigits_sound hskip
    exact ⟨_, .present hne hdigits, consume_eq_some_iff.mp hpoint⟩

theorem Fraction.parseFraction {fraction : Bool} (hfraction : Fraction fraction text)
    (hrest : NoDigit rest) (hpoint : rest.head? ≠ some decimalPoint) :
    Reader.parseFraction (text ++ rest) = some (fraction, rest) := by
  cases hfraction with
  | absent =>
      have hconsume : consume decimalPoint rest = none := by
        cases rest with
        | nil => rfl
        | cons byte rest => exact consume_of_ne fun heq => hpoint (congrArg some heq)
      rw [List.nil_append, Reader.parseFraction, hconsume]
  | present hne hdigits =>
      rw [List.cons_append, Reader.parseFraction, consume_self]
      exact Option.bind_eq_some_iff.mpr ⟨_, skipDigits_append hne hdigits hrest, rfl⟩

theorem parseExponent_sound {exponent : Bool}
    (hrun : parseExponent bytes = some (exponent, rest)) :
    ∃ text, Exponent exponent text ∧ bytes = text ++ rest := by
  cases bytes with
  | nil =>
      cases hrun
      exact ⟨[], .absent, rfl⟩
  | cons byte behind =>
      rw [parseExponent] at hrun
      split at hrun
      next hmark =>
        obtain ⟨_, hskip, hresult⟩ := Option.bind_eq_some_iff.mp hrun
        cases hresult
        obtain ⟨digits, hne, hdigits, hsign⟩ := skipDigits_sound hskip
        cases behind with
        | nil => exact absurd (List.append_eq_nil_iff.mp hsign.symm).1 hne
        | cons sign behind =>
            rw [skipSign] at hsign
            split at hsign
            next hpm =>
              refine ⟨byte :: ([sign] ++ digits), .present hmark ?_ hne hdigits, ?_⟩
              · rcases hpm with rfl | rfl
                · exact .inr (.inl rfl)
                · exact .inr (.inr rfl)
              · rw [hsign]
                rfl
            next =>
              refine ⟨byte :: ([] ++ digits), .present hmark (.inl rfl) hne hdigits, ?_⟩
              rw [hsign]
              rfl
      next =>
        cases hrun
        exact ⟨[], .absent, rfl⟩

theorem skipSign_append {sign digits : List UInt8}
    (hsign : sign = [] ∨ sign = [plusSign] ∨ sign = [minusSign]) (hne : digits ≠ [])
    (hdigits : ∀ digit ∈ digits, isDigit digit = true) :
    skipSign (sign ++ (digits ++ rest)) = digits ++ rest := by
  rcases hsign with rfl | rfl | rfl
  · cases digits with
    | nil => exact absurd rfl hne
    | cons digit digits =>
        have hdigit := hdigits digit List.mem_cons_self
        have hsign : ¬(digit = plusSign ∨ digit = minusSign) := by
          rintro (rfl | rfl)
          · cases hdigit
          · cases hdigit
        rw [List.nil_append, List.cons_append, skipSign, if_neg hsign]
  · rfl
  · rfl

theorem Exponent.parseExponent {exponent : Bool} (hexponent : Exponent exponent text)
    (hends : Ends rest) : Reader.parseExponent (text ++ rest) = some (exponent, rest) := by
  cases hexponent with
  | absent =>
      cases rest with
      | nil => rfl
      | cons byte rest =>
          rw [List.nil_append, Reader.parseExponent, if_neg (by simp [(hends byte rfl).2.2])]
  | present hmark hsign hne hdigits =>
      rw [List.cons_append, List.append_assoc, Reader.parseExponent, if_pos hmark,
        skipSign_append hsign hne hdigits, skipDigits_append hne hdigits hends.noDigit]
      rfl

/-- What goes on with an exponent does not go on with a digit or a fraction. -/
theorem Exponent.begins {exponent : Bool} (hexponent : Exponent exponent text)
    (hends : Ends rest) :
    NoDigit (text ++ rest) ∧ (text ++ rest).head? ≠ some decimalPoint := by
  cases hexponent with
  | absent => exact ⟨hends.noDigit, fun hhead => (hends _ hhead).2.1 rfl⟩
  | @present mark sign digits hmark =>
      have hbyte : mark = 0x65 ∨ mark = 0x45 := by simpa [isExponentMark] using hmark
      rcases hbyte with rfl | rfl
      · exact ⟨noDigit_cons rfl, fun hhead => by cases hhead⟩
      · exact ⟨noDigit_cons rfl, fun hhead => by cases hhead⟩

theorem Fraction.begins {fraction : Bool} (hfraction : Fraction fraction text)
    (hrest : NoDigit rest) : NoDigit (text ++ rest) := by
  cases hfraction with
  | absent => exact hrest
  | present => exact noDigit_cons rfl

theorem numeral_ne_nil (number : ℕ) : numeral number ≠ [] := by
  unfold numeral
  exact fun hnil => Nat.toDigits_ne_nil (List.map_eq_nil_iff.mp hnil)

theorem isDigit_of_mem_numeral {number : ℕ} {digit : UInt8} (hmem : digit ∈ numeral number) :
    isDigit digit = true := by
  by_cases hzero : number = 0
  · rw [hzero, numeral_of_lt (by decide)] at hmem
    rw [List.mem_singleton.mp hmem]
    rfl
  · obtain ⟨first, digits, hnumeral, hfirst, -, hdigits, -⟩ :=
      exists_numeral (Nat.pos_of_ne_zero hzero)
    rw [hnumeral] at hmem
    rcases List.mem_cons.mp hmem with rfl | hmem
    · exact hfirst
    · exact hdigits digit hmem

variable {decimal : List UInt8 → Option ℚ}

theorem takeMinus_eq {minus : Bool} (hminus : takeMinus bytes = (minus, rest)) :
    bytes = signText minus ++ rest := by
  unfold takeMinus at hminus
  split at hminus
  next behind hconsume =>
    cases hminus
    exact consume_eq_some_iff.mp hconsume
  next =>
    cases hminus
    rfl

theorem takeMinus_signText (minus : Bool) (number : ℕ) :
    takeMinus (signText minus ++ (numeral number ++ rest)) = (minus, numeral number ++ rest) := by
  cases minus with
  | true => rfl
  | false =>
      obtain ⟨first, digits, hnumeral⟩ := List.exists_cons_of_ne_nil (numeral_ne_nil number)
      have hfirst : isDigit first = true :=
        isDigit_of_mem_numeral (hnumeral.symm ▸ List.mem_cons_self : first ∈ numeral number)
      have hne : first ≠ minusSign := by
        rintro rfl
        cases hfirst
      change takeMinus (numeral number ++ rest) = _
      rw [hnumeral]
      unfold takeMinus
      rw [List.cons_append, consume_of_ne hne]

theorem finishNumber_append (minus fraction exponent : Bool) (number : ℕ)
    (text rest : List UInt8) :
    finishNumber decimal minus (text ++ rest) rest
        (if number ≤ limit minus then some number else none) fraction exponent =
      if number ≤ limit minus ∧ fraction = false ∧ exponent = false then
        some ([.int (if minus then -number else number)], rest)
      else (decimal text).map fun value => ([.double value], rest) := by
  have htake : (text ++ rest).take ((text ++ rest).length - rest.length) = text := by
    rw [List.length_append, Nat.add_sub_cancel, List.take_left]
  have hdouble : (do return ([.double (← decimal text)], rest) :
      Option (List JsonEvent × List UInt8)) =
        (decimal text).map fun value => ([.double value], rest) := by
    cases decimal text <;> rfl
  by_cases hlimit : number ≤ limit minus
  · rw [if_pos hlimit]
    cases fraction with
    | true => simpa [finishNumber, htake] using hdouble
    | false =>
        cases exponent with
        | true => simpa [finishNumber, htake] using hdouble
        | false => simp [finishNumber, hlimit]
  · rw [if_neg hlimit, if_neg fun hall => hlimit hall.1, finishNumber, htake]
    · exact hdouble
    · intro value hnone
      cases hnone

theorem parseNumber_append {minus fraction exponent : Bool} {number : ℕ}
    {fractionText exponentText : List UInt8} (hfraction : Fraction fraction fractionText)
    (hexponent : Exponent exponent exponentText) (hends : Ends rest)
    (htext : text = signText minus ++ (numeral number ++ (fractionText ++ exponentText))) :
    parseNumber decimal (text ++ rest) =
      if number ≤ limit minus ∧ fraction = false ∧ exponent = false then
        some ([.int (if minus then -number else number)], rest)
      else (decimal text).map fun value => ([.double value], rest) := by
  have hbegins := hexponent.begins hends
  have hbytes : text ++ rest =
      signText minus ++ (numeral number ++ (fractionText ++ (exponentText ++ rest))) := by
    rw [htext, List.append_assoc, List.append_assoc, List.append_assoc]
  rw [← finishNumber_append]
  unfold parseNumber
  rw [hbytes, takeMinus_signText]
  simp only
  rw [parseInteger_numeral minus (hfraction.begins hbegins.1)]
  simp only [Option.bind_eq_bind, Option.bind_some]
  rw [hfraction.parseFraction hbegins.1 hbegins.2]
  simp only [Option.bind_some]
  rw [hexponent.parseExponent hends]
  rfl

theorem parseNumber_sound {events : List JsonEvent}
    (hrun : parseNumber decimal bytes = some (events, rest)) :
    ∃ value text, Value decimal value text ∧ bytes = text ++ rest ∧ events = value.events ∧
      value.nesting = 0 := by
  unfold parseNumber at hrun
  cases hsign : takeMinus bytes with
  | mk minus afterSign =>
  rw [hsign] at hrun
  obtain ⟨⟨result, afterInteger⟩, hinteger, hnext⟩ := Option.bind_eq_some_iff.mp hrun
  obtain ⟨⟨fraction, afterFraction⟩, hfractionRun, hlast⟩ := Option.bind_eq_some_iff.mp hnext
  obtain ⟨⟨exponent, behind⟩, hexponentRun, hfinish⟩ := Option.bind_eq_some_iff.mp hlast
  obtain ⟨number, rfl, rfl⟩ := exists_numeral_of_parseInteger hinteger
  obtain ⟨fractionText, hfraction, rfl⟩ := parseFraction_sound hfractionRun
  obtain ⟨exponentText, hexponent, rfl⟩ := parseExponent_sound hexponentRun
  have hbytes : bytes =
      signText minus ++ (numeral number ++ (fractionText ++ exponentText)) ++ behind := by
    rw [takeMinus_eq hsign, List.append_assoc, List.append_assoc, List.append_assoc]
  simp only at hfinish
  rw [hbytes, finishNumber_append] at hfinish
  split at hfinish
  next hint =>
    obtain ⟨hlimit, rfl, rfl⟩ := hint
    cases hfraction
    cases hexponent
    cases hfinish
    refine ⟨_, _, .int hlimit, ?_, rfl, rfl⟩
    rw [hbytes, List.append_nil, List.append_nil]
  next hdouble =>
    obtain ⟨value, hvalue, hresult⟩ := Option.map_eq_some_iff.mp hfinish
    cases hresult
    refine ⟨_, _, .double hfraction hexponent ?_ hvalue, hbytes, rfl, rfl⟩
    by_contra hnot
    apply hdouble
    simpa using hnot

end JsonText

end IotGateway
