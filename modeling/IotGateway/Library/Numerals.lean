import Mathlib.Data.List.Induction

/-!
# Numbers in a text

A list of numbers is printed as decimal numerals in ASCII with a blank behind
each of them.  A reader that goes through the text once gets the numbers back.
The numerals are the sequences of digits that do not begin with a zero, and the
zero.
-/

namespace Numerals

def blank : UInt8 := 0x20

def asciiOf (character : Char) : UInt8 := UInt8.ofNat character.toNat

def numeral (number : ℕ) : List UInt8 := (Nat.toDigits 10 number).map asciiOf

def print (numbers : List ℕ) : List UInt8 :=
  numbers.flatMap fun number => numeral number ++ [blank]

/-- The numbers of a text, when `value` is that of the digits before it. -/
def read : ℕ → List UInt8 → List ℕ
  | _, [] => []
  | value, byte :: text =>
      if byte = blank then value :: read 0 text
      else read (10 * value + (byte.toNat - '0'.toNat)) text

theorem toNat_asciiOf {character : Char} (hdigit : character.isDigit = true) :
    (asciiOf character).toNat = character.toNat := by
  apply UInt8.toNat_ofNat_of_lt'
  have hbounds := Char.isDigit_iff_toNat.mp hdigit
  exact Nat.lt_of_le_of_lt hbounds.2 (by decide)

theorem asciiOf_ne_blank {character : Char} (hdigit : character.isDigit = true) :
    asciiOf character ≠ blank := by
  intro hblank
  have hbounds := Char.isDigit_iff_toNat.mp hdigit
  have hnumber := congrArg UInt8.toNat hblank
  rw [toNat_asciiOf hdigit] at hnumber
  rw [hnumber] at hbounds
  exact absurd hbounds.1 (by decide)

theorem read_digits {digits : List Char} (hdigits : ∀ digit ∈ digits, digit.isDigit = true)
    (value : ℕ) (text : List UInt8) :
    read value (digits.map asciiOf ++ text) = read (Nat.ofDigitChars 10 digits value) text := by
  induction digits generalizing value with
  | nil => rw [Nat.ofDigitChars_nil, List.map_nil, List.nil_append]
  | cons digit digits ih =>
      have hdigit := hdigits digit List.mem_cons_self
      rw [List.map_cons, List.cons_append, read, if_neg (asciiOf_ne_blank hdigit),
        toNat_asciiOf hdigit, Nat.ofDigitChars_cons]
      exact ih (fun other hmem => hdigits other (List.mem_cons_of_mem _ hmem)) _

theorem read_numeral (number : ℕ) (text : List UInt8) :
    read 0 (numeral number ++ blank :: text) = number :: read 0 text := by
  unfold numeral
  rw [read_digits fun digit hmem => Nat.isDigit_of_mem_toDigits (by decide) (by decide) hmem,
    Nat.ofDigitChars_ten_toDigits, read, if_pos rfl]

theorem read_print (numbers : List ℕ) : read 0 (print numbers) = numbers := by
  unfold print
  induction numbers with
  | nil => rfl
  | cons number numbers ih =>
      rw [List.flatMap_cons, List.append_assoc, List.singleton_append, read_numeral, ih]

/-! ## Sequences of digits -/

def isDigit (byte : UInt8) : Bool := 0x30 ≤ byte && byte ≤ 0x39

def digitValue (byte : UInt8) : ℕ := byte.toNat - 0x30

/-- The value of the digits behind `value`. -/
def ofDigits (value : ℕ) (digits : List UInt8) : ℕ :=
  digits.foldl (fun value digit => value * 10 + digitValue digit) value

def digitOf (value : ℕ) : UInt8 := UInt8.ofNat (0x30 + value)

@[simp] theorem ofDigits_nil (value : ℕ) : ofDigits value [] = value := rfl

@[simp] theorem ofDigits_cons (value : ℕ) (digit : UInt8) (digits : List UInt8) :
    ofDigits value (digit :: digits) = ofDigits (value * 10 + digitValue digit) digits :=
  List.foldl_cons ..

theorem ofDigits_append (value : ℕ) (first second : List UInt8) :
    ofDigits value (first ++ second) = ofDigits (ofDigits value first) second :=
  List.foldl_append ..

theorem le_ofDigits (value : ℕ) (digits : List UInt8) : value ≤ ofDigits value digits := by
  induction digits generalizing value with
  | nil => exact Nat.le_refl value
  | cons digit digits ih =>
      have hnext := ih (value * 10 + digitValue digit)
      rw [ofDigits_cons]
      omega

theorem isDigit_digitOf : ∀ value < 10, isDigit (digitOf value) = true := by decide

theorem digitOf_ne_zero : ∀ value < 10, 0 < value → digitOf value ≠ 0x30 := by decide

theorem digitOf_digitValue {byte : UInt8} (hdigit : isDigit byte = true) :
    digitOf (digitValue byte) = byte ∧ digitValue byte < 10 := by
  unfold isDigit at hdigit
  rw [Bool.and_eq_true, decide_eq_true_eq, decide_eq_true_eq, UInt8.le_iff_toNat_le,
    UInt8.le_iff_toNat_le] at hdigit
  have hlower : 48 ≤ byte.toNat := hdigit.1
  have hupper : byte.toNat ≤ 57 := hdigit.2
  unfold digitValue digitOf
  rw [Nat.add_sub_cancel' hlower, UInt8.ofNat_toNat]
  exact ⟨rfl, by omega⟩

theorem exists_digitOf {byte : UInt8} (hdigit : isDigit byte = true) :
    ∃ value < 10, byte = digitOf value := by
  have hbyte := digitOf_digitValue hdigit
  exact ⟨_, hbyte.2, hbyte.1.symm⟩

theorem digitValue_digitOf {value : ℕ} (hvalue : value < 10) :
    digitValue (digitOf value) = value := by
  decide +revert

theorem numeral_of_lt {number : ℕ} (hlt : number < 10) : numeral number = [digitOf number] := by
  decide +revert

theorem numeral_append_digit {number value : ℕ} (hpos : 0 < number) (hvalue : value < 10) :
    numeral number ++ [digitOf value] = numeral (number * 10 + value) := by
  rw [← numeral_of_lt hvalue, Nat.mul_comm]
  unfold numeral
  rw [← List.map_append, Nat.toDigits_append_toDigits (by decide) hpos hvalue]

/-- A sequence of digits that does not begin with a zero is a numeral. -/
theorem numeral_ofDigits {first : UInt8} {digits : List UInt8} (hfirst : isDigit first = true)
    (hzero : first ≠ 0x30) (hdigits : ∀ digit ∈ digits, isDigit digit = true) :
    numeral (ofDigits (digitValue first) digits) = first :: digits := by
  obtain ⟨value, hvalue, rfl⟩ := exists_digitOf hfirst
  rw [digitValue_digitOf hvalue]
  have hpos : 0 < value := by
    rw [Nat.pos_iff_ne_zero]
    rintro rfl
    exact hzero rfl
  induction digits using List.reverseRecOn with
  | nil => exact numeral_of_lt hvalue
  | append_singleton digits digit ih =>
      obtain ⟨last, hlast, rfl⟩ := exists_digitOf
        (hdigits _ (List.mem_append_right _ (List.mem_singleton_self _)))
      have hnumeral := ih fun digit hmem => hdigits digit (List.mem_append_left _ hmem)
      have hle := le_ofDigits value digits
      rw [ofDigits_append, ofDigits_cons, ofDigits_nil, digitValue_digitOf hlast,
        ← numeral_append_digit (Nat.lt_of_lt_of_le hpos hle) hlast, hnumeral, List.cons_append]

theorem exists_numeral {number : ℕ} (hpos : 0 < number) :
    ∃ first digits, numeral number = first :: digits ∧ isDigit first = true ∧ first ≠ 0x30 ∧
      (∀ digit ∈ digits, isDigit digit = true) ∧
      ofDigits (digitValue first) digits = number := by
  induction number using Nat.strongRecOn with
  | _ number ih =>
      by_cases hlt : number < 10
      · refine ⟨digitOf number, [], numeral_of_lt hlt, isDigit_digitOf number hlt, ?_,
          fun digit hmem => absurd hmem List.not_mem_nil, digitValue_digitOf hlt⟩
        exact digitOf_ne_zero number hlt hpos
      · have hlast : number % 10 < 10 := Nat.mod_lt _ (by decide)
        obtain ⟨first, digits, hnumeral, hfirst, hzero, hdigits, hvalue⟩ :=
          ih (number / 10) (Nat.div_lt_self hpos (by decide))
            (Nat.div_pos (Nat.le_of_not_lt hlt) (by decide))
        refine ⟨first, digits ++ [digitOf (number % 10)], ?_, hfirst, hzero, ?_, ?_⟩
        · have hstep := numeral_append_digit
            (Nat.div_pos (Nat.le_of_not_lt hlt) (by decide)) hlast
          rw [hnumeral, Nat.div_add_mod'] at hstep
          rw [← hstep, List.cons_append]
        · intro digit hmem
          rcases List.mem_append.mp hmem with hmem | hmem
          · exact hdigits digit hmem
          · rw [List.mem_singleton.mp hmem]
            exact isDigit_digitOf _ hlast
        · rw [ofDigits_append, hvalue, ofDigits_cons, ofDigits_nil, digitValue_digitOf hlast,
            Nat.div_add_mod']

end Numerals
