import Mathlib.Algebra.Group.Nat.Defs

/-!
# Numbers in base 128

A number is written as bytes with seven bits each, the lowest first.  A byte that
is followed by another one has its highest bit set.
-/

namespace Base128

/-- Whether another digit follows. -/
def continues (digit : UInt8) : Bool := digit &&& 128 != 0

def digitValue (digit : UInt8) : ℕ := (digit &&& 127).toNat

def value : List UInt8 → ℕ
  | [] => 0
  | digit :: digits => digitValue digit + 128 * value digits

/-- All digits of a number, and nothing else. -/
inductive Numeral : List UInt8 → Prop where
  | last {digit : UInt8} (hlast : continues digit = false) : Numeral [digit]
  | cons {digit : UInt8} {digits : List UInt8} (hcontinues : continues digit = true)
      (hdigits : Numeral digits) : Numeral (digit :: digits)

/-- The digits of a number, at most `rounds` of them. -/
def digitsOf : ℕ → ℕ → List UInt8
  | 0, _ => []
  | rounds + 1, number =>
      if number / 128 > 0 then
        (UInt8.ofNat (number % 128) ||| 0x80) :: digitsOf rounds (number / 128)
      else [UInt8.ofNat (number % 128)]

variable {digit : UInt8} {digits front back : List UInt8} {number rounds count : ℕ}

theorem digitValue_ofNat : ∀ number < 128, continues (UInt8.ofNat number) = false ∧
    digitValue (UInt8.ofNat number) = number ∧ continues (UInt8.ofNat number ||| 0x80) = true ∧
    digitValue (UInt8.ofNat number ||| 0x80) = number := by
  decide +kernel

theorem value_append (front back : List UInt8) :
    value (front ++ back) = value front + 128 ^ front.length * value back := by
  induction front with
  | nil => rw [List.nil_append, value, List.length_nil, Nat.pow_zero, Nat.zero_add, Nat.one_mul]
  | cons digit front ih =>
      rw [List.cons_append, value, value, ih, List.length_cons, Nat.pow_succ, Nat.mul_add,
        Nat.add_assoc, Nat.mul_comm (128 ^ front.length) 128, Nat.mul_assoc]

theorem Numeral.ne_nil (hdigits : Numeral digits) : digits ≠ [] := by
  cases hdigits <;> exact List.cons_ne_nil _ _

/-- A digit of a number is the last one, or others follow. -/
theorem Numeral.split (hdigits : Numeral (front ++ digit :: back)) :
    continues digit = true ∧ back ≠ [] ∨ continues digit = false ∧ back = [] := by
  induction front with
  | nil =>
      cases hdigits with
      | last hlast => exact .inr ⟨hlast, rfl⟩
      | cons hcontinues hdigits => exact .inl ⟨hcontinues, hdigits.ne_nil⟩
  | cons first front ih =>
      generalize hrest : front ++ digit :: back = rest at ih
      rw [List.cons_append, hrest] at hdigits
      cases hdigits with
      | last => exact absurd hrest (List.append_ne_nil_of_right_ne_nil _ (List.cons_ne_nil _ _))
      | cons _ hdigits => exact ih hdigits

theorem numeral_digitsOf (hlt : number < 128 ^ rounds) (hrounds : rounds ≠ 0) :
    Numeral (digitsOf rounds number) ∧ value (digitsOf rounds number) = number := by
  induction rounds generalizing number with
  | zero => exact absurd rfl hrounds
  | succ rounds ih =>
      have hdigit := digitValue_ofNat (number % 128) (Nat.mod_lt _ (by decide))
      rw [digitsOf]
      by_cases hmore : number / 128 > 0
      · have hne : rounds ≠ 0 := by
          intro hzero
          rw [hzero, Nat.zero_add, Nat.pow_one] at hlt
          rw [Nat.div_eq_of_lt hlt] at hmore
          exact Nat.lt_irrefl 0 hmore
        have hrest : number / 128 < 128 ^ rounds := by
          rw [Nat.pow_succ] at hlt
          exact Nat.div_lt_of_lt_mul (Nat.mul_comm _ _ ▸ hlt)
        obtain ⟨hdigits, hvalue⟩ := ih hrest hne
        rw [if_pos hmore]
        refine ⟨.cons hdigit.2.2.1 hdigits, ?_⟩
        rw [value, hdigit.2.2.2, hvalue, Nat.mod_add_div]
      · rw [if_neg hmore]
        refine ⟨.last hdigit.1, ?_⟩
        rw [value, hdigit.2.1, value]
        omega

theorem length_digitsOf_le (rounds number : ℕ) : (digitsOf rounds number).length ≤ rounds := by
  induction rounds generalizing number with
  | zero => exact Nat.le_refl 0
  | succ rounds ih =>
      rw [digitsOf]
      split
      · exact Nat.succ_le_succ (ih _)
      · exact Nat.succ_le_succ (Nat.zero_le _)

/-- The number of digits shows whether the number fits in fewer of them. -/
theorem length_digitsOf_le_iff (hcount : count ≠ 0) (hrounds : count < rounds) :
    (digitsOf rounds number).length ≤ count ↔ number < 128 ^ count := by
  induction rounds generalizing number count with
  | zero => exact absurd hrounds (Nat.not_lt_zero _)
  | succ rounds ih =>
      obtain ⟨fewer, rfl⟩ := Nat.exists_eq_add_one.mpr (Nat.pos_of_ne_zero hcount)
      rw [digitsOf]
      by_cases hmore : number / 128 > 0
      · rw [if_pos hmore, List.length_cons, Nat.succ_le_succ_iff]
        by_cases hzero : fewer = 0
        · rw [hzero, Nat.zero_add, Nat.pow_one, Nat.le_zero_eq, List.length_eq_zero_iff]
          constructor
          · intro hnil
            cases rounds with
            | zero => omega
            | succ rounds =>
                rw [digitsOf] at hnil
                split at hnil <;> cases hnil
          · intro hlt
            omega
        · rw [ih hzero (Nat.lt_of_succ_lt_succ hrounds), Nat.pow_succ,
            Nat.div_lt_iff_lt_mul (by decide)]
      · rw [if_neg hmore, List.length_singleton]
        have hlt : number < 128 := by omega
        have hpow : 128 ≤ 128 ^ (fewer + 1) := Nat.le_self_pow (Nat.succ_ne_zero _) _
        exact ⟨fun _ => Nat.lt_of_lt_of_le hlt hpow, fun _ => Nat.succ_le_succ (Nat.zero_le _)⟩

end Base128
