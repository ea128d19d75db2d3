import Mathlib.Data.List.Basic

/-!
# Texts with levels

Slashes divide a text into levels.  A level that is the decimal numeral of a
number contains no slash and determines the number, so that texts made of
fixed words and numerals are equal only if they agree level by level.
-/

namespace Levels

def levels (text : String) : List (List Char) := text.toList.splitOn '/'

/-- A level in front of the others. -/
theorem levels_cons {text first rest : String}
    (htext : text = first ++ "/" ++ rest) (hfirst : '/' ∉ first.toList) :
    levels text = first.toList :: levels rest := by
  have hlist : text.toList = first.toList ++ '/' :: rest.toList := by
    rw [htext]
    simp
  unfold levels
  rw [hlist]
  exact List.splitOn_append_cons_self_of_not_mem hfirst rest.toList

theorem levels_injective {first second : String} (hlevels : levels first = levels second) :
    first = second := by
  have hjoin := congrArg (List.intercalate ['/']) hlevels
  unfold levels at hjoin
  rw [List.intercalate_splitOn, List.intercalate_splitOn] at hjoin
  exact String.toList_inj.mp hjoin

theorem exists_splitOn (characters : List Char) :
    ∃ first rest, characters.splitOn '/' = first :: rest ∧
      characters = first ++ rest.flatMap ('/' :: ·) ∧ ∀ level ∈ first :: rest, '/' ∉ level := by
  induction characters with
  | nil => exact ⟨[], [], rfl, rfl, by simp⟩
  | cons character characters ih =>
      obtain ⟨first, rest, hsplit, hcharacters, hslash⟩ := ih
      rw [List.splitOn_cons_eq_if_modifyHead]
      split
      next hcharacter =>
        refine ⟨[], first :: rest, by rw [hsplit], ?_, ?_⟩
        · rw [eq_of_beq hcharacter, hcharacters]
          rfl
        · intro level hmem
          rcases List.mem_cons.mp hmem with rfl | hold
          · exact List.not_mem_nil
          · exact hslash level hold
      next hcharacter =>
        refine ⟨character :: first, rest, by rw [hsplit]; rfl, by rw [hcharacters]; rfl, ?_⟩
        intro level hmem
        rcases List.mem_cons.mp hmem with rfl | hold
        · have hne : '/' ≠ character := by
            rintro rfl
            exact hcharacter rfl
          simpa [hne] using hslash first List.mem_cons_self
        · exact hslash level (List.mem_cons_of_mem _ hold)

/-- A text consists of its levels with slashes between them, and these contain
no slash. -/
theorem exists_levels (text : String) :
    ∃ first rest, levels text = first :: rest ∧
      text.toList = first ++ rest.flatMap ('/' :: ·) ∧ ∀ level ∈ first :: rest, '/' ∉ level :=
  exists_splitOn text.toList

/-! ## Decimal numerals -/

theorem notMem_toString {character : Char} (hcharacter : character.isDigit = false)
    (number : ℕ) : character ∉ (toString number).toList := by
  intro hmem
  rw [Nat.toString_eq_repr, Nat.toList_repr] at hmem
  have hdigit := Nat.isDigit_of_mem_toDigits (by decide) (by decide) hmem
  rw [hcharacter] at hdigit
  contradiction

theorem slash_notMem_toString (number : ℕ) : '/' ∉ (toString number).toList :=
  notMem_toString (by decide) number

theorem toList_toString_inj {first second : ℕ} :
    (toString first).toList = (toString second).toList ↔ first = second := by
  constructor
  · intro hlist
    rw [Nat.toString_eq_repr, Nat.toString_eq_repr, Nat.toList_repr, Nat.toList_repr] at hlist
    have hnumber := congrArg (fun digits => Nat.ofDigitChars 10 digits 0) hlist
    simpa only [Nat.ofDigitChars_ten_toDigits] using hnumber
  · exact fun hnumber => by rw [hnumber]

end Levels
