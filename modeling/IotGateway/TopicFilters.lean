import Mathlib.Data.List.Basic

/-!
# Topic filters

`mosquitto_topic_matches_sub` goes through a filter and a topic at once.  A
filter without wildcards matches itself and nothing else.
-/

namespace IotGateway

namespace Mosquitto

def isWildcard (character : Char) : Bool := character = '+' || character = '#'

/-- The return codes of `mosquitto_topic_matches_sub` other than success. -/
inductive TopicError where
  | inval
  deriving DecidableEq, Repr

/-- The loop over the filter, of which `last` is the character before `sub`.
At the beginning there is none. -/
def matchesRest : Option Char → List Char → List Char → Except TopicError Bool
  | _, [], topic => if topic.any isWildcard then .error .inval else .ok false
  | last, character :: sub, topic =>
      if topic.head?.any isWildcard then .error .inval
      else if topic.head? ≠ some character then
        if character = '+' then
          if last.any (· ≠ '/') then .error .inval
          else if sub.head?.any (· ≠ '/') then .error .inval
          else if (topic.takeWhile (· ≠ '/')).any isWildcard then .error .inval
          else if topic.dropWhile (· ≠ '/') = [] ∧ sub = [] then .ok true
          else matchesRest (some character) sub (topic.dropWhile (· ≠ '/'))
        else if character = '#' then
          if last.any (· ≠ '/') then .error .inval
          else if sub ≠ [] then .error .inval
          else if topic.any isWildcard then .error .inval
          else .ok true
        else if topic = [] ∧ last = some '+' ∧ character = '/' ∧ sub.head? = some '#' then
          .ok true
        -- A `#` that is not the last character of the filter.
        else if '#' ∈ (character :: sub).dropLast then .error .inval
        else .ok false
      else if topic.tail = [] ∧ sub = ['/', '#'] then .ok true
      else if topic.tail = [] ∧ sub = [] then .ok true
      else if topic.tail = [] ∧ sub = ['+'] then
        if character ≠ '/' then .error .inval else .ok true
      else matchesRest (some character) sub topic.tail

def topicMatchesSub (sub topic : String) : Except TopicError Bool :=
  if sub.toList = [] ∨ topic.toList = [] then .error .inval
  else if sub.toList.head? = some '$' ∧ topic.toList.head? ≠ some '$' ∨
      topic.toList.head? = some '$' ∧ sub.toList.head? ≠ some '$' then
    .ok false
  else matchesRest none sub.toList topic.toList

/-! ## Filters without wildcards -/

def Plain (characters : List Char) : Prop :=
  ∀ character ∈ characters, isWildcard character = false

theorem Plain.append {first second : List Char} (hfirst : Plain first)
    (hsecond : Plain second) : Plain (first ++ second) := by
  intro character hmem
  rcases List.mem_append.mp hmem with hmem | hmem
  · exact hfirst character hmem
  · exact hsecond character hmem

/-- Where the characters differ, a filter without wildcards is at its end. -/
theorem matchesRest_of_head_ne
    {last : Option Char} {character : Char} {sub topic : List Char}
    (hlast : last ≠ some '+') (hplain : isWildcard character = false)
    (hne : topic.head? ≠ some character) :
    matchesRest last (character :: sub) topic ≠ .ok true := by
  have hplus : character ≠ '+' := by
    rintro rfl
    contradiction
  have hhash : character ≠ '#' := by
    rintro rfl
    contradiction
  unfold matchesRest
  rw [if_pos hne, if_neg hplus, if_neg hhash]
  simp only [hlast, false_and, and_false, if_false]
  split
  · simp
  · split <;> simp

theorem matchesRest_eq_ok_true_iff
    {last : Option Char} {sub topic : List Char} (hlast : last ≠ some '+')
    (hplain : Plain sub) :
    matchesRest last sub topic = .ok true ↔ sub = topic ∧ sub ≠ [] := by
  induction sub generalizing last topic with
  | nil =>
      unfold matchesRest
      split <;> simp
  | cons character sub ih =>
      have hcharacter := hplain character List.mem_cons_self
      have hsub : Plain sub := fun other hmem => hplain other (List.mem_cons_of_mem _ hmem)
      have hslash : sub ≠ ['/', '#'] := by
        rintro rfl
        exact absurd (hsub '#' (by simp)) (by decide)
      have hplus : sub ≠ ['+'] := by
        rintro rfl
        exact absurd (hsub '+' (by simp)) (by decide)
      by_cases hhead : topic.head? = some character
      · obtain ⟨rest, rfl⟩ := List.head?_eq_some_iff.mp hhead
        have hnext : some character ≠ some '+' := by
          intro heq
          rw [Option.some.inj heq] at hcharacter
          contradiction
        unfold matchesRest
        simp only [List.head?_cons, Option.any_some, hcharacter, Bool.false_eq_true, if_false,
          ne_eq, not_true, List.tail_cons, hslash, hplus, and_false]
        split
        next hend =>
          rw [hend.1, hend.2]
          simp
        next hmore =>
          rw [ih hnext hsub]
          constructor
          · rintro ⟨rfl, _⟩
            simp
          · rintro ⟨heq, _⟩
            have hrest := (List.cons.inj heq).2
            refine ⟨hrest, ?_⟩
            rintro rfl
            exact hmore ⟨hrest.symm, rfl⟩
      · apply iff_of_false (matchesRest_of_head_ne hlast hcharacter hhead)
        rintro ⟨rfl, _⟩
        exact hhead rfl

theorem topicMatchesSub_eq_ok_true_iff {sub topic : String} (hplain : Plain sub.toList) :
    topicMatchesSub sub topic = .ok true ↔ sub = topic ∧ sub ≠ "" := by
  unfold topicMatchesSub
  split
  next hempty =>
    apply iff_of_false (by simp)
    rintro ⟨rfl, hne⟩
    exact hne (String.toList_eq_nil_iff.mp (hempty.elim id id))
  next hnonempty =>
    split
    next hdollar =>
      apply iff_of_false (by simp)
      rintro ⟨rfl, _⟩
      rcases hdollar with ⟨hfirst, hsecond⟩ | ⟨hfirst, hsecond⟩ <;> exact hsecond hfirst
    next hdollar =>
      rw [matchesRest_eq_ok_true_iff (by simp) hplain, String.toList_inj, ne_eq,
        String.toList_eq_nil_iff]

end Mosquitto

end IotGateway
