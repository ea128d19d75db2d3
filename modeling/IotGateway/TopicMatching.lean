import IotGateway.Library.Levels
import IotGateway.TopicFilters

/-!
# Topic filters with wildcards

In a filter `+` stands for one level of a topic and `#`, in the last place, for
the level before it and all below that.  For such filters
`mosquitto_topic_matches_sub`, which goes from character to character, decides
whether the levels match.
-/

namespace IotGateway

open Levels

namespace Mosquitto

/-- A level of a filter that stands for exactly one level of a topic. -/
def Single (level : List Char) : Prop := level = ['+'] ∨ Plain level

def WellFormed : List (List Char) → Prop
  | [] => True
  | level :: levels => level = ['#'] ∧ levels = [] ∨ Single level ∧ WellFormed levels

def matchLevels : List (List Char) → List (List Char) → Bool
  | [], [] => true
  | [], _ :: _ => false
  | level :: _, [] => level = ['#']
  | level :: levels, topic :: topics =>
      level = ['#'] || (level = ['+'] || level = topic) && matchLevels levels topics

/-- The levels behind the first one. -/
def behind (levels : List (List Char)) : List Char := levels.flatMap ('/' :: ·)

variable {last : Option Char} {character : Char} {sub topic level : List Char}
  {levels topics : List (List Char)}

@[simp] theorem behind_nil : behind [] = [] := rfl

@[simp] theorem behind_cons (level : List Char) (levels : List (List Char)) :
    behind (level :: levels) = '/' :: (level ++ behind levels) := rfl

theorem behind_eq_nil_iff : behind levels = [] ↔ levels = [] := by
  cases levels with
  | nil => exact iff_of_true rfl rfl
  | cons level levels => simp

theorem append_behind_eq_nil_iff :
    level ++ behind levels = [] ↔ level = [] ∧ levels = [] := by
  rw [List.append_eq_nil_iff, behind_eq_nil_iff]

theorem append_behind_eq_singleton_iff (hcharacter : character ≠ '/') :
    level ++ behind levels = [character] ↔ level = [character] ∧ levels = [] := by
  cases level with
  | nil =>
      cases levels with
      | nil => simp
      | cons next levels => simpa using fun heq => absurd heq.symm hcharacter
  | cons first level =>
      rw [List.cons_append, List.cons.injEq, List.cons.injEq, append_behind_eq_nil_iff, and_assoc]

theorem append_behind_eq_hash_iff (hslash : '/' ∉ level) :
    level ++ behind levels = ['/', '#'] ↔ level = [] ∧ levels = [['#']] := by
  cases level with
  | nil =>
      cases levels with
      | nil => simp
      | cons next levels =>
          rw [List.nil_append, behind_cons, List.cons.injEq,
            append_behind_eq_singleton_iff (by decide)]
          simp
  | cons first level =>
      have hfirst : first ≠ '/' := by
        rintro rfl
        exact hslash List.mem_cons_self
      simp [hfirst]

theorem plain_of_all {characters : List Char}
    (hall : characters.all (!isWildcard ·) = true) : Plain characters := by
  intro character hmem
  exact Bool.not_eq_true' _ |>.mp (List.all_eq_true.mp hall character hmem)

theorem Plain.any_eq_false (hplain : Plain topic) : topic.any isWildcard = false := by
  rw [List.any_eq_false]
  intro character hmem
  simp [hplain character hmem]

theorem Plain.head?_any_eq_false (hplain : Plain topic) :
    topic.head?.any isWildcard = false := by
  cases topic with
  | nil => rfl
  | cons character topic => exact hplain character List.mem_cons_self

theorem Plain.notMem (hplain : Plain topic) (hwildcard : isWildcard character = true) :
    character ∉ topic := by
  intro hmem
  rw [hplain character hmem] at hwildcard
  contradiction

theorem Plain.of_append_right {first second : List Char} (hplain : Plain (first ++ second)) :
    Plain second :=
  fun character hmem => hplain character (List.mem_append_right _ hmem)

theorem Single.hash_notMem (hsingle : Single level) : '#' ∉ level := by
  rcases hsingle with rfl | hplain
  · decide
  · exact hplain.notMem rfl

/-! ## Steps of the loop -/

/-- A `#` stands only in the last place. -/
theorem hash_notMem_dropLast (hwell : WellFormed levels) (hlevel : '#' ∉ level) :
    '#' ∉ (level ++ behind levels).dropLast := by
  induction levels generalizing level with
  | nil =>
      rw [behind_nil, List.append_nil]
      exact fun hmem => hlevel (List.dropLast_subset _ hmem)
  | cons next levels ih =>
      rcases hwell with ⟨rfl, rfl⟩ | ⟨hsingle, hrest⟩
      · have hdrop : (level ++ behind [['#']]).dropLast = level ++ ['/'] := by
          rw [List.dropLast_append_of_ne_nil (by simp)]
          rfl
        rw [hdrop]
        simpa using hlevel
      · have hnext : '#' ∉ level ++ '/' :: next := by
          simpa using ⟨hlevel, hsingle.hash_notMem⟩
        have hdrop := ih hrest hnext
        rwa [List.append_assoc] at hdrop

theorem matchesRest_eq_false (hcharacter : isWildcard character = false)
    (hne : topic.head? ≠ some character) (hplain : Plain topic)
    (hspecial : ¬ (topic = [] ∧ last = some '+' ∧ character = '/' ∧ sub.head? = some '#'))
    (hhash : '#' ∉ (character :: sub).dropLast) :
    matchesRest last (character :: sub) topic = .ok false := by
  have hplus : character ≠ '+' := by
    rintro rfl
    contradiction
  have hnumber : character ≠ '#' := by
    rintro rfl
    contradiction
  unfold matchesRest
  rw [hplain.head?_any_eq_false, if_neg (by simp), if_pos hne, if_neg hplus, if_neg hnumber,
    if_neg hspecial, if_neg hhash]

/-- Equal characters are skipped, unless the rest of the filter stands for
nothing. -/
theorem matchesRest_skip (hcharacter : isWildcard character = false)
    (hmore : ¬ (topic = [] ∧ (sub = [] ∨ sub = ['/', '#'] ∨ sub = ['+']))) :
    matchesRest last (character :: sub) (character :: topic) =
      matchesRest (some character) sub topic := by
  conv_lhs => unfold matchesRest
  have hnumber : ¬ (topic = [] ∧ sub = ['/', '#']) := fun hboth =>
    hmore ⟨hboth.1, .inr (.inl hboth.2)⟩
  have hend : ¬ (topic = [] ∧ sub = []) := fun hboth => hmore ⟨hboth.1, .inl hboth.2⟩
  have hplus : ¬ (topic = [] ∧ sub = ['+']) := fun hboth =>
    hmore ⟨hboth.1, .inr (.inr hboth.2)⟩
  simp [hcharacter, hnumber, hend, hplus]

/-- At the end of the topic the rest of the filter may stand for nothing. -/
theorem matchesRest_last (hcharacter : isWildcard character = false)
    (hrest : sub = [] ∨ sub = ['/', '#'] ∨ sub = ['+'] ∧ character = '/') :
    matchesRest last (character :: sub) [character] = .ok true := by
  unfold matchesRest
  rcases hrest with rfl | rfl | ⟨rfl, rfl⟩
  · simp [hcharacter]
  · simp [hcharacter]
  · simp [hcharacter]

/-! ## Levels -/

/-- What is to be shown of the levels behind the first one. -/
def Decided (levels : List (List Char)) : Prop :=
  ∀ (last : Option Char) (topics : List (List Char)), Plain (behind topics) →
    (∀ topic ∈ topics, '/' ∉ topic) → ¬ (levels = [] ∧ topics = []) →
      (topics = [] → levels = [['#']] → last = some '+') →
        matchesRest last (behind levels) (behind topics) = .ok (matchLevels levels topics)

/-- Levels of a filter that stand for nothing at the end of a topic. -/
def Optional (level : List Char) (levels : List (List Char)) : Prop :=
  level = [] ∧ (levels = [] ∨ levels = [['#']]) ∨ level = ['+'] ∧ levels = []

/-- The filter and the topic go on with the same character. -/
theorem matchesRest_same {result : Bool} (hcharacter : isWildcard character = false)
    (hslash : '/' ∉ level) (hplus : level = ['+'] → character = '/')
    (hend : topic = [] → topics = [] → Optional level levels → result = true)
    (hmore : ¬ (topic = [] ∧ topics = [] ∧ Optional level levels) →
      matchesRest (some character) (level ++ behind levels) (topic ++ behind topics) =
        .ok result) :
    matchesRest last (character :: (level ++ behind levels))
      (character :: (topic ++ behind topics)) = .ok result := by
  have hoptional : (level ++ behind levels = [] ∨ level ++ behind levels = ['/', '#'] ∨
      level ++ behind levels = ['+']) ↔ Optional level levels := by
    rw [append_behind_eq_nil_iff, append_behind_eq_hash_iff hslash,
      append_behind_eq_singleton_iff (by decide)]
    unfold Optional
    tauto
  by_cases hboth : topic ++ behind topics = [] ∧ Optional level levels
  · obtain ⟨htopic, hnothing⟩ := hboth
    obtain ⟨rfl, rfl⟩ := append_behind_eq_nil_iff.mp htopic
    rw [hend rfl rfl hnothing]
    apply matchesRest_last hcharacter
    rcases hoptional.mpr hnothing with hnil | hnumber | hsingle
    · exact .inl hnil
    · exact .inr (.inl hnumber)
    · have hlevel := (append_behind_eq_singleton_iff (by decide)).mp hsingle
      exact .inr (.inr ⟨hsingle, hplus hlevel.1⟩)
  · rw [matchesRest_skip hcharacter (by rwa [hoptional])]
    apply hmore
    rintro ⟨rfl, rfl, hnothing⟩
    exact hboth ⟨rfl, hnothing⟩

/-- Where the filter is at its end and the topic is not. -/
theorem matchesRest_nil (hplain : Plain topic) : matchesRest last [] topic = .ok false := by
  unfold matchesRest
  rw [hplain.any_eq_false]
  rfl

/-- A level without wildcards is compared character by character. -/
theorem matchesRest_plain (hdecided : Decided levels) (hwell : WellFormed levels)
    (hlevel : Plain level) (hslash : '/' ∉ level) (htopic : '/' ∉ topic)
    (htopics : ∀ topic ∈ topics, '/' ∉ topic) (hplain : Plain (topic ++ behind topics))
    (hlast : last ≠ some '+')
    (hmore : ¬ (topic = [] ∧ topics = [] ∧ level = [] ∧ (levels = [] ∨ levels = [['#']]))) :
    matchesRest last (level ++ behind levels) (topic ++ behind topics) =
      .ok (decide (level = topic) && matchLevels levels topics) := by
  induction level generalizing topic last with
  | nil =>
      cases topic with
      | nil =>
          simp only [List.nil_append, decide_true, Bool.true_and]
          apply hdecided last topics hplain htopics
          · rintro ⟨hlevels, hnone⟩
            exact hmore ⟨rfl, hnone, rfl, .inl hlevels⟩
          · intro hnone hlevels
            exact absurd ⟨rfl, hnone, rfl, .inr hlevels⟩ hmore
      | cons character topic =>
          have hcharacter : character ≠ '/' := by
            rintro rfl
            exact htopic List.mem_cons_self
          cases levels with
          | nil => exact matchesRest_nil hplain
          | cons next levels =>
              apply matchesRest_eq_false rfl _ hplain _
                (hash_notMem_dropLast hwell List.not_mem_nil)
              · simpa using hcharacter
              · simp
  | cons character level ih =>
      have hcharacter : isWildcard character = false := hlevel character List.mem_cons_self
      have hrest : Plain level := fun other hmem => hlevel other (List.mem_cons_of_mem _ hmem)
      have hhash : '#' ∉ ((character :: level) ++ behind levels).dropLast :=
        hash_notMem_dropLast hwell (hlevel.notMem rfl)
      have hlevelSlash : '/' ∉ level := fun hmem => hslash (List.mem_cons_of_mem _ hmem)
      have hnotSlash : character ≠ '/' := by
        rintro rfl
        exact hslash List.mem_cons_self
      cases topic with
      | nil =>
          refine (matchesRest_eq_false hcharacter ?_ hplain ?_ hhash).trans (by simp)
          · cases topics with
            | nil => simp
            | cons next topics => simpa using hnotSlash.symm
          · exact fun hspecial => hlast hspecial.2.1
      | cons other topic =>
          by_cases hsame : character = other
          · subst hsame
            simp only [List.cons_append, List.cons.injEq, true_and]
            apply matchesRest_same hcharacter hlevelSlash
            · rintro rfl
              exact absurd List.mem_cons_self (hrest.notMem rfl)
            · rintro rfl rfl (⟨rfl, rfl | rfl⟩ | ⟨rfl, _⟩)
              · rfl
              · decide
              · exact absurd List.mem_cons_self (hrest.notMem rfl)
            · intro hmoreLevels
              apply ih hrest hlevelSlash (fun hmem => htopic (List.mem_cons_of_mem _ hmem))
                (fun other hmem => hplain other (List.mem_cons_of_mem _ hmem))
              · intro hplus
                rw [Option.some.inj hplus] at hcharacter
                contradiction
              · rintro ⟨htopicEnd, hnone, hoptional⟩
                exact hmoreLevels ⟨htopicEnd, hnone, .inl hoptional⟩
          · refine (matchesRest_eq_false hcharacter ?_ hplain ?_ hhash).trans ?_
            · simpa using fun heq => hsame heq.symm
            · exact fun hspecial => hlast hspecial.2.1
            · simp [hsame]

/-- A `+` takes the characters of one level. -/
theorem matchesRest_plus (hdecided : Decided levels) (htopic : '/' ∉ topic)
    (htopics : ∀ topic ∈ topics, '/' ∉ topic) (hplain : Plain (topic ++ behind topics))
    (hlast : last = none ∨ last = some '/') :
    matchesRest last ('+' :: behind levels) (topic ++ behind topics) =
      .ok (matchLevels levels topics) := by
  have hhead : (topic ++ behind topics).head? ≠ some '+' := by
    intro hsome
    exact hplain.notMem rfl (List.mem_of_mem_head? hsome)
  have hbefore : ¬ (last.any (· ≠ '/')) = true := by
    rcases hlast with rfl | rfl <;> simp
  have hafter : ¬ ((behind levels).head?.any (· ≠ '/')) = true := by
    cases levels <;> simp
  have htake : ((topic ++ behind topics).takeWhile (· ≠ '/')).any isWildcard = false := by
    rw [List.any_eq_false]
    intro character hmem
    simp [hplain character (List.takeWhile_subset _ hmem)]
  have hdrop : (topic ++ behind topics).dropWhile (· ≠ '/') = behind topics := by
    rw [List.dropWhile_append_of_pos]
    · cases topics <;> simp
    · intro character hmem
      have hne : character ≠ '/' := by
        rintro rfl
        exact htopic hmem
      simpa using hne
  unfold matchesRest
  rw [hplain.head?_any_eq_false, if_neg (by simp), if_pos hhead, if_pos rfl, if_neg hbefore,
    if_neg hafter, htake, if_neg (by simp), hdrop]
  split
  next hend =>
    rw [behind_eq_nil_iff.mp hend.1, behind_eq_nil_iff.mp hend.2]
    rfl
  next hmore =>
    refine hdecided (some '+') topics hplain.of_append_right htopics ?_ fun _ _ => rfl
    rintro ⟨rfl, rfl⟩
    exact hmore ⟨rfl, rfl⟩

/-- Where a level of the filter and one of the topic begin. -/
theorem matchesRest_level (hdecided : WellFormed levels → Decided levels)
    (hwell : WellFormed (level :: levels)) (hslash : '/' ∉ level) (htopic : '/' ∉ topic)
    (htopics : ∀ topic ∈ topics, '/' ∉ topic) (hplain : Plain (topic ++ behind topics))
    (hlast : last = none ∨ last = some '/')
    (hmore : ¬ (topic = [] ∧ topics = [] ∧ level = [] ∧ (levels = [] ∨ levels = [['#']]))) :
    matchesRest last (level ++ behind levels) (topic ++ behind topics) =
      .ok (matchLevels (level :: levels) (topic :: topics)) := by
  rcases hwell with ⟨rfl, rfl⟩ | ⟨hsingle | hlevel, hwell⟩
  · have hhead : (topic ++ behind topics).head? ≠ some '#' := by
      intro hsome
      exact hplain.notMem rfl (List.mem_of_mem_head? hsome)
    have hbefore : ¬ (last.any (· ≠ '/')) = true := by
      rcases hlast with rfl | rfl <;> simp
    change matchesRest last ['#'] _ = _
    unfold matchesRest
    rw [hplain.head?_any_eq_false, if_neg (by simp), if_pos hhead, if_neg (by decide), if_pos rfl,
      if_neg hbefore, if_neg (by simp), hplain.any_eq_false, if_neg (by simp)]
    simp [matchLevels]
  · subst hsingle
    refine (matchesRest_plus (hdecided hwell) htopic htopics hplain hlast).trans ?_
    simp [matchLevels]
  · have hnotPlus : last ≠ some '+' := by
      rcases hlast with rfl | rfl <;> simp
    rw [matchesRest_plain (hdecided hwell) hwell hlevel hslash htopic htopics hplain hnotPlus hmore]
    have hhash : level ≠ ['#'] := by
      rintro rfl
      exact hlevel.notMem rfl List.mem_cons_self
    have hplus : level ≠ ['+'] := by
      rintro rfl
      exact hlevel.notMem rfl List.mem_cons_self
    simp [matchLevels, hhash, hplus]

theorem decided (hwell : WellFormed levels) (hslash : ∀ level ∈ levels, '/' ∉ level) :
    Decided levels := by
  induction levels with
  | nil =>
      intro last topics hplain _ hmore _
      cases topics with
      | nil => exact absurd ⟨rfl, rfl⟩ hmore
      | cons topic topics => exact matchesRest_nil hplain
  | cons level levels ih =>
      have hlevel := hslash level List.mem_cons_self
      have hlevels := fun other hmem => hslash other (List.mem_cons_of_mem level hmem)
      intro last topics hplain htopics _ hspecial
      cases topics with
      | nil =>
          by_cases hhash : level :: levels = [['#']]
          · rw [hspecial rfl hhash, hhash]
            decide
          · have hsingle : Single level := by
              rcases hwell with ⟨rfl, rfl⟩ | ⟨hsingle, _⟩
              · exact absurd rfl hhash
              · exact hsingle
            have hnumber : '#' ∉ level := hsingle.hash_notMem
            refine (matchesRest_eq_false rfl (by simp) hplain ?_
              (hash_notMem_dropLast hwell List.not_mem_nil)).trans ?_
            · rintro ⟨_, _, _, hhead⟩
              cases level with
              | nil => cases levels <;> simp at hhead
              | cons first level =>
                  have hfirst : first = '#' := by simpa using hhead
                  exact hnumber (hfirst ▸ List.mem_cons_self)
            · have hne : level ≠ ['#'] := by
                rintro rfl
                exact hnumber List.mem_cons_self
              simp [matchLevels, hne]
      | cons topic topics =>
          have htopic := htopics topic List.mem_cons_self
          have hrest := fun other hmem => htopics other (List.mem_cons_of_mem topic hmem)
          have htail : Plain (topic ++ behind topics) := fun other hmem =>
            hplain other (List.mem_cons_of_mem _ hmem)
          simp only [behind_cons]
          apply matchesRest_same rfl hlevel (fun _ => rfl)
          · rintro rfl rfl (⟨rfl, rfl | rfl⟩ | ⟨rfl, rfl⟩) <;> decide
          · intro hmoreLevels
            apply matchesRest_level (fun hlater => ih hlater hlevels) hwell hlevel htopic hrest
              htail (.inr rfl)
            rintro ⟨htopicEnd, hnone, hoptional⟩
            exact hmoreLevels ⟨htopicEnd, hnone, .inl hoptional⟩

/-- A topic matches a filter whose wildcards are in their places iff the levels
match, and both or none of them begin with a dollar sign. -/
theorem topicMatchesSub_levels {sub topic : String} (hsub : sub ≠ "") (htopic : topic ≠ "")
    (hwell : WellFormed (Levels.levels sub)) (hplain : Plain topic.toList) :
    topicMatchesSub sub topic =
      .ok (decide (sub.toList.head? = some '$' ↔ topic.toList.head? = some '$') &&
        matchLevels (Levels.levels sub) (Levels.levels topic)) := by
  have hnonempty : ¬ (sub.toList = [] ∨ topic.toList = []) := by
    rw [String.toList_eq_nil_iff, String.toList_eq_nil_iff]
    exact fun hempty => hempty.elim hsub htopic
  unfold topicMatchesSub
  rw [if_neg hnonempty]
  split
  next hdollar =>
    have hdiffer : ¬ (sub.toList.head? = some '$' ↔ topic.toList.head? = some '$') := by
      rintro ⟨hfirst, hsecond⟩
      rcases hdollar with ⟨hone, hother⟩ | ⟨hone, hother⟩
      · exact hother (hfirst hone)
      · exact hother (hsecond hone)
    rw [decide_eq_false hdiffer, Bool.false_and]
  next hdollar =>
    have hsame : sub.toList.head? = some '$' ↔ topic.toList.head? = some '$' := by
      constructor
      · exact fun hone => by_contra fun hother => hdollar (.inl ⟨hone, hother⟩)
      · exact fun hone => by_contra fun hother => hdollar (.inr ⟨hone, hother⟩)
    obtain ⟨level, levels, hsubLevels, hsubText, hslash⟩ := exists_levels sub
    obtain ⟨first, topics, htopicLevels, htopicText, htopicSlash⟩ := exists_levels topic
    rw [decide_eq_true hsame, Bool.true_and, hsubLevels, htopicLevels]
    rw [hsubLevels] at hwell
    rw [hsubText, htopicText] at hnonempty ⊢
    rw [htopicText] at hplain
    have hlevels := fun other hmem => hslash other (List.mem_cons_of_mem _ hmem)
    have htopics := fun other hmem => htopicSlash other (List.mem_cons_of_mem _ hmem)
    apply matchesRest_level (fun hlater => decided hlater hlevels) hwell
      (hslash level List.mem_cons_self) (htopicSlash first List.mem_cons_self) htopics hplain
      (.inl rfl)
    rintro ⟨rfl, rfl, _⟩
    exact hnonempty (.inr rfl)

theorem topicMatchesSub_levels_temperature :
    topicMatchesSub "master/+/slave/#" "master/1/slave/17/temperature" = .ok true := by
  have hlevels : Levels.levels "master/+/slave/#" =
      ["master".toList, ['+'], "slave".toList, ['#']] := by
    decide +kernel
  have hwell : WellFormed (Levels.levels "master/+/slave/#") := by
    rw [hlevels]
    exact .inr ⟨.inr (plain_of_all (by decide +kernel)), .inr ⟨.inl rfl,
      .inr ⟨.inr (plain_of_all (by decide +kernel)), .inl ⟨rfl, rfl⟩⟩⟩⟩
  have hplain : Plain "master/1/slave/17/temperature".toList :=
    plain_of_all (by decide +kernel)
  rw [topicMatchesSub_levels (by decide) (by decide) hwell hplain]
  decide +kernel

end Mosquitto

end IotGateway
