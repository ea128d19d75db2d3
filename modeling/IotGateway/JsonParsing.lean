import IotGateway.JsonNumbers

/-!
# The reader takes the texts of JSON

The reader gives the events of a value for each text of it, and for no other
text.  So the document that `Parse` makes of a text is the value that the
grammar gives to it.
-/

namespace IotGateway

open Faults Json JsonText Numerals Reader

namespace JsonText

variable {decimal : List UInt8 → Option ℚ} {depth stack : ℕ} {bytes rest text blank : List UInt8}
  {byte : UInt8} {value : Json} {elements : List Json} {members : List (List UInt8 × Json)}
  {events : List JsonEvent}

/-! ## What the reader takes is a text -/

def TakesValues (decimal : List UInt8 → Option ℚ) (stack : ℕ)
    (parser : List UInt8 → Except Failure (List JsonEvent × List UInt8)) : Prop :=
  ∀ {bytes rest : List UInt8} {events : List JsonEvent}, parser bytes = .ok (events, rest) →
    ∃ value text, Value decimal value text ∧ bytes = text ++ rest ∧ events = value.events ∧
      value.nesting ≤ stack

/-- The loop of `ParseArray`, when it has counted some elements. -/
def TakesElements (decimal : List UInt8 → Option ℚ) (stack : ℕ)
    (parser : ℕ → List UInt8 → Except Failure (List JsonEvent × List UInt8)) : Prop :=
  ∀ {count : ℕ} {bytes rest : List UInt8} {events : List JsonEvent},
    parser count bytes = .ok (events, rest) →
      ∃ elements text, Elements decimal elements text ∧ bytes = text ++ rest ∧
        events = eventsOfElements elements ++ [.endArray (count + elements.length)] ∧
        nestingOfElements elements ≤ stack

def TakesMembers (decimal : List UInt8 → Option ℚ) (stack : ℕ)
    (parser : ℕ → List UInt8 → Except Failure (List JsonEvent × List UInt8)) : Prop :=
  ∀ {count : ℕ} {bytes rest : List UInt8} {events : List JsonEvent},
    parser count bytes = .ok (events, rest) →
      ∃ members text, Members decimal members text ∧ bytes = text ++ rest ∧
        events = eventsOfMembers members ++ [.endObject (count + members.length)] ∧
        nestingOfMembers members ≤ stack

theorem takesValues_parseArray
    (helements : TakesElements decimal stack (parseElements decimal depth stack)) :
    TakesValues decimal (stack + 1) (parseArray decimal (depth + 1) (stack + 1)) := by
  intro bytes rest events hrun
  rw [parseArray] at hrun
  obtain ⟨behind, hopen, hnext⟩ := exists_of_bind_eq_ok hrun
  obtain rfl := consume_eq_some_iff.mp (require_eq_ok_iff.mp hopen)
  obtain ⟨blank, hblank, hbehind⟩ := exists_blank behind
  simp only at hnext
  split at hnext
  next afterClose hclose =>
    cases hnext
    rw [consume_eq_some_iff.mp hclose] at hbehind
    exact ⟨_, _, .emptyArray hblank, by rw [hbehind]; simp, rfl, Nat.le_add_left 1 stack⟩
  next hclose =>
    obtain ⟨⟨more, behind⟩, hmore, hresult⟩ := exists_of_bind_eq_ok hnext
    cases hresult
    obtain ⟨elements, text, htext, htaken, rfl, hnesting⟩ := helements hmore
    rw [htaken] at hbehind
    refine ⟨_, _, .array hblank htext, by rw [hbehind]; simp, ?_, Nat.succ_le_succ hnesting⟩
    rw [Nat.zero_add]
    rfl

theorem takesValues_parseObject
    (hmembers : TakesMembers decimal stack (parseMembers decimal depth stack)) :
    TakesValues decimal (stack + 1) (parseObject decimal (depth + 1) (stack + 1)) := by
  intro bytes rest events hrun
  rw [parseObject] at hrun
  obtain ⟨behind, hopen, hnext⟩ := exists_of_bind_eq_ok hrun
  obtain rfl := consume_eq_some_iff.mp (require_eq_ok_iff.mp hopen)
  obtain ⟨blank, hblank, hbehind⟩ := exists_blank behind
  simp only at hnext
  split at hnext
  next afterClose hclose =>
    cases hnext
    rw [consume_eq_some_iff.mp hclose] at hbehind
    exact ⟨_, _, .emptyObject hblank, by rw [hbehind]; simp, rfl, Nat.le_add_left 1 stack⟩
  next hclose =>
    obtain ⟨⟨more, behind⟩, hmore, hresult⟩ := exists_of_bind_eq_ok hnext
    cases hresult
    obtain ⟨members, text, htext, htaken, rfl, hnesting⟩ := hmembers hmore
    rw [htaken] at hbehind
    refine ⟨_, _, .object hblank htext, by rw [hbehind]; simp, ?_, Nat.succ_le_succ hnesting⟩
    rw [Nat.zero_add]
    rfl

theorem takesElements_parseElements
    (hvalues : TakesValues decimal stack (parseValue decimal depth stack))
    (helements : TakesElements decimal stack (parseElements decimal depth stack)) :
    TakesElements decimal stack (parseElements decimal (depth + 1) stack) := by
  intro count bytes rest events hrun
  rw [parseElements] at hrun
  obtain ⟨⟨first, behind⟩, hfirst, hnext⟩ := exists_of_bind_eq_ok hrun
  obtain ⟨element, text, htext, rfl, rfl, hnesting⟩ := hvalues hfirst
  obtain ⟨blank, hblank, hbehind⟩ := exists_blank behind
  simp only at hnext
  split at hnext
  next afterComma hcomma =>
    obtain ⟨⟨more, behind⟩, hmore, hresult⟩ := exists_of_bind_eq_ok hnext
    cases hresult
    obtain ⟨before, hbefore, hafterComma⟩ := exists_blank afterComma
    obtain ⟨elements, texts, htexts, htaken, rfl, hmoreNesting⟩ := helements hmore
    rw [consume_eq_some_iff.mp hcomma, hafterComma, htaken] at hbehind
    refine ⟨_, _, .cons htext hblank hbefore htexts, by rw [hbehind]; simp, ?_,
      Nat.max_le.mpr ⟨hnesting, hmoreNesting⟩⟩
    rw [eventsOfElements, List.append_assoc, List.length_cons, Nat.add_right_comm, Nat.add_assoc]
  next hcomma =>
    obtain ⟨afterClose, hclose, hresult⟩ := exists_of_bind_eq_ok hnext
    cases hresult
    rw [consume_eq_some_iff.mp (require_eq_ok_iff.mp hclose)] at hbehind
    refine ⟨_, _, .last htext hblank, by rw [hbehind]; simp, ?_,
      Nat.max_le.mpr ⟨hnesting, Nat.zero_le stack⟩⟩
    rw [eventsOfElements, eventsOfElements, List.append_nil]
    rfl

theorem takesMembers_parseMembers
    (hvalues : TakesValues decimal stack (parseValue decimal depth stack))
    (hmembers : TakesMembers decimal stack (parseMembers decimal depth stack)) :
    TakesMembers decimal stack (parseMembers decimal (depth + 1) stack) := by
  intro count bytes rest events hrun
  rw [parseMembers] at hrun
  obtain ⟨⟨name, afterName⟩, hname, hafter⟩ := exists_of_bind_eq_ok hrun
  obtain ⟨afterColon, hcolon, hvalue⟩ := exists_of_bind_eq_ok hafter
  obtain ⟨⟨first, behind⟩, hfirst, hnext⟩ := exists_of_bind_eq_ok hvalue
  obtain ⟨nameText, hnameText, rfl⟩ := parseString_eq_some_iff.mp (require_eq_ok_iff.mp hname)
  obtain ⟨blankName, hblankName, hafterName⟩ := exists_blank afterName
  obtain ⟨blankColon, hblankColon, hafterColon⟩ := exists_blank afterColon
  obtain ⟨blank, hblank, hbehind⟩ := exists_blank behind
  obtain ⟨value, text, htext, htaken, rfl, hnesting⟩ := hvalues hfirst
  rw [consume_eq_some_iff.mp (require_eq_ok_iff.mp hcolon), hafterColon, htaken] at hafterName
  simp only at hnext
  split at hnext
  next afterComma hcomma =>
    obtain ⟨⟨more, last⟩, hmore, hresult⟩ := exists_of_bind_eq_ok hnext
    cases hresult
    obtain ⟨before, hbefore, hafterComma⟩ := exists_blank afterComma
    obtain ⟨members, texts, htexts, htakenMore, rfl, hmoreNesting⟩ := hmembers hmore
    rw [consume_eq_some_iff.mp hcomma, hafterComma, htakenMore] at hbehind
    rw [hbehind] at hafterName
    refine ⟨_, _, .cons hnameText hblankName hblankColon htext hblank hbefore htexts,
      by rw [hafterName]; simp, ?_, Nat.max_le.mpr ⟨hnesting, hmoreNesting⟩⟩
    rw [eventsOfMembers, List.cons_append, List.append_assoc, List.length_cons,
      Nat.add_right_comm, Nat.add_assoc]
  next hcomma =>
    obtain ⟨afterClose, hclose, hresult⟩ := exists_of_bind_eq_ok hnext
    cases hresult
    rw [consume_eq_some_iff.mp (require_eq_ok_iff.mp hclose)] at hbehind
    rw [hbehind] at hafterName
    refine ⟨_, _, .last hnameText hblankName hblankColon htext hblank,
      by rw [hafterName]; simp, ?_, Nat.max_le.mpr ⟨hnesting, Nat.zero_le stack⟩⟩
    rw [eventsOfMembers, eventsOfMembers, List.append_nil]
    rfl

theorem takesValues_parseValue
    (hobjects : TakesValues decimal stack (parseObject decimal depth stack))
    (harrays : TakesValues decimal stack (parseArray decimal depth stack)) :
    TakesValues decimal stack (parseValue decimal (depth + 1) stack) := by
  intro bytes rest events hrun
  rw [parseValue] at hrun
  split at hrun
  next =>
    obtain ⟨behind, hword, hresult⟩ := Option.bind_eq_some_iff.mp (require_eq_ok_iff.mp hrun)
    cases hresult
    exact ⟨_, _, .null, consumeAll_eq_some_iff.mp hword, rfl, Nat.zero_le stack⟩
  next =>
    obtain ⟨behind, hword, hresult⟩ := Option.bind_eq_some_iff.mp (require_eq_ok_iff.mp hrun)
    cases hresult
    exact ⟨_, _, .true, consumeAll_eq_some_iff.mp hword, rfl, Nat.zero_le stack⟩
  next =>
    obtain ⟨behind, hword, hresult⟩ := Option.bind_eq_some_iff.mp (require_eq_ok_iff.mp hrun)
    cases hresult
    exact ⟨_, _, .false, consumeAll_eq_some_iff.mp hword, rfl, Nat.zero_le stack⟩
  next =>
    obtain ⟨⟨text, behind⟩, hstring, hresult⟩ := exists_of_bind_eq_ok hrun
    cases hresult
    obtain ⟨quoted, hquoted, rfl⟩ := parseString_eq_some_iff.mp (require_eq_ok_iff.mp hstring)
    exact ⟨_, _, .string hquoted, rfl, rfl, Nat.zero_le stack⟩
  next => exact hobjects hrun
  next => exact harrays hrun
  next =>
    obtain ⟨value, text, htext, hbytes, hevents, hnesting⟩ :=
      parseNumber_sound (require_eq_ok_iff.mp hrun)
    exact ⟨value, text, htext, hbytes, hevents, hnesting ▸ Nat.zero_le stack⟩

/-- The calls of a depth. -/
structure Takes (decimal : List UInt8 → Option ℚ) (depth stack : ℕ) : Prop where
  values : TakesValues decimal stack (parseValue decimal depth stack)
  objects : TakesValues decimal stack (parseObject decimal depth stack)
  members : TakesMembers decimal stack (parseMembers decimal depth stack)
  arrays : TakesValues decimal stack (parseArray decimal depth stack)
  elements : TakesElements decimal stack (parseElements decimal depth stack)

theorem takes (decimal : List UInt8 → Option ℚ) (depth stack : ℕ) :
    Takes decimal depth stack := by
  induction depth generalizing stack with
  | zero =>
      constructor
      case values | objects | arrays =>
        intro bytes rest events hrun
        cases hrun
      case members | elements =>
        intro count bytes rest events hrun
        cases hrun
  | succ depth ih =>
      constructor
      case values => exact takesValues_parseValue (ih stack).objects (ih stack).arrays
      case members => exact takesMembers_parseMembers (ih stack).values (ih stack).members
      case elements => exact takesElements_parseElements (ih stack).values (ih stack).elements
      case objects =>
        cases stack with
        | zero =>
            intro bytes rest events hrun
            cases hrun
        | succ stack => exact takesValues_parseObject (ih stack).members
      case arrays =>
        cases stack with
        | zero =>
            intro bytes rest events hrun
            cases hrun
        | succ stack => exact takesValues_parseArray (ih stack).elements

/-! ## The reader takes a text -/

/-- A byte with which a value may begin. -/
def Begins (byte : UInt8) : Prop := isWhitespace byte = false ∧ byte ≠ closeBracket

theorem begins_of_isDigit (hdigit : isDigit byte = true) : Begins byte := by
  obtain ⟨digit, hlt, rfl⟩ := exists_digitOf hdigit
  have hall : ∀ digit < 10, isWhitespace (digitOf digit) = false ∧
      digitOf digit ≠ closeBracket := by
    decide
  exact hall digit hlt

theorem exists_cons_of_number (minus : Bool) (number : ℕ) (text : List UInt8) :
    ∃ byte behind, signText minus ++ (numeral number ++ text) = byte :: behind ∧ Begins byte ∧
      (byte = minusSign ∨ isDigit byte = true) := by
  cases minus with
  | true => exact ⟨_, _, rfl, ⟨rfl, by decide⟩, .inl rfl⟩
  | false =>
      obtain ⟨first, digits, hnumeral⟩ := List.exists_cons_of_ne_nil (numeral_ne_nil number)
      have hfirst : isDigit first = true :=
        isDigit_of_mem_numeral (hnumeral.symm ▸ List.mem_cons_self : first ∈ numeral number)
      refine ⟨first, digits ++ text, ?_, begins_of_isDigit hfirst, .inr hfirst⟩
      change numeral number ++ text = _
      rw [hnumeral, List.cons_append]

theorem Quoted.exists_cons {name : List UInt8} (hquoted : Quoted text name) :
    ∃ behind, text = quotationMark :: behind := by
  cases hquoted with
  | quoted => exact ⟨_, rfl⟩

theorem Value.exists_cons (hvalue : Value decimal value text) :
    ∃ byte behind, text = byte :: behind ∧ Begins byte := by
  cases hvalue with
  | null => exact ⟨0x6E, [0x75, 0x6C, 0x6C], by decide +kernel, rfl, by decide⟩
  | true => exact ⟨0x74, [0x72, 0x75, 0x65], by decide +kernel, rfl, by decide⟩
  | false => exact ⟨0x66, [0x61, 0x6C, 0x73, 0x65], by decide +kernel, rfl, by decide⟩
  | @int minus number =>
      obtain ⟨byte, behind, htext, hbegins, -⟩ := exists_cons_of_number minus number []
      rw [List.append_nil] at htext
      exact ⟨byte, behind, htext, hbegins⟩
  | double =>
      obtain ⟨byte, behind, htext, hbegins, -⟩ := exists_cons_of_number _ _ _
      exact ⟨byte, behind, htext, hbegins⟩
  | string hquoted =>
      obtain ⟨behind, rfl⟩ := hquoted.exists_cons
      exact ⟨_, behind, rfl, rfl, by decide⟩
  | emptyArray | array | emptyObject | object => exact ⟨_, _, rfl, rfl, by decide⟩

theorem Elements.exists_cons (helements : Elements decimal elements text) :
    ∃ byte behind, text = byte :: behind ∧ Begins byte := by
  cases helements with
  | last helement =>
      obtain ⟨byte, behind, rfl, hbegins⟩ := helement.exists_cons
      exact ⟨byte, _, rfl, hbegins⟩
  | cons helement =>
      obtain ⟨byte, behind, rfl, hbegins⟩ := helement.exists_cons
      exact ⟨byte, _, rfl, hbegins⟩

theorem Members.exists_cons (hmembers : Members decimal members text) :
    ∃ behind, text = quotationMark :: behind := by
  cases hmembers with
  | last hname =>
      obtain ⟨behind, rfl⟩ := hname.exists_cons
      exact ⟨_, rfl⟩
  | cons hname =>
      obtain ⟨behind, rfl⟩ := hname.exists_cons
      exact ⟨_, rfl⟩

theorem ends_of_blank (hblank : Blank blank)
    (hrest : Ends rest) : Ends (blank ++ rest) := by
  cases blank with
  | nil => exact hrest
  | cons byte blank =>
      have hbyte := hblank byte List.mem_cons_self
      have hspace : byte = 0x20 ∨ byte = 0x0A ∨ byte = 0x0D ∨ byte = 0x09 := by
        simpa [isWhitespace, or_assoc] using hbyte
      intro other hhead
      cases hhead
      rcases hspace with rfl | rfl | rfl | rfl
      all_goals decide

theorem ends_cons (hbyte : byte = comma ∨ byte = closeBracket ∨ byte = closeBrace) :
    Ends (byte :: rest) := by
  intro other hhead
  cases hhead
  rcases hbyte with rfl | rfl | rfl
  all_goals decide

theorem ends_nil : Ends [] := by
  intro byte hhead
  cases hhead

theorem parseValue_of_number (hbyte : byte = minusSign ∨ isDigit byte = true) :
    parseValue decimal (depth + 1) stack (byte :: bytes) =
      require (parseNumber decimal (byte :: bytes)) := by
  have hne : ∀ other, isDigit other = false → other ≠ minusSign → byte ≠ other := by
    rintro other hdigit hminus rfl
    rcases hbyte with hsame | hsame
    · exact hminus hsame
    · rw [hsame] at hdigit
      cases hdigit
  rw [parseValue]
  split
  next hhead => exact absurd (Option.some.inj hhead) (hne _ rfl (by decide))
  next hhead => exact absurd (Option.some.inj hhead) (hne _ rfl (by decide))
  next hhead => exact absurd (Option.some.inj hhead) (hne _ rfl (by decide))
  next hhead => exact absurd (Option.some.inj hhead) (hne _ rfl (by decide))
  next hhead => exact absurd (Option.some.inj hhead) (hne _ rfl (by decide))
  next hhead => exact absurd (Option.some.inj hhead) (hne _ rfl (by decide))
  next => rfl

theorem skipWhitespace_blank_cons (hblank : Blank blank) (hbyte : isWhitespace byte = false) :
    skipWhitespace (blank ++ byte :: rest) = byte :: rest := by
  rw [skipWhitespace_append hblank, skipWhitespace_cons hbyte]

theorem parseArray_of_elements (hblank : Blank blank)
    (hbegins : ∃ byte behind, text = byte :: behind ∧ Begins byte)
    (hrun : parseElements decimal depth stack 0 text = .ok (events, rest)) :
    parseArray decimal (depth + 1) (stack + 1) (openBracket :: (blank ++ text)) =
      .ok (.startArray :: events, rest) := by
  obtain ⟨byte, behind, rfl, hbyte⟩ := hbegins
  rw [parseArray, consume_self]
  simp only [require, ok_bind]
  rw [skipWhitespace_blank_cons hblank hbyte.1, consume_of_ne hbyte.2, hrun]
  rfl

theorem parseArray_of_blank (hblank : Blank blank) :
    parseArray decimal (depth + 1) (stack + 1) (openBracket :: (blank ++ closeBracket :: rest)) =
      .ok ([.startArray, .endArray 0], rest) := by
  rw [parseArray, consume_self]
  simp only [require, ok_bind]
  rw [skipWhitespace_blank_cons hblank rfl, consume_self]
  rfl

theorem parseObject_of_members (hblank : Blank blank)
    (hbegins : ∃ behind, text = quotationMark :: behind)
    (hrun : parseMembers decimal depth stack 0 text = .ok (events, rest)) :
    parseObject decimal (depth + 1) (stack + 1) (openBrace :: (blank ++ text)) =
      .ok (.startObject :: events, rest) := by
  obtain ⟨behind, rfl⟩ := hbegins
  rw [parseObject, consume_self]
  simp only [require, ok_bind]
  rw [skipWhitespace_blank_cons hblank rfl, consume_of_ne (by decide), hrun]
  rfl

theorem parseObject_of_blank (hblank : Blank blank) :
    parseObject decimal (depth + 1) (stack + 1) (openBrace :: (blank ++ closeBrace :: rest)) =
      .ok ([.startObject, .endObject 0], rest) := by
  rw [parseObject, consume_self]
  simp only [require, ok_bind]
  rw [skipWhitespace_blank_cons hblank rfl, consume_self]
  rfl

section Loops

variable {count : ℕ} {afterValue before more last nameText name afterName beforeValue : List UInt8}
  {moreEvents : List JsonEvent}

theorem parseElements_last (hblank : Blank blank)
    (hvalue : parseValue decimal depth stack bytes = .ok (events, blank ++ closeBracket :: rest)) :
    parseElements decimal (depth + 1) stack count bytes =
      .ok (events ++ [.endArray (count + 1)], rest) := by
  rw [parseElements, hvalue]
  simp only [require, ok_bind]
  rw [skipWhitespace_blank_cons hblank rfl, consume_of_ne (by decide), consume_self]
  rfl

theorem parseElements_comma (hblank : Blank blank) (hbefore : Blank before)
    (hbegins : ∃ byte behind, text = byte :: behind ∧ Begins byte)
    (hvalue : parseValue decimal depth stack bytes =
      .ok (events, blank ++ comma :: (before ++ text)))
    (hmore : parseElements decimal depth stack (count + 1) text = .ok (moreEvents, rest)) :
    parseElements decimal (depth + 1) stack count bytes = .ok (events ++ moreEvents, rest) := by
  obtain ⟨byte, behind, rfl, hbyte⟩ := hbegins
  rw [parseElements, hvalue]
  simp only [require, ok_bind]
  rw [skipWhitespace_blank_cons hblank rfl, consume_self]
  simp only
  rw [skipWhitespace_blank_cons hbefore hbyte.1, hmore]
  rfl

/-- The beginning of a member. -/
theorem parseMembers_name (hname : Quoted nameText name) (hafter : Blank afterName)
    (hbefore : Blank beforeValue)
    (hbegins : ∃ byte behind, text = byte :: behind ∧ Begins byte)
    (hvalue : parseValue decimal depth stack text = .ok (events, bytes)) :
    parseMembers decimal (depth + 1) stack count
        (nameText ++ (afterName ++ colon :: (beforeValue ++ text))) =
      match consume comma (skipWhitespace bytes) with
      | some rest =>
          (parseMembers decimal depth stack (count + 1) (skipWhitespace rest)).map fun result =>
            (.key name :: (events ++ result.1), result.2)
      | none =>
          (require (consume closeBrace (skipWhitespace bytes))).map fun rest =>
            (.key name :: (events ++ [.endObject (count + 1)]), rest) := by
  obtain ⟨byte, behind, rfl, hbyte⟩ := hbegins
  have hstring : parseString (nameText ++ (afterName ++ colon :: (beforeValue ++ byte :: behind))) =
      some (name, afterName ++ colon :: (beforeValue ++ byte :: behind)) :=
    parseString_eq_some_iff.mpr ⟨_, hname, rfl⟩
  rw [parseMembers, hstring]
  simp only [require, ok_bind]
  rw [skipWhitespace_blank_cons hafter rfl, consume_self]
  simp only [ok_bind]
  rw [skipWhitespace_blank_cons hbefore hbyte.1, hvalue]
  simp only [ok_bind]
  cases consume comma (skipWhitespace bytes) with
  | some rest =>
      simp only
      cases parseMembers decimal depth stack (count + 1) (skipWhitespace rest) <;> rfl
  | none =>
      simp only
      cases consume closeBrace (skipWhitespace bytes) <;> rfl

theorem parseMembers_last (hname : Quoted nameText name) (hafter : Blank afterName)
    (hbefore : Blank beforeValue)
    (hbegins : ∃ byte behind, text = byte :: behind ∧ Begins byte) (hblank : Blank blank)
    (hvalue : parseValue decimal depth stack text = .ok (events, blank ++ closeBrace :: rest)) :
    parseMembers decimal (depth + 1) stack count
        (nameText ++ (afterName ++ colon :: (beforeValue ++ text))) =
      .ok (.key name :: (events ++ [.endObject (count + 1)]), rest) := by
  rw [parseMembers_name hname hafter hbefore hbegins hvalue, skipWhitespace_blank_cons hblank rfl,
    consume_of_ne (by decide), consume_self]
  rfl

theorem parseMembers_comma (hname : Quoted nameText name) (hafter : Blank afterName)
    (hbeforeValue : Blank beforeValue)
    (hbegins : ∃ byte behind, text = byte :: behind ∧ Begins byte) (hblank : Blank blank)
    (hbefore : Blank before) (hbeginsMore : ∃ behind, more = quotationMark :: behind)
    (hvalue : parseValue decimal depth stack text =
      .ok (events, blank ++ comma :: (before ++ more)))
    (hmore : parseMembers decimal depth stack (count + 1) more = .ok (moreEvents, rest)) :
    parseMembers decimal (depth + 1) stack count
        (nameText ++ (afterName ++ colon :: (beforeValue ++ text))) =
      .ok (.key name :: (events ++ moreEvents), rest) := by
  obtain ⟨behind, rfl⟩ := hbeginsMore
  rw [parseMembers_name hname hafter hbeforeValue hbegins hvalue,
    skipWhitespace_blank_cons hblank rfl, consume_self]
  simp only
  rw [skipWhitespace_blank_cons hbefore rfl, hmore]
  rfl

end Loops

theorem exists_append {first : List UInt8} (second : List UInt8)
    (hbegins : ∃ byte behind, first = byte :: behind ∧ Begins byte) :
    ∃ byte behind, first ++ second = byte :: behind ∧ Begins byte := by
  obtain ⟨byte, behind, rfl, hbyte⟩ := hbegins
  exact ⟨byte, behind ++ second, rfl, hbyte⟩

theorem parseValue_number {minus : Bool} {number : ℕ} {more : List UInt8}
    (htext : text = signText minus ++ (numeral number ++ more)) :
    parseValue decimal (depth + 1) stack (text ++ rest) =
      require (parseNumber decimal (text ++ rest)) := by
  obtain ⟨byte, behind, hcons, -, hbyte⟩ := exists_cons_of_number minus number more
  rw [htext, hcons, List.cons_append]
  exact parseValue_of_number hbyte

theorem parseValue_string {string : List UInt8} (hquoted : Quoted text string) :
    parseValue decimal (depth + 1) stack (text ++ rest) = .ok ([.string string], rest) := by
  have hstring : parseString (text ++ rest) = some (string, rest) :=
    parseString_eq_some_iff.mpr ⟨text, hquoted, rfl⟩
  obtain ⟨behind, rfl⟩ := hquoted.exists_cons
  rw [List.cons_append] at hstring ⊢
  change require (parseString _) >>= _ = _
  rw [hstring]
  rfl

mutual

/-- Twice the length of a text is depth enough for it, and its nesting is stack enough. -/
theorem Value.parseValue {value : Json} {text rest : List UInt8} {depth stack : ℕ}
    (hvalue : Value decimal value text) (hends : Ends rest) (hdepth : 2 * text.length ≤ depth)
    (hstack : value.nesting ≤ stack) :
    Reader.parseValue decimal depth stack (text ++ rest) = .ok (value.events, rest) := by
  have hpos : 0 < text.length := by
    obtain ⟨byte, behind, rfl, -⟩ := hvalue.exists_cons
    exact Nat.succ_pos _
  obtain ⟨depth, rfl⟩ : ∃ less, depth = less + 2 := ⟨depth - 2, by omega⟩
  cases hvalue with
  | null =>
      have hword : literal "null" = [0x6E, 0x75, 0x6C, 0x6C] := by decide +kernel
      rw [hword]
      rfl
  | true =>
      have hword : literal "true" = [0x74, 0x72, 0x75, 0x65] := by decide +kernel
      rw [hword]
      rfl
  | false =>
      have hword : literal "false" = [0x66, 0x61, 0x6C, 0x73, 0x65] := by decide +kernel
      rw [hword]
      rfl
  | @int minus number hnumber =>
      have htext : signText minus ++ numeral number =
          signText minus ++ (numeral number ++ ([] ++ [])) := by
        rw [List.append_nil, List.append_nil]
      rw [parseValue_number htext, parseNumber_append .absent .absent hends htext,
        if_pos ⟨hnumber, rfl, rfl⟩]
      rfl
  | double hfraction hexponent hdouble hvalue =>
      rw [parseValue_number rfl, parseNumber_append hfraction hexponent hends rfl, hvalue, if_neg]
      · rfl
      · rintro ⟨hlimit, rfl, rfl⟩
        rcases hdouble with hlarge | htrue | htrue
        · exact Nat.not_lt.mpr hlimit hlarge
        · cases htrue
        · cases htrue
  | string hquoted => exact parseValue_string hquoted
  | @emptyArray blank hblank =>
      obtain ⟨stack, rfl⟩ := Nat.exists_eq_succ_of_ne_zero (Nat.ne_zero_of_lt hstack)
      rw [List.cons_append, List.append_assoc]
      exact parseArray_of_blank hblank
  | array hblank helements =>
      obtain ⟨stack, rfl⟩ := Nat.exists_eq_succ_of_ne_zero (Nat.ne_zero_of_lt hstack)
      rw [List.cons_append, List.append_assoc]
      refine parseArray_of_elements hblank (exists_append _ helements.exists_cons) ?_
      rw [helements.parseElements _ (Nat.le_of_succ_le_succ hstack), Nat.zero_add]
      rw [List.length_cons, List.length_append] at hdepth
      omega
  | emptyObject hblank =>
      obtain ⟨stack, rfl⟩ := Nat.exists_eq_succ_of_ne_zero (Nat.ne_zero_of_lt hstack)
      rw [List.cons_append, List.append_assoc]
      exact parseObject_of_blank hblank
  | object hblank hmembers =>
      obtain ⟨stack, rfl⟩ := Nat.exists_eq_succ_of_ne_zero (Nat.ne_zero_of_lt hstack)
      rw [List.cons_append, List.append_assoc]
      obtain ⟨behind, hbegins⟩ := hmembers.exists_cons
      refine parseObject_of_members hblank ⟨behind ++ rest, by rw [hbegins]; rfl⟩ ?_
      rw [hmembers.parseMembers _ (Nat.le_of_succ_le_succ hstack), Nat.zero_add]
      rw [List.length_cons, List.length_append] at hdepth
      omega

theorem Elements.parseElements {elements : List Json} {text rest : List UInt8}
    {depth stack count : ℕ} (helements : Elements decimal elements text)
    (hdepth : 2 * text.length ≤ depth) (hstack : nestingOfElements elements ≤ stack) :
    Reader.parseElements decimal depth stack count (text ++ rest) =
      .ok (eventsOfElements elements ++ [.endArray (count + elements.length)], rest) := by
  have hpos : 0 < text.length := by
    obtain ⟨byte, behind, rfl, -⟩ := helements.exists_cons
    exact Nat.succ_pos _
  obtain ⟨depth, rfl⟩ : ∃ less, depth = less + 1 := ⟨depth - 1, by omega⟩
  cases helements with
  | last helement hblank =>
      simp only [List.length_append, List.length_cons] at hdepth
      rw [List.append_assoc, List.append_assoc, eventsOfElements, eventsOfElements,
        List.append_nil]
      exact parseElements_last hblank
        (helement.parseValue (ends_of_blank hblank (ends_cons (.inr (.inl rfl)))) (by omega)
          (Nat.max_le.mp hstack).1)
  | cons helement hblank hbefore helements =>
      simp only [List.length_append, List.length_cons] at hdepth
      rw [List.append_assoc, List.append_assoc, List.cons_append, List.append_assoc,
        eventsOfElements, List.append_assoc, List.length_cons, ← Nat.add_assoc,
        Nat.add_right_comm count]
      exact parseElements_comma hblank hbefore (exists_append _ helements.exists_cons)
        (helement.parseValue (ends_of_blank hblank (ends_cons (.inl rfl))) (by omega)
          (Nat.max_le.mp hstack).1)
        (helements.parseElements (by omega) (Nat.max_le.mp hstack).2)

theorem Members.parseMembers {members : List (List UInt8 × Json)} {text rest : List UInt8}
    {depth stack count : ℕ} (hmembers : Members decimal members text)
    (hdepth : 2 * text.length ≤ depth) (hstack : nestingOfMembers members ≤ stack) :
    Reader.parseMembers decimal depth stack count (text ++ rest) =
      .ok (eventsOfMembers members ++ [.endObject (count + members.length)], rest) := by
  have hpos : 0 < text.length := by
    obtain ⟨behind, rfl⟩ := hmembers.exists_cons
    exact Nat.succ_pos _
  obtain ⟨depth, rfl⟩ : ∃ less, depth = less + 1 := ⟨depth - 1, by omega⟩
  cases hmembers with
  | last hname hafter hbefore hvalue hblank =>
      simp only [List.length_append, List.length_cons] at hdepth
      simp only [List.append_assoc, List.cons_append, List.nil_append, eventsOfMembers,
        List.append_nil]
      exact parseMembers_last hname hafter hbefore (exists_append _ hvalue.exists_cons) hblank
        (hvalue.parseValue (ends_of_blank hblank (ends_cons (.inr (.inr rfl)))) (by omega)
          (Nat.max_le.mp hstack).1)
  | cons hname hafter hbeforeValue hvalue hblank hbefore hmembers =>
      simp only [List.length_append, List.length_cons] at hdepth
      obtain ⟨behind, hbegins⟩ := hmembers.exists_cons
      simp only [List.append_assoc, List.cons_append, eventsOfMembers, List.length_cons]
      rw [← Nat.add_assoc, Nat.add_right_comm count]
      exact parseMembers_comma hname hafter hbeforeValue (exists_append _ hvalue.exists_cons)
        hblank hbefore ⟨behind ++ rest, by rw [hbegins]; rfl⟩
        (hvalue.parseValue (ends_of_blank hblank (ends_cons (.inl rfl))) (by omega)
          (Nat.max_le.mp hstack).1)
        (hmembers.parseMembers (by omega) (Nat.max_le.mp hstack).2)

end

/-! ## More stack -/

section Stack

variable {α β : Type}

/-- With more stack the reader does the same, unless it has run out of it. -/
def Extends (first second : Except Failure α) : Prop :=
  first = .error .stackOverflow ∨ second = first

theorem Extends.refl (first : Except Failure α) : Extends first first := .inr rfl

theorem Extends.bind {first second : Except Failure α} {next next' : α → Except Failure β}
    (hextends : Extends first second) (hnext : ∀ value, Extends (next value) (next' value)) :
    Extends (first >>= next) (second >>= next') := by
  rcases hextends with rfl | rfl
  · exact .inl rfl
  · cases second with
    | error failure => exact .refl _
    | ok value => exact hnext value

/-- The calls of a depth. -/
structure Grows (decimal : List UInt8 → Option ℚ) (depth stack : ℕ) : Prop where
  values (bytes : List UInt8) :
    Extends (parseValue decimal depth stack bytes) (parseValue decimal depth (stack + 1) bytes)
  objects (bytes : List UInt8) :
    Extends (parseObject decimal depth stack bytes) (parseObject decimal depth (stack + 1) bytes)
  members (count : ℕ) (bytes : List UInt8) :
    Extends (parseMembers decimal depth stack count bytes)
      (parseMembers decimal depth (stack + 1) count bytes)
  arrays (bytes : List UInt8) :
    Extends (parseArray decimal depth stack bytes) (parseArray decimal depth (stack + 1) bytes)
  elements (count : ℕ) (bytes : List UInt8) :
    Extends (parseElements decimal depth stack count bytes)
      (parseElements decimal depth (stack + 1) count bytes)

theorem grows_parseObject
    (hmembers : ∀ count bytes, Extends (parseMembers decimal depth stack count bytes)
      (parseMembers decimal depth (stack + 1) count bytes)) (bytes : List UInt8) :
    Extends (parseObject decimal (depth + 1) (stack + 1) bytes)
      (parseObject decimal (depth + 1) (stack + 2) bytes) := by
  rw [parseObject, parseObject]
  refine (Extends.refl _).bind fun behind => ?_
  simp only
  split
  next => exact .refl _
  next => exact (hmembers _ _).bind fun _ => .refl _

theorem grows_parseArray
    (helements : ∀ count bytes, Extends (parseElements decimal depth stack count bytes)
      (parseElements decimal depth (stack + 1) count bytes)) (bytes : List UInt8) :
    Extends (parseArray decimal (depth + 1) (stack + 1) bytes)
      (parseArray decimal (depth + 1) (stack + 2) bytes) := by
  rw [parseArray, parseArray]
  refine (Extends.refl _).bind fun behind => ?_
  simp only
  split
  next => exact .refl _
  next => exact (helements _ _).bind fun _ => .refl _

theorem grows (decimal : List UInt8 → Option ℚ) (depth stack : ℕ) :
    Grows decimal depth stack := by
  induction depth generalizing stack with
  | zero =>
      constructor
      case values | objects | arrays =>
        intro bytes
        exact .refl _
      case members | elements =>
        intro count bytes
        exact .refl _
  | succ depth ih =>
      constructor
      case values =>
        intro bytes
        rw [parseValue, parseValue]
        split
        next => exact .refl _
        next => exact .refl _
        next => exact .refl _
        next => exact .refl _
        next => exact (ih stack).objects bytes
        next => exact (ih stack).arrays bytes
        next => exact .refl _
      case members =>
        intro count bytes
        rw [parseMembers, parseMembers]
        refine (Extends.refl _).bind fun afterName => (Extends.refl _).bind fun afterColon =>
          ((ih stack).values _).bind fun afterValue => ?_
        simp only
        split
        next => exact ((ih stack).members _ _).bind fun _ => .refl _
        next => exact .refl _
      case elements =>
        intro count bytes
        rw [parseElements, parseElements]
        refine ((ih stack).values _).bind fun afterValue => ?_
        simp only
        split
        next => exact ((ih stack).elements _ _).bind fun _ => .refl _
        next => exact .refl _
      case objects =>
        cases stack with
        | zero => exact fun _ => .inl rfl
        | succ stack => exact grows_parseObject (ih stack).members
      case arrays =>
        cases stack with
        | zero => exact fun _ => .inl rfl
        | succ stack => exact grows_parseArray (ih stack).elements

theorem extends_parse (decimal : List UInt8 → Option ℚ) (bytes : List UInt8) {stack more : ℕ}
    (hle : stack ≤ more) :
    Extends (Reader.parse decimal stack bytes) (Reader.parse decimal more bytes) := by
  induction more, hle using Nat.le_induction with
  | base => exact .refl _
  | succ more hle ih =>
      have hnext : Extends (Reader.parse decimal more bytes)
          (Reader.parse decimal (more + 1) bytes) :=
        ((grows decimal _ more).values _).bind fun _ => .refl _
      rcases ih with hoverflow | hsame
      · exact .inl hoverflow
      · rwa [hsame] at hnext

end Stack

end JsonText

/-! ## Documents -/

namespace Document

variable {decimal : List UInt8 → Option ℚ} {stack : ℕ} {bytes : List UInt8} {value : Json}

theorem parse_eq_ok_some_iff :
    parse decimal stack bytes = .ok (some value) ↔
      ∃ events, Reader.parse decimal stack bytes = .ok events ∧ root events = some value := by
  unfold parse
  cases Reader.parse decimal stack bytes with
  | ok events => simp
  | error failure => cases failure <;> simp

theorem root_events (value : Json) : root value.events = some value := by
  unfold root
  rw [run_events]

theorem text_of_parse (hparse : parse decimal stack bytes = .ok (some value)) :
    JsonText.Document decimal value bytes ∧ value.nesting ≤ stack := by
  obtain ⟨events, hevents, hroot⟩ := parse_eq_ok_some_iff.mp hparse
  obtain ⟨⟨taken, behind⟩, htaken, hend⟩ := exists_of_bind_eq_ok hevents
  simp only at hend
  split at hend
  next hbehind =>
    cases hend
    obtain ⟨before, hbefore, hbytes⟩ := exists_blank bytes
    obtain ⟨found, text, htext, hskip, rfl, hnesting⟩ := (takes decimal _ _).values htaken
    rw [hskip] at hbytes
    rw [root_events] at hroot
    cases hroot
    rw [hbytes]
    exact ⟨.root hbefore htext (blank_of_skipWhitespace_eq_nil hbehind), hnesting⟩
  next => cases hend

theorem parse_of_text (htext : JsonText.Document decimal value bytes)
    (hstack : value.nesting ≤ stack) : parse decimal stack bytes = .ok (some value) := by
  cases htext with
  | @root before text after hbefore hvalue hafter =>
      have hskip : skipWhitespace (before ++ (text ++ after)) = text ++ after := by
        obtain ⟨byte, behind, rfl, hbyte⟩ := hvalue.exists_cons
        exact skipWhitespace_blank_cons hbefore hbyte.1
      have hends : Ends after := by
        have hnil := ends_of_blank hafter ends_nil
        rwa [List.append_nil] at hnil
      have hrun : Reader.parseValue decimal (3 * (before ++ (text ++ after)).length) stack
          (text ++ after) = .ok (value.events, after) := by
        apply hvalue.parseValue hends _ hstack
        rw [List.length_append, List.length_append]
        omega
      have hevents : Reader.parse decimal stack (before ++ (text ++ after)) =
          .ok value.events := by
        unfold Reader.parse
        rw [hskip, bind_of_ok hrun]
        exact if_pos (skipWhitespace_eq_nil hafter)
      exact parse_eq_ok_some_iff.mpr ⟨_, hevents, root_events value⟩

/-- A text that is nested too deeply runs out of stack. -/
theorem parse_overflow (htext : JsonText.Document decimal value bytes)
    (hdeep : stack < value.nesting) : parse decimal stack bytes = .error .stackOverflow := by
  obtain ⟨events, hevents, hroot⟩ :=
    parse_eq_ok_some_iff.mp (parse_of_text htext (Nat.le_refl _))
  rcases extends_parse decimal bytes (Nat.le_of_lt hdeep) with hoverflow | hsame
  · unfold parse
    rw [hoverflow]
  · rw [hevents] at hsame
    have hparse := parse_eq_ok_some_iff.mpr ⟨events, hsame.symm, hroot⟩
    exact absurd (text_of_parse hparse).2 (Nat.not_le.mpr hdeep)

/-- `Parse` succeeds for the texts of JSON values for whose nesting the stack has room,
and for no other bytes, and the document is the value of the text.  With a text that is
nested more deeply it overflows the stack. -/
theorem parse_iff_text (decimal : List UInt8 → Option ℚ) (stack : ℕ) (bytes : List UInt8)
    (value : Json) :
    (parse decimal stack bytes = .ok (some value) ↔
        JsonText.Document decimal value bytes ∧ value.nesting ≤ stack) ∧
      (JsonText.Document decimal value bytes → stack < value.nesting →
        parse decimal stack bytes = .error .stackOverflow) := by
  refine ⟨⟨text_of_parse, ?_⟩, parse_overflow⟩
  rintro ⟨htext, hstack⟩
  exact parse_of_text htext hstack

end Document

end IotGateway
