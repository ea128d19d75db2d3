import IotGateway.JsonParsing

/-!
# The depth of the reader

The reader of the model counts its nested calls, the one of the code does not.
The count that the reader starts with is never used up, so that the result does
not depend on it.  What can be used up is the stack: a payload that does nothing
but open arrays overflows it.
-/

namespace IotGateway

open Faults JsonText Reader

namespace Reader

variable {decimal : List UInt8 → Option ℚ} {depth stack count : ℕ}
  {bytes rest : List UInt8} {events : List JsonEvent}

/-! ## What is left to read -/

theorem length_skipWhitespace_le (bytes : List UInt8) :
    (skipWhitespace bytes).length ≤ bytes.length := by
  obtain ⟨blank, _, hbytes⟩ := exists_blank bytes
  have hlength := congrArg List.length hbytes
  rw [List.length_append] at hlength
  omega

theorem length_of_consume {expect : UInt8} (hconsume : consume expect bytes = some rest) :
    rest.length + 1 = bytes.length := by
  rw [consume_eq_some_iff.mp hconsume]
  rfl

theorem length_of_parseString {text : List UInt8}
    (hparse : parseString bytes = some (text, rest)) : rest.length ≤ bytes.length := by
  obtain ⟨quoted, _, rfl⟩ := parseString_eq_some_iff.mp hparse
  rw [List.length_append]
  exact Nat.le_add_left _ _

theorem length_of_parseValue (hparse : parseValue decimal depth stack bytes = .ok (events, rest)) :
    rest.length ≤ bytes.length := by
  obtain ⟨value, text, _, rfl, _, _⟩ := (takes decimal depth stack).values hparse
  rw [List.length_append]
  exact Nat.le_add_left _ _

/-! ## More depth -/

/-- One call more within the others makes no difference. -/
structure Suffices (decimal : List UInt8 → Option ℚ) (depth : ℕ) : Prop where
  values (stack : ℕ) (bytes : List UInt8) (hdepth : 3 * bytes.length ≤ depth) :
    parseValue decimal (depth + 1) stack bytes = parseValue decimal depth stack bytes
  objects (stack : ℕ) (bytes : List UInt8) (hbytes : 0 < bytes.length)
    (hdepth : 3 * bytes.length ≤ depth + 1) :
    parseObject decimal (depth + 1) stack bytes = parseObject decimal depth stack bytes
  members (stack count : ℕ) (bytes : List UInt8) (hdepth : 3 * bytes.length < depth) :
    parseMembers decimal (depth + 1) stack count bytes =
      parseMembers decimal depth stack count bytes
  arrays (stack : ℕ) (bytes : List UInt8) (hbytes : 0 < bytes.length)
    (hdepth : 3 * bytes.length ≤ depth + 1) :
    parseArray decimal (depth + 1) stack bytes = parseArray decimal depth stack bytes
  elements (stack count : ℕ) (bytes : List UInt8) (hdepth : 3 * bytes.length < depth) :
    parseElements decimal (depth + 1) stack count bytes =
      parseElements decimal depth stack count bytes

theorem Suffices.parseValue (hsuffices : Suffices decimal depth)
    (hdepth : 3 * bytes.length ≤ depth + 1) :
    Reader.parseValue decimal (depth + 2) stack bytes =
      Reader.parseValue decimal (depth + 1) stack bytes := by
  have hpos : ∀ byte, bytes.head? = some byte → 0 < bytes.length := by
    rintro byte hhead
    cases bytes with
    | nil => cases hhead
    | cons first rest => exact Nat.succ_pos _
  rw [Reader.parseValue, Reader.parseValue]
  split
  next => rfl
  next => rfl
  next => rfl
  next => rfl
  next hhead => exact hsuffices.objects stack bytes (hpos _ hhead) hdepth
  next hhead => exact hsuffices.arrays stack bytes (hpos _ hhead) hdepth
  next => rfl

theorem Suffices.parseObject (hsuffices : Suffices decimal depth)
    (hdepth : 3 * bytes.length ≤ depth + 2) :
    Reader.parseObject decimal (depth + 2) stack bytes =
      Reader.parseObject decimal (depth + 1) stack bytes := by
  cases stack with
  | zero => rfl
  | succ stack =>
      rw [Reader.parseObject, Reader.parseObject]
      refine bind_congr_ok fun rest hopen => ?_
      have hrest := length_of_consume (require_eq_ok_iff.mp hopen)
      have hskip := length_skipWhitespace_le rest
      simp only
      rw [hsuffices.members stack 0 _ (by omega)]

theorem Suffices.parseArray (hsuffices : Suffices decimal depth)
    (hdepth : 3 * bytes.length ≤ depth + 2) :
    Reader.parseArray decimal (depth + 2) stack bytes =
      Reader.parseArray decimal (depth + 1) stack bytes := by
  cases stack with
  | zero => rfl
  | succ stack =>
      rw [Reader.parseArray, Reader.parseArray]
      refine bind_congr_ok fun rest hopen => ?_
      have hrest := length_of_consume (require_eq_ok_iff.mp hopen)
      have hskip := length_skipWhitespace_le rest
      simp only
      rw [hsuffices.elements stack 0 _ (by omega)]

theorem Suffices.parseElements (hsuffices : Suffices decimal depth)
    (hdepth : 3 * bytes.length ≤ depth) :
    Reader.parseElements decimal (depth + 2) stack count bytes =
      Reader.parseElements decimal (depth + 1) stack count bytes := by
  rw [Reader.parseElements, Reader.parseElements, hsuffices.values stack bytes hdepth]
  refine bind_congr_ok fun parsed hvalue => ?_
  obtain ⟨events, rest⟩ := parsed
  have hrest := length_of_parseValue hvalue
  have hskip := length_skipWhitespace_le rest
  simp only
  split
  next behind hcomma =>
    have hbehind := length_of_consume hcomma
    have hskipped := length_skipWhitespace_le behind
    rw [hsuffices.elements stack (count + 1) _ (by omega)]
  next => rfl

theorem Suffices.parseMembers (hsuffices : Suffices decimal depth)
    (hdepth : 3 * bytes.length ≤ depth) :
    Reader.parseMembers decimal (depth + 2) stack count bytes =
      Reader.parseMembers decimal (depth + 1) stack count bytes := by
  rw [Reader.parseMembers, Reader.parseMembers]
  refine bind_congr_ok fun named hname => ?_
  obtain ⟨name, afterName⟩ := named
  refine bind_congr_ok fun afterColon hcolon => ?_
  have hafterName := length_of_parseString (require_eq_ok_iff.mp hname)
  have hafterColon := length_of_consume (require_eq_ok_iff.mp hcolon)
  have hskipName := length_skipWhitespace_le afterName
  have hskipColon := length_skipWhitespace_le afterColon
  rw [hsuffices.values stack _ (by omega)]
  refine bind_congr_ok fun parsed hvalue => ?_
  obtain ⟨events, rest⟩ := parsed
  have hrest := length_of_parseValue hvalue
  have hskip := length_skipWhitespace_le rest
  simp only
  split
  next behind hcomma =>
    have hbehind := length_of_consume hcomma
    have hskipped := length_skipWhitespace_le behind
    rw [hsuffices.members stack (count + 1) _ (by omega)]
  next => rfl

theorem suffices_depth (decimal : List UInt8 → Option ℚ) (depth : ℕ) :
    Suffices decimal depth := by
  induction depth with
  | zero =>
      constructor
      case values =>
        intro stack bytes hdepth
        cases bytes with
        | nil => rfl
        | cons byte rest => simp at hdepth
      case objects | arrays =>
        intro stack bytes hbytes hdepth
        omega
      case members | elements =>
        intro stack count bytes hdepth
        omega
  | succ depth ih =>
      constructor
      case values => exact fun stack bytes hdepth => ih.parseValue hdepth
      case objects => exact fun stack bytes hbytes hdepth => ih.parseObject hdepth
      case arrays => exact fun stack bytes hbytes hdepth => ih.parseArray hdepth
      case members => exact fun stack count bytes hdepth => ih.parseMembers (by omega)
      case elements => exact fun stack count bytes hdepth => ih.parseElements (by omega)

/-- The depth that `parse` allows is never used up: with any greater one, the calls
give the same. -/
theorem parse_eq_of_le (decimal : List UInt8 → Option ℚ) (stack : ℕ) (bytes : List UInt8)
    (hdepth : 3 * bytes.length ≤ depth) :
    parse decimal stack bytes = (do
      let (events, rest) ← parseValue decimal depth stack (skipWhitespace bytes)
      if skipWhitespace rest = [] then return events else .error .parseError) := by
  have hskip := length_skipWhitespace_le bytes
  have hsame : parseValue decimal depth stack (skipWhitespace bytes) =
      parseValue decimal (3 * bytes.length) stack (skipWhitespace bytes) := by
    induction depth, hdepth using Nat.le_induction with
    | base => rfl
    | succ depth hle ih =>
        rw [(suffices_depth decimal depth).values stack _ (by omega), ih]
  rw [hsame]
  rfl

/-! ## Nothing but brackets -/

theorem skipWhitespace_brackets (count : ℕ) :
    skipWhitespace (List.replicate count openBracket) = List.replicate count openBracket := by
  cases count with
  | zero => rfl
  | succ count => exact skipWhitespace_cons rfl

theorem parseValue_brackets (decimal : List UInt8 → Option ℚ) (hle : 3 * stack + 2 ≤ depth) :
    parseValue decimal depth stack (List.replicate (stack + 1) openBracket) =
      .error .stackOverflow := by
  induction stack generalizing depth with
  | zero =>
      obtain ⟨depth, rfl⟩ : ∃ less, depth = less + 2 := ⟨depth - 2, by omega⟩
      rfl
  | succ stack ih =>
      obtain ⟨depth, rfl⟩ : ∃ less, depth = less + 3 := ⟨depth - 3, by omega⟩
      change parseArray decimal (depth + 2) (stack + 1)
        (openBracket :: List.replicate (stack + 1) openBracket) = _
      rw [parseArray, consume_self]
      simp only [require, ok_bind, skipWhitespace_brackets]
      have hclose : consume closeBracket (List.replicate (stack + 1) openBracket) = none := rfl
      rw [hclose]
      simp only
      rw [parseElements, ih (by omega)]
      rfl

end Reader

/-- A text that opens one array more than the stack has room for overflows it, although it
is no JSON. -/
theorem Document.parse_brackets (decimal : List UInt8 → Option ℚ) (stack : ℕ) :
    Document.parse decimal stack (List.replicate (stack + 1) openBracket) =
      .error .stackOverflow := by
  unfold Document.parse Reader.parse
  rw [skipWhitespace_brackets, parseValue_brackets decimal (by
    rw [List.length_replicate]
    omega)]
  rfl

end IotGateway
