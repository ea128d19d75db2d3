import IotGateway.JsonParsing

/-!
# Printed values

One text of a value that has no doubles: without blanks, and with those bytes of
its strings escaped that have to be.  `Parse` reads it back.
-/

namespace IotGateway

open JsonText Numerals Reader

namespace Json

def hexCharacter (digit : ℕ) : UInt8 :=
  if digit < 10 then UInt8.ofNat (0x30 + digit) else UInt8.ofNat (0x57 + digit)

def escapeByte (byte : UInt8) : List UInt8 :=
  if byte = quotationMark ∨ byte = backslash then [backslash, byte]
  else if byte < 0x20 then
    [backslash, letterU, 0x30, 0x30, hexCharacter (byte.toNat / 16),
      hexCharacter (byte.toNat % 16)]
  else [byte]

def quote (text : List UInt8) : List UInt8 :=
  quotationMark :: (text.flatMap escapeByte ++ [quotationMark])

mutual

def print : Json → List UInt8
  | .null => literal "null"
  | .bool value => if value then literal "true" else literal "false"
  | .int value => signText (value < 0) ++ numeral value.natAbs
  | .double _ => []
  | .string text => quote text
  | .array elements => openBracket :: printElements elements
  | .object members => openBrace :: printMembers members

/-- The elements of an array and its closing bracket. -/
def printElements : List Json → List UInt8
  | [] => [closeBracket]
  | [element] => element.print ++ [closeBracket]
  | element :: elements => element.print ++ comma :: printElements elements

/-- The members of an object and its closing brace. -/
def printMembers : List (List UInt8 × Json) → List UInt8
  | [] => [closeBrace]
  | [(name, value)] => quote name ++ colon :: (value.print ++ [closeBrace])
  | (name, value) :: members =>
      quote name ++ colon :: (value.print ++ comma :: printMembers members)

end

mutual

/-- The integers fit 64 bits, and there are no doubles. -/
def Printable : Json → Prop
  | .null | .bool _ | .string _ => True
  | .int value => value.natAbs ≤ limit (value < 0)
  | .double _ => False
  | .array elements => PrintableElements elements
  | .object members => PrintableMembers members

def PrintableElements : List Json → Prop
  | [] => True
  | element :: elements => element.Printable ∧ PrintableElements elements

def PrintableMembers : List (List UInt8 × Json) → Prop
  | [] => True
  | (_, value) :: members => value.Printable ∧ PrintableMembers members

end

/-! ## A printed value is a text of it -/

theorem hexDigit_hexCharacter : ∀ digit < 16, hexDigit (hexCharacter digit) = some digit := by
  decide

theorem character_escapeByte (byte : UInt8) : Character (escapeByte byte) [byte] := by
  unfold escapeByte
  by_cases hquotation : byte = quotationMark
  · rw [if_pos (.inl hquotation), hquotation]
    exact .escaped rfl
  · by_cases hbackslash : byte = backslash
    · rw [if_pos (.inr hbackslash), hbackslash]
      exact .escaped rfl
    · rw [if_neg (not_or.mpr ⟨hquotation, hbackslash⟩)]
      by_cases hcontrol : byte < 0x20
      · have hlt : byte.toNat < 32 := UInt8.lt_iff_toNat_lt.mp hcontrol
        have hvalid : byte.toNat.isValidChar := .inl (Nat.lt_trans hlt (by decide))
        obtain ⟨character, hcharacter⟩ := exists_character hvalid
        have hunit : CodeUnit [0x30, 0x30, hexCharacter (byte.toNat / 16),
            hexCharacter (byte.toNat % 16)] character.toNat := by
          have hzero : hexDigit 0x30 = some 0 := rfl
          have hdigits := CodeUnit.digits hzero hzero
            (hexDigit_hexCharacter (byte.toNat / 16) (by omega))
            (hexDigit_hexCharacter (byte.toNat % 16) (Nat.mod_lt _ (by decide)))
          have hcode : ((0 * 16 + 0) * 16 + byte.toNat / 16) * 16 + byte.toNat % 16 =
              byte.toNat := by
            omega
          rw [hcode] at hdigits
          rw [hcharacter]
          exact hdigits
        have hencoded : String.utf8EncodeChar character = [byte] := by
          rw [← encode_toNat, hcharacter, encode, if_pos (by omega)]
          rw [Nat.and_two_pow_sub_one_eq_mod byte.toNat 8, Nat.mod_eq_of_lt byte.toNat_lt,
            UInt8.ofNat_toNat]
        rw [if_pos hcontrol, ← hencoded]
        exact .unicode hunit
      · rw [if_neg hcontrol]
        exact .plain hcontrol hquotation hbackslash

theorem characters_flatMap (text : List UInt8) : Characters (text.flatMap escapeByte) text := by
  induction text with
  | nil => exact .nil
  | cons byte text ih => exact .cons (character_escapeByte byte) ih

theorem quoted_quote (text : List UInt8) : Quoted (quote text) text :=
  .quoted (characters_flatMap text)

theorem blank_nil : Blank [] := fun _ hmem => absurd hmem List.not_mem_nil

variable (decimal : List UInt8 → Option ℚ)

mutual

theorem value_print (value : Json) (hprintable : value.Printable) :
    Value decimal value value.print := by
  cases value with
  | null => exact .null
  | bool value =>
      cases value with
      | true => exact .true
      | false => exact .false
  | int value =>
      have hvalue : (if decide (value < 0) = true then -(value.natAbs : ℤ) else value.natAbs) =
          value := by
        split
        next hneg =>
          have hlt := of_decide_eq_true hneg
          omega
        next hneg =>
          have hle := of_decide_eq_false (Bool.eq_false_iff.mpr hneg)
          omega
      have htext : Value decimal
          (.int (if decide (value < 0) = true then -(value.natAbs : ℤ) else value.natAbs))
          (Json.int value).print := .int hprintable
      rwa [hvalue] at htext
  | double value => exact hprintable.elim
  | string text => exact .string (quoted_quote text)
  | array elements =>
      cases elements with
      | nil => exact .emptyArray blank_nil
      | cons element elements =>
          exact .array blank_nil
            (elements_print (element :: elements) (List.cons_ne_nil _ _) hprintable)
  | object members =>
      cases members with
      | nil => exact .emptyObject blank_nil
      | cons member members =>
          exact .object blank_nil
            (members_print (member :: members) (List.cons_ne_nil _ _) hprintable)

theorem elements_print (elements : List Json) (hne : elements ≠ [])
    (hprintable : PrintableElements elements) :
    Elements decimal elements (printElements elements) := by
  cases elements with
  | nil => exact absurd rfl hne
  | cons element elements =>
      have helement := value_print element hprintable.1
      have hmore := elements_print elements
      cases elements with
      | nil => exact .last helement blank_nil
      | cons next elements =>
          exact .cons helement blank_nil blank_nil (hmore (List.cons_ne_nil _ _) hprintable.2)

theorem members_print (members : List (List UInt8 × Json)) (hne : members ≠ [])
    (hprintable : PrintableMembers members) :
    Members decimal members (printMembers members) := by
  cases members with
  | nil => exact absurd rfl hne
  | cons member members =>
      obtain ⟨name, value⟩ := member
      have hvalue := value_print value hprintable.1
      have hmore := members_print members
      cases members with
      | nil => exact .last (quoted_quote name) blank_nil blank_nil hvalue blank_nil
      | cons next members =>
          exact .cons (quoted_quote name) blank_nil blank_nil hvalue blank_nil blank_nil
            (hmore (List.cons_ne_nil _ _) hprintable.2)

end

theorem parse_print {value : Json} {stack : ℕ} (hprintable : value.Printable)
    (hstack : value.nesting ≤ stack) :
    Document.parse decimal stack value.print = .ok (some value) := by
  have hroot := JsonText.Document.root blank_nil (value_print decimal value hprintable) blank_nil
  rw [List.nil_append, List.append_nil] at hroot
  exact Document.parse_of_text hroot hstack

/-! ## The end of a printed value -/

theorem zero_notMem_escapeByte (byte : UInt8) : 0 ∉ escapeByte byte := by
  have hall : ∀ code < 256, 0 ∉ escapeByte (UInt8.ofNat code) := by decide +kernel
  have hbyte := hall byte.toNat byte.toNat_lt
  rwa [UInt8.ofNat_toNat] at hbyte

theorem zero_notMem_quote (text : List UInt8) : 0 ∉ quote text := by
  intro hmem
  rcases List.mem_cons.mp hmem with hzero | hmem
  · cases hzero
  · rcases List.mem_append.mp hmem with hmem | hmem
    · obtain ⟨byte, -, hbyte⟩ := List.mem_flatMap.mp hmem
      exact zero_notMem_escapeByte byte hbyte
    · cases List.mem_singleton.mp hmem

mutual

theorem zero_notMem_print (value : Json) : 0 ∉ value.print := by
  cases value with
  | null =>
      change 0 ∉ literal "null"
      decide +kernel
  | bool value =>
      cases value with
      | true =>
          change 0 ∉ literal "true"
          decide +kernel
      | false =>
          change 0 ∉ literal "false"
          decide +kernel
  | int value =>
      intro hmem
      rcases List.mem_append.mp hmem with hsign | hdigit
      · unfold signText at hsign
        split at hsign
        · cases List.mem_singleton.mp hsign
        · cases hsign
      · cases isDigit_of_mem_numeral hdigit
  | double value => exact List.not_mem_nil
  | string text => exact zero_notMem_quote text
  | array elements =>
      exact List.not_mem_cons_of_ne_of_not_mem (by decide) (zero_notMem_printElements elements)
  | object members =>
      exact List.not_mem_cons_of_ne_of_not_mem (by decide) (zero_notMem_printMembers members)

theorem zero_notMem_printElements (elements : List Json) : 0 ∉ printElements elements := by
  cases elements with
  | nil =>
      change 0 ∉ [closeBracket]
      decide
  | cons element elements =>
      have helement := zero_notMem_print element
      have hmore := zero_notMem_printElements elements
      cases elements with
      | nil => exact List.not_mem_append helement hmore
      | cons next elements =>
          apply List.not_mem_append helement
          exact List.not_mem_cons_of_ne_of_not_mem (by decide) hmore

theorem zero_notMem_printMembers (members : List (List UInt8 × Json)) :
    0 ∉ printMembers members := by
  cases members with
  | nil =>
      change 0 ∉ [closeBrace]
      decide
  | cons member members =>
      obtain ⟨name, value⟩ := member
      have hname := zero_notMem_quote name
      have hvalue := zero_notMem_print value
      have hmore := zero_notMem_printMembers members
      cases members with
      | nil =>
          apply List.not_mem_append hname
          exact List.not_mem_cons_of_ne_of_not_mem (by decide) (List.not_mem_append hvalue hmore)
      | cons next members =>
          apply List.not_mem_append hname
          apply List.not_mem_cons_of_ne_of_not_mem (by decide)
          apply List.not_mem_append hvalue
          exact List.not_mem_cons_of_ne_of_not_mem (by decide) hmore

end

/-- A printed value is a C string. -/
theorem cString_print (value : Json) : cString value.print = value.print := by
  unfold cString
  rw [List.takeWhile_eq_self_iff]
  intro byte hmem
  apply decide_eq_true
  rintro rfl
  exact zero_notMem_print value hmem

end Json

end IotGateway
