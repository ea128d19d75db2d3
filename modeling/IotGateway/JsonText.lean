import IotGateway.JsonReader
import Mathlib.Data.List.TakeWhile

/-!
# The texts of JSON values

The grammar of JSON, which shares with the reader only the kinds of single
bytes, and the strings that the reader takes from a text.  A string may hold any
bytes from the space on; the reader does not look at their encoding.
-/

namespace IotGateway

open Numerals Reader

namespace JsonText

def Blank (bytes : List UInt8) : Prop := ∀ byte ∈ bytes, isWhitespace byte = true

/-- Four hexadecimal digits. -/
inductive CodeUnit : List UInt8 → ℕ → Prop where
  | digits {a b c d : UInt8} {first second third fourth : ℕ} (ha : hexDigit a = some first)
      (hb : hexDigit b = some second) (hc : hexDigit c = some third)
      (hd : hexDigit d = some fourth) :
      CodeUnit [a, b, c, d] (((first * 16 + second) * 16 + third) * 16 + fourth)

/-- The text of a part of a string.  A character outside the basic plane is
escaped as two surrogates. -/
inductive Character : List UInt8 → List UInt8 → Prop where
  | plain {byte : UInt8} (hcontrol : ¬ byte < 0x20) (hquotation : byte ≠ quotationMark)
      (hbackslash : byte ≠ backslash) : Character [byte] [byte]
  | escaped {letter byte : UInt8} (hescape : escape letter = some byte) :
      Character [backslash, letter] [byte]
  | unicode {digits : List UInt8} {character : Char}
      (hdigits : CodeUnit digits character.toNat) :
      Character (backslash :: letterU :: digits) (String.utf8EncodeChar character)
  | surrogates {high low : List UInt8} {character : Char}
      (hplane : 0x10000 ≤ character.toNat)
      (hhigh : CodeUnit high (0xD800 + (character.toNat - 0x10000) / 0x400))
      (hlow : CodeUnit low (0xDC00 + (character.toNat - 0x10000) % 0x400)) :
      Character (backslash :: letterU :: (high ++ backslash :: letterU :: low))
        (String.utf8EncodeChar character)

inductive Characters : List UInt8 → List UInt8 → Prop where
  | nil : Characters [] []
  | cons {text value texts values : List UInt8} (hfirst : Character text value)
      (hmore : Characters texts values) : Characters (text ++ texts) (value ++ values)

inductive Quoted : List UInt8 → List UInt8 → Prop where
  | quoted {text value : List UInt8} (htext : Characters text value) :
      Quoted (quotationMark :: (text ++ [quotationMark])) value

inductive Fraction : Bool → List UInt8 → Prop where
  | absent : Fraction false []
  | present {digits : List UInt8} (hne : digits ≠ [])
      (hdigits : ∀ digit ∈ digits, isDigit digit = true) :
      Fraction true (decimalPoint :: digits)

inductive Exponent : Bool → List UInt8 → Prop where
  | absent : Exponent false []
  | present {mark : UInt8} {sign digits : List UInt8} (hmark : isExponentMark mark = true)
      (hsign : sign = [] ∨ sign = [plusSign] ∨ sign = [minusSign]) (hne : digits ≠ [])
      (hdigits : ∀ digit ∈ digits, isDigit digit = true) :
      Exponent true (mark :: (sign ++ digits))

def signText (minus : Bool) : List UInt8 := if minus then [minusSign] else []

/-- The greatest amount of a number that is stored as an integer. -/
def limit (minus : Bool) : ℕ := if minus then 2 ^ 63 else 2 ^ 64 - 1

mutual

/-- The texts of a value. -/
inductive Value (decimal : List UInt8 → Option ℚ) : Json → List UInt8 → Prop where
  | null : Value decimal .null (literal "null")
  | true : Value decimal (.bool true) (literal "true")
  | false : Value decimal (.bool false) (literal "false")
  | int {minus : Bool} {number : ℕ} (hnumber : number ≤ limit minus) :
      Value decimal (.int (if minus then -number else number)) (signText minus ++ numeral number)
  | double {minus fraction exponent : Bool} {number : ℕ} {fractionText exponentText : List UInt8}
      {value : ℚ} (hfraction : Fraction fraction fractionText)
      (hexponent : Exponent exponent exponentText)
      (hdouble : limit minus < number ∨ fraction = true ∨ exponent = true)
      (hvalue : decimal (signText minus ++ (numeral number ++ (fractionText ++ exponentText))) =
        some value) :
      Value decimal (.double value)
        (signText minus ++ (numeral number ++ (fractionText ++ exponentText)))
  | string {text value : List UInt8} (htext : Quoted text value) :
      Value decimal (.string value) text
  | emptyArray {blank : List UInt8} (hblank : Blank blank) :
      Value decimal (.array []) (openBracket :: (blank ++ [closeBracket]))
  | array {blank text : List UInt8} {elements : List Json} (hblank : Blank blank)
      (helements : Elements decimal elements text) :
      Value decimal (.array elements) (openBracket :: (blank ++ text))
  | emptyObject {blank : List UInt8} (hblank : Blank blank) :
      Value decimal (.object []) (openBrace :: (blank ++ [closeBrace]))
  | object {blank text : List UInt8} {members : List (List UInt8 × Json)}
      (hblank : Blank blank) (hmembers : Members decimal members text) :
      Value decimal (.object members) (openBrace :: (blank ++ text))

/-- The elements of an array up to its closing bracket. -/
inductive Elements (decimal : List UInt8 → Option ℚ) : List Json → List UInt8 → Prop where
  | last {element : Json} {text blank : List UInt8} (helement : Value decimal element text)
      (hblank : Blank blank) :
      Elements decimal [element] (text ++ (blank ++ [closeBracket]))
  | cons {element : Json} {elements : List Json} {text blank before texts : List UInt8}
      (helement : Value decimal element text) (hblank : Blank blank) (hbefore : Blank before)
      (helements : Elements decimal elements texts) :
      Elements decimal (element :: elements) (text ++ (blank ++ comma :: (before ++ texts)))

/-- The members of an object up to its closing brace. -/
inductive Members (decimal : List UInt8 → Option ℚ) :
    List (List UInt8 × Json) → List UInt8 → Prop where
  | last {name nameText afterName beforeValue text blank : List UInt8} {value : Json}
      (hname : Quoted nameText name) (hafter : Blank afterName) (hbefore : Blank beforeValue)
      (hvalue : Value decimal value text) (hblank : Blank blank) :
      Members decimal [(name, value)]
        (nameText ++ (afterName ++ colon :: (beforeValue ++ (text ++ (blank ++ [closeBrace])))))
  | cons {name nameText afterName beforeValue text blank before texts : List UInt8}
      {value : Json} {members : List (List UInt8 × Json)} (hname : Quoted nameText name)
      (hafter : Blank afterName) (hbeforeValue : Blank beforeValue)
      (hvalue : Value decimal value text) (hblank : Blank blank) (hbefore : Blank before)
      (hmembers : Members decimal members texts) :
      Members decimal ((name, value) :: members)
        (nameText ++ (afterName ++ colon :: (beforeValue ++ (text ++ (blank ++ comma ::
          (before ++ texts))))))

end

/-- The texts of a document. -/
inductive Document (decimal : List UInt8 → Option ℚ) : Json → List UInt8 → Prop where
  | root {value : Json} {before text after : List UInt8} (hbefore : Blank before)
      (hvalue : Value decimal value text) (hafter : Blank after) :
      Document decimal value (before ++ (text ++ after))

/-! ## Blanks and words -/

variable {bytes rest blank text value : List UInt8} {byte expect : UInt8}

theorem exists_blank (bytes : List UInt8) :
    ∃ blank, Blank blank ∧ bytes = blank ++ skipWhitespace bytes := by
  refine ⟨bytes.takeWhile isWhitespace, ?_, List.takeWhile_append_dropWhile.symm⟩
  intro byte hmem
  exact List.mem_takeWhile_imp hmem

theorem skipWhitespace_append (hblank : Blank blank) :
    skipWhitespace (blank ++ rest) = skipWhitespace rest :=
  List.dropWhile_append_of_pos hblank

theorem skipWhitespace_cons (hbyte : isWhitespace byte = false) :
    skipWhitespace (byte :: rest) = byte :: rest := by
  unfold skipWhitespace
  rw [List.dropWhile_cons, hbyte]
  rfl

theorem skipWhitespace_eq_nil (hblank : Blank blank) : skipWhitespace blank = [] := by
  rw [← List.append_nil blank, skipWhitespace_append hblank]
  rfl

theorem blank_of_skipWhitespace_eq_nil (hnil : skipWhitespace bytes = []) : Blank bytes := by
  obtain ⟨blank, hblank, hbytes⟩ := exists_blank bytes
  rw [hbytes, hnil, List.append_nil]
  exact hblank

theorem consume_eq_some_iff : consume expect bytes = some rest ↔ bytes = expect :: rest := by
  cases bytes with
  | nil => simp [consume]
  | cons byte bytes =>
      unfold consume
      by_cases hbyte : byte = expect
      · simp [hbyte]
      · simp [hbyte]

@[simp] theorem consume_self : consume expect (expect :: rest) = some rest :=
  consume_eq_some_iff.mpr rfl

theorem consume_of_ne (hne : byte ≠ expect) : consume expect (byte :: rest) = none :=
  if_neg hne

theorem consumeAll_eq_some_iff {word : List UInt8} :
    consumeAll word bytes = some rest ↔ bytes = word ++ rest := by
  induction word generalizing bytes with
  | nil => simp [consumeAll]
  | cons expect word ih =>
      unfold consumeAll
      rw [Option.bind_eq_bind, Option.bind_eq_some_iff]
      simp only [consume_eq_some_iff, ih, List.cons_append]
      constructor
      · rintro ⟨behind, rfl, rfl⟩
        rfl
      · intro hbytes
        exact ⟨_, hbytes, rfl⟩

/-! ## Strings -/

theorem hexDigit_lt {digit : ℕ} (hdigit : hexDigit byte = some digit) : digit < 16 := by
  unfold hexDigit at hdigit
  simp only [UInt8.le_iff_toNat_le] at hdigit
  split at hdigit
  next hrange =>
    cases hdigit
    have hupper : byte.toNat ≤ 57 := hrange.2
    omega
  next =>
    split at hdigit
    next hrange =>
      cases hdigit
      have hupper : byte.toNat ≤ 70 := hrange.2
      omega
    next =>
      split at hdigit
      next hrange =>
        cases hdigit
        have hupper : byte.toNat ≤ 102 := hrange.2
        omega
      next => cases hdigit

theorem CodeUnit.lt {digits : List UInt8} {code : ℕ} (hunit : CodeUnit digits code) :
    code < 0x10000 := by
  cases hunit with
  | digits ha hb hc hd =>
      have hfirst := hexDigit_lt ha
      have hsecond := hexDigit_lt hb
      have hthird := hexDigit_lt hc
      have hfourth := hexDigit_lt hd
      omega

theorem parseHex_succ_eq_some_iff {count codepoint result : ℕ} :
    parseHex (count + 1) codepoint bytes = some (result, rest) ↔
      ∃ byte digit behind, bytes = byte :: behind ∧ hexDigit byte = some digit ∧
        parseHex count (codepoint * 16 + digit) behind = some (result, rest) := by
  cases bytes with
  | nil => simp [parseHex]
  | cons byte behind =>
      change (hexDigit byte >>= fun digit => parseHex count (codepoint * 16 + digit) behind) =
        some (result, rest) ↔ _
      rw [Option.bind_eq_bind, Option.bind_eq_some_iff]
      constructor
      · rintro ⟨digit, hdigit, hrun⟩
        exact ⟨byte, digit, behind, rfl, hdigit, hrun⟩
      · rintro ⟨_, digit, _, hbytes, hdigit, hrun⟩
        cases hbytes
        exact ⟨digit, hdigit, hrun⟩

theorem parseHex4_eq_some_iff {code : ℕ} :
    parseHex4 bytes = some (code, rest) ↔
      ∃ digits, CodeUnit digits code ∧ bytes = digits ++ rest := by
  unfold parseHex4
  constructor
  · intro hrun
    obtain ⟨a, first, _, rfl, ha, hrun⟩ := parseHex_succ_eq_some_iff.mp hrun
    obtain ⟨b, second, _, rfl, hb, hrun⟩ := parseHex_succ_eq_some_iff.mp hrun
    obtain ⟨c, third, _, rfl, hc, hrun⟩ := parseHex_succ_eq_some_iff.mp hrun
    obtain ⟨d, fourth, _, rfl, hd, hrun⟩ := parseHex_succ_eq_some_iff.mp hrun
    cases hrun
    refine ⟨[a, b, c, d], ?_, rfl⟩
    rw [Nat.zero_mul, Nat.zero_add]
    exact .digits ha hb hc hd
  · rintro ⟨digits, hunit, rfl⟩
    cases hunit with
    | digits ha hb hc hd =>
        refine parseHex_succ_eq_some_iff.mpr ⟨_, _, _, rfl, ha, ?_⟩
        refine parseHex_succ_eq_some_iff.mpr ⟨_, _, _, rfl, hb, ?_⟩
        refine parseHex_succ_eq_some_iff.mpr ⟨_, _, _, rfl, hc, ?_⟩
        refine parseHex_succ_eq_some_iff.mpr ⟨_, _, _, rfl, hd, ?_⟩
        rw [Nat.zero_mul, Nat.zero_add]
        rfl

theorem toNat_lt (character : Char) : character.toNat < 0x110000 := by
  rcases character.valid with hvalid | hvalid
  · exact Nat.lt_trans hvalid (by decide)
  · exact hvalid.2

/-- `UTF8::Encode` encodes a character as UTF-8. -/
theorem encode_toNat (character : Char) :
    encode character.toNat = String.utf8EncodeChar character := by
  have hmax : character.val.toNat < 0x110000 := toNat_lt character
  have hbyte : ∀ code : ℕ, code &&& 0xFF = code % 256 := fun code =>
    Nat.and_two_pow_sub_one_eq_mod code 8
  have hlow : ∀ code : ℕ, code &&& 0x3F = code % 64 := fun code =>
    Nat.and_two_pow_sub_one_eq_mod code 6
  have htwo : ∀ code < 32, 0xC0 ||| code = code + 0xC0 := by decide
  have hthree : ∀ code < 16, 0xE0 ||| code = code + 0xE0 := by decide
  have hfour : ∀ code < 8, 0xF0 ||| code = code + 0xF0 := by decide
  have hnext : ∀ code : ℕ, 0x80 ||| code % 64 = code % 64 + 0x80 := by
    have hall : ∀ code < 64, 0x80 ||| code = code + 0x80 := by decide
    intro code
    exact hall _ (Nat.mod_lt _ (by decide))
  unfold String.utf8EncodeChar
  change encode character.val.toNat = _
  unfold encode
  generalize character.val.toNat = code at hmax ⊢
  simp only [Nat.shiftRight_eq_div_pow, Nat.reducePow, hbyte, hlow, hnext]
  by_cases hone : code ≤ 0x7F
  · rw [if_pos hone, if_pos hone, Nat.mod_eq_of_lt (by omega)]
  · rw [if_neg hone, if_neg hone]
    by_cases hplane : code ≤ 0x7FF
    · rw [if_pos hplane, if_pos hplane, Nat.mod_eq_of_lt (by omega), htwo _ (by omega),
        Nat.mod_eq_of_lt (a := code / 64) (by omega)]
    · rw [if_neg hplane, if_neg hplane]
      by_cases hbasic : code ≤ 0xFFFF
      · rw [if_pos hbasic, if_pos hbasic, Nat.mod_eq_of_lt (b := 256) (by omega),
          hthree _ (by omega), Nat.mod_eq_of_lt (b := 16) (by omega)]
      · rw [if_neg hbasic, if_neg hbasic, Nat.mod_eq_of_lt (b := 256) (by omega),
          hfour _ (by omega), Nat.mod_eq_of_lt (b := 8) (by omega)]

/-- The bits of two surrogates. -/
theorem or_eq_add {low : ℕ} (high : ℕ) (hlow : low < 0x400) :
    (high <<< 10) ||| low = high * 0x400 + low := by
  rw [Nat.shiftLeft_eq, Nat.mul_comm]
  exact (Nat.two_pow_add_eq_or_of_lt (i := 10) hlow high).symm

theorem exists_character {code : ℕ} (hvalid : code.isValidChar) :
    ∃ character : Char, character.toNat = code := ⟨Char.ofNatAux code hvalid, rfl⟩

theorem parseUnicode_eq_some_iff :
    parseUnicode bytes = some (value, rest) ↔
      ∃ digits, Character (backslash :: letterU :: digits) value ∧ bytes = digits ++ rest := by
  unfold parseUnicode
  rw [Option.bind_eq_bind, Option.bind_eq_some_iff]
  constructor
  · rintro ⟨⟨code, behind⟩, hcode, hrun⟩
    obtain ⟨digits, hdigits, rfl⟩ := parseHex4_eq_some_iff.mp hcode
    have hlt := hdigits.lt
    simp only at hrun
    split at hrun
    next hsurrogate =>
      split at hrun
      next hhigh =>
        obtain ⟨afterBackslash, hbackslash, hrun⟩ := Option.bind_eq_some_iff.mp hrun
        obtain ⟨afterLetter, hletter, hrun⟩ := Option.bind_eq_some_iff.mp hrun
        obtain ⟨⟨code2, behind2⟩, hcode2, hrun⟩ := Option.bind_eq_some_iff.mp hrun
        simp only at hrun
        split at hrun
        next => cases hrun
        next hlow =>
          obtain ⟨rfl, rfl⟩ := Prod.mk.inj (Option.some.inj hrun)
          obtain ⟨digits2, hdigits2, rfl⟩ := parseHex4_eq_some_iff.mp hcode2
          obtain rfl := consume_eq_some_iff.mp hbackslash
          obtain rfl := consume_eq_some_iff.mp hletter
          have hvalid : ((code - 0xD800) * 0x400 + (code2 - 0xDC00) + 0x10000).isValidChar :=
            .inr (by omega)
          obtain ⟨character, hcharacter⟩ := exists_character hvalid
          refine ⟨digits ++ backslash :: letterU :: digits2, ?_, by simp⟩
          rw [or_eq_add _ (by omega), ← hcharacter, encode_toNat]
          have hhighUnit : 0xD800 + (character.toNat - 0x10000) / 0x400 = code := by omega
          have hlowUnit : 0xDC00 + (character.toNat - 0x10000) % 0x400 = code2 := by omega
          exact .surrogates (by omega) (hhighUnit ▸ hdigits) (hlowUnit ▸ hdigits2)
      next => cases hrun
    next hsurrogate =>
      cases hrun
      have hvalid : code.isValidChar := by
        unfold Nat.isValidChar
        omega
      obtain ⟨character, rfl⟩ := exists_character hvalid
      rw [encode_toNat]
      exact ⟨digits, .unicode hdigits, rfl⟩
  · rintro ⟨digits, hcharacter, rfl⟩
    cases hcharacter with
    | escaped hescape => cases hescape
    | @unicode _ character hdigits =>
        refine ⟨(character.toNat, rest), parseHex4_eq_some_iff.mpr ⟨_, hdigits, rfl⟩, ?_⟩
        have hvalid : ¬(0xD800 ≤ character.toNat ∧ character.toNat ≤ 0xDFFF) := by
          rcases character.valid with hvalid | hvalid
          · exact fun hsurrogate => Nat.not_lt.mpr hsurrogate.1 hvalid
          · exact fun hsurrogate => Nat.not_lt.mpr hsurrogate.2 hvalid.1
        simp only
        rw [if_neg hvalid, encode_toNat]
        rfl
    | @surrogates high low character hplane hhigh hlow =>
        have hmax := toNat_lt character
        refine ⟨(_, backslash :: letterU :: (low ++ rest)),
          parseHex4_eq_some_iff.mpr ⟨_, hhigh, by simp⟩, ?_⟩
        simp only
        rw [if_pos (by omega), if_pos (by omega)]
        refine Option.bind_eq_some_iff.mpr ⟨_, consume_self, ?_⟩
        refine Option.bind_eq_some_iff.mpr ⟨_, consume_self, ?_⟩
        refine Option.bind_eq_some_iff.mpr ⟨_, parseHex4_eq_some_iff.mpr ⟨low, hlow, rfl⟩, ?_⟩
        simp only
        rw [if_neg (by omega), or_eq_add _ (by omega)]
        have hcode : (0xD800 + (character.toNat - 0x10000) / 0x400 - 0xD800) * 0x400 +
            (0xDC00 + (character.toNat - 0x10000) % 0x400 - 0xDC00) + 0x10000 =
              character.toNat := by
          omega
        rw [hcode, encode_toNat]
        rfl

theorem parseEscape_of_some {escaped : UInt8} (hescape : escape byte = some escaped) :
    parseEscape (byte :: rest) = some ([escaped], rest) := by
  simp only [parseEscape, hescape]

theorem parseEscape_of_none (hescape : escape byte = none) :
    parseEscape (byte :: rest) = if byte = letterU then parseUnicode rest else none := by
  simp only [parseEscape, hescape]

theorem parseEscape_eq_some_iff :
    parseEscape bytes = some (value, rest) ↔
      ∃ letters, Character (backslash :: letters) value ∧ bytes = letters ++ rest := by
  constructor
  · intro hrun
    cases bytes with
    | nil => cases hrun
    | cons byte behind =>
        cases hescape : escape byte with
        | some escaped =>
            rw [parseEscape_of_some hescape] at hrun
            cases hrun
            exact ⟨[byte], .escaped hescape, rfl⟩
        | none =>
            rw [parseEscape_of_none hescape] at hrun
            split at hrun
            next hletter =>
              obtain ⟨digits, hcharacter, rfl⟩ := parseUnicode_eq_some_iff.mp hrun
              exact ⟨byte :: digits, hletter ▸ hcharacter, rfl⟩
            next => cases hrun
  · rintro ⟨letters, hcharacter, rfl⟩
    cases hcharacter with
    | plain hcontrol hquotation hbackslash => exact absurd rfl hbackslash
    | escaped hescape => exact parseEscape_of_some hescape
    | unicode hdigits => exact parseUnicode_eq_some_iff.mpr ⟨_, .unicode hdigits, rfl⟩
    | surrogates hplane hhigh hlow =>
        exact parseUnicode_eq_some_iff.mpr ⟨_, .surrogates hplane hhigh hlow, rfl⟩

theorem Character.exists_cons (hcharacter : Character text value) :
    ∃ byte behind, text = byte :: behind := by
  cases hcharacter with
  | _ => exact ⟨_, _, rfl⟩

theorem parseCharacters_sound {rounds : ℕ}
    (hrun : parseCharacters rounds bytes = some (value, rest)) :
    ∃ text, Characters text value ∧ bytes = text ++ quotationMark :: rest := by
  induction rounds generalizing bytes value rest with
  | zero => cases hrun
  | succ rounds ih =>
      cases bytes with
      | nil => cases hrun
      | cons byte behind =>
          unfold parseCharacters at hrun
          split at hrun
          next hbackslash =>
            obtain ⟨⟨first, afterFirst⟩, hfirst, hrun⟩ := Option.bind_eq_some_iff.mp hrun
            obtain ⟨⟨more, afterMore⟩, hmore, hrun⟩ := Option.bind_eq_some_iff.mp hrun
            cases hrun
            obtain ⟨letters, hcharacter, rfl⟩ := parseEscape_eq_some_iff.mp hfirst
            obtain ⟨texts, htexts, rfl⟩ := ih hmore
            exact ⟨_, .cons hcharacter htexts, by simp [hbackslash]⟩
          next hbackslash =>
            split at hrun
            next hquotation =>
              cases hrun
              exact ⟨[], .nil, by rw [hquotation, List.nil_append]⟩
            next hquotation =>
              split at hrun
              next => cases hrun
              next hcontrol =>
                obtain ⟨⟨more, afterMore⟩, hmore, hrun⟩ := Option.bind_eq_some_iff.mp hrun
                cases hrun
                obtain ⟨texts, htexts, rfl⟩ := ih hmore
                exact ⟨_, .cons (.plain hcontrol hquotation hbackslash) htexts, rfl⟩

theorem Character.parseCharacters {rounds : ℕ} {values : List UInt8}
    (hcharacter : Character text value)
    (hmore : Reader.parseCharacters rounds bytes = some (values, rest)) :
    Reader.parseCharacters (rounds + 1) (text ++ bytes) = some (value ++ values, rest) := by
  by_cases hhead : ∃ letters, text = backslash :: letters
  · obtain ⟨letters, rfl⟩ := hhead
    have hescape : parseEscape (letters ++ bytes) = some (value, bytes) :=
      parseEscape_eq_some_iff.mpr ⟨letters, hcharacter, rfl⟩
    rw [List.cons_append, Reader.parseCharacters, if_pos rfl]
    exact Option.bind_eq_some_iff.mpr ⟨_, hescape, Option.bind_eq_some_iff.mpr ⟨_, hmore, rfl⟩⟩
  · cases hcharacter with
    | plain hcontrol hquotation hbackslash =>
        rw [List.cons_append, Reader.parseCharacters, if_neg hbackslash, if_neg hquotation,
          if_neg hcontrol]
        exact Option.bind_eq_some_iff.mpr ⟨_, hmore, rfl⟩
    | _ => exact absurd ⟨_, rfl⟩ hhead

theorem Characters.parseCharacters (htext : Characters text value) {rounds : ℕ}
    (hrounds : text.length < rounds) :
    Reader.parseCharacters rounds (text ++ quotationMark :: rest) = some (value, rest) := by
  induction htext generalizing rounds with
  | nil =>
      cases rounds with
      | zero => cases hrounds
      | succ rounds => rfl
  | cons hfirst hmore ih =>
      cases rounds with
      | zero => cases hrounds
      | succ rounds =>
          obtain ⟨byte, behind, rfl⟩ := hfirst.exists_cons
          rw [List.append_assoc]
          apply hfirst.parseCharacters
          apply ih
          rw [List.length_append, List.length_cons] at hrounds
          omega

theorem parseString_eq_some_iff :
    parseString bytes = some (value, rest) ↔
      ∃ text, Quoted text value ∧ bytes = text ++ rest := by
  unfold parseString
  rw [Option.bind_eq_bind, Option.bind_eq_some_iff]
  constructor
  · rintro ⟨behind, hconsume, hrun⟩
    obtain rfl := consume_eq_some_iff.mp hconsume
    obtain ⟨text, htext, rfl⟩ := parseCharacters_sound hrun
    exact ⟨_, .quoted htext, by simp⟩
  · rintro ⟨_, @⟨text, _, htext⟩, rfl⟩
    refine ⟨text ++ quotationMark :: rest, consume_eq_some_iff.mpr (by simp), ?_⟩
    apply htext.parseCharacters
    rw [List.length_append, List.length_cons]
    omega

end JsonText

end IotGateway
