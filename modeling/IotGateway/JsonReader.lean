import IotGateway.Json
import IotGateway.Library.Numerals

/-!
# The JSON reader

`GenericReader` goes through the characters of a text, up to the end of the C
string, and hands an event to the document for each token that it understands.
It stops at the first error.  It calls itself for the values in arrays and
objects, as far as the stack has room.  The arithmetic of doubles is a
parameter: `decimal` has the value of a number's characters, and none when it
is too big for a double.
-/

namespace IotGateway

open Numerals

/-- The calls of a handler.  `Int`, `Uint`, `Int64` and `Uint64` store the same
value. -/
inductive JsonEvent where
  | null
  | bool (value : Bool)
  | int (value : ℤ)
  | double (value : ℚ)
  | string (text : List UInt8)
  | startObject
  | key (text : List UInt8)
  | endObject (memberCount : ℕ)
  | startArray
  | endArray (elementCount : ℕ)
  deriving DecidableEq

namespace Reader

def quotationMark : UInt8 := 0x22
def plusSign : UInt8 := 0x2B
def comma : UInt8 := 0x2C
def minusSign : UInt8 := 0x2D
def decimalPoint : UInt8 := 0x2E
def colon : UInt8 := 0x3A
def openBracket : UInt8 := 0x5B
def backslash : UInt8 := 0x5C
def closeBracket : UInt8 := 0x5D
def letterU : UInt8 := 0x75
def openBrace : UInt8 := 0x7B
def closeBrace : UInt8 := 0x7D

def isWhitespace (byte : UInt8) : Bool :=
  byte = 0x20 || byte = 0x0A || byte = 0x0D || byte = 0x09

/-- The `e` in front of an exponent. -/
def isExponentMark (byte : UInt8) : Bool := byte = 0x65 || byte = 0x45

def skipWhitespace (bytes : List UInt8) : List UInt8 := bytes.dropWhile isWhitespace

def consume (expect : UInt8) : List UInt8 → Option (List UInt8)
  | [] => none
  | byte :: rest => if byte = expect then some rest else none

def consumeAll : List UInt8 → List UInt8 → Option (List UInt8)
  | [], bytes => some bytes
  | expect :: word, bytes => do consumeAll word (← consume expect bytes)

def parseNull (bytes : List UInt8) : Option (List JsonEvent × List UInt8) := do
  return ([.null], ← consumeAll (literal "null") bytes)

def parseTrue (bytes : List UInt8) : Option (List JsonEvent × List UInt8) := do
  return ([.bool true], ← consumeAll (literal "true") bytes)

def parseFalse (bytes : List UInt8) : Option (List JsonEvent × List UInt8) := do
  return ([.bool false], ← consumeAll (literal "false") bytes)

/-! ## Strings -/

def hexDigit (byte : UInt8) : Option ℕ :=
  if 0x30 ≤ byte ∧ byte ≤ 0x39 then some (byte.toNat - 0x30)
  else if 0x41 ≤ byte ∧ byte ≤ 0x46 then some (byte.toNat - 0x37)
  else if 0x61 ≤ byte ∧ byte ≤ 0x66 then some (byte.toNat - 0x57)
  else none

def parseHex : ℕ → ℕ → List UInt8 → Option (ℕ × List UInt8)
  | 0, codepoint, bytes => some (codepoint, bytes)
  | _ + 1, _, [] => none
  | count + 1, codepoint, byte :: rest => do
      parseHex count (codepoint * 16 + (← hexDigit byte)) rest

def parseHex4 (bytes : List UInt8) : Option (ℕ × List UInt8) := parseHex 4 0 bytes

/-- The table of the characters that may follow a backslash. -/
def escape (byte : UInt8) : Option UInt8 :=
  if byte = 0x22 then some 0x22
  else if byte = 0x2F then some 0x2F
  else if byte = 0x5C then some 0x5C
  else if byte = 0x62 then some 0x08
  else if byte = 0x66 then some 0x0C
  else if byte = 0x6E then some 0x0A
  else if byte = 0x72 then some 0x0D
  else if byte = 0x74 then some 0x09
  else none

/-- `UTF8::Encode`. -/
def encode (codepoint : ℕ) : List UInt8 :=
  if codepoint ≤ 0x7F then [UInt8.ofNat (codepoint &&& 0xFF)]
  else if codepoint ≤ 0x7FF then
    [UInt8.ofNat (0xC0 ||| ((codepoint >>> 6) &&& 0xFF)),
      UInt8.ofNat (0x80 ||| (codepoint &&& 0x3F))]
  else if codepoint ≤ 0xFFFF then
    [UInt8.ofNat (0xE0 ||| ((codepoint >>> 12) &&& 0xFF)),
      UInt8.ofNat (0x80 ||| ((codepoint >>> 6) &&& 0x3F)),
      UInt8.ofNat (0x80 ||| (codepoint &&& 0x3F))]
  else
    [UInt8.ofNat (0xF0 ||| ((codepoint >>> 18) &&& 0xFF)),
      UInt8.ofNat (0x80 ||| ((codepoint >>> 12) &&& 0x3F)),
      UInt8.ofNat (0x80 ||| ((codepoint >>> 6) &&& 0x3F)),
      UInt8.ofNat (0x80 ||| (codepoint &&& 0x3F))]

/-- What follows `\u`: a code unit, or the two of a surrogate pair. -/
def parseUnicode (bytes : List UInt8) : Option (List UInt8 × List UInt8) := do
  let (codepoint, rest) ← parseHex4 bytes
  if 0xD800 ≤ codepoint ∧ codepoint ≤ 0xDFFF then
    if codepoint ≤ 0xDBFF then
      let rest ← consume backslash rest
      let rest ← consume letterU rest
      let (codepoint2, rest) ← parseHex4 rest
      if codepoint2 < 0xDC00 ∨ codepoint2 > 0xDFFF then none
      else
        return (encode ((((codepoint - 0xD800) <<< 10) ||| (codepoint2 - 0xDC00)) + 0x10000),
          rest)
    else none
  else return (encode codepoint, rest)

def parseEscape : List UInt8 → Option (List UInt8 × List UInt8)
  | [] => none
  | byte :: rest =>
      match escape byte with
      | some escaped => some ([escaped], rest)
      | none => if byte = letterU then parseUnicode rest else none

/-- `ParseStringToStream` behind the opening quotation mark.  Each round takes a
character at least, so that the number of bytes bounds the rounds. -/
def parseCharacters : ℕ → List UInt8 → Option (List UInt8 × List UInt8)
  | 0, _ => none
  | _ + 1, [] => none
  | rounds + 1, byte :: rest =>
      if byte = backslash then do
        let (text, rest) ← parseEscape rest
        let (more, rest) ← parseCharacters rounds rest
        return (text ++ more, rest)
      else if byte = quotationMark then some ([], rest)
      else if byte < 0x20 then none
      else do
        let (more, rest) ← parseCharacters rounds rest
        return (byte :: more, rest)

def parseString (bytes : List UInt8) : Option (List UInt8 × List UInt8) := do
  let rest ← consume quotationMark bytes
  parseCharacters rest.length rest

/-! ## Numbers -/

/-- The digits behind `value`, as long as it stays within `bound * 10 + last`, and
whether there are more. -/
def takeDigits (bound last : ℕ) : ℕ → List UInt8 → ℕ × Bool × List UInt8
  | value, [] => (value, false, [])
  | value, byte :: rest =>
      if isDigit byte then
        if bound ≤ value ∧ (value ≠ bound ∨ last < digitValue byte) then
          (value, true, byte :: rest)
        else takeDigits bound last (value * 10 + digitValue byte) rest
      else (value, false, byte :: rest)

/-- The part in front of a fraction and an exponent, which has no value when it
does not fit 64 bits. -/
def parseInteger (minus : Bool) : List UInt8 → Option (Option ℕ × List UInt8)
  | [] => none
  | byte :: rest =>
      if byte = 0x30 then some (some 0, rest)
      else if isDigit byte then
        match takeDigits (if minus then 214748364 else 429496729) (if minus then 8 else 5)
            (digitValue byte) rest with
        | (value, false, rest) => some (some value, rest)
        | (value, true, rest) =>
            match takeDigits (if minus then 0x0CCCCCCCCCCCCCCC else 0x1999999999999999)
                (if minus then 8 else 5) value rest with
            | (value, false, rest) => some (some value, rest)
            | (_, true, rest) => some (none, rest.dropWhile isDigit)
      else none

/-- One digit or more. -/
def skipDigits : List UInt8 → Option (List UInt8)
  | [] => none
  | byte :: rest => if isDigit byte then some (rest.dropWhile isDigit) else none

/-- The rest behind a fraction, and whether there is one. -/
def parseFraction (bytes : List UInt8) : Option (Bool × List UInt8) :=
  match consume decimalPoint bytes with
  | none => some (false, bytes)
  | some rest => do return (true, ← skipDigits rest)

def skipSign : List UInt8 → List UInt8
  | [] => []
  | byte :: rest => if byte = plusSign ∨ byte = minusSign then rest else byte :: rest

def parseExponent : List UInt8 → Option (Bool × List UInt8)
  | [] => some (false, [])
  | byte :: rest =>
      if isExponentMark byte then do return (true, ← skipDigits (skipSign rest))
      else some (false, byte :: rest)

/-- The sign of a number: whether there is a minus, and the rest. -/
def takeMinus (bytes : List UInt8) : Bool × List UInt8 :=
  match consume minusSign bytes with
  | some rest => (true, rest)
  | none => (false, bytes)

variable (decimal : List UInt8 → Option ℚ)

/-- The event according to the type of the number. -/
def finishNumber (minus : Bool) (bytes rest : List UInt8) :
    Option ℕ → Bool → Bool → Option (List JsonEvent × List UInt8)
  | some value, false, false => some ([.int (if minus then -value else value)], rest)
  | _, _, _ => do return ([.double (← decimal (bytes.take (bytes.length - rest.length)))], rest)

def parseNumber (bytes : List UInt8) : Option (List JsonEvent × List UInt8) := do
  let (minus, rest) := takeMinus bytes
  let (value, rest) ← parseInteger minus rest
  let (fraction, rest) ← parseFraction rest
  let (exponent, rest) ← parseExponent rest
  finishNumber decimal minus bytes rest value fraction exponent

/-! ## Values -/

/-- How the reader ends without the events of a value: with an error, or with a call
for which the stack has no room. -/
inductive Failure where
  | parseError
  | stackOverflow
  deriving DecidableEq, Repr

/-- A step that calls no parser of values. -/
def require {α : Type} : Option α → Except Failure α
  | some result => .ok result
  | none => .error .parseError

mutual

/-- `stack` is the number of arrays and objects that may still be opened within each
other.  Of three calls within each other at least one takes a character, so that
three times the number of bytes bounds the depth of the calls. -/
def parseValue : ℕ → ℕ → List UInt8 → Except Failure (List JsonEvent × List UInt8)
  | 0, _, _ => .error .parseError
  | depth + 1, stack, bytes =>
      match bytes.head? with
      | some 0x6E => require (parseNull bytes)
      | some 0x74 => require (parseTrue bytes)
      | some 0x66 => require (parseFalse bytes)
      | some 0x22 => do
          let (text, rest) ← require (parseString bytes)
          return ([.string text], rest)
      | some 0x7B => parseObject depth stack bytes
      | some 0x5B => parseArray depth stack bytes
      | _ => require (parseNumber decimal bytes)
termination_by structural depth => depth

def parseObject : ℕ → ℕ → List UInt8 → Except Failure (List JsonEvent × List UInt8)
  | 0, _, _ => .error .parseError
  | _ + 1, 0, _ => .error .stackOverflow
  | depth + 1, stack + 1, bytes => do
      let rest := skipWhitespace (← require (consume openBrace bytes))
      match consume closeBrace rest with
      | some rest => return ([.startObject, .endObject 0], rest)
      | none =>
          let (events, rest) ← parseMembers depth stack 0 rest
          return (.startObject :: events, rest)
termination_by structural depth => depth

/-- The loop of `ParseObject`. -/
def parseMembers : ℕ → ℕ → ℕ → List UInt8 → Except Failure (List JsonEvent × List UInt8)
  | 0, _, _, _ => .error .parseError
  | depth + 1, stack, memberCount, bytes => do
      let (name, rest) ← require (parseString bytes)
      let rest ← require (consume colon (skipWhitespace rest))
      let (events, rest) ← parseValue depth stack (skipWhitespace rest)
      let rest := skipWhitespace rest
      match consume comma rest with
      | some rest =>
          let (more, rest) ← parseMembers depth stack (memberCount + 1) (skipWhitespace rest)
          return (.key name :: (events ++ more), rest)
      | none =>
          let rest ← require (consume closeBrace rest)
          return (.key name :: (events ++ [.endObject (memberCount + 1)]), rest)
termination_by structural depth => depth

def parseArray : ℕ → ℕ → List UInt8 → Except Failure (List JsonEvent × List UInt8)
  | 0, _, _ => .error .parseError
  | _ + 1, 0, _ => .error .stackOverflow
  | depth + 1, stack + 1, bytes => do
      let rest := skipWhitespace (← require (consume openBracket bytes))
      match consume closeBracket rest with
      | some rest => return ([.startArray, .endArray 0], rest)
      | none =>
          let (events, rest) ← parseElements depth stack 0 rest
          return (.startArray :: events, rest)
termination_by structural depth => depth

/-- The loop of `ParseArray`. -/
def parseElements : ℕ → ℕ → ℕ → List UInt8 → Except Failure (List JsonEvent × List UInt8)
  | 0, _, _, _ => .error .parseError
  | depth + 1, stack, elementCount, bytes => do
      let (events, rest) ← parseValue depth stack bytes
      let rest := skipWhitespace rest
      match consume comma rest with
      | some rest =>
          let (more, rest) ← parseElements depth stack (elementCount + 1) (skipWhitespace rest)
          return (events ++ more, rest)
      | none =>
          let rest ← require (consume closeBracket rest)
          return (events ++ [.endArray (elementCount + 1)], rest)
termination_by structural depth => depth

end

/-- The events of a text, if there is no error. -/
def parse (stack : ℕ) (bytes : List UInt8) : Except Failure (List JsonEvent) := do
  let (events, rest) ← parseValue decimal (3 * bytes.length) stack (skipWhitespace bytes)
  if skipWhitespace rest = [] then return events else .error .parseError

@[simp] theorem require_eq_ok_iff {α : Type} {result : Option α} {value : α} :
    require result = .ok value ↔ result = some value := by
  cases result <;> simp [require]

end Reader

end IotGateway
