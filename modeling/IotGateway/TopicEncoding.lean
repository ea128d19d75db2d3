import IotGateway.Json
import Mathlib.Data.List.Basic

/-!
# The encoding of topics

`mosquitto_validate_utf8` goes through the bytes of a topic once and puts the code
points together.  It accepts the UTF-8 encodings of the texts that contain
neither control characters nor noncharacters.
-/

namespace IotGateway

namespace Mosquitto

/-- The number of bytes of a sequence and the bits of the code point in its first
byte. -/
def firstByte (byte : UInt8) : Option (ℕ × ℕ) :=
  if byte = 0 then none
  else if byte ≤ 0x7F then some (1, byte.toNat)
  else if byte &&& 0xE0 = 0xC0 then
    if byte = 0xC0 ∨ byte = 0xC1 then none else some (2, (byte &&& 0x1F).toNat)
  else if byte &&& 0xF0 = 0xE0 then some (3, (byte &&& 0x0F).toNat)
  else if byte &&& 0xF8 = 0xF0 then
    if byte > 0xF4 then none else some (4, (byte &&& 0x07).toNat)
  else none

/-- The loop over the other bytes of a sequence.  Behind the last byte there is the
zero that ends the string, which is no continuation byte. -/
def continuation : ℕ → ℕ → List UInt8 → Option (ℕ × List UInt8)
  | 0, codepoint, bytes => some (codepoint, bytes)
  | _ + 1, _, [] => none
  | count + 1, codepoint, byte :: rest =>
      if byte &&& 0xC0 ≠ 0x80 then none
      else continuation count ((codepoint <<< 6) ||| (byte &&& 0x3F).toNat) rest

/-- The checks of a code point that took `codelen` bytes. -/
def checkCodepoint (codelen codepoint : ℕ) : Bool :=
  if 0xD800 ≤ codepoint ∧ codepoint ≤ 0xDFFF then false
  else if codelen = 3 ∧ codepoint < 0x0800 then false
  else if codelen = 4 ∧ (codepoint < 0x10000 ∨ codepoint > 0x10FFFF) then false
  else if 0xFDD0 ≤ codepoint ∧ codepoint ≤ 0xFDEF then false
  else if codepoint &&& 0xFFFF = 0xFFFE ∨ codepoint &&& 0xFFFF = 0xFFFF then false
  else if codepoint ≤ 0x001F ∨ (0x007F ≤ codepoint ∧ codepoint ≤ 0x009F) then false
  else true

/-- The loop over the sequences.  Each round takes a byte at least, so that the number
of bytes bounds the rounds. -/
def validateFrom : ℕ → List UInt8 → Bool
  | _, [] => true
  | 0, _ :: _ => false
  | rounds + 1, byte :: rest =>
      match firstByte byte with
      | none => false
      | some (codelen, codepoint) =>
          if (byte :: rest).length = codelen - 1 then false
          else
            match continuation (codelen - 1) codepoint rest with
            | none => false
            | some (codepoint, rest) =>
                checkCodepoint codelen codepoint && validateFrom rounds rest

def validateUtf8 (str : List UInt8) : Bool :=
  str.length ≤ 65536 && validateFrom str.length str

/-! ## Texts that are accepted -/

/-- The characters that may occur in a topic. -/
def Allowed (character : Char) : Prop :=
  0x20 ≤ character.toNat ∧ ¬(0x7F ≤ character.toNat ∧ character.toNat ≤ 0x9F) ∧
    ¬(0xFDD0 ≤ character.toNat ∧ character.toNat ≤ 0xFDEF) ∧
    character.toNat % 0x10000 < 0xFFFE

instance (character : Char) : Decidable (Allowed character) :=
  inferInstanceAs (Decidable (_ ∧ _ ∧ _ ∧ _))

def tail (bits : ℕ) : UInt8 := UInt8.ofNat (bits + 0x80)

/-- The bytes of a code point: its bits in groups of six, the highest group in the first
byte. -/
inductive Sequence : List UInt8 → ℕ → ℕ → Prop where
  | one {code : ℕ} (hcode : 0 < code ∧ code < 0x80) : Sequence [UInt8.ofNat code] 1 code
  | two {high low : ℕ} (hhigh : 2 ≤ high ∧ high < 32) (hlow : low < 64) :
      Sequence [UInt8.ofNat (high + 0xC0), tail low] 2 (high * 64 + low)
  | three {high middle low : ℕ} (hhigh : high < 16) (hmiddle : middle < 64) (hlow : low < 64) :
      Sequence [UInt8.ofNat (high + 0xE0), tail middle, tail low] 3
        ((high * 64 + middle) * 64 + low)
  | four {high upper middle low : ℕ} (hhigh : high < 5) (hupper : upper < 64)
      (hmiddle : middle < 64) (hlow : low < 64) :
      Sequence [UInt8.ofNat (high + 0xF0), tail upper, tail middle, tail low] 4
        (((high * 64 + upper) * 64 + middle) * 64 + low)

variable {byte : UInt8} {bytes rest : List UInt8} {codelen code codepoint count : ℕ}

/-! ### Sequences -/

theorem firstByte_mem : ∀ number < 256, ∀ first ∈ firstByte (UInt8.ofNat number),
    first.1 = 1 ∧ (0 < first.2 ∧ first.2 < 0x80) ∧ number = first.2 ∨
      first.1 = 2 ∧ (2 ≤ first.2 ∧ first.2 < 32) ∧ number = first.2 + 0xC0 ∨
      first.1 = 3 ∧ first.2 < 16 ∧ number = first.2 + 0xE0 ∨
      first.1 = 4 ∧ first.2 < 5 ∧ number = first.2 + 0xF0 := by
  decide +kernel

theorem firstByte_one : ∀ bits < 0x80, 0 < bits →
    firstByte (UInt8.ofNat bits) = some (1, bits) := by
  decide

theorem firstByte_two : ∀ bits < 32, 2 ≤ bits →
    firstByte (UInt8.ofNat (bits + 0xC0)) = some (2, bits) := by
  decide

theorem firstByte_three : ∀ bits < 16, firstByte (UInt8.ofNat (bits + 0xE0)) = some (3, bits) := by
  decide

theorem firstByte_four : ∀ bits < 5, firstByte (UInt8.ofNat (bits + 0xF0)) = some (4, bits) := by
  decide

theorem tail_bits : ∀ bits < 64, tail bits &&& 0xC0 = 0x80 ∧ (tail bits &&& 0x3F).toNat = bits := by
  decide

theorem exists_tail : ∀ number < 256, UInt8.ofNat number &&& 0xC0 = 0x80 →
    ∃ bits < 64, UInt8.ofNat number = tail bits := by
  decide +kernel

theorem continuation_tail {bits : ℕ} (hbits : bits < 64) :
    continuation (count + 1) codepoint (tail bits :: rest) =
      continuation count (codepoint * 64 + bits) rest := by
  have htail := tail_bits bits hbits
  have hadd : (codepoint <<< 6) ||| bits = codepoint * 64 + bits := by
    rw [Nat.shiftLeft_eq, Nat.mul_comm]
    exact (Nat.two_pow_add_eq_or_of_lt (i := 6) hbits codepoint).symm
  rw [continuation, if_neg (not_not_intro htail.1), htail.2, hadd]

theorem continuation_succ (hrun : continuation (count + 1) codepoint bytes = some (code, rest)) :
    ∃ bits behind, bits < 64 ∧ bytes = tail bits :: behind ∧
      continuation count (codepoint * 64 + bits) behind = some (code, rest) := by
  cases bytes with
  | nil => cases hrun
  | cons byte behind =>
      have hbyte : byte &&& 0xC0 = 0x80 := by
        by_contra hnot
        rw [continuation, if_pos hnot] at hrun
        cases hrun
      rw [← UInt8.ofNat_toNat (x := byte)] at hbyte
      obtain ⟨bits, hbits, htail⟩ := exists_tail byte.toNat byte.toNat_lt hbyte
      rw [UInt8.ofNat_toNat] at htail
      rw [htail, continuation_tail hbits] at hrun
      exact ⟨bits, behind, hbits, congrArg (· :: behind) htail, hrun⟩

theorem continuation_zero (hrun : continuation 0 codepoint bytes = some (code, rest)) :
    codepoint = code ∧ bytes = rest := Prod.mk.inj (Option.some.inj hrun)

/-- The bytes of a round are a sequence. -/
theorem exists_sequence (hfirst : firstByte byte = some (codelen, codepoint))
    (hrun : continuation (codelen - 1) codepoint bytes = some (code, rest)) :
    ∃ front, Sequence front codelen code ∧ byte :: bytes = front ++ rest := by
  rw [← UInt8.ofNat_toNat (x := byte)] at hfirst ⊢
  rcases firstByte_mem byte.toNat byte.toNat_lt _ hfirst with
    ⟨rfl, hbits, hbyte⟩ | ⟨rfl, hbits, hbyte⟩ | ⟨rfl, hbits, hbyte⟩ | ⟨rfl, hbits, hbyte⟩
  · obtain ⟨rfl, rfl⟩ := continuation_zero hrun
    rw [hbyte]
    exact ⟨_, .one hbits, rfl⟩
  · obtain ⟨low, behind, hlow, rfl, hend⟩ := continuation_succ hrun
    obtain ⟨rfl, rfl⟩ := continuation_zero hend
    rw [hbyte]
    exact ⟨_, .two hbits hlow, rfl⟩
  · obtain ⟨middle, afterMiddle, hmiddle, rfl, hlast⟩ := continuation_succ hrun
    obtain ⟨low, behind, hlow, rfl, hend⟩ := continuation_succ hlast
    obtain ⟨rfl, rfl⟩ := continuation_zero hend
    rw [hbyte]
    exact ⟨_, .three hbits hmiddle hlow, rfl⟩
  · obtain ⟨upper, afterUpper, hupper, rfl, htwo⟩ := continuation_succ hrun
    obtain ⟨middle, afterMiddle, hmiddle, rfl, hlast⟩ := continuation_succ htwo
    obtain ⟨low, behind, hlow, rfl, hend⟩ := continuation_succ hlast
    obtain ⟨rfl, rfl⟩ := continuation_zero hend
    rw [hbyte]
    exact ⟨_, .four hbits hupper hmiddle hlow, rfl⟩

/-- A round takes a whole sequence. -/
theorem Sequence.round {front : List UInt8} (hsequence : Sequence front codelen code)
    (rest : List UInt8) :
    ∃ first behind codepoint, front = first :: behind ∧
      firstByte first = some (codelen, codepoint) ∧ codelen - 1 < (first :: behind).length ∧
      continuation (codelen - 1) codepoint (behind ++ rest) = some (code, rest) := by
  cases hsequence with
  | one hcode =>
      exact ⟨_, _, _, rfl, firstByte_one _ hcode.2 hcode.1, Nat.lt_succ_self _, rfl⟩
  | two hhigh hlow =>
      refine ⟨_, _, _, rfl, firstByte_two _ hhigh.2 hhigh.1, Nat.lt_succ_self _, ?_⟩
      rw [List.cons_append, continuation_tail hlow]
      rfl
  | three hhigh hmiddle hlow =>
      refine ⟨_, _, _, rfl, firstByte_three _ hhigh, Nat.lt_succ_self _, ?_⟩
      rw [List.cons_append, continuation_tail hmiddle, List.cons_append, continuation_tail hlow]
      rfl
  | four hhigh hupper hmiddle hlow =>
      refine ⟨_, _, _, rfl, firstByte_four _ hhigh, Nat.lt_succ_self _, ?_⟩
      rw [List.cons_append, continuation_tail hupper, List.cons_append,
        continuation_tail hmiddle, List.cons_append, continuation_tail hlow]
      rfl

theorem checkCodepoint_iff :
    checkCodepoint codelen code = true ↔
      ((code < 0xD800 ∨ 0xDFFF < code) ∧ (codelen = 3 → 0x0800 ≤ code) ∧
        (codelen = 4 → 0x10000 ≤ code ∧ code ≤ 0x10FFFF)) ∧
      0x20 ≤ code ∧ ¬(0x7F ≤ code ∧ code ≤ 0x9F) ∧ ¬(0xFDD0 ≤ code ∧ code ≤ 0xFDEF) ∧
        code % 0x10000 < 0xFFFE := by
  have hlow : code &&& 0xFFFF = code % 0x10000 := Nat.and_two_pow_sub_one_eq_mod code 16
  unfold checkCodepoint
  rw [hlow]
  split_ifs
  all_goals simp only [false_iff, true_iff]
  all_goals omega

/-! ### Characters -/

/-- The code point has no sequence with fewer bytes. -/
def Shortest (codelen code : ℕ) : Prop :=
  (codelen = 2 → 0x80 ≤ code) ∧ (codelen = 3 → 0x0800 ≤ code) ∧ (codelen = 4 → 0x10000 ≤ code)

theorem Sequence.eq_utf8EncodeChar {front : List UInt8} {character : Char}
    (hsequence : Sequence front codelen character.toNat)
    (hshortest : Shortest codelen character.toNat) :
    front = String.utf8EncodeChar character := by
  obtain ⟨htwo, hthree, hfour⟩ := hshortest
  unfold String.utf8EncodeChar
  change Sequence front codelen character.val.toNat at hsequence
  change codelen = 2 → 0x80 ≤ character.val.toNat at htwo
  change codelen = 3 → 0x0800 ≤ character.val.toNat at hthree
  change codelen = 4 → 0x10000 ≤ character.val.toNat at hfour
  generalize character.val.toNat = code at *
  cases hsequence with
  | one hcode => rw [if_pos (by omega)]
  | @two high low hhigh hlow =>
      have hbits : (high * 64 + low) / 64 % 0x20 = high ∧ (high * 64 + low) % 0x40 = low := by
        omega
      rw [if_neg (by omega), if_pos (by omega), hbits.1, hbits.2]
      rfl
  | @three high middle low hhigh hmiddle hlow =>
      have hbits : ((high * 64 + middle) * 64 + low) / 4096 % 0x10 = high ∧
          ((high * 64 + middle) * 64 + low) / 64 % 0x40 = middle ∧
          ((high * 64 + middle) * 64 + low) % 0x40 = low := by
        omega
      rw [if_neg (by omega), if_neg (by omega), if_pos (by omega), hbits.1, hbits.2.1, hbits.2.2]
      rfl
  | @four high upper middle low hhigh hupper hmiddle hlow =>
      have hbits : (((high * 64 + upper) * 64 + middle) * 64 + low) / 262144 % 0x08 = high ∧
          (((high * 64 + upper) * 64 + middle) * 64 + low) / 4096 % 0x40 = upper ∧
          (((high * 64 + upper) * 64 + middle) * 64 + low) / 64 % 0x40 = middle ∧
          (((high * 64 + upper) * 64 + middle) * 64 + low) % 0x40 = low := by
        omega
      rw [if_neg (by omega), if_neg (by omega), if_neg (by omega), hbits.1, hbits.2.1,
        hbits.2.2.1, hbits.2.2.2]
      rfl

theorem exists_sequence_of_lt (hpos : 0 < code) (hlt : code < 0x110000) :
    ∃ front codelen, Sequence front codelen code ∧ Shortest codelen code := by
  unfold Shortest
  by_cases hone : code < 0x80
  · exact ⟨_, _, .one ⟨hpos, hone⟩, by omega⟩
  · by_cases htwo : code < 0x800
    · have hsequence := @Sequence.two (code / 64) (code % 64) (by omega) (by omega)
      have hcode : code / 64 * 64 + code % 64 = code := by omega
      rw [hcode] at hsequence
      exact ⟨_, _, hsequence, by omega⟩
    · by_cases hthree : code < 0x10000
      · have hsequence := @Sequence.three (code / 4096) (code / 64 % 64) (code % 64) (by omega)
          (by omega) (by omega)
        have hcode : (code / 4096 * 64 + code / 64 % 64) * 64 + code % 64 = code := by omega
        rw [hcode] at hsequence
        exact ⟨_, _, hsequence, by omega⟩
      · have hsequence := @Sequence.four (code / 262144) (code / 4096 % 64) (code / 64 % 64)
          (code % 64) (by omega) (by omega) (by omega) (by omega)
        have hcode : ((code / 262144 * 64 + code / 4096 % 64) * 64 + code / 64 % 64) * 64 +
            code % 64 = code := by
          omega
        rw [hcode] at hsequence
        exact ⟨_, _, hsequence, by omega⟩

/-- The sequences that are accepted are the encodings of the characters allowed. -/
theorem accepted_iff {front : List UInt8} :
    (∃ codelen code, Sequence front codelen code ∧ checkCodepoint codelen code = true) ↔
      ∃ character, Allowed character ∧ front = String.utf8EncodeChar character := by
  constructor
  · rintro ⟨codelen, code, hsequence, hcheck⟩
    obtain ⟨hencoding, hallowed⟩ := checkCodepoint_iff.mp hcheck
    have hvalid : code.isValidChar := by
      unfold Nat.isValidChar
      cases hsequence <;> omega
    obtain ⟨character, rfl⟩ : ∃ character : Char, character.toNat = code :=
      ⟨Char.ofNatAux code hvalid, rfl⟩
    have hshortest : Shortest codelen character.toNat := by
      refine ⟨?_, hencoding.2.1, fun hfour => (hencoding.2.2 hfour).1⟩
      rintro rfl
      generalize character.toNat = code at hsequence
      cases hsequence
      omega
    exact ⟨character, hallowed, hsequence.eq_utf8EncodeChar hshortest⟩
  · rintro ⟨character, hallowed, rfl⟩
    have hvalid : character.toNat < 0xD800 ∨
        0xDFFF < character.toNat ∧ character.toNat < 0x110000 := character.valid
    obtain ⟨front, codelen, hsequence, hshortest⟩ :=
      exists_sequence_of_lt (Nat.lt_of_lt_of_le (by decide) hallowed.1)
        (by omega : character.toNat < 0x110000)
    rw [← hsequence.eq_utf8EncodeChar hshortest]
    refine ⟨codelen, character.toNat, hsequence, checkCodepoint_iff.mpr ⟨?_, hallowed⟩⟩
    obtain ⟨-, hthree, hfour⟩ := hshortest
    refine ⟨by omega, hthree, fun hlen => ⟨hfour hlen, by omega⟩⟩

/-! ### Topics -/

/-- One round of the loop. -/
theorem validateFrom_succ_iff {rounds : ℕ} :
    validateFrom (rounds + 1) (byte :: bytes) = true ↔
      ∃ character rest, Allowed character ∧
        byte :: bytes = String.utf8EncodeChar character ++ rest ∧
        validateFrom rounds rest = true := by
  constructor
  · intro hrun
    rw [validateFrom] at hrun
    split at hrun
    next => cases hrun
    next codelen codepoint hfirst =>
      split at hrun
      next => cases hrun
      next =>
        split at hrun
        next => cases hrun
        next code rest hcontinuation =>
          obtain ⟨hcheck, hrest⟩ := Bool.and_eq_true_iff.mp hrun
          obtain ⟨front, hsequence, hbytes⟩ := exists_sequence hfirst hcontinuation
          obtain ⟨character, hallowed, rfl⟩ := accepted_iff.mp ⟨_, _, hsequence, hcheck⟩
          exact ⟨character, rest, hallowed, hbytes, hrest⟩
  · rintro ⟨character, rest, hallowed, hbytes, hrest⟩
    obtain ⟨codelen, code, hsequence, hcheck⟩ := accepted_iff.mpr ⟨character, hallowed, rfl⟩
    obtain ⟨first, behind, codepoint, hfront, hfirst, hlength, hcontinuation⟩ :=
      hsequence.round rest
    rw [hfront, List.cons_append] at hbytes
    obtain ⟨rfl, rfl⟩ := List.cons.inj hbytes
    have henough : ¬(byte :: (behind ++ rest)).length = codelen - 1 := by
      rw [List.length_cons] at hlength ⊢
      rw [List.length_append]
      omega
    rw [validateFrom, hfirst]
    simp only
    rw [if_neg henough, hcontinuation]
    exact Bool.and_eq_true_iff.mpr ⟨hcheck, hrest⟩

theorem validateFrom_iff {rounds : ℕ} (hrounds : bytes.length ≤ rounds) :
    validateFrom rounds bytes = true ↔
      ∃ characters : List Char, bytes = characters.flatMap String.utf8EncodeChar ∧
        ∀ character ∈ characters, Allowed character := by
  induction rounds generalizing bytes with
  | zero =>
      rw [List.length_eq_zero_iff.mp (Nat.le_zero.mp hrounds)]
      exact ⟨fun _ => ⟨[], rfl, fun _ hmem => absurd hmem List.not_mem_nil⟩, fun _ => rfl⟩
  | succ rounds ih =>
      cases bytes with
      | nil =>
          exact ⟨fun _ => ⟨[], rfl, fun _ hmem => absurd hmem List.not_mem_nil⟩, fun _ => rfl⟩
      | cons byte bytes =>
          have hshorter : ∀ character rest,
              byte :: bytes = String.utf8EncodeChar character ++ rest →
                rest.length ≤ rounds := by
            intro character rest hbytes
            have hpos : 0 < (String.utf8EncodeChar character).length := by
              rw [String.length_utf8EncodeChar]
              exact character.utf8Size_pos
            have hlength := congrArg List.length hbytes
            rw [List.length_append] at hlength
            omega
          rw [validateFrom_succ_iff]
          constructor
          · rintro ⟨character, rest, hallowed, hbytes, hrest⟩
            obtain ⟨characters, rfl, hall⟩ := (ih (hshorter character rest hbytes)).mp hrest
            exact ⟨character :: characters, hbytes, List.forall_mem_cons.mpr ⟨hallowed, hall⟩⟩
          · rintro ⟨characters, hbytes, hall⟩
            cases characters with
            | nil => cases hbytes
            | cons character characters =>
                obtain ⟨hallowed, hmore⟩ := List.forall_mem_cons.mp hall
                exact ⟨character, _, hallowed, hbytes,
                  (ih (hshorter character _ hbytes)).mpr ⟨characters, rfl, hmore⟩⟩

theorem literal_eq (text : String) :
    literal text = text.toList.flatMap String.utf8EncodeChar := by
  change text.toByteArray.data.toList = _
  rw [← String.utf8Encode_toList]
  exact List.toList_data_toByteArray

/-- `mosquitto_validate_utf8` accepts the encodings of the texts, not too long, whose
characters are all allowed. -/
theorem validateUtf8_iff (str : List UInt8) :
    validateUtf8 str = true ↔
      str.length ≤ 65536 ∧
        ∃ text : String, str = literal text ∧ ∀ character ∈ text.toList, Allowed character := by
  unfold validateUtf8
  rw [Bool.and_eq_true, decide_eq_true_eq, validateFrom_iff (Nat.le_refl _)]
  refine and_congr_right fun _ => ?_
  constructor
  · rintro ⟨characters, hbytes, hall⟩
    refine ⟨String.ofList characters, ?_, ?_⟩
    · rw [literal_eq, String.toList_ofList, hbytes]
    · rwa [String.toList_ofList]
  · rintro ⟨text, hbytes, hall⟩
    exact ⟨text.toList, hbytes.trans (literal_eq text), hall⟩

end Mosquitto

end IotGateway
