import IotGateway.Library.Faults
import IotGateway.Protocol
import Mathlib.Data.Rat.Init

/-!
# JSON values

A parsed JSON value and the accessors that the gateway uses on it.  Each
accessor has a precondition on the kind of value; a call that violates it is a
fault.
-/

namespace IotGateway

open Faults

/-- Texts are kept as the bytes they consist of. -/
inductive Json where
  | null
  | bool (value : Bool)
  | int (value : ℤ)
  | double (value : ℚ)
  | string (text : List UInt8)
  | array (elements : List Json)
  | object (members : List (List UInt8 × Json))

/-- What `Parse` makes of a text: a value or an error, unless it runs out of stack. -/
abbrev Parser := List UInt8 → Except Fault (Option Json)

def literal (text : String) : List UInt8 := text.toUTF8.data.toList

/-- The string that a C string pointer designates: it ends before the first
zero byte. -/
def cString (bytes : List UInt8) : List UInt8 := bytes.takeWhile (· ≠ 0)

namespace Json

def isObject : Json → Bool
  | .object _ => true
  | _ => false

def hasMember (name : List UInt8) : Json → Except Fault Bool
  | .object members => .ok (members.lookup name).isSome
  | _ => .error .notObject

/-- `operator[]`, which finds the first member of the name. -/
def member (name : List UInt8) : Json → Except Fault Json
  | .object members =>
      match members.lookup name with
      | some value => .ok value
      | none => .error .noMember
  | _ => .error .notObject

def getString : Json → Except Fault (List UInt8)
  | .string text => .ok text
  | _ => .error .notString

/-- `GetUint`, for a number that was stored as a 32-bit unsigned integer. -/
def getUint : Json → Except Fault ℕ
  | .int value =>
      if 0 ≤ value ∧ value < 2 ^ 32 then .ok value.toNat else .error .notUint
  | _ => .error .notUint

def getArray : Json → Except Fault (List Json)
  | .array elements => .ok elements
  | _ => .error .notArray

def uintMember (name : List UInt8) (document : Json) : Except Fault ℕ := do
  let value ← document.member name
  value.getUint

theorem isObject_iff {value : Json} :
    value.isObject = true ↔ ∃ members, value = .object members := by
  cases value <;> simp [isObject]

theorem hasMember_eq_ok_iff {name : List UInt8} {value : Json} {found : Bool} :
    value.hasMember name = .ok found ↔
      ∃ members, value = .object members ∧ found = (members.lookup name).isSome := by
  cases value <;> simp [hasMember, eq_comm]

theorem member_eq_ok_iff {name : List UInt8} {value result : Json} :
    value.member name = .ok result ↔
      ∃ members, value = .object members ∧ members.lookup name = some result := by
  cases value with
  | object members =>
      unfold member
      cases h : members.lookup name <;> simp [h]
  | _ => simp [member]

theorem getString_eq_ok_iff {value : Json} {text : List UInt8} :
    value.getString = .ok text ↔ value = .string text := by
  cases value <;> simp [getString]

theorem getUint_eq_ok_iff {value : Json} {number : ℕ} :
    value.getUint = .ok number ↔ value = .int number ∧ number < 2 ^ 32 := by
  cases value with
  | int stored =>
      change (if 0 ≤ stored ∧ stored < 2 ^ 32 then Except.ok stored.toNat
        else Except.error Fault.notUint) = _ ↔ _
      by_cases hrange : 0 ≤ stored ∧ stored < 2 ^ 32
      · rw [if_pos hrange, Except.ok.injEq, Json.int.injEq]
        omega
      · rw [if_neg hrange, Json.int.injEq]
        constructor
        · intro herror
          cases herror
        · intro hstored
          exact absurd (by omega) hrange
  | _ => simp [getUint]

theorem getArray_eq_ok_iff {value : Json} {elements : List Json} :
    value.getArray = .ok elements ↔ value = .array elements := by
  cases value <;> simp [getArray]

def HasUint (members : List (List UInt8 × Json)) (name : List UInt8) (number : ℕ) : Prop :=
  members.lookup name = some (.int number) ∧ number < 2 ^ 32

theorem uintMember_eq_ok_iff
    {members : List (List UInt8 × Json)} {name : List UInt8} {number : ℕ} :
    (Json.object members).uintMember name = .ok number ↔ HasUint members name number := by
  constructor
  · intro hrun
    obtain ⟨value, hmember, huint⟩ := exists_of_bind_eq_ok hrun
    obtain ⟨_, heq, hlookup⟩ := member_eq_ok_iff.mp hmember
    cases heq
    obtain ⟨rfl, hlt⟩ := getUint_eq_ok_iff.mp huint
    exact ⟨hlookup, hlt⟩
  · rintro ⟨hlookup, hlt⟩
    have hmember : (Json.object members).member name = .ok (.int number) :=
      member_eq_ok_iff.mpr ⟨members, rfl, hlookup⟩
    have huint : getUint (.int number) = .ok number :=
      getUint_eq_ok_iff.mpr ⟨rfl, hlt⟩
    unfold uintMember
    rw [bind_of_ok hmember]
    exact huint

def ofNumbers (numbers : List ℕ) : List Json :=
  numbers.map fun number : ℕ => Json.int number

theorem ofNumbers_injective {first second : List ℕ}
    (heq : ofNumbers first = ofNumbers second) : first = second := by
  have hinjective : Function.Injective fun number : ℕ => Json.int number := by
    intro left right hint
    exact Int.ofNat_inj.mp (Json.int.inj hint)
  exact List.map_injective_iff.mpr hinjective heq

theorem mapM_getUint_eq_ok_iff {elements : List Json} {numbers : List ℕ} :
    elements.mapM getUint = .ok numbers ↔
      elements = ofNumbers numbers ∧
        ∀ number ∈ numbers, number < 2 ^ 32 := by
  induction elements generalizing numbers with
  | nil => cases numbers <;> simp [ofNumbers, pure, Except.pure]
  | cons element rest ih =>
      rw [List.mapM_cons]
      constructor
      · intro hrun
        obtain ⟨number, helement, hnext⟩ := exists_of_bind_eq_ok hrun
        obtain ⟨tail, htail, hresult⟩ := exists_of_bind_eq_ok hnext
        cases hresult
        obtain ⟨rfl, hlt⟩ := getUint_eq_ok_iff.mp helement
        obtain ⟨rfl, hall⟩ := ih.mp htail
        refine ⟨rfl, ?_⟩
        intro other hmem
        rcases List.mem_cons.mp hmem with rfl | htailMem
        · exact hlt
        · exact hall other htailMem
      · rintro ⟨helements, hall⟩
        cases numbers with
        | nil => cases helements
        | cons number tail =>
            obtain ⟨rfl, rfl⟩ := List.cons.inj helements
            have helement : getUint (.int number) = .ok number :=
              getUint_eq_ok_iff.mpr ⟨rfl, hall number List.mem_cons_self⟩
            have htail := ih.mpr
              ⟨rfl, fun other hmem => hall other (List.mem_cons_of_mem _ hmem)⟩
            rw [helement, htail]
            rfl

end Json

end IotGateway
