import IotGateway.JsonReader
import IotGateway.Library.Runs

/-!
# The JSON document

`GenericDocument` handles the events of the reader.  It pushes the values on a
stack, and at the end of an array or an object it takes the elements or the
members from the stack.
-/

namespace IotGateway

open Runs

namespace Document

/-- Names and values take turns on the stack. -/
def toMembers : List Json → Option (List (List UInt8 × Json))
  | [] => some []
  | .string name :: value :: values => do return (name, value) :: (← toMembers values)
  | _ => none

/-- The stack after an event, its top in front. -/
def handle (event : JsonEvent) (stack : List Json) : Option (List Json) :=
  match event with
  | .null => some (.null :: stack)
  | .bool value => some (.bool value :: stack)
  | .int value => some (.int value :: stack)
  | .double value => some (.double value :: stack)
  | .string text | .key text => some (.string text :: stack)
  | .startObject => some (.object [] :: stack)
  | .endObject memberCount =>
      match stack.drop (2 * memberCount) with
      | [] => none
      | _ :: rest => do
          return .object (← toMembers (stack.take (2 * memberCount)).reverse) :: rest
  | .startArray => some (.array [] :: stack)
  | .endArray elementCount =>
      match stack.drop elementCount with
      | [] => none
      | _ :: rest => some (.array (stack.take elementCount).reverse :: rest)

/-- The root, if the events leave it alone on the stack. -/
def root (events : List JsonEvent) : Option Json :=
  match run handle events [] with
  | some [value] => some value
  | _ => none

/-- `Parse`, which succeeds when it leaves one root on the stack.  The call stack has
room for `stack` arrays and objects within each other. -/
def parse (decimal : List UInt8 → Option ℚ) (stack : ℕ) (bytes : List UInt8) :
    Except Fault (Option Json) :=
  match Reader.parse decimal stack bytes with
  | .ok events => .ok (root events)
  | .error .parseError => .ok none
  | .error .stackOverflow => .error .stackOverflow

end Document

/-! ## The events of a value -/

mutual

/-- `Accept`: the events that describe a value. -/
def Json.events : Json → List JsonEvent
  | .null => [.null]
  | .bool value => [.bool value]
  | .int value => [.int value]
  | .double value => [.double value]
  | .string text => [.string text]
  | .array elements =>
      .startArray :: (eventsOfElements elements ++ [.endArray elements.length])
  | .object members =>
      .startObject :: (eventsOfMembers members ++ [.endObject members.length])

def Json.eventsOfElements : List Json → List JsonEvent
  | [] => []
  | element :: elements => element.events ++ eventsOfElements elements

def Json.eventsOfMembers : List (List UInt8 × Json) → List JsonEvent
  | [] => []
  | (name, value) :: members => .key name :: (value.events ++ eventsOfMembers members)

end

/-! ## Nesting -/

mutual

/-- How many arrays and objects are open within each other at most. -/
def Json.nesting : Json → ℕ
  | .null | .bool _ | .int _ | .double _ | .string _ => 0
  | .array elements => nestingOfElements elements + 1
  | .object members => nestingOfMembers members + 1

def Json.nestingOfElements : List Json → ℕ
  | [] => 0
  | element :: elements => max element.nesting (nestingOfElements elements)

def Json.nestingOfMembers : List (List UInt8 × Json) → ℕ
  | [] => 0
  | (_, value) :: members => max value.nesting (nestingOfMembers members)

end

namespace Document

open Json

def ofMembers : List (List UInt8 × Json) → List Json
  | [] => []
  | (name, value) :: members => .string name :: value :: ofMembers members

@[simp] theorem toMembers_ofMembers (members : List (List UInt8 × Json)) :
    toMembers (ofMembers members) = some members := by
  induction members with
  | nil => rfl
  | cons member members ih =>
      rw [ofMembers, toMembers, ih]
      rfl

@[simp] theorem length_ofMembers (members : List (List UInt8 × Json)) :
    (ofMembers members).length = 2 * members.length := by
  induction members with
  | nil => rfl
  | cons member members ih =>
      rw [ofMembers, List.length_cons, List.length_cons, ih, List.length_cons, Nat.mul_succ]

theorem handle_endArray (elements stack : List Json) (top : Json) :
    handle (.endArray elements.length) (elements.reverse ++ top :: stack) =
      some (.array elements :: stack) := by
  simp [handle, List.drop_left', List.take_left']

theorem handle_endObject (members : List (List UInt8 × Json)) (stack : List Json)
    (top : Json) :
    handle (.endObject members.length) ((ofMembers members).reverse ++ top :: stack) =
      some (.object members :: stack) := by
  simp [handle, List.drop_left', List.take_left']

mutual

theorem run_events (value : Json) (stack : List Json) :
    run handle value.events stack = some (value :: stack) := by
  cases value with
  | array elements =>
      change run handle (eventsOfElements elements ++ [.endArray elements.length])
        (.array [] :: stack) = _
      rw [run_concat, run_eventsOfElements elements]
      exact handle_endArray elements stack _
  | object members =>
      change run handle (eventsOfMembers members ++ [.endObject members.length])
        (.object [] :: stack) = _
      rw [run_concat, run_eventsOfMembers members]
      exact handle_endObject members stack _
  | _ => rfl

theorem run_eventsOfElements (elements stack : List Json) :
    run handle (eventsOfElements elements) stack = some (elements.reverse ++ stack) := by
  cases elements with
  | nil => rfl
  | cons element elements =>
      rw [eventsOfElements, run_append, run_events element, List.reverse_cons,
        List.append_assoc]
      exact run_eventsOfElements elements (element :: stack)

theorem run_eventsOfMembers (members : List (List UInt8 × Json)) (stack : List Json) :
    run handle (eventsOfMembers members) stack =
      some ((ofMembers members).reverse ++ stack) := by
  cases members with
  | nil => rfl
  | cons member members =>
      obtain ⟨name, value⟩ := member
      change run handle (value.events ++ eventsOfMembers members) (.string name :: stack) = _
      rw [run_append, run_events value, ofMembers, List.reverse_cons, List.reverse_cons,
        List.append_assoc, List.append_assoc]
      exact run_eventsOfMembers members (value :: .string name :: stack)

end

end Document

end IotGateway
