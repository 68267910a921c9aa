import Vortek.ByteText
import Vortek.DecimalText

namespace Vortek

open DecimalText

/-!
# RESP2 values and their wire form

`RespValue` is the variant of `resp_types.hpp` and `serialize` the overload set
of `resp_serializer.hpp`.

Two conditions on values matter to the parser.  A *line-safe* value has no line
terminator inside a simple string or an error, at any depth; these two
alternatives carry no length on the wire.  A *storable* value is one a C++
process can hold: bulk strings and arrays are shorter than `2 ^ 63`, and a
vector of each array's size can be reserved.
-/

/-- One RESP2 value. -/
inductive RespValue where
  | null
  | simpleString (value : Bytes)
  | error (message : Bytes)
  | integer (value : Int64)
  | bulkString (value : Bytes)
  | array (elements : List RespValue)
  deriving Repr

namespace RespValue

/-- Induction with one hypothesis for all elements of an array. -/
@[induction_eliminator]
theorem inductionOn
    {motive : RespValue → Prop}
    (null : motive .null)
    (simpleString : ∀ value, motive (.simpleString value))
    (error : ∀ message, motive (.error message))
    (integer : ∀ value, motive (.integer value))
    (bulkString : ∀ value, motive (.bulkString value))
    (array :
      ∀ elements,
        (∀ element ∈ elements, motive element) →
        motive (.array elements))
    (value : RespValue) :
    motive value :=
  @RespValue.rec motive
    (fun elements => ∀ element ∈ elements, motive element)
    null simpleString error integer bulkString array
    (by simp)
    (fun head tail headHolds tailHolds element member => by
      rcases List.mem_cons.mp member with isHead | inTail
      · exact isHead ▸ headHolds
      · exact tailHolds element inTail)
    value

mutual

/-- Serialize a value to its RESP2 wire representation. -/
def serialize : RespValue → Bytes
  | .null => ascii "$-1" ++ crlf
  | .simpleString value => ascii "+" ++ value ++ crlf
  | .error message => ascii "-" ++ message ++ crlf
  | .integer value => ascii ":" ++ stdToString value ++ crlf
  | .bulkString value =>
      ascii "$" ++ decimalDigits value.length ++ crlf ++ value ++ crlf
  | .array elements =>
      ascii "*" ++ decimalDigits elements.length ++ crlf ++
        serializeAll elements

/-- The loop `out += serialize(elem)` over the elements of an array. -/
def serializeAll : List RespValue → Bytes
  | [] => []
  | element :: rest => element.serialize ++ serializeAll rest

end

mutual

/-- A condition holds at a value and at everything nested in it. -/
def Everywhere (holds : RespValue → Prop) : RespValue → Prop
  | .array elements =>
      holds (.array elements) ∧ EverywhereAll holds elements
  | .null => holds .null
  | .simpleString value => holds (.simpleString value)
  | .error message => holds (.error message)
  | .integer value => holds (.integer value)
  | .bulkString value => holds (.bulkString value)

/-- A condition holds everywhere in each of several values. -/
def EverywhereAll (holds : RespValue → Prop) : List RespValue → Prop
  | [] => True
  | element :: rest =>
      element.Everywhere holds ∧ EverywhereAll holds rest

end

/-- Simple strings and errors hold no line terminator. -/
def LineClear : RespValue → Prop
  | .simpleString value => CrlfFree value
  | .error message => CrlfFree message
  | _ => True

/-- Sizes stay below `2 ^ 63` and array storage can be reserved. -/
def SizeFits (reserve : Reserve) : RespValue → Prop
  | .bulkString value => value.length < 2 ^ 63
  | .array elements =>
      elements.length < 2 ^ 63 ∧ reserve elements.length = none
  | _ => True

/-- No simple string or error, at any depth, holds a line terminator. -/
abbrev LineSafe (value : RespValue) : Prop :=
  value.Everywhere LineClear

/-- Every string and every array, at any depth, fits a C++ object. -/
abbrev Storable (reserve : Reserve) (value : RespValue) : Prop :=
  value.Everywhere (SizeFits reserve)

/-- What holds in all elements holds in each. -/
theorem everywhereAll_iff
    {holds : RespValue → Prop}
    {elements : List RespValue} :
    EverywhereAll holds elements ↔
      ∀ element ∈ elements, element.Everywhere holds := by
  induction elements with
  | nil =>
      simp [EverywhereAll]
  | cons element rest inductionHypothesis =>
      simp [EverywhereAll, inductionHypothesis]

@[simp] theorem lineSafe_simpleString_iff
    {value : Bytes} :
    LineSafe (.simpleString value) ↔ CrlfFree value :=
  Iff.rfl

/-- An array of bulk strings is line-safe whatever the bytes are. -/
@[simp] theorem lineSafe_bulkArray
    {values : List Bytes} :
    LineSafe (.array (values.map .bulkString)) := by
  refine ⟨trivial, everywhereAll_iff.mpr ?_⟩
  intro element member
  obtain ⟨value, -, rfl⟩ := List.mem_map.mp member
  trivial

example :
    serialize (.array [.bulkString (ascii "GET"), .bulkString [13, 10]]) =
      ascii "*2\r\n$3\r\nGET\r\n$2\r\n\r\n\r\n" := by
  decide

end RespValue

end Vortek
