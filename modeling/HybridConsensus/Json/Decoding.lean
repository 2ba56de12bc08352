import HybridConsensus.Json.Value
import HybridConsensus.Signed64

/-!
# From JSON values to values of the program

A record is written as an object, or as an array of its fields in order. Integers must be written as
such and fit. A name out of a fixed list is written as a string, or as an object whose only member
has that name and the value null.
-/

namespace HybridConsensus.Json

variable {α : Type}

def asBool? : Json → Option Bool
  | .bool value => some value
  | _ => none

def asText? : Json → Option String
  | .string text => text
  | _ => none

/-- Minus zero is no integer. -/
def asInt? : Json → Option Int
  | .integer false magnitude => some magnitude
  | .integer true 0 => none
  | .integer true magnitude => some (-(magnitude : Int))
  | _ => none

def asInt64? (json : Json) : Option Int64 := do
  let value ← json.asInt?
  if Signed64.InRange value then some (Int64.ofInt value) else none

def asUInt32? (json : Json) : Option UInt32 := do
  let value ← json.asInt?
  if 0 ≤ value ∧ value < UInt32.size then some (UInt32.ofNat value.toNat) else none

def asName? : Json → Option String
  | .string text => text
  | .object [(name, .null)] => name
  | _ => none

def asList? (decode : Json → Option α) : Json → Option (List α)
  | .array items => items.mapM decode
  | _ => none

/-- What becomes of a member that is not a field. -/
inductive UnknownMembers
  | ignored
  | refused
deriving DecidableEq

/-- The fields that are given, each once. -/
structure Fields where
  given : List (String × Json)

namespace Fields

def get? (fields : Fields) (name : String) : Option Json :=
  fields.given.lookup name

/-- A name without a text is refused like a repeated one. -/
def ofMembers? (names : List String) (unknown : UnknownMembers) :
    List (Option String × Json) → Option Fields
  | [] => some ⟨[]⟩
  | (none, _) :: _ => none
  | (some name, value) :: rest => do
    let fields ← ofMembers? names unknown rest
    if name ∈ names then
      if (fields.get? name).isNone then some ⟨(name, value) :: fields.given⟩ else none
    else if unknown = .ignored then some fields
    else none

/-- An array may leave out fields at its end. -/
def ofJson? (names : List String) (unknown : UnknownMembers) : Json → Option Fields
  | .object members => ofMembers? names unknown members
  | .array items => if items.length ≤ names.length then some ⟨names.zip items⟩ else none
  | _ => none

def required (fields : Fields) (name : String) (decode : Json → Option α) : Option α := do
  decode (← fields.get? name)

/-- A field that is left out has its default value. -/
def withDefault (fields : Fields) (name : String) (value : α) (decode : Json → Option α) :
    Option α :=
  match fields.get? name with
  | some json => decode json
  | none => some value

/-- A field that is left out or null has no value. -/
def optional (fields : Fields) (name : String) (decode : Json → Option α) :
    Option (Option α) :=
  match fields.get? name with
  | some .null => some none
  | some json => (decode json).map some
  | none => some none

end Fields

end HybridConsensus.Json
