/-!
# JSON values

Objects keep the order of their members and may repeat a name. A number is an integer if it is
written without a fraction and an exponent; minus zero is an integer with a sign. A string in which
an escape names half of a surrogate pair has no text.
-/

namespace HybridConsensus

inductive Json
  | null
  | bool (value : Bool)
  | integer (negative : Bool) (magnitude : Nat)
  | decimal (literal : String)
  | string (text : Option String)
  | array (items : List Json)
  | object (members : List (Option String × Json))
deriving Inhabited

namespace Json

def ofText (text : String) : Json :=
  .string (some text)

def ofTextOrNull : Option String → Json
  | some text => .ofText text
  | none => .null

def ofNat (value : Nat) : Json :=
  .integer false value

def ofInt (value : Int) : Json :=
  .integer (value < 0) value.natAbs

def ofRecord (members : List (String × Json)) : Json :=
  .object (members.map fun (name, value) => (some name, value))

end Json

end HybridConsensus
