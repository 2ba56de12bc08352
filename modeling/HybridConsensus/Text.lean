/-!
# Text

Decimal digits as a number, and a text cut at each place where a character stands.
-/

namespace HybridConsensus

def decimalValue (digits : List Char) : Nat :=
  digits.foldl (fun value digit => 10 * value + (digit.toNat - '0'.toNat)) 0

/-- The parts of a text between the separators, one more than there are separators. -/
def cutAt (separator : Char) : List Char → List (List Char)
  | [] => [[]]
  | character :: rest =>
    if character = separator then [] :: cutAt separator rest
    else match cutAt separator rest with
      | [] => [[character]]
      | part :: parts => (character :: part) :: parts

end HybridConsensus
