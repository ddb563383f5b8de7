import Clearance.Double.Rounding
import Clearance.Table

/-!
# JSON documents

A document is a tree of maps and arrays over scalars. A number is an integer or a
double; the text decides which, and an integer keeps its exact value however large it
is. The members of a map are `Entries`, of which the first under a name counts.
-/

namespace Clearance

inductive Json where
  | null
  | bool (b : Bool)
  | integer (n : Int)
  | float (d : Double)
  | string (s : String)
  | array (items : List Json)
  | object (fields : List (String × Json))

instance : Inhabited Json := ⟨.null⟩

namespace Json

/-- The member `name` of a map; nothing has members but a map. -/
def member? : Json → String → Option Json
  | .object fields, name => Entries.get? fields name
  | _, _ => none

/-- A map of the given members, of two with one name the later. -/
def ofPairs (pairs : List (String × Json)) : Json := .object (Entries.ofPairs pairs)

/-- The greatest number of sixty-four bits without a sign. -/
def maxWord : Nat := 0xFFFFFFFFFFFFFFFF

/-- Whether an integer fits sixty-four bits, signed or unsigned. -/
def fitsWord (n : Int) : Bool :=
  decide (Int64.minValue.toInt ≤ n) && decide (n ≤ maxWord)

mutual

/-- Whether every integer in a document fits sixty-four bits. -/
def hasWordsOnly : Json → Bool
  | .integer n => fitsWord n
  | .array items => haveWordsOnly items
  | .object fields => fieldsHaveWordsOnly fields
  | _ => true

/-- Whether every integer in the items of an array fits sixty-four bits. -/
def haveWordsOnly : List Json → Bool
  | [] => true
  | item :: rest => item.hasWordsOnly && haveWordsOnly rest

/-- Whether every integer in the members of a map fits sixty-four bits. -/
def fieldsHaveWordsOnly : List (String × Json) → Bool
  | [] => true
  | (_, item) :: rest => item.hasWordsOnly && fieldsHaveWordsOnly rest

end

def strings (xs : List String) : Json := .array (xs.map .string)

end Json

end Clearance
