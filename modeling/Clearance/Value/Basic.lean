import Clearance.Json.Basic

/-!
# Values

What subjects, resources and arguments are made of: scalars, lists and objects. An
object is either a host's, known by its handle, or a record, which is a JSON map seen
as an object.

Two values are the same if they are built alike from the same scalars and the same
objects. Objects are told apart by who they are and not by what they hold: a host's
object by its handle, a record by where it came from. Reading a member that is a map
makes a new record each time, so the origin of a record names the place that read it;
two reads are two records even if they read the same member.
-/

namespace Clearance

/-- The name by which a host's object is known. -/
structure Handle where
  name : String
deriving DecidableEq

/-- Where a member is read: by itself, for an argument of a call, or for one of
its candidates. -/
inductive Place where
  | alone
  | argument (name : String)
  | candidate (name : String) (index : Nat)
deriving DecidableEq

/-- Where a record came from. -/
inductive Origin where
  /-- The record was handed in, as the `n`-th one. -/
  | given (n : Nat)
  /-- It was read as a member of another record. -/
  | member (of : Origin) (place : Place) (name : String)
  /-- It is an item of a list with the given origin. -/
  | item (of : Origin) (index : Nat)
deriving DecidableEq

structure Record where
  origin : Origin
  fields : List (String × Json)

/-- An object: a host's own, or a record. -/
inductive Object where
  | host (handle : Handle)
  | record (record : Record)

inductive Value where
  | null
  | bool (b : Bool)
  | int (n : Int64)
  | float (d : Double)
  | string (s : String)
  | list (items : List Value)
  | object (o : Object)

instance : Inhabited Value := ⟨.null⟩

/-- The type that every value is of. -/
def mixed : String := "mixed"

/-- The type of every record. -/
def Record.typeName : String := "json"

def Object.same : Object → Object → Bool
  | .host a, .host b => a == b
  | .record a, .record b => a.origin == b.origin
  | _, _ => false

instance : BEq Object := ⟨Object.same⟩

namespace Value

mutual

def same : Value → Value → Bool
  | .null, .null => true
  | .bool a, .bool b => a == b
  | .int a, .int b => a == b
  | .float a, .float b => (compare a b).isEq
  | .string a, .string b => a == b
  | .list a, .list b => sameItems a b
  | .object a, .object b => a == b
  | _, _ => false

/-- Whether two lists hold the same values in the same order. -/
def sameItems : List Value → List Value → Bool
  | [], [] => true
  | a :: as, b :: bs => same a b && sameItems as bs
  | _, _ => false

end

instance : BEq Value := ⟨Value.same⟩

def isNull : Value → Bool
  | .null => true
  | _ => false

/-- Null and false stand for "nothing found". -/
def isNotFound : Value → Bool
  | .null => true
  | .bool b => !b
  | _ => false

def asBool? : Value → Option Bool
  | .bool b => some b
  | _ => none

def asString? : Value → Option String
  | .string s => some s
  | _ => none

def asObject? : Value → Option Object
  | .object o => some o
  | _ => none

theorem eq_object_of_asObject? {v : Value} {o : Object} (h : v.asObject? = some o) :
    v = .object o := by
  cases v <;> cases h
  rfl

/-- An integer that fits sixty-four bits is an integer, any other the
nearest double. -/
def ofInteger (n : Int) : Value :=
  if Int64.minValue.toInt ≤ n ∧ n ≤ Int64.maxValue.toInt then .int (Int64.ofInt n)
  else .float (Double.ofInt n)

mutual

/-- A document as a value with the given origin: arrays become lists at once, a map
becomes a record whose members are looked at only when they are read. -/
def ofJson (origin : Origin) : Json → Value
  | .null => .null
  | .bool b => .bool b
  | .integer n => ofInteger n
  | .float d => .float d
  | .string s => .string s
  | .array items => .list (ofItems origin 0 items)
  | .object fields => .object (.record ⟨origin, fields⟩)

/-- The items of an array from number `n` on. -/
def ofItems (origin : Origin) (n : Nat) : List Json → List Value
  | [] => []
  | item :: rest => ofJson (.item origin n) item :: ofItems origin (n + 1) rest

end

end Value

/-- The member `name` of a record, if there is one. -/
def Record.member? (r : Record) (place : Place) (name : String) : Option Value :=
  (Entries.get? r.fields name).map (Value.ofJson (.member r.origin place name))

end Clearance
