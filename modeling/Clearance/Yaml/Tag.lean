import Clearance.Json.Number

/-!
# YAML tags

A tag is a string of octets: it is written in ASCII, but an escape by number can name
any octet, also one that is no part of a character. What a tag asks for is a `Demand`
on the scalar it stands at. A tag that starts with an exclamation mark is a local one;
it demands nothing, and its name says what its node is a member of (`Tag.name?`).
-/

namespace Clearance.Yaml

abbrev Octets := List UInt8

/-- The octets of a text in ASCII. -/
def asciiOctets (s : List Char) : Octets := s.map fun c => UInt8.ofNat c.toNat

/-- What stands before the first NUL. -/
def Octets.beforeNul (s : Octets) : Octets := s.takeWhile (· != 0)

/-- How many octets follow in the UTF-8 sequence that `o` starts, if it starts any. -/
def trailing? (o : UInt8) : Option Nat :=
  if o < 0x80 then some 0
  else if o < 0xC0 then none
  else if o < 0xE0 then some 1
  else if o < 0xF0 then some 2
  else if o < 0xF8 then some 3
  else none

/-- The octets that a text in ASCII names, with its escapes by number undone. Escapes
come in groups with the form of a UTF-8 sequence, of which `pending` more octets are
to come. -/
def unescape : (pending : Nat) → List Char → Option Octets
  | pending, '%' :: a :: b :: rest => do
      let o := UInt8.ofNat (16 * (← Json.hexValue? a) + (← Json.hexValue? b))
      let pending ←
        if pending = 0 then trailing? o
        else if 0x80 ≤ o ∧ o < 0xC0 then some (pending - 1)
        else none
      (unescape pending rest).map (o :: ·)
  | 0, c :: rest =>
      if c = '%' then none else (unescape 0 rest).map (UInt8.ofNat c.toNat :: ·)
  | 0, [] => some []
  | _ + 1, _ => none

/-- A tag in full. -/
structure Tag where
  octets : Octets
deriving DecidableEq

/-- What a scalar must be. -/
inductive Demand where
  /-- What it looks like. -/
  | free
  | bool
  | int
  | float
  | null
  | string
deriving DecidableEq

namespace Tag

/-- The tag of a kind in the core vocabulary. -/
def core (kind : String) : Tag := ⟨asciiOctets ("tag:yaml.org,2002:" ++ kind).toList⟩

/-- What a tag demands. Of what is neither local nor one of four in the core
vocabulary, only the text is understood. -/
def demand (t : Tag) : Demand :=
  if t.octets.head? = some 0x21 then .free
  else if t = core "bool" then .bool
  else if t = core "int" then .int
  else if t = core "float" then .float
  else if t = core "null" then .null
  else .string

/-- The name of a local tag, if it is a text: what follows the exclamation mark, or the
mark itself if nothing does. -/
def name? (t : Tag) : Option String :=
  match t.octets with
  | [0x21] => some "!"
  | 0x21 :: name => String.fromUTF8? (ByteArray.mk name.toArray)
  | _ => none

end Tag

end Clearance.Yaml
