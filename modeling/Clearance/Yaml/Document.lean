import Clearance.Text.Split
import Clearance.Yaml.Node.Reader
import Clearance.Yaml.Resolution

/-!
# YAML documents as data

`Yaml.readMap` reads a text whose document is a mapping, as the members of a JSON map.
A key is always the text of its scalar, and of two members with one name the later
counts. An empty text is an empty map.

A local tag makes its node a member: `!a v` is a map with `v` under the name `a`. Two
keys are reserved below the root: `identityKey` must hold a number and is dropped, and
what `standInKey` holds stands for the whole map.

An alias is read as the node it stands for, each time anew. Since such a node can
contain the alias, and since few aliases can stand for very many nodes, there are two
limits: collections nest at most `maxDepth` deep, and at most `aliasesPerPart` aliases
are followed for each part of the text.
-/

namespace Clearance.Yaml

/-- How deep a document may be nested. -/
def maxDepth : Nat := 128

/-- How many aliases may be followed for each part of a text. -/
def aliasesPerPart : Nat := 100

/-- The key for a number that identifies a map. -/
def identityKey : String := "___figment_value_id"

/-- The key for what a map stands for. -/
def standInKey : String := "___figment_value_value"

/-- A reading that follows aliases: its state is how many more it may follow. -/
abbrev Reading := StateT Nat Option

/-- The node that a node stands for: an alias for the last node that got its number. -/
def follow (anchored : List (Nat × Node)) : Node → Reading Node
  | .alias k => do
      match (← get) with
      | 0 => failure
      | left + 1 => do
          set left
          (anchored.lookup k).elim failure pure
  | n => pure n

/-- The value under the pieces of a name, one inside the other, up to the first
empty piece. -/
def nest (value : Json) : List (List Char) → Json
  | [] => value
  | [] :: _ => value
  | piece :: pieces => .object [(String.ofList piece, nest value pieces)]

/-- The value of a node with a tag: a local one makes it a member. -/
def withTag (tag : Option Tag) (value : Json) : Json :=
  match tag.bind Tag.name? with
  | some name => nest value (Text.split '.' name.toList)
  | none => value

/-- What a node demands of its scalar. -/
def Properties.demand (p : Properties) : Demand := (p.tag.map Tag.demand).getD .free

/-- Whether a node holds what identifies a map: a natural number of sixty-four bits. -/
def isIdentity : Node → Bool
  | .scalar p text plain =>
      (p.tag.bind Tag.name?).isNone &&
        (match scalarData p.demand text plain with
          | some (.integer n) => decide (0 ≤ n) && Json.fitsWord n
          | _ => false)
  | _ => false

section

variable (anchored : List (Nat × Node))

def keyText (n : Node) : Reading String := do
  match (← follow anchored n) with
  | .scalar _ text _ => pure text
  | _ => failure

/-- A pair below the root as a member. -/
def member (read : Node → Reading Json) (p : Node × Node) :
    Reading (String × Json) := do
  let name ← keyText anchored p.1
  if name = identityKey then
    if isIdentity (← follow anchored p.2) then pure (name, .null) else failure
  else pure (name, ← read p.2)

/-- The map with these members below the root, or what stands for it. -/
def mapOf (members : List (String × Json)) : Json :=
  match members.reverse.lookup standInKey with
  | some value => value
  | none => Json.ofPairs (members.filter fun m => m.1 != identityKey)

/-- A node as data, if it is no collection or if there is a way to `read` what
is inside. -/
def dataOf (read : Option (Node → Reading Json)) (n : Node) : Reading Json := do
  let n ← follow anchored n
  let value ←
    match n, read with
    | .scalar p text plain, _ => (scalarData p.demand text plain).elim failure pure
    | .sequence _ items, some read => do pure (.array (← items.mapM read))
    | .mapping _ pairs, some read =>
        do pure (mapOf (← pairs.mapM (member anchored read)))
    | _, _ => failure
  pure (withTag n.properties.tag value)

/-- A node as data, if it nests at most `depth` deep. -/
def Node.data : (depth : Nat) → Node → Reading Json
  | 0 => dataOf anchored none
  | depth + 1 => dataOf anchored (some (Node.data depth))

end

/-- The members of the mapping that a document is. -/
def Node.members (root : Node) : Option (List (String × Json)) :=
  let anchored := root.anchored.reverse
  match root with
  | .scalar _ text plain => if text.isEmpty && plain then some [] else none
  | .mapping _ pairs => do
      let read (p : Node × Node) : Reading (String × Json) := do
        let name ← keyText anchored p.1
        pure (name, ← Node.data anchored (maxDepth - 1) p.2)
      let (members, _) ← (pairs.mapM read).run (aliasesPerPart * root.size)
      some (Entries.ofPairs members)
  | _ => none

/-- The members of the mapping that a text holds. -/
def readMap (text : String) : Option (List (String × Json)) := do
  match (← Node.ofTokens (← Token.scan text)) with
  | none => some []
  | some root => root.members

end Clearance.Yaml
