import Clearance.Yaml.Node
import Clearance.Yaml.Scanner

/-!
# Reading YAML nodes

`Node.ofTokens` finds the tree in the tokens of a text, which holds one document at
most. Tags are put together from what their handles stand for, and each anchor gets a
number; an alias must name an anchor that has been met before it.
-/

namespace Clearance.Yaml

/-- What the names in a document stand for, as far as it has been read. -/
structure Names where
  /-- What the handles of tags stand for. -/
  handles : List (String × Octets)
  /-- The numbers that the names of anchors stand for, the latest first. -/
  anchors : List (String × Nat)
  /-- How many different names of anchors there are. -/
  known : Nat

namespace Names

/-- The handles that every document knows. -/
def commonHandles : List (String × Octets) :=
  [("!", asciiOctets "!".toList), ("!!", asciiOctets "tag:yaml.org,2002:".toList)]

/-- The tag in full. Neither of its parts reaches beyond a NUL. -/
def tag? (names : Names) (handle : String) (suffix : Octets) : Option Tag :=
  if handle.isEmpty then some ⟨suffix.beforeNul⟩
  else (names.handles.lookup handle).map fun start =>
    ⟨start.beforeNul ++ suffix.beforeNul⟩

/-- The number of a further anchor and the names from then on. The number counts the
names known so far, so an anchor after a name was used again can have the number of the
one before. -/
def addAnchor (names : Names) (name : String) : Nat × Names :=
  let isNew := (names.anchors.lookup name).isNone
  (names.known,
    { names with
      anchors := (name, names.known) :: names.anchors
      known := if isNew then names.known + 1 else names.known })

/-- The properties of a node, and the names from then on. -/
def properties (names : Names) (anchor : Option String)
    (tag : Option Tag) : Properties × Names :=
  match anchor with
  | some a => let (k, names) := names.addAnchor a; (⟨some k, tag⟩, names)
  | none => (⟨none, tag⟩, names)

end Names

/-- The properties in front of a node, at most one anchor and one tag, in either order;
answers the tokens after them and the names known from then on, too. -/
def properties (names : Names) (ts : List Token) :
    Option (Properties × List Token × Names) := do
  let (anchor, tag, rest) ←
    match ts with
    | .anchor a :: .tag h s :: rest => some (some a, some (← names.tag? h s), rest)
    | .tag h s :: .anchor a :: rest => some (some a, some (← names.tag? h s), rest)
    | .anchor a :: rest => some (some a, none, rest)
    | .tag h s :: rest => some (none, some (← names.tag? h s), rest)
    | rest => some (none, none, rest)
  let (p, names) := names.properties anchor tag
  some (p, rest, names)

/-- Where a node may stand. -/
inductive Place where
  /-- In a flow collection. -/
  | flow
  /-- In a block collection or at the root. -/
  | block
  /-- In a block mapping, where the dashes of a sequence need no indentation of
  their own. -/
  | inMapping
deriving DecidableEq

/-- What a reader answers: what it read, the tokens after it, and the names known from
then on. -/
abbrev Answer (α : Type) := α × List Token × Names

mutual

def node (fuel : Nat) (place : Place) (names : Names)
    (ts : List Token) : Option (Answer Node) :=
  match fuel with
  | 0 => none
  | fuel + 1 =>
      match ts with
      | .alias a :: rest => do some (.alias (← names.anchors.lookup a), rest, names)
      | _ => do
          let (p, rest, names) ← properties names ts
          let nothing : Option (Answer Node) :=
            if p.isPresent then some (.absent p, rest, names) else none
          match rest with
          | .scalar text plain :: rest => some (.scalar p text plain, rest, names)
          | .flowSequenceStart :: rest => do
              let (items, rest, names) ← flowItems fuel true names rest
              some (.sequence p items, rest, names)
          | .flowMappingStart :: rest => do
              let (pairs, rest, names) ← flowPairs fuel true names rest
              some (.mapping p pairs, rest, names)
          | .blockSequenceStart :: rest =>
              if place = .flow then nothing
              else do
                let (items, rest, names) ← blockItems fuel names rest
                some (.sequence p items, rest, names)
          | .blockMappingStart :: rest =>
              if place = .flow then nothing
              else do
                let (pairs, rest, names) ← blockPairs fuel names rest
                some (.mapping p pairs, rest, names)
          | .blockEntry :: _ =>
              if place = .inMapping then do
                let (items, rest, names) ← dashItems fuel names rest
                some (.sequence p items, rest, names)
              else nothing
          | _ => nothing

/-- The items of a block sequence, to its end. -/
def blockItems (fuel : Nat) (names : Names) (ts : List Token) :
    Option (Answer (List Node)) :=
  match fuel with
  | 0 => none
  | fuel + 1 =>
      match ts with
      | .blockEnd :: rest => some ([], rest, names)
      | .blockEntry :: rest => do
          let (item, rest, names) ←
            match rest with
            | .blockEntry :: _ | .blockEnd :: _ => some (.absent .none, rest, names)
            | _ => node fuel .block names rest
          let (items, rest, names) ← blockItems fuel names rest
          some (item :: items, rest, names)
      | _ => none

/-- The items of a sequence whose dashes have the indentation of the mapping
around it. -/
def dashItems (fuel : Nat) (names : Names) (ts : List Token) :
    Option (Answer (List Node)) :=
  match fuel with
  | 0 => none
  | fuel + 1 =>
      match ts with
      | .blockEntry :: rest => do
          let (item, rest, names) ←
            match rest with
            | .blockEntry :: _ | .key :: _ | .value :: _ | .blockEnd :: _ =>
                some (.absent .none, rest, names)
            | _ => node fuel .block names rest
          let (items, rest, names) ← dashItems fuel names rest
          some (item :: items, rest, names)
      | _ => some ([], ts, names)

/-- The pairs of a block mapping, to its end. -/
def blockPairs (fuel : Nat) (names : Names) (ts : List Token) :
    Option (Answer (List (Node × Node))) :=
  match fuel with
  | 0 => none
  | fuel + 1 =>
      match ts with
      | .blockEnd :: rest => some ([], rest, names)
      | .key :: rest => do
          let (key, rest, names) ← blockPart fuel names rest
          let (item, rest, names) ←
            match rest with
            | .value :: rest => blockPart fuel names rest
            | _ => some (.absent .none, rest, names)
          let (pairs, rest, names) ← blockPairs fuel names rest
          some ((key, item) :: pairs, rest, names)
      | _ => none

/-- The key or the value of a block mapping, which may be left out. -/
def blockPart (fuel : Nat) (names : Names) (ts : List Token) : Option (Answer Node) :=
  match fuel with
  | 0 => none
  | fuel + 1 =>
      match ts with
      | .key :: _ | .value :: _ | .blockEnd :: _ => some (.absent .none, ts, names)
      | _ => node fuel .inMapping names ts

/-- The items of a flow sequence, to its end; all but the first follow a comma. A pair
may stand for a mapping of its own; where its key is left out after a question mark,
the token that shows this is left out with it. -/
def flowItems (fuel : Nat) (first : Bool) (names : Names) (ts : List Token) :
    Option (Answer (List Node)) :=
  match fuel with
  | 0 => none
  | fuel + 1 =>
      match ts with
      | .flowSequenceEnd :: rest => some ([], rest, names)
      | _ => do
          let ts ←
            match first, ts with
            | true, ts => some ts
            | false, .flowEntry :: rest => some rest
            | false, _ => none
          match ts with
          | .flowSequenceEnd :: rest => some ([], rest, names)
          | .key :: rest => do
              let (key, rest, names) ←
                match rest with
                | .value :: rest | .flowEntry :: rest | .flowSequenceEnd :: rest =>
                    some (.absent .none, rest, names)
                | _ => node fuel .flow names rest
              let (item, rest, names) ← flowValue fuel .flowSequenceEnd names rest
              let (items, rest, names) ← flowItems fuel false names rest
              some (.mapping .none [(key, item)] :: items, rest, names)
          | _ => do
              let (item, rest, names) ← node fuel .flow names ts
              let (items, rest, names) ← flowItems fuel false names rest
              some (item :: items, rest, names)

/-- The pairs of a flow mapping, to its end; all but the first follow a comma. A node
alone is a key without a value. -/
def flowPairs (fuel : Nat) (first : Bool) (names : Names) (ts : List Token) :
    Option (Answer (List (Node × Node))) :=
  match fuel with
  | 0 => none
  | fuel + 1 =>
      match ts with
      | .flowMappingEnd :: rest => some ([], rest, names)
      | _ => do
          let ts ←
            match first, ts with
            | true, ts => some ts
            | false, .flowEntry :: rest => some rest
            | false, _ => none
          match ts with
          | .flowMappingEnd :: rest => some ([], rest, names)
          | .key :: rest => do
              let (key, rest, names) ←
                match rest with
                | .value :: _ | .flowEntry :: _ | .flowMappingEnd :: _ =>
                    some (.absent .none, rest, names)
                | _ => node fuel .flow names rest
              let (item, rest, names) ← flowValue fuel .flowMappingEnd names rest
              let (pairs, rest, names) ← flowPairs fuel false names rest
              some ((key, item) :: pairs, rest, names)
          | _ => do
              let (key, rest, names) ← node fuel .flow names ts
              let (pairs, rest, names) ← flowPairs fuel false names rest
              some ((key, .absent .none) :: pairs, rest, names)

/-- The value of a flow pair, which may be left out with or without its colon. -/
def flowValue (fuel : Nat) (closing : Token) (names : Names)
    (ts : List Token) : Option (Answer Node) :=
  match fuel with
  | 0 => none
  | fuel + 1 =>
      match ts with
      | .value :: rest =>
          match rest with
          | .flowEntry :: _ => some (.absent .none, rest, names)
          | t :: _ =>
              if t = closing then some (.absent .none, rest, names)
              else node fuel .flow names rest
          | [] => none
      | _ => some (.absent .none, ts, names)

end

/-- The names that the directives before a document introduce, and the tokens after
them. A version may be named once, and a handle not twice. -/
def directives :
    List Token → Bool → List (String × Octets) → Option (Names × List Token)
  | .version :: rest, false, hs => directives rest true hs
  | .version :: _, true, _ => none
  | .tagHandle h e :: rest, v, hs =>
      if (hs.lookup h).isSome then none else directives rest v ((h, e) :: hs)
  | ts, _, hs => some (⟨hs ++ Names.commonHandles, [], 0⟩, ts)

/-- Whether a document's content is left out before this token. -/
def endsDocument : List Token → Bool
  | [] => true
  | .documentStart :: _ => true
  | .documentEnd :: _ => true
  | .version :: _ => true
  | .tagHandle _ _ :: _ => true
  | _ => false

/-- The only document among the tokens, or `none` if there is no document at all. -/
def Node.ofTokens (ts : List Token) : Option (Option Node) := do
  let bare := !endsDocument ts
  if ts.isEmpty then some none
  else
    let (names, rest) ← directives ts false []
    let content ←
      if bare then some rest
      else match rest with
        | .documentStart :: rest => some rest
        | _ => none
    let (root, rest, _) ←
      if endsDocument content then some (.absent .none, content, names)
      else node (4 * ts.length + 4) .block names content
    if (rest.dropWhile (· == .documentEnd)).isEmpty then some (some root) else none

end Clearance.Yaml
