import Clearance.Yaml.Tag

/-!
# Tokens of a YAML text, and the scanner's position in it

Block structure, which a YAML text shows by indentation, is explicit in its tokens: a
block collection is opened by a token of its own and closed by `blockEnd`. So is a key
that the text shows only by the colon after it.

`Cursor` is where the scanner stands: the text that is left, line and column, the
indentation of the open block collections, and for each level of flow collections the
place at which an implicit key may have begun. A key is implicit when only the colon
after it tells that it is one; it must end on the line it began on, within 1024 bytes
of UTF-8. Columns count characters.
-/

namespace Clearance.Yaml

inductive Token where
  /-- `%YAML`, of a version that is understood. -/
  | version
  /-- `%TAG`, which makes `handle` stand for `expansion` in the tags of
  one document. -/
  | tagHandle (handle : String) (expansion : Octets)
  | documentStart
  | documentEnd
  | blockSequenceStart
  | blockMappingStart
  | blockEnd
  | flowSequenceStart
  | flowSequenceEnd
  | flowMappingStart
  | flowMappingEnd
  /-- The dash before an item of a block sequence. -/
  | blockEntry
  /-- The comma between the items of a flow collection. -/
  | flowEntry
  | key
  | value
  | anchor (name : String)
  | alias (name : String)
  /-- A tag; without a handle, the suffix is the whole tag. -/
  | tag (handle : String) (suffix : Octets)
  /-- The content of a scalar, and whether it was written without quotes or a
  block indicator. -/
  | scalar (text : String) (plain : Bool)
deriving DecidableEq

/-- Spaces and tabs. -/
def isBlank (c : Char) : Bool := c == ' ' || c == '\t'

/-- The characters that end a line. -/
def isBreak (c : Char) : Bool :=
  c == '\n' || c == '\r' || c.toNat == 0x85 || c.toNat == 0x2028 || c.toNat == 0x2029

/-- Blank, line break or the end of the text. -/
def isGap : Option Char → Bool
  | none => true
  | some c => isBlank c || isBreak c

/-- The characters a YAML text may hold. -/
def isAllowed (c : Char) : Bool :=
  let n := c.toNat
  n == 9 || n == 10 || n == 13 || (0x20 ≤ n && n ≤ 0x7E) || n == 0x85 ||
  (0xA0 ≤ n && n ≤ 0xD7FF) || (0xE000 ≤ n && n ≤ 0xFFFD) || 0x10000 ≤ n

/-- How many bytes of UTF-8 a text takes. -/
def byteLength (s : List Char) : Nat := s.foldl (fun n c => n + c.utf8Size) 0

/-- Letters, digits, dash and underscore: what the names of anchors and handles
consist of. -/
def isWordChar (c : Char) : Bool := c.isAlphanum || c == '-' || c == '_'

/-- Where an implicit key may have begun. -/
structure KeyStart where
  /-- How many tokens there were before it. -/
  token : Nat
  /-- How many bytes there were before it. -/
  index : Nat
  line : Nat
  column : Nat
  /-- Whether nothing else but a key can stand here. -/
  required : Bool

/-- The position of the scanner, and the tokens it has found. -/
structure Cursor where
  /-- How many characters the whole text has, which bounds how often a step
  is repeated. -/
  bound : Nat
  /-- The text that is left. -/
  rest : List Char
  /-- How many bytes are behind the cursor. -/
  index : Nat
  line : Nat
  column : Nat
  /-- The column of the innermost open block collection, `-1` outside of all. -/
  indent : Int
  /-- The columns of the block collections around it, innermost first. -/
  outer : List Int
  /-- Whether an implicit key may begin here. -/
  keyAllowed : Bool
  /-- The possible start of an implicit key on the current level of
  flow collections. -/
  keyStart : Option KeyStart
  /-- The same for the levels around it, innermost first; as many as there are open
  flow collections. -/
  outerKeys : List (Option KeyStart)
  tokens : Array Token

namespace Cursor

/-- The start of a text. -/
def start (s : List Char) : Cursor :=
  { bound := s.length, rest := s, index := 0, line := 0, column := 0, indent := -1
    outer := [], keyAllowed := true, keyStart := none, outerKeys := [], tokens := #[] }

/-- Whether the scanner is inside a flow collection. -/
def inFlow (c : Cursor) : Bool := !c.outerKeys.isEmpty

/-- The next character. -/
def peek (c : Cursor) : Option Char := c.rest.head?

/-- The character `k` places ahead. -/
def peekAt (c : Cursor) (k : Nat) : Option Char := c.rest[k]?

/-- Past `n` characters of the line. -/
def skipN (c : Cursor) (n : Nat) : Cursor :=
  { c with
    rest := c.rest.drop n, index := c.index + byteLength (c.rest.take n),
    column := c.column + n }

/-- Past one character of the line. -/
def skip (c : Cursor) : Cursor := c.skipN 1

/-- Past a line break, with what it contributes to a scalar: a line feed, unless it is
one of the two separators that keep their own character. -/
def skipBreak (c : Cursor) : List Char × Cursor :=
  let next (n : Nat) : Cursor :=
    { c.skipN n with line := c.line + 1, column := 0 }
  match c.rest with
  | '\r' :: '\n' :: _ => (['\n'], next 2)
  | b :: _ =>
      if b.toNat = 0x2028 ∨ b.toNat = 0x2029 then ([b], next 1)
      else if isBreak b then (['\n'], next 1)
      else ([], c)
  | [] => ([], c)

/-- Past the characters of the line that satisfy `p`. -/
def skipWhile (c : Cursor) (p : Char → Bool) : Cursor :=
  c.skipN (c.rest.takeWhile p).length

/-- Whether `---` or `...` stands alone at the start of this line. -/
def atDocumentMark (c : Cursor) : Bool :=
  c.column == 0 &&
    (c.rest.take 3 == ['-', '-', '-'] || c.rest.take 3 == ['.', '.', '.']) &&
    isGap (c.peekAt 3)

/-- One more token. -/
def push (c : Cursor) (t : Token) : Cursor := { c with tokens := c.tokens.push t }

/-- Forgets the possible key of this level; fails if it had to be one. -/
def dropKey (c : Cursor) : Option Cursor :=
  match c.keyStart with
  | some k => if k.required then none else some { c with keyStart := none }
  | none => some c

/-- Notes that an implicit key may begin here. -/
def noteKey (c : Cursor) : Option Cursor :=
  if c.keyAllowed then do
    let c ← c.dropKey
    let k : KeyStart :=
      { token := c.tokens.size, index := c.index, line := c.line, column := c.column
        required := !c.inFlow && c.indent == (c.column : Int) }
    some { c with keyStart := some k }
  else some c

/-- Whether a key begun at `k` can no longer be completed. -/
def isStale (c : Cursor) (k : KeyStart) : Bool :=
  k.line < c.line || k.index + 1024 < c.index

/-- Forgets the possible keys that can no longer be completed; fails if one had
to be. -/
def dropStaleKeys (c : Cursor) : Option Cursor := do
  let settle (k? : Option KeyStart) : Option (Option KeyStart) :=
    match k? with
    | some k =>
        if c.isStale k then (if k.required then none else some none) else some (some k)
    | none => some none
  let keyStart ← settle c.keyStart
  let outerKeys ← c.outerKeys.mapM settle
  some { c with keyStart, outerKeys }

/-- Closes the block collections that are indented deeper than `column`. -/
def closeBlocks (c : Cursor) (column : Int) : Cursor :=
  if c.inFlow then c
  else go c c.outer
where
  go (c : Cursor) : List Int → Cursor
    | [] => c
    | i :: is =>
        if column < c.indent then
          go { c.push .blockEnd with indent := i, outer := is } is
        else c

/-- Opens a block collection at `column`, if that is deeper than the innermost one; its
token comes before the token numbered `at`. -/
def openBlock (c : Cursor) (column : Nat) (place : Nat) (t : Token) : Cursor :=
  if c.inFlow || decide ((column : Int) ≤ c.indent) then c
  else { c with
    outer := c.indent :: c.outer, indent := column
    tokens := c.tokens.insertIdxIfInBounds place t }

end Cursor

end Clearance.Yaml
