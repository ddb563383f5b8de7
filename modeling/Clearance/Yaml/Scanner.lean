import Clearance.Yaml.Scalar

/-!
# Finding the tokens of a YAML text

`Token.scan` cuts a whole text into tokens. Indentation and implicit keys are settled
on the way: a line that is less indented closes block collections, and a colon turns
what has just been read into a key, whose token then goes in front of it.
-/

namespace Clearance.Yaml

namespace Cursor

/-- Past blanks, comments and line breaks to the next token. A byte order mark at the
start of a line is passed over, but takes a column. Outside of flow collections a tab
counts as a blank only where no key may begin, and every line break allows a key. -/
def toNextToken : Nat → Cursor → Cursor
  | 0, c => c
  | fuel + 1, c =>
      let c := if c.column = 0 ∧ c.peek = some '\ufeff' then c.skip else c
      let c :=
        c.skipWhile (fun d => d == ' ' || ((c.inFlow || !c.keyAllowed) && d == '\t'))
      let c := if c.peek = some '#' then c.skipWhile (fun d => !isBreak d) else c
      if c.peek.any isBreak then
        let (_, c) := c.skipBreak
        toNextToken fuel (if c.inFlow then c else { c with keyAllowed := true })
      else c

def single (c : Cursor) (t : Token) : Cursor := c.skip.push t

/-- Ends everything that the end of a document ends. -/
def endDocument (c : Cursor) : Option Cursor := do
  let c ← (c.closeBlocks (-1)).dropKey
  some { c with keyAllowed := false }

def finish (c : Cursor) : Option Cursor :=
  { c with
    column := 0, line := if c.column = 0 then c.line else c.line + 1 }.endDocument

/-- To the end of a line on which nothing but a comment may follow. -/
def restOfLine (c : Cursor) : Option Cursor :=
  let c := c.skipWhile isBlank
  let c := if c.peek = some '#' then c.skipWhile (fun d => !isBreak d) else c
  if c.peek.all isBreak then some c.skipBreak.2 else none

def blanks (c : Cursor) : Option Cursor :=
  if c.peek.any isBlank then some (c.skipWhile isBlank) else none

/-- A number of at most nine digits. -/
def versionNumber (c : Cursor) : Option (Nat × Cursor) :=
  let ds := c.rest.takeWhile Char.isDigit
  if ds.isEmpty ∨ 9 < ds.length then none
  else some (Json.decimalValue ds, c.skipN ds.length)

/-- A tag's handle: `!`, `!!`, or a word between two exclamation marks, whose second
one may be missing outside of directives. -/
def handle (c : Cursor) (directive : Bool) : Option (List Char × Cursor) :=
  if c.peek ≠ some '!' then none
  else
    let word := (c.rest.drop 1).takeWhile isWordChar
    let c := c.skipN (1 + word.length)
    if c.peek = some '!' then some ('!' :: word ++ ['!'], c.skip)
    else if directive ∧ ¬ word.isEmpty then none
    else some ('!' :: word, c)

/-- The characters of a tag; brackets and commas only where the tag is enclosed. -/
def isTagChar (enclosed : Bool) (c : Char) : Bool :=
  isWordChar c || ";/?:@&=+$.%!~*'()".toList.contains c ||
    (enclosed && (c == ',' || c == '[' || c == ']'))

/-- The characters of a tag, as the octets they name. -/
def tagText (c : Cursor) (enclosed : Bool) : Option (Octets × Cursor) :=
  let raw := c.rest.takeWhile (isTagChar enclosed)
  (unescape 0 raw).map (·, c.skipN raw.length)

def directive (c : Cursor) : Option Cursor := do
  let name := c.rest.takeWhile isWordChar
  let c := c.skipN name.length
  if !isGap c.peek then none
  else if name = "YAML".toList then
    let c := c.skipWhile isBlank
    let (major, c) ← c.versionNumber
    if c.peek ≠ some '.' then none
    else
      let (minor, c) ← c.skip.versionNumber
      if major = 1 ∧ (minor = 1 ∨ minor = 2) then (c.push .version).restOfLine
      else none
  else if name = "TAG".toList then
    let c ← c.blanks
    let (h, c) ← c.handle true
    let c ← c.blanks
    let (expansion, c) ← c.tagText true
    if expansion.isEmpty ∨ !isGap c.peek then none
    else (c.push (.tagHandle (String.ofList h) expansion)).restOfLine
  else none

/-- The name after `&` or `*`. -/
def anchorName (c : Cursor) : Option (String × Cursor) :=
  let name := c.rest.takeWhile isWordChar
  let c := c.skipN name.length
  let ends := isGap c.peek || c.peek.any (fun d => "?:,]\x7d%@\x60".toList.contains d)
  if name.isEmpty ∨ ¬ ends then none else some (String.ofList name, c)

/-- A tag. The mark alone is a tag of its own, and so is a mark before a NUL. -/
def tag (c : Cursor) : Option Cursor := do
  let (t, c) ←
    if c.peekAt 1 = some '<' then do
      let (text, c) ← (c.skipN 2).tagText true
      if text.isEmpty ∨ c.peek ≠ some '>' then none
      else some (Token.tag "" text, c.skip)
    else do
      let (h, after) ← c.handle false
      if 2 ≤ h.length ∧ h.getLast? = some '!' then
        let (text, c) ← after.tagText false
        if text.isEmpty then none else some (Token.tag (String.ofList h) text, c)
      else
        let (text, c) ← c.skip.tagText false
        if text.beforeNul.isEmpty then some (Token.tag "" (asciiOctets ['!']), c)
        else some (Token.tag "!" text, c)
  if isGap c.peek || (c.inFlow && c.peek == some ',') then some (c.push t) else none

def blockEntry (c : Cursor) : Option Cursor := do
  let c ←
    if c.inFlow then some c
    else if c.keyAllowed then
      some (c.openBlock c.column c.tokens.size .blockSequenceStart)
    else none
  let c ← c.dropKey
  some ({ c with keyAllowed := true }.single .blockEntry)

/-- The question mark before an explicit key. -/
def explicitKey (c : Cursor) : Option Cursor := do
  let c ←
    if c.inFlow then some c
    else if c.keyAllowed then
      some (c.openBlock c.column c.tokens.size .blockMappingStart)
    else none
  let c ← c.dropKey
  some ({ c with keyAllowed := !c.inFlow }.single .key)

/-- The colon before a value: what began at the noted place is its key. -/
def valueMark (c : Cursor) : Option Cursor :=
  match c.keyStart with
  | some k =>
      let c := { c with tokens := c.tokens.insertIdxIfInBounds k.token .key }
      let c := c.openBlock k.column k.token .blockMappingStart
      some ({ c with keyStart := none, keyAllowed := false }.single .value)
  | none => do
      let c ←
        if c.inFlow then some c
        else if c.keyAllowed then
          some (c.openBlock c.column c.tokens.size .blockMappingStart)
        else none
      some ({ c with keyAllowed := !c.inFlow }.single .value)

def openFlow (c : Cursor) (t : Token) : Option Cursor := do
  let c ← c.noteKey
  some ({ c with outerKeys := c.keyStart :: c.outerKeys, keyStart := none
                 keyAllowed := true }.single t)

def closeFlow (c : Cursor) (t : Token) : Option Cursor := do
  let c ← c.dropKey
  let c := match c.outerKeys with
    | k :: ks => { c with keyStart := k, outerKeys := ks }
    | [] => c
  some ({ c with keyAllowed := false }.single t)

def flowEntry (c : Cursor) : Option Cursor := do
  let c ← c.dropKey
  some ({ c with keyAllowed := true }.single .flowEntry)

def anchor (c : Cursor) (token : String → Token) : Option Cursor := do
  let c ← c.noteKey
  let (name, c) ← c.skip.anchorName
  some ({ c with keyAllowed := false }.push (token name))

def plain (c : Cursor) : Option Cursor := do
  let c ← c.noteKey
  let (c, f) ← plainScalar (2 * c.bound + 2) false
    { c with keyAllowed := false } .empty
  let c := if f.lineEnded then { c with keyAllowed := true } else c
  some (c.push (.scalar f.content true))

def quoted (c : Cursor) (isSingle : Bool) : Option Cursor := do
  let c ← c.noteKey
  let c := { c with keyAllowed := false }.skip
  let (c, f) ← quotedScalar isSingle (2 * c.bound + 2) c .empty
  some (c.push (.scalar f.content false))

def block (c : Cursor) (literal : Bool) : Option Cursor := do
  let c ← c.dropKey
  let (text, c) ← blockScalar literal { c with keyAllowed := true }.skip
  some (c.push (.scalar text false))

/-- Whether a plain scalar can begin with this character, given whether a gap follows
and whether a blank does. -/
def startsPlain (inFlow gapNext blankNext : Bool) (ch : Char) : Bool :=
  !(isBlank ch || "-?:,[]\x7b\x7d#&*!|>\x27\x22%@\x60".toList.contains ch) ||
    (ch == '-' && !blankNext) ||
    (!inFlow && (ch == '?' || ch == ':') && !gapNext)

/-- The next token, of a cursor that stands at it, where `ch` is. -/
def token (c : Cursor) (ch : Char) : Option Cursor :=
  let gapNext := isGap (c.peekAt 1)
  if c.column = 0 ∧ ch = '%' then do
    let c ← c.endDocument
    c.skip.directive
  else if c.atDocumentMark then do
    let c ← c.endDocument
    some ((c.skipN 3).push (if ch = '-' then .documentStart else .documentEnd))
  else if ch = '[' then c.openFlow .flowSequenceStart
  else if ch = '\x7b' then c.openFlow .flowMappingStart
  else if ch = ']' then c.closeFlow .flowSequenceEnd
  else if ch = '\x7d' then c.closeFlow .flowMappingEnd
  else if ch = ',' then c.flowEntry
  else if ch = '-' ∧ gapNext then c.blockEntry
  else if ch = '?' ∧ (c.inFlow ∨ gapNext) then c.explicitKey
  else if ch = ':' ∧ (c.inFlow ∨ gapNext) then c.valueMark
  else if ch = '*' then c.anchor .alias
  else if ch = '&' then c.anchor .anchor
  else if ch = '!' then do
    let c ← c.noteKey
    { c with keyAllowed := false }.tag
  else if ch = '|' ∧ ¬ c.inFlow then c.block true
  else if ch = '>' ∧ ¬ c.inFlow then c.block false
  else if ch = '\x27' then c.quoted true
  else if ch = '\x22' then c.quoted false
  else if startsPlain c.inFlow gapNext ((c.peekAt 1).any isBlank) ch then c.plain
  else none

def scanAll : Nat → Cursor → Option Cursor
  | 0, _ => none
  | fuel + 1, c => do
      let c := c.toNextToken (c.bound + 1)
      let c ← c.dropStaleKeys
      let c := c.closeBlocks c.column
      match c.peek with
      | none => c.finish
      | some ch => do
          let c ← c.token ch
          scanAll fuel c

end Cursor

/-- The tokens of a text, if it has any reading as tokens at all. -/
def Token.scan (text : String) : Option (List Token) := do
  let s := text.toList
  if s.all isAllowed then
    let c ← (Cursor.start s).scanAll (s.length + 2)
    some c.tokens.toList
  else none

end Clearance.Yaml
