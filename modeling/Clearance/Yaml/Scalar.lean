import Clearance.Json.Reader
import Clearance.Yaml.Cursor

/-!
# YAML scalars

The content of a scalar, in its four written forms. Plain and quoted scalars fold their
lines: a single line break becomes a space, and of several all but the first are kept.
Block scalars keep their lines or fold them, and say what happens to the breaks at
their end.

Each function answers the content and the position after the scalar, or nothing if the
scalar is malformed.
-/

namespace Clearance.Yaml

open Json (hexValue?)

/-- A scalar being read: its text, last character first, and the white space since
then, which counts only if more text follows. -/
structure Folding where
  text : List Char
  /-- The blanks since the text, last first. -/
  blanks : List Char
  /-- The first line break since the text. -/
  firstBreak : List Char
  /-- The further line breaks, last first. -/
  moreBreaks : List Char
  /-- Whether a line has ended since the text. -/
  lineEnded : Bool

namespace Folding

def empty : Folding := ⟨[], [], [], [], false⟩

/-- The white space joined to the text: blanks inside a line are kept, one line break
is a space, and of several the first is dropped. -/
def join (f : Folding) : Folding :=
  let gap :=
    if f.lineEnded then
      if f.firstBreak = ['\n'] then
        (if f.moreBreaks.isEmpty then [' '] else f.moreBreaks)
      else f.moreBreaks ++ f.firstBreak
    else f.blanks
  { empty with text := gap ++ f.text }

/-- One more character of text. -/
def add (f : Folding) (c : Char) : Folding := { f.join with text := c :: f.join.text }

/-- One more blank. Those after a line break are indentation. -/
def addBlank (f : Folding) (c : Char) : Folding :=
  if f.lineEnded then f else { f with blanks := c :: f.blanks }

/-- One more line break. -/
def addBreak (f : Folding) (b : List Char) : Folding :=
  if f.lineEnded then { f with moreBreaks := b ++ f.moreBreaks }
  else { f with blanks := [], firstBreak := b, lineEnded := true }

/-- The text, without the white space after it. -/
def content (f : Folding) : String := String.ofList f.text.reverse

end Folding

/-- Past blanks and line breaks; `tabLimit` is the column that a tab after a line break
must have reached. -/
def gap (tabLimit : Int) : Nat → Cursor → Folding → Option (Cursor × Folding)
  | 0, c, f => some (c, f)
  | fuel + 1, c, f =>
      match c.peek with
      | none => some (c, f)
      | some ch =>
          if isBlank ch then
            if ch = '\t' ∧ f.lineEnded ∧ (c.column : Int) < tabLimit then none
            else gap tabLimit fuel c.skip (f.addBlank ch)
          else if isBreak ch then
            let (b, c) := c.skipBreak
            gap tabLimit fuel c (f.addBreak b)
          else some (c, f)

/-- Brackets and commas, which end a plain scalar inside a flow collection. -/
def isFlowIndicator (c : Char) : Bool :=
  c == ',' || c == '[' || c == ']' || c == '\x7b' || c == '\x7d'

/-- A plain scalar. `inWord` tells that no white space stands just before. -/
def plainScalar : Nat → Bool → Cursor → Folding → Option (Cursor × Folding)
  | 0, _, _, _ => none
  | fuel + 1, inWord, c, f =>
      match c.peek with
      | none => some (c, f)
      | some ch =>
          if !inWord && (c.atDocumentMark || ch == '#') then some (c, f)
          else if isBlank ch || isBreak ch then do
            let (c, f) ← gap (c.indent + 1) (c.bound + 1) c f
            if !c.inFlow && decide ((c.column : Int) < c.indent + 1) then some (c, f)
            else plainScalar fuel false c f
          else if c.inFlow && ch == ':' &&
              (c.peekAt 1).any (fun d => isFlowIndicator d || d == '?') then none
          else if (ch == ':' && isGap (c.peekAt 1)) ||
            (c.inFlow && isFlowIndicator ch) then some (c, f)
          else plainScalar fuel true c.skip (f.add ch)

/-- The character after a backslash, where it stands for one character. -/
def escaped? : Char → Option Nat
  | '0' => some 0
  | 'a' => some 7
  | 'b' => some 8
  | 't' => some 9
  | '\t' => some 9
  | 'n' => some 10
  | 'v' => some 11
  | 'f' => some 12
  | 'r' => some 13
  | 'e' => some 27
  | ' ' => some 0x20
  | '\x22' => some 0x22
  | '/' => some 0x2F
  | '\\' => some 0x5C
  | 'N' => some 0x85
  | '_' => some 0xA0
  | 'L' => some 0x2028
  | 'P' => some 0x2029
  | _ => none

/-- How many hexadecimal digits follow an escape by number. -/
def escapeWidth? : Char → Option Nat
  | 'x' => some 2
  | 'u' => some 4
  | 'U' => some 8
  | _ => none

/-- The number that `n` hexadecimal digits write. -/
def hexNumber? (n : Nat) (s : List Char) : Option Nat :=
  if s.length < n then none
  else (s.take n).foldlM (fun k c => (hexValue? c).map (16 * k + ·)) 0

/-- An escape sequence after its backslash, which is no line break. -/
def escape (c : Cursor) : Option (Char × Cursor) := do
  let ch ← c.peek
  match escaped? ch with
  | some n => some (Char.ofNat n, c.skip)
  | none => do
      let width ← escapeWidth? ch
      let n ← hexNumber? width (c.rest.drop 1)
      if (0xD800 ≤ n ∧ n ≤ 0xDFFF) ∨ 0x10FFFF < n then none
      else some (Char.ofNat n, c.skipN (1 + width))

/-- A quoted scalar after its opening quote. -/
def quotedScalar (single : Bool) : Nat → Cursor → Folding → Option (Cursor × Folding)
  | 0, _, _ => none
  | fuel + 1, c, f =>
      if c.atDocumentMark then none
      else
        match c.peek with
        | none => none
        | some ch =>
            if isBlank ch || isBreak ch then do
              let (c, f) ← gap (-1) (c.bound + 1) c f
              quotedScalar single fuel c f
            else if single then
              if ch = '\x27' then
                if c.peekAt 1 = some '\x27' then
                  quotedScalar single fuel (c.skipN 2) (f.add '\x27')
                else some (c.skip, f.join)
              else quotedScalar single fuel c.skip (f.add ch)
            else if ch = '\x22' then some (c.skip, f.join)
            else if ch = '\\' then
              if (c.peekAt 1).any isBreak then
                let (_, c) := c.skip.skipBreak
                quotedScalar single fuel c { f.join with lineEnded := true }
              else do
                let (d, c) ← escape c.skip
                quotedScalar single fuel c (f.add d)
            else quotedScalar single fuel c.skip (f.add ch)

/-- What happens to the line breaks at the end of a block scalar. -/
inductive Chomping where
  | strip
  | clip
  | keep
deriving DecidableEq

/-- The indicators after `|` or `>`, in either order: chomping, and a digit for
the indentation. -/
def blockHeader (c : Cursor) : Option (Chomping × Option Nat × Cursor) :=
  let chomp (c : Cursor) : Option (Chomping × Cursor) :=
    match c.peek with
    | some '+' => some (.keep, c.skip)
    | some '-' => some (.strip, c.skip)
    | _ => none
  let width (c : Cursor) : Option (Option Nat × Cursor) :=
    match c.peek with
    | some d =>
        if d = '0' then none
        else if d.isDigit then some (some (d.toNat - 48), c.skip)
        else some (none, c)
    | none => some (none, c)
  match chomp c with
  | some (k, c) => (width c).map fun (w, c) => (k, w, c)
  | none => do
      let (w, c) ← width c
      match w with
      | none => some (.clip, none, c)
      | some w =>
          match chomp c with
          | some (k, c) => some (k, some w, c)
          | none => some (.clip, some w, c)

/-- Past the indentation of a line and past empty lines; answers the breaks, last
first, and the deepest column met. The indentation is `indent`, or whatever there is if
that is not known yet. -/
def blockBreaks (indent : Nat) :
    Nat → Cursor → List Char → Nat → Option (Cursor × List Char × Nat)
  | 0, _, _, _ => none
  | fuel + 1, c, breaks, deepest =>
      let room := (c.rest.takeWhile (· == ' ')).length
      let c := c.skipN (if indent = 0 then room else min room (indent - c.column))
      let deepest := max deepest c.column
      match c.peek with
      | none => some (c, breaks, deepest)
      | some ch =>
          if ch = '\t' ∧ (indent = 0 ∨ c.column < indent) then none
          else if isBreak ch then
            let (b, c) := c.skipBreak
            blockBreaks indent fuel c (b ++ breaks) deepest
          else some (c, breaks, deepest)

/-- The lines of a block scalar. `text`, `lineBreak` and `breaks` are last first: what
has been read, the break after its last line, and the empty lines since. `blankStart`
tells that the last line began with a blank, which keeps the breaks around it from
being folded. -/
def blockLines (literal : Bool) (indent : Nat) :
    Nat → Cursor → List Char → List Char → List Char → Bool →
      Option (Cursor × List Char × List Char × List Char)
  | 0, _, _, _, _, _ => none
  | fuel + 1, c, text, lineBreak, breaks, blankStart =>
      match c.peek with
      | none => some (c, text, lineBreak, breaks)
      | some ch =>
          if c.column ≠ indent then some (c, text, lineBreak, breaks)
          else do
            let startsBlank := isBlank ch
            let gap :=
              if !literal && lineBreak == ['\n'] && !blankStart && !startsBlank then
                (if breaks.isEmpty then [' '] else breaks)
              else breaks ++ lineBreak
            let line := c.rest.takeWhile (fun d => !isBreak d)
            let c := c.skipN line.length
            let (b, c) := c.skipBreak
            let (c, more, _) ← blockBreaks indent (c.bound + 1) c [] 0
            blockLines literal indent fuel c (line.reverse ++ (gap ++ text)) b more
              startsBlank

/-- A block scalar after its `|` or `>`. -/
def blockScalar (literal : Bool) (c : Cursor) : Option (String × Cursor) := do
  let (chomping, width, c) ← blockHeader c
  let c := c.skipWhile isBlank
  let c := if c.peek = some '#' then c.skipWhile (fun d => !isBreak d) else c
  if !isGap c.peek then none
  else
    let (_, c) := c.skipBreak
    let known := match width with
      | some w => if 0 ≤ c.indent then c.indent.toNat + w else w
      | none => 0
    let (c, breaks, deepest) ← blockBreaks known (c.bound + 1) c [] 0
    let indent := if known ≠ 0 then known else max (max deepest (c.indent + 1).toNat) 1
    let (c, text, lineBreak, breaks) ←
      blockLines literal indent (c.bound + 1) c [] [] breaks false
    let text := match chomping with
      | .strip => text
      | .clip => lineBreak ++ text
      | .keep => breaks ++ (lineBreak ++ text)
    some (String.ofList text.reverse, c)

end Clearance.Yaml
