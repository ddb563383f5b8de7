import Clearance.Json.Number

/-!
# Reading JSON

`Json.parse` reads the text of one document and nothing else around it but blanks. It
is strict: no leading zeros, no control characters inside a string, no half of a
surrogate pair. Of two members with one name the later counts. Maps and arrays nest at
most `maxDepth` deep.

Each reader takes the text and answers what it read together with the rest.
-/

namespace Clearance.Json

/-- How deep arrays and maps may be nested. -/
def maxDepth : Nat := 127

/-- The four blanks that may stand between tokens. -/
def isBlank (c : Char) : Bool := c == ' ' || c == '\n' || c == '\t' || c == '\r'

def codeUnit? : List Char → Option (Nat × List Char)
  | a :: b :: c :: d :: rest => do
      let a ← hexValue? a
      let b ← hexValue? b
      let c ← hexValue? c
      let d ← hexValue? d
      some (((a * 16 + b) * 16 + c) * 16 + d, rest)
  | _ => none

/-- The character after `\u`: one unit, or a high and a low surrogate. -/
def escapedUnit? (s : List Char) : Option (Char × List Char) := do
  let (u, rest) ← codeUnit? s
  if 0xD800 ≤ u ∧ u ≤ 0xDBFF then
    match rest with
    | '\\' :: 'u' :: rest =>
        let (v, rest) ← codeUnit? rest
        if 0xDC00 ≤ v ∧ v ≤ 0xDFFF then
          some (Char.ofNat (0x10000 + (u - 0xD800) * 0x400 + (v - 0xDC00)), rest)
        else none
    | _ => none
  else if 0xDC00 ≤ u ∧ u ≤ 0xDFFF then none
  else some (Char.ofNat u, rest)

/-- The character after a backslash, other than `u`. -/
def escaped? : Char → Option Char
  | '\x22' => some '\x22'
  | '\\' => some '\\'
  | '/' => some '/'
  | 'b' => some '\x08'
  | 'f' => some '\x0c'
  | 'n' => some '\n'
  | 'r' => some '\r'
  | 't' => some '\t'
  | _ => none

/-- The rest of a string, whose characters so far are `acc`, last first. -/
def stringTail (fuel : Nat) (acc : List Char) (s : List Char) :
    Option (String × List Char) :=
  match fuel with
  | 0 => none
  | fuel + 1 =>
      match s with
      | [] => none
      | '\x22' :: rest => some (String.ofList acc.reverse, rest)
      | '\\' :: 'u' :: rest => do
          let (c, rest) ← escapedUnit? rest
          stringTail fuel (c :: acc) rest
      | '\\' :: c :: rest => do
          let c ← escaped? c
          stringTail fuel (c :: acc) rest
      | c :: rest => if c.toNat < 0x20 then none else stringTail fuel (c :: acc) rest

mutual

/-- One value, after blanks. -/
def value (fuel depth : Nat) (s : List Char) : Option (Json × List Char) :=
  match fuel with
  | 0 => none
  | fuel + 1 =>
      match s.dropWhile isBlank with
      | 'n' :: 'u' :: 'l' :: 'l' :: rest => some (.null, rest)
      | 't' :: 'r' :: 'u' :: 'e' :: rest => some (.bool true, rest)
      | 'f' :: 'a' :: 'l' :: 's' :: 'e' :: rest => some (.bool false, rest)
      | '\x22' :: rest => do
          let (text, rest) ← stringTail (rest.length + 1) [] rest
          some (.string text, rest)
      | '[' :: rest =>
          match depth with
          | 0 => none
          | depth + 1 =>
              match rest.dropWhile isBlank with
              | ']' :: rest => some (.array [], rest)
              | rest => items fuel depth [] rest
      | '\x7b' :: rest =>
          match depth with
          | 0 => none
          | depth + 1 =>
              match rest.dropWhile isBlank with
              | '\x7d' :: rest => some (.object [], rest)
              | rest => members fuel depth [] rest
      | rest => number rest

/-- The items of an array from the next one on; `acc` are those before, last first. -/
def items (fuel depth : Nat) (acc : List Json)
    (s : List Char) : Option (Json × List Char) :=
  match fuel with
  | 0 => none
  | fuel + 1 => do
      let (item, rest) ← value fuel depth s
      match rest.dropWhile isBlank with
      | ',' :: rest => items fuel depth (item :: acc) rest
      | ']' :: rest => some (.array (item :: acc).reverse, rest)
      | _ => none

/-- The members of a map from the next one on; `acc` are those before. -/
def members (fuel depth : Nat) (acc : List (String × Json)) (s : List Char) :
    Option (Json × List Char) :=
  match fuel with
  | 0 => none
  | fuel + 1 =>
      match s.dropWhile isBlank with
      | '\x22' :: rest => do
          let (name, rest) ← stringTail (rest.length + 1) [] rest
          match rest.dropWhile isBlank with
          | ':' :: rest =>
              let (item, rest) ← value fuel depth rest
              let acc := Entries.insert name item acc
              match rest.dropWhile isBlank with
              | ',' :: rest => members fuel depth acc rest
              | '\x7d' :: rest => some (.object acc, rest)
              | _ => none
          | _ => none
      | _ => none

end

def parse (text : String) : Option Json := do
  let s := text.toList
  let (doc, rest) ← value (2 * s.length + 2) maxDepth s
  if (rest.dropWhile isBlank).isEmpty then some doc else none

end Clearance.Json
