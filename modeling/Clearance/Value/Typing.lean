import Clearance.Double.Notation
import Clearance.Text.Combining
import Clearance.Text.Invisible
import Clearance.Value.Basic

/-!
# Types and texts of values

A value has one type name, and is an instance of that type and of some others. Hosts
say so for their own objects; that is all a `Typing` holds. The text of a value, which
messages quote, shows an object by its type name only.

The exact text has strings between quotes from which they can be told: quotes,
backslashes and the common controls are escaped by a letter, and whatever could not be
seen in print, or would be drawn onto its neighbour, by its number.
-/

namespace Clearance

/-- What hosts say about the types of their objects. -/
structure Typing where
  typeName : Handle → String
  /-- Whether an object is of the named type, its own or one it descends from. -/
  isInstanceOf : Handle → String → Bool := fun h t => typeName h == t

def Object.typeName (t : Typing) : Object → String
  | .host h => t.typeName h
  | .record _ => Record.typeName

/-- Whether an object is of the named type, in its own judgement. -/
def Object.isInstanceOf (t : Typing) : Object → String → Bool
  | .host h, name => t.isInstanceOf h name
  | .record _, name => name == Record.typeName

namespace Text

/-- A character by its number, in lower-case hexadecimal digits. -/
def byNumber (c : Char) : List Char :=
  ['\\', 'u', '\x7b'] ++ Nat.toDigits 16 c.toNat ++ ['\x7d']

/-- One character of a quoted text. -/
def quotedChar (c : Char) : List Char :=
  if c.toNat = 0 then ['\\', '0']
  else if c = '\t' then ['\\', 't']
  else if c = '\r' then ['\\', 'r']
  else if c = '\n' then ['\\', 'n']
  else if c = '\x22' ∨ c = '\\' then ['\\', c]
  else if c.toNat < 0x20 ∨ c.toNat = 0x7F then byNumber c
  else if c.toNat < 0x7F then [c]
  else if isCombining c || isInvisible c then byNumber c
  else [c]

def quoted (s : String) : String :=
  String.ofList ('\x22' :: (s.toList.flatMap quotedChar ++ ['\x22']))

end Text

namespace Value

/-- The type of a value. -/
def typeName (t : Typing) : Value → String
  | .null => "null"
  | .bool _ => "bool"
  | .int _ => "int"
  | .float _ => "float"
  | .string _ => "string"
  | .list _ => "array"
  | .object o => o.typeName t

/-- Whether a value can be used where `name` is asked for. Nothing is converted: an
integer is no float, and a text is never a number. -/
def isInstanceOf (t : Typing) (v : Value) (name : String) : Bool :=
  name == mixed ||
    match v with
    | .null => name == "null"
    | .bool _ => name == "bool"
    | .int _ => name == "int"
    | .float _ => name == "float"
    | .string _ => name == "string"
    | .list _ => name == "array" || name == "iterable"
    | .object o => name == "object" || o.isInstanceOf t name

mutual

/-- The text of a value. -/
def text (t : Typing) : Value → String
  | .null => "null"
  | .bool b => if b then "true" else "false"
  | .int n => toString n.toInt
  | .float d => d.plainText
  | .string s => s
  | .list items => "[" ++ String.intercalate ", " (texts t items) ++ "]"
  | .object o => o.typeName t

/-- The texts of the items of a list. -/
def texts (t : Typing) : List Value → List String
  | [] => []
  | v :: rest => text t v :: texts t rest

end

mutual

/-- A text from which a value other than an object can be told exactly. -/
def exactText (t : Typing) : Value → String
  | .null => "Null"
  | .bool b => if b then "Bool(true)" else "Bool(false)"
  | .int n => "Int(" ++ toString n.toInt ++ ")"
  | .float d => "Float(" ++ d.exactText ++ ")"
  | .string s => "String(" ++ Text.quoted s ++ ")"
  | .list items => "List([" ++ String.intercalate ", " (exactTexts t items) ++ "])"
  | .object o => "Object(" ++ o.typeName t ++ ")"

/-- The exact texts of the items of a list. -/
def exactTexts (t : Typing) : List Value → List String
  | [] => []
  | v :: rest => exactText t v :: exactTexts t rest

end

end Value

end Clearance
