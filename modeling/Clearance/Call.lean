import Clearance.Error
import Clearance.Text.Blank
import Clearance.Text.Split

/-!
# Calls

A policy names the decision it asks for as a call: a method, perhaps of a named
service, and the arguments to pass. An argument is passed under its name; it may be
taken from a value that goes by another name, its key, and it may be a property of
that value.

`Call.parse` reads what `Call.text` writes, and the same with blanks between the parts.
Names of methods and services are runs of any characters but parentheses, dots and
blanks; the names in an argument are runs of ASCII letters, digits and underscores.

The text is taken apart from the outside in: first the callee and what stands between
the parentheses, then the pieces of each. The callee is judged before the arguments,
and the arguments in order.
-/

namespace Clearance

/-- One argument of a call, written `name[: key][.property]`. -/
structure CallArgument where
  name : String
  /-- Under which name the value is found, if it is not the argument's own. -/
  key : Option String := none
  /-- Which property of the value is meant, if it is not the value itself. -/
  property : Option String := none
deriving DecidableEq

namespace CallArgument

/-- Under which name the value is found. -/
def contextKey (a : CallArgument) : String := a.key.getD a.name

def text (a : CallArgument) : String :=
  a.name ++ (match a.key with | some k => ": " ++ k | none => "") ++
    (match a.property with | some p => "." ++ p | none => "")

end CallArgument

/-- A call, written `[service.]method(argument, …)`. -/
structure Call where
  service : Option String := none
  method : String
  arguments : List CallArgument := []
deriving DecidableEq

def Call.text (c : Call) : String :=
  (match c.service with | some s => s ++ "." | none => "") ++ c.method ++ "(" ++
    String.intercalate ", " (c.arguments.map CallArgument.text) ++ ")"

/-! ## Reading -/

namespace Call

/-- A character that a callee is made of. -/
def isCalleeChar (c : Char) : Bool := !(c == '(' || c == ')' || Text.isBlank c)

/-- A character that the names in an argument are made of. -/
def isNameChar (c : Char) : Bool := c.isAlphanum || c == '_'

/-- The callee, and the text between the opening parenthesis after it and the closing
one that ends the call. -/
def outline? (s : List Char) : Option (List Char × List Char) :=
  let s := Text.trim s
  let callee := s.takeWhile isCalleeChar
  match Text.trimLeft (s.dropWhile isCalleeChar) with
  | '(' :: rest =>
      if !callee.isEmpty && rest.getLast? == some ')' then some (callee, rest.dropLast)
      else none
  | _ => none

/-- A method alone, or a service and its method. -/
def splitCallee? (callee : List Char) : Option (Option String × String) :=
  match Text.split '.' callee with
  | [m] => if m.isEmpty then none else some (none, String.ofList m)
  | [s, m] =>
      if s.isEmpty || m.isEmpty then none
      else some (some (String.ofList s), String.ofList m)
  | _ => none

def name (s : List Char) : Except AccessError String :=
  let s := Text.trim s
  if s.isEmpty then throw (.configuration .emptyParameterName)
  else if s.all isNameChar then pure (String.ofList s)
  else throw (.configuration (.invalidParameterName (String.ofList s)))

/-- A name, and perhaps a property after a dot. -/
def nameAndProperty (s : List Char) : Except AccessError (String × Option String) :=
  match Text.splitFirst? '.' s with
  | some (key, property) => do
      let key ← name key
      let property ← name property
      pure (key, some property)
  | none => do
      let key ← name s
      pure (key, none)

def argument (s : List Char) : Except AccessError CallArgument :=
  let s := Text.trim s
  if s.isEmpty then throw (.configuration .emptyParameterName)
  else
    match Text.splitFirst? ':' s with
    | some (own, source) => do
        let own ← name own
        let (key, property) ← nameAndProperty source
        pure { name := own, key := some key, property }
    | none => do
        let (own, property) ← nameAndProperty s
        pure { name := own, property }

/-- The arguments between the parentheses; blanks alone are no argument. -/
def arguments? (s : List Char) : Except AccessError (List CallArgument) :=
  let s := Text.trim s
  if s.isEmpty then pure [] else (Text.split ',' s).mapM argument

def parseChars (s : List Char) : Except AccessError Call :=
  match outline? s with
  | none => throw (.configuration .malformedCall)
  | some (callee, inner) =>
      match splitCallee? callee with
      | none => throw (.configuration .malformedCall)
      | some (service, method) => do
          let arguments ← arguments? inner
          pure { service, method, arguments }

def parse (text : String) : Except AccessError Call := parseChars text.toList

end Call

end Clearance
