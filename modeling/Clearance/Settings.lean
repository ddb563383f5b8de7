import Clearance.Error
import Clearance.Text.Blank
import Clearance.Yaml.Document

/-!
# Settings

Two switches, which are off unless something turns them on: a YAML file, and over it
the environment. The variables are named like the settings after `variableStart`; the
case of a name does not matter, and variables with other names are none of ours. In the
file every name must be that of a setting. A setting must be a truth value where it is
taken from; what a later source overrides is not looked at.
-/

namespace Clearance

/-- How decisions are made where the policies leave it open. -/
structure Settings where
  /-- Report configuration faults instead of denying. -/
  debug : Bool := false
  /-- Deny a target without policies instead of granting it. -/
  denyIfNoPolicies : Bool := false
deriving DecidableEq

namespace Settings

/-- What the names of our variables start with. -/
def variableStart : List Char := "access_control_".toList

def names : List String := ["debug", "deny_if_no_policies"]

/-- The value of a variable. Only the two words for the truth values are any; ASCII
blanks around them do not matter. -/
def variableValue (text : String) : Json :=
  let s := String.ofList (Text.trimBy Text.isAsciiBlank text.toList)
  if s = "true" then .bool true
  else if s = "false" then .bool false
  else .string s

/-- The setting that a variable stands for. -/
def settingOf? (v : String) : Option String :=
  let s := (Text.trim v.toList).map Char.toLower
  if variableStart.isPrefixOf s then
    let name := String.ofList (s.drop variableStart.length)
    if names.contains name then some name else none
  else none

/-- What the environment sets, of two variables for one setting the later. -/
def ofEnvironment (vars : List (String × String)) : Entries Json :=
  Entries.ofPairs (vars.filterMap fun v => (settingOf? v.1).map (·, variableValue v.2))

/-- A switch, given what the sources say about it, the last word first. -/
def switch (name : String) (sources : List (Option Json)) : Except AccessError Bool :=
  match sources.findSome? id with
  | none => pure false
  | some (.bool b) => pure b
  | some _ => throw (.configuration (.settings (name ++ " must be true or false")))

/-- The settings from the text of a file, if there is one, and the variables of
the environment. -/
def load (file : Option String) (vars : List (String × String)) :
    Except AccessError Settings := do
  let fields ←
    match file with
    | none => pure []
    | some text =>
        match Yaml.readMap text with
        | some fields => pure fields
        | none => throw (.configuration (.settings "the file must hold a map"))
  let environment := ofEnvironment vars
  match fields.find? fun p => !names.contains p.1 with
  | some p => throw (.configuration (.settings ("unknown setting " ++ p.1)))
  | none =>
      let sources (name : String) :=
        [Entries.get? environment name, Entries.get? fields name]
      let debug ← switch "debug" (sources "debug")
      let denyIfNoPolicies ← switch "deny_if_no_policies"
        (sources "deny_if_no_policies")
      pure { debug, denyIfNoPolicies }

end Settings

end Clearance
