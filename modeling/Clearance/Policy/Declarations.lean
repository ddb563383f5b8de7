import Clearance.Error
import Clearance.Policy.Codec
import Clearance.Yaml.Document

/-!
# Declared policies

The policies of an application can be declared in a document: for each type a list of
its own and one for each of its methods, and a list for each function.
`PolicyIndex.ofDeclarations` checks such declarations and makes them ready to be
looked up.
-/

namespace Clearance

/-- What is declared for a type. -/
structure TypePolicies where
  policies : List Policy := []
  methods : Table (List Policy) := .empty

/-- What is declared for an application. -/
structure Declarations where
  types : Table TypePolicies := .empty
  functions : Table (List Policy) := .empty

/-- How strict a document is read. -/
structure DocumentRules where
  kinds : KindRule
  /-- Whether the declarations may be an array of their two parts. -/
  arrayAtRoot : Bool
  /-- Whether an array may hold more than the parts there are. -/
  surplus : Bool

namespace DocumentRules

def json : DocumentRules := ⟨.named, true, false⟩

def yaml : DocumentRules := ⟨.numbered, false, true⟩

end DocumentRules

def readList {α : Type} (read : Json → Option α) : Json → Option (List α)
  | .array items => items.mapM read
  | _ => none

/-- Reads a map with values of one kind. -/
def readTable {α : Type} (read : Json → Option α) : Json → Option (Table α)
  | .object fields => do
      let pairs ← fields.mapM fun p => (read p.2).map (p.1, ·)
      some (Table.ofPairs pairs)
  | _ => none

/-- Reads a part that may be left out. -/
def readPart {α : Type} (read : Json → Option α) (absent : α) : Option Json → Option α
  | some j => read j
  | none => some absent

namespace TypePolicies

/-- Reads what is declared for a type. -/
def ofJson? (rules : DocumentRules) (j : Json) : Option TypePolicies := do
  let list := readList (Policy.ofJson? rules.kinds)
  let (policies, methods) ←
    match j with
    | .object fields =>
        if fields.all fun p => p.1 == "policies" || p.1 == "methods" then
          some (Entries.get? fields "policies", Entries.get? fields "methods")
        else none
    | .array parts =>
        if rules.surplus || decide (parts.length ≤ 2) then some (parts[0]?, parts[1]?)
        else none
    | _ => none
  let policies ← readPart list [] policies
  let methods ← readPart (readTable list) .empty methods
  some { policies, methods }

def listJson (ps : List Policy) : Json := .array (ps.map Policy.toJson)

def tableJson (t : Table (List Policy)) : Json :=
  .object (t.entries.map fun p => (p.1, listJson p.2))

def toJson (t : TypePolicies) : Json :=
  Json.ofPairs [("policies", listJson t.policies), ("methods", tableJson t.methods)]

end TypePolicies

namespace Declarations

def ofJson? (rules : DocumentRules) (j : Json) : Option Declarations := do
  let (types, functions) ←
    match j with
    | .object fields =>
        if fields.all fun p => p.1 == "types" || p.1 == "functions" then
          some (Entries.get? fields "types", Entries.get? fields "functions")
        else none
    | .array parts =>
        if rules.arrayAtRoot && (rules.surplus || decide (parts.length ≤ 2)) then
          some (parts[0]?, parts[1]?)
        else none
    | _ => none
  let types ← readPart (readTable (TypePolicies.ofJson? rules)) .empty types
  let functions ←
    readPart (readTable (readList (Policy.ofJson? rules.kinds))) .empty functions
  some { types, functions }

def toJson (d : Declarations) : Json :=
  Json.ofPairs
    [("types", .object (d.types.entries.map fun p => (p.1, p.2.toJson))),
      ("functions", TypePolicies.tableJson d.functions)]

/-- Reads the declarations in a YAML text. -/
def ofYaml? (text : String) : Except DeclarationFault Declarations :=
  match (Yaml.readMap text).bind fun fields => ofJson? .yaml (.object fields) with
  | some d => .ok d
  | none => .error .malformed

/-- Reads the declarations in a YAML file, given its text if there is such a file. -/
def ofYamlFile? : Option String → Except DeclarationFault Declarations
  | some text => ofYaml? text
  | none => .error .unreadable

end Declarations

/-- The error that a fault in the declarations is. -/
def AccessError.ofDeclarations (fault : DeclarationFault) : AccessError :=
  .configuration (.declarations fault)

/-- Refuses a second `Resource` policy in the list of one target. -/
def checkResources (target : String) (ps : List Policy) :
    Except DeclarationFault Unit :=
  if 1 < ps.countP Policy.isResource then throw (.duplicateResource target)
  else pure ()

/-- Checks what is declared for a type: its own list first, then its methods in the
order of their names. -/
def TypePolicies.check (type : String) (t : TypePolicies) :
    Except DeclarationFault Unit := do
  checkResources type t.policies
  if Policy.delegate type ∈ t.policies then throw (.selfDelegation type)
  t.methods.entries.forM fun m => checkResources (type ++ "::" ++ m.1) m.2

/-- Checks declarations: the types in the order of their names, then the functions. -/
def Declarations.check (d : Declarations) : Except DeclarationFault Unit := do
  d.types.entries.forM fun t => t.2.check t.1
  d.functions.entries.forM fun f => checkResources f.1 f.2

/-- Checked declarations, ready to be looked up. -/
structure PolicyIndex where
  declarations : Declarations

namespace PolicyIndex

/-- Checks declarations and makes them ready. -/
def ofDeclarations (d : Declarations) : Except DeclarationFault PolicyIndex := do
  d.check
  pure ⟨d⟩

def empty : PolicyIndex := ⟨{}⟩

def typePolicies (x : PolicyIndex) (type : String) : List Policy :=
  ((x.declarations.types.get? type).map (·.policies)).getD []

def methodPolicies (x : PolicyIndex) (type method : String) : List Policy :=
  ((x.declarations.types.get? type).bind (·.methods.get? method)).getD []

def functionPolicies (x : PolicyIndex) (function : String) : List Policy :=
  (x.declarations.functions.get? function).getD []

def typeExists (x : PolicyIndex) (type : String) : Bool :=
  x.declarations.types.contains type

end PolicyIndex

end Clearance
