import Clearance.Json.Basic
import Clearance.Policy.Basic

/-!
# Policies as data

A policy is written as a map whose member `kind` names its kind, with one more member
for each of its fields. Reading is lenient about everything but that: the order of the
members and any other members do not matter, and a kind that is not known reads as
`unrecognized`, whatever else the map holds. A reason may be null or missing. Instead
of a map an array of the kind and the fields in order is understood; there, nothing may
follow that the kind does not have. Only integers of more than sixty-four bits are
refused wherever they stand in a policy.

Two sources of documents differ in one point: where a key is typed (`KindRule`), a
number can stand for the kind at that place in the list of kinds.
-/

namespace Clearance

/-- How a document names the kind of a policy. -/
inductive KindRule where
  | named
  | numbered
deriving DecidableEq

namespace Policy

/-- The kinds that have a meaning, in order. -/
def knownKinds : List String :=
  ["allow", "deny", "role", "permission", "method", "service", "resource", "delegate",
    "all_or_nothing"]

/-- The name of the kind that a document asks for. -/
def kindName? (rule : KindRule) : Json → Option String
  | .string s => some s
  | .integer n =>
      if rule = .numbered ∧ 0 ≤ n then some (knownKinds[n.toNat]?.getD "unrecognized")
      else none
  | _ => none

def textField? : Json → Option String
  | .string s => some s
  | _ => none

def reasonField? : Json → Option (Option String)
  | .null => some none
  | .string s => some (some s)
  | _ => none

/-- The policy of a kind, its fields looked up by `field?`. -/
def ofFields (field? : String → Option Json) (kind : String) : Option Policy :=
  let text (name : String) : Option String := (field? name).bind textField?
  let reason : Option (Option String) :=
    match field? "reason" with
    | some j => reasonField? j
    | none => some none
  match kind with
  | "allow" => reason.map .allow
  | "deny" => reason.map .deny
  | "role" => (text "role").map .role
  | "permission" => (text "permission").map .permission
  | "method" => (text "expression").map .method
  | "service" => (text "expression").map .service
  | "resource" => do
      let type ← text "resource_type"
      let accessor ← text "id_accessor"
      some (.resource type accessor)
  | "delegate" => (text "target_type").map .delegate
  | "all_or_nothing" => some .allOrNothing
  | _ => some .unrecognized

/-- The names of the fields of a kind, in order. -/
def fieldNames (kind : String) : List String :=
  match kind with
  | "allow" => ["reason"]
  | "deny" => ["reason"]
  | "role" => ["role"]
  | "permission" => ["permission"]
  | "method" => ["expression"]
  | "service" => ["expression"]
  | "resource" => ["resource_type", "id_accessor"]
  | "delegate" => ["target_type"]
  | _ => []

/-- Reads a policy whose integers all fit sixty-four bits. -/
def ofWords? (rule : KindRule) : Json → Option Policy
  | .object fields => do
      let kind ← kindName? rule (← Entries.get? fields "kind")
      ofFields (Entries.get? fields) kind
  | .array (first :: rest) => do
      let kind ← kindName? rule first
      let names := fieldNames kind
      if names.length < rest.length then none
      else ofFields (Entries.get? (names.zip rest)) kind
  | _ => none

def ofJson? (rule : KindRule) (j : Json) : Option Policy :=
  if j.hasWordsOnly then ofWords? rule j else none

/-- The members besides `kind`. -/
def fields : Policy → List (String × Json)
  | .allow reason => reason.toList.map fun r => ("reason", .string r)
  | .deny reason => reason.toList.map fun r => ("reason", .string r)
  | .role r => [("role", .string r)]
  | .permission p => [("permission", .string p)]
  | .method call => [("expression", .string call)]
  | .service call => [("expression", .string call)]
  | .resource type accessor =>
      [("resource_type", .string type), ("id_accessor", .string accessor)]
  | .delegate type => [("target_type", .string type)]
  | .allOrNothing => []
  | .unrecognized => []

def toJson (p : Policy) : Json := Json.ofPairs (("kind", .string p.kind) :: p.fields)

end Policy

end Clearance
