import Clearance.Decision.Engine

/-!
# Deciding lists of policies

How a list of policies is decided, and how a single policy of it is answered. By
default one policy that grants is enough, and the list is evaluated up to the first one
that does; with `allOrNothing` anywhere in the list every policy must grant, and it is
evaluated up to the first one that does not.

A configuration fault in answering a policy counts as "no", except in debug mode; but a
modifier must never get here, and a policy of an unknown kind is refused.

A `delegate` policy is answered by the list of another type. The types that have been
delegated to form a chain, and a type is not delegated to while it is on the chain. A
loader for which ever new types exist can still delegate without end, so a decision is
optional: there is none if the evaluation never ends.
-/

namespace Clearance

/-- How the answers of a list are combined. -/
inductive Mode where
  | any
  | all
deriving DecidableEq

namespace Mode

/-- The mode that a list asks for. -/
def ofList (ps : List Policy) : Mode := if Policy.allOrNothing ∈ ps then .all else .any

/-- The answer of one policy that decides for the list. -/
def settling : Mode → Bool
  | .any => true
  | .all => false

end Mode

/-- The policies of a list that are no modifiers. -/
def conditions (ps : List Policy) : List Policy := ps.filter fun p => !p.isModifier

/-- Whether a policy is refused when it is met, in debug mode and outside it: a
modifier must never be met, and a policy of an unknown kind has no answer. -/
def Policy.isRefused : Policy → Bool
  | .resource _ _ => true
  | .allOrNothing => true
  | .unrecognized => true
  | _ => false

namespace Engine

variable {σ : Type}

section Policies

variable (e : Engine σ)

/-- Whether the checker says yes to any of the subjects; those after the first are not
asked about. -/
def anySubject (checker : Checker σ) (name : String) : List Value → StateM σ Bool
  | [] => pure false
  | v :: vs => do
      if (← checker.holds v name) then pure true else anySubject checker name vs

/-- Whether any current subject passes the checker, which must be registered. -/
def answerChecked (ctx : Context) (checker : Option (Checker σ))
    (missing : ConfigurationFault) (name : String) : Step σ Bool :=
  match checker with
  | none => throw (.configuration missing)
  | some c => do
      let subjects ← e.currentSubjects ctx
      Step.ofWorld (anySubject c name subjects)

/-- The decision that a call answered with. -/
def expectDecision (call : Call) (v : Value) : Step σ Bool :=
  match v.asBool? with
  | some b => pure b
  | none => throw (.runtime (.notBoolean call.text (v.typeName e.typing)))

/-- The decision of something that is called with the arguments that a call names. -/
def decideCall (ctx : Context) (call : Call) (resource : Value) (callee : Callee σ) :
    Step σ Bool := do
  let args ← e.arguments ctx call resource
  let v ← Step.ofAct (callee.callWith e.typing args)
  e.expectDecision call v

def answerMethod (ctx : Context) (text : String) (resource : Value) : Step σ Bool :=
  match resource with
  | .object o => do
      let call ← Step.ofExcept (Call.parse text)
      if call.service.isSome then throw (.configuration .serviceInMethodPolicy)
      else e.decideCall ctx call resource (o.callee e.host call.method)
  | v => throw (.runtime (.methodOnNonObject (v.typeName e.typing)))

def answerService (ctx : Context) (text : String) (resource : Value) : Step σ Bool :=
  match e.services with
  | none => throw (.configuration .noServiceLocator)
  | some locator => do
      let call ← Step.ofExcept (Call.parse text)
      match (← Step.ofWorld (locator.find call.method call.service)) with
      | none => throw (.configuration (.unknownService call.text))
      | some m => e.decideCall ctx call resource (m.callee call.text)

/-- What a policy says that does not leave its answer to another list. -/
def consult (ctx : Context) (p : Policy) (resource : Value) : Step σ Bool :=
  match p with
  | .allow _ => pure true
  | .deny _ => pure false
  | .role r => e.answerChecked ctx e.roles .noRoleChecker r
  | .permission n => e.answerChecked ctx e.permissions .noPermissionChecker n
  | .method call => e.answerMethod ctx call resource
  | .service call => e.answerService ctx call resource
  | .resource _ _ => throw (.configuration (.modifierDispatched p.text))
  | .allOrNothing => throw (.configuration (.modifierDispatched p.text))
  | _ => throw (.configuration (.unhandledPolicy p.text))

/-- The list of a type that is delegated to, which must exist and must not be on
the chain. -/
def delegated (chain : List String) (type : String) : Step σ (List Policy) := do
  if (← Step.ofWorld (e.loader.typeExists type)) then
    if type ∈ chain then throw (.configuration (.circularDelegation chain type))
    else Step.ofAct (e.loader.loadType type)
  else throw (.configuration (.unknownType type))

end Policies

mutual

/-- The decision of a list of policies, after the delegations of a chain. A list
without conditions is decided by the settings, and a list whose resource cannot be
located is denied. -/
def decideList (e : Engine σ) (ctx : Context) (chain : List String) (ps : List Policy)
    (resource : Value) (s : Evaluation σ) : Option (Outcome σ Bool) :=
  if ps.all Policy.isModifier then some (.ok (!e.settings.denyIfNoPolicies), s)
  else
    match e.resourceFor ps resource s with
    | (.ok (some located), s) =>
        e |>.combine ctx chain (.ofList ps) (conditions ps) located s
    | (.ok none, s) => some (.ok false, s)
    | (.error err, s) => some (.error err, s)
partial_fixpoint

/-- Evaluates policies up to the first whose answer settles the decision. -/
def combine (e : Engine σ) (ctx : Context) (chain : List String) (mode : Mode)
    (ps : List Policy) (resource : Value)
    (s : Evaluation σ) : Option (Outcome σ Bool) :=
  match ps with
  | [] => some (.ok (!mode.settling), s)
  | p :: ps => do
      let (r, s) ← e |>.answer ctx chain p resource s
      match r with
      | .ok b =>
          if b = mode.settling then some (.ok b, s)
          else e |>.combine ctx chain mode ps resource s
      | .error err => some (.error err, s)
partial_fixpoint

def answer (e : Engine σ) (ctx : Context) (chain : List String) (p : Policy)
    (resource : Value) (s : Evaluation σ) : Option (Outcome σ Bool) := do
  let (r, s) ← e |>.handle ctx chain p resource s
  some (if p.isRefused then r else e.contained false r, s)
partial_fixpoint

/-- What a policy says, or the list it delegates to. -/
def handle (e : Engine σ) (ctx : Context) (chain : List String) (p : Policy)
    (resource : Value) (s : Evaluation σ) : Option (Outcome σ Bool) :=
  match p with
  | .delegate type =>
      match e.delegated chain type s with
      | (.ok ps, s) => e |>.decideList ctx (chain ++ [type]) ps resource s
      | (.error err, s) => some (.error err, s)
  | p => some (e.consult ctx p resource s)
partial_fixpoint

end

end Engine

end Clearance
