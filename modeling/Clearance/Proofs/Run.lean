import Clearance.Decision.Check

/-!
# Runs of an evaluation

The evaluator answers with a decision and the state it ends in; what happened
on the way is gone. This file says it again as a relation that keeps it: a run
leads from a point of an evaluation to an outcome, past a list of events. An
event is one of three things: a policy is dispatched, the resource locator is
asked, an error arises where it arises first. Errors that are passed on or
contained are no events, so a theorem about events is one about the places
where errors come from.

A run is a finite derivation, so an evaluation that never ends has none. What
such an evaluation gets to is still of interest, and the second relation is
for that: `Reaches` leads from a point to a later point, which may be the last
one that is looked at. `Proofs.Adequacy` shows that the evaluator has an
outcome just if there is a run with it.
-/

namespace Clearance

/-- Something that happens in an evaluation. -/
inductive Event where
  /-- A policy is dispatched, after the delegations of a chain. -/
  | dispatched (chain : List String) (policy : Policy) (resource : Value)
  /-- The resource locator is asked, and this is its answer. -/
  | asked (type : String) (id : Value) (found : Option Value)
  | raised (err : AccessError)

/-- What an evaluation is about to do. -/
inductive Task where
  | list (policies : List Policy)
  /-- To combine the answers of the conditions that remain of a list. -/
  | rest (mode : Mode) (conditions : List Policy)
  | policy (p : Policy)

/-- A point of an evaluation: what is to be done, after which delegations, for
which resource and in which state. -/
structure Point (σ : Type) where
  chain : List String
  task : Task
  resource : Value
  state : Evaluation σ

namespace Engine

variable {σ : Type} (e : Engine σ) (ctx : Context)

/-- What the evaluator makes of a point. -/
def outcome (pt : Point σ) : Option (Outcome σ Bool) :=
  match pt.task with
  | .list ps => e.decideList ctx pt.chain ps pt.resource pt.state
  | .rest mode ps => e.combine ctx pt.chain mode ps pt.resource pt.state
  | .policy p => e.answer ctx pt.chain p pt.resource pt.state

/-! ## Where errors come from -/

/-- What can go wrong between the arguments of a call and its decision. -/
inductive CallFaults (call : Call) (resource : Value) (callee : Callee σ) :
    Evaluation σ → AccessError → Evaluation σ → Prop where
  | arguments {s s' err} (h : e.arguments ctx call resource s = (.error err, s')) :
      CallFaults call resource callee s err s'
  | missing {s s' args} (h : e.arguments ctx call resource s = (.ok args, s'))
      (hc : callee.signature = none) :
      CallFaults call resource callee s
        (.configuration (.missingMethod callee.name)) s'
  | binding {s s' args sig err} (h : e.arguments ctx call resource s = (.ok args, s'))
      (hc : callee.signature = some sig)
      (hb : sig.bind e.typing callee.name args = .error err) :
      CallFaults call resource callee s err s'
  | invocation {s s₁ s' args sig vs err}
      (h : e.arguments ctx call resource s = (.ok args, s₁))
      (hc : callee.signature = some sig)
      (hb : sig.bind e.typing callee.name args = .ok vs)
      (hi : Step.ofAct (callee.invoke vs) s₁ = (.error err, s')) :
      CallFaults call resource callee s err s'
  | answer {s s₁ s' args sig vs v}
      (h : e.arguments ctx call resource s = (.ok args, s₁))
      (hc : callee.signature = some sig)
      (hb : sig.bind e.typing callee.name args = .ok vs)
      (hi : Step.ofAct (callee.invoke vs) s₁ = (.ok v, s'))
      (hv : v.asBool? = none) :
      CallFaults call resource callee s
        (.runtime (.notBoolean call.text (v.typeName e.typing))) s'

/-- What can go wrong in answering a policy, delegations aside that come to a
list: the error, and the state in which it arises. -/
inductive Faults (chain : List String) :
    Policy → Value → Evaluation σ → AccessError → Evaluation σ → Prop where
  | noRoleChecker {r v s} (h : e.roles = none) :
      Faults chain (.role r) v s (.configuration .noRoleChecker) s
  | noPermissionChecker {n v s} (h : e.permissions = none) :
      Faults chain (.permission n) v s (.configuration .noPermissionChecker) s
  | methodOnNonObject {text v s} (h : v.asObject? = none) :
      Faults chain (.method text) v s
        (.runtime (.methodOnNonObject (v.typeName e.typing))) s
  | methodText {text o s err} (h : Call.parse text = .error err) :
      Faults chain (.method text) (.object o) s err s
  | methodOfService {text o s call} (h : Call.parse text = .ok call)
      (hs : call.service.isSome = true) :
      Faults chain (.method text) (.object o) s
        (.configuration .serviceInMethodPolicy) s
  | method {text o s call err s'} (h : Call.parse text = .ok call)
      (hs : call.service.isSome = false)
      (hf : e.CallFaults ctx call (.object o) (o.callee e.host call.method) s err s') :
      Faults chain (.method text) (.object o) s err s'
  | noServiceLocator {text v s} (h : e.services = none) :
      Faults chain (.service text) v s (.configuration .noServiceLocator) s
  | serviceText {text v s err l} (hl : e.services = some l)
      (h : Call.parse text = .error err) :
      Faults chain (.service text) v s err s
  | unknownService {text v s call s' l} (hl : e.services = some l)
      (h : Call.parse text = .ok call)
      (hf : Step.ofWorld (l.find call.method call.service) s = (.ok none, s')) :
      Faults chain (.service text) v s (.configuration (.unknownService call.text)) s'
  | service {text v s call s₁ m err s' l} (hl : e.services = some l)
      (h : Call.parse text = .ok call)
      (hf : Step.ofWorld (l.find call.method call.service) s = (.ok (some m), s₁))
      (hc : e.CallFaults ctx call v (m.callee call.text) s₁ err s') :
      Faults chain (.service text) v s err s'
  | unknownType {type v s s'}
      (h : Step.ofWorld (e.loader.typeExists type) s = (.ok false, s')) :
      Faults chain (.delegate type) v s (.configuration (.unknownType type)) s'
  | circular {type v s s'}
      (h : Step.ofWorld (e.loader.typeExists type) s = (.ok true, s'))
      (hc : type ∈ chain) :
      Faults chain (.delegate type) v s
        (.configuration (.circularDelegation chain type)) s'
  | load {type v s s₁ err s'}
      (h : Step.ofWorld (e.loader.typeExists type) s = (.ok true, s₁))
      (hc : type ∉ chain)
      (hl : Step.ofAct (e.loader.loadType type) s₁ = (.error err, s')) :
      Faults chain (.delegate type) v s err s'

/-- How the resource of a type is located, from an identifier of the current
resource: the events, what comes out, and the state afterwards. -/
inductive Locates (type accessor : String) : Value → Evaluation σ →
    List Event → Except AccessError (Option Value) → Evaluation σ → Prop where
  | noLocator {v s} (h : e.resources = none) :
      Locates type accessor v s [.raised (.configuration .noResourceLocator)]
        (.error (.configuration .noResourceLocator)) s
  | nonObject {v s l} (h : e.resources = some l) (hv : v.asObject? = none) :
      Locates type accessor v s
        [.raised (.configuration (.identifierOnNonObject (v.typeName e.typing)))]
        (.error (.configuration (.identifierOnNonObject (v.typeName e.typing)))) s
  | accessor {o s l err s'} (h : e.resources = some l)
      (hr : Step.ofAct (o.read e.host .alone accessor) s = (.error err, s')) :
      Locates type accessor (.object o) s [.raised err] (.error err) s'
  | nullIdentifier {o s l id s'} (h : e.resources = some l)
      (hr : Step.ofAct (o.read e.host .alone accessor) s = (.ok id, s'))
      (hi : id.isNull = true) :
      Locates type accessor (.object o) s
        [.raised (.configuration (.missingIdentifier (o.typeName e.typing) accessor))]
        (.error (.configuration (.missingIdentifier (o.typeName e.typing) accessor)))
          s'
  | found {o s l id s₁ v s'} (h : e.resources = some l)
      (hr : Step.ofAct (o.read e.host .alone accessor) s = (.ok id, s₁))
      (hi : id.isNull = false)
      (hl : Step.ofWorld (l.load type id) s₁ = (.ok (some v), s'))
      (hv : v.isNotFound = false) :
      Locates type accessor (.object o) s [.asked type id (some v)] (.ok (some v)) s'
  | notFound {o s l id s₁ a s'} (h : e.resources = some l)
      (hr : Step.ofAct (o.read e.host .alone accessor) s = (.ok id, s₁))
      (hi : id.isNull = false)
      (hl : Step.ofWorld (l.load type id) s₁ = (.ok a, s'))
      (hv : ∀ v, a = some v → v.isNotFound = true) (hd : e.settings.debug = false) :
      Locates type accessor (.object o) s [.asked type id a] (.ok none) s'
  | notFoundInDebug {o s l id s₁ a s'} (h : e.resources = some l)
      (hr : Step.ofAct (o.read e.host .alone accessor) s = (.ok id, s₁))
      (hi : id.isNull = false)
      (hl : Step.ofWorld (l.load type id) s₁ = (.ok a, s'))
      (hv : ∀ v, a = some v → v.isNotFound = true) (hd : e.settings.debug = true) :
      Locates type accessor (.object o) s
        [.asked type id a,
          .raised (.runtime (.resourceNotFound type (id.text e.typing)))]
        (.error (.runtime (.resourceNotFound type (id.text e.typing)))) s'

/-- How a list comes to the resource it is about: the one that is given, or the
one its first `resource` policy names, with configuration faults contained. -/
inductive Opens (ps : List Policy) (v : Value) (s : Evaluation σ) :
    List Event → Except AccessError (Option Value) → Evaluation σ → Prop where
  | given (h : ps.find? Policy.isResource = none) : Opens ps v s [] (.ok (some v)) s
  | located {type accessor evs r s'}
      (h : ps.find? Policy.isResource = some (.resource type accessor))
      (hl : e.Locates type accessor v s evs r s') :
      Opens ps v s evs (e.contained none r) s'

/-! ## Runs -/

/-- A run from a point, past events, to an answer or an error and a state. -/
inductive Runs :
    Point σ → List Event → Except AccessError Bool → Evaluation σ → Prop where
  | unconditional {chain ps v s} (h : ps.all Policy.isModifier = true) :
      Runs ⟨chain, .list ps, v, s⟩ [] (.ok (!e.settings.denyIfNoPolicies)) s
  | opened {chain ps v s evs v' s₁ evs' r s'} (h : ps.all Policy.isModifier = false)
      (ho : e.Opens ps v s evs (.ok (some v')) s₁)
      (hr : Runs ⟨chain, .rest (.ofList ps) (conditions ps), v', s₁⟩ evs' r s') :
      Runs ⟨chain, .list ps, v, s⟩ (evs ++ evs') r s'
  | unlocated {chain ps v s evs s'} (h : ps.all Policy.isModifier = false)
      (ho : e.Opens ps v s evs (.ok none) s') :
      Runs ⟨chain, .list ps, v, s⟩ evs (.ok false) s'
  | unopened {chain ps v s evs err s'} (h : ps.all Policy.isModifier = false)
      (ho : e.Opens ps v s evs (.error err) s') :
      Runs ⟨chain, .list ps, v, s⟩ evs (.error err) s'
  | done {chain mode v s} :
      Runs ⟨chain, .rest mode [], v, s⟩ [] (.ok (!mode.settling)) s
  | settled {chain mode p ps v s evs s'}
      (hp : Runs ⟨chain, .policy p, v, s⟩ evs (.ok mode.settling) s') :
      Runs ⟨chain, .rest mode (p :: ps), v, s⟩ evs (.ok mode.settling) s'
  | next {chain mode p ps v s evs s₁ evs' r s'}
      (hp : Runs ⟨chain, .policy p, v, s⟩ evs (.ok (!mode.settling)) s₁)
      (hr : Runs ⟨chain, .rest mode ps, v, s₁⟩ evs' r s') :
      Runs ⟨chain, .rest mode (p :: ps), v, s⟩ (evs ++ evs') r s'
  | failed {chain mode p ps v s evs err s'}
      (hp : Runs ⟨chain, .policy p, v, s⟩ evs (.error err) s') :
      Runs ⟨chain, .rest mode (p :: ps), v, s⟩ evs (.error err) s'
  | refused {chain p v s err s'} (hp : p.isRefused = true)
      (h : e.consult ctx p v s = (.error err, s')) :
      Runs ⟨chain, .policy p, v, s⟩ [.dispatched chain p v, .raised err]
        (.error err) s'
  | consulted {chain p v s b s'} (h : e.consult ctx p v s = (.ok b, s')) :
      Runs ⟨chain, .policy p, v, s⟩ [.dispatched chain p v] (.ok b) s'
  | faulted {chain p v s err s'} (h : e.Faults ctx chain p v s err s') :
      Runs ⟨chain, .policy p, v, s⟩ [.dispatched chain p v, .raised err]
        (e.contained false (.error err)) s'
  | delegated {chain type v s ps s₁ evs r s'}
      (h : e.delegated chain type s = (.ok ps, s₁))
      (hr : Runs ⟨chain ++ [type], .list ps, v, s₁⟩ evs r s') :
      Runs ⟨chain, .policy (.delegate type), v, s⟩
        (.dispatched chain (.delegate type) v :: evs) (e.contained false r) s'

/-- A run of a whole check: that of the list declared for its target, unless
the list cannot be loaded. -/
inductive Checks (target : Target) (s : Session σ) :
    List Event → Except AccessError Bool → Session σ → Prop where
  | unloaded {err s'}
      (h : Step.ofAct (e.policiesOf target) (.start s) = (.error err, s')) :
      Checks target s [.raised err] (e.contained false (.error err)) s'.session
  | loaded {ps s₁ evs r s'}
      (h : Step.ofAct (e.policiesOf target) (.start s) = (.ok ps, s₁))
      (hr : e.Runs ctx ⟨target.origin e.typing, .list ps, target.resource, s₁⟩
        evs r s') :
      Checks target s evs r s'.session

/-! ## Points that are reached -/

/-- An evaluation moves on from a point to the next, past events. -/
inductive Moves : Point σ → List Event → Point σ → Prop where
  | opens {chain ps v s evs v' s₁} (h : ps.all Policy.isModifier = false)
      (ho : e.Opens ps v s evs (.ok (some v')) s₁) :
      Moves ⟨chain, .list ps, v, s⟩ evs
        ⟨chain, .rest (.ofList ps) (conditions ps), v', s₁⟩
  | first {chain mode p ps v s} :
      Moves ⟨chain, .rest mode (p :: ps), v, s⟩ [] ⟨chain, .policy p, v, s⟩
  | next {chain mode p ps v s evs s₁}
      (hp : e.Runs ctx ⟨chain, .policy p, v, s⟩ evs (.ok (!mode.settling)) s₁) :
      Moves ⟨chain, .rest mode (p :: ps), v, s⟩ evs ⟨chain, .rest mode ps, v, s₁⟩
  | delegates {chain type v s ps s₁} (h : e.delegated chain type s = (.ok ps, s₁)) :
      Moves ⟨chain, .policy (.delegate type), v, s⟩
        [.dispatched chain (.delegate type) v] ⟨chain ++ [type], .list ps, v, s₁⟩

/-- An evaluation gets from a point to another, past events. -/
inductive Reaches : Point σ → List Event → Point σ → Prop where
  | refl {pt} : Reaches pt [] pt
  | step {pt evs pt₁ evs' pt'} (h : e.Moves ctx pt evs pt₁)
      (hs : Reaches pt₁ evs' pt') : Reaches pt (evs ++ evs') pt'

/-- The check of a target gets to a point, past events. -/
def Visits (target : Target) (s : Session σ) (evs : List Event)
    (pt : Point σ) : Prop :=
  ∃ ps s₁, Step.ofAct (e.policiesOf target) (.start s) = (.ok ps, s₁) ∧
    e.Reaches ctx ⟨target.origin e.typing, .list ps, target.resource, s₁⟩ evs pt

end Engine

end Clearance
