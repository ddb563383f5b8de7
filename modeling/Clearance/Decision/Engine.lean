import Clearance.Arguments.Routing
import Clearance.Call
import Clearance.Collaborator.Loader
import Clearance.Collaborator.Locators
import Clearance.Context
import Clearance.Settings

/-!
# The engine

An engine is a host, the collaborators it has registered, and its settings. While it
evaluates one target it keeps the state of an `Evaluation`: that of the world outside,
the subject caches, and the subjects once they have been located.

This module has the parts of an evaluation that are not about lists of policies: the
subjects, the arguments of a call, and the resource that a list is about.
-/

namespace Clearance

/-- An engine. The loader and the subject locator must be there, everything else
need not. -/
structure Engine (σ : Type) where
  host : Host σ
  loader : PolicyLoader σ
  subjects : SubjectLocator σ
  resources : Option (ResourceLocator σ) := none
  services : Option (ServiceLocator σ) := none
  roles : Option (Checker σ) := none
  permissions : Option (Checker σ) := none
  settings : Settings := {}

structure Evaluation (σ : Type) where
  world : σ
  caches : SubjectCaches
  /-- The subjects, once they have been located. -/
  located : Option (List Value) := none

/-- What comes out of an evaluation: an answer or an error, and the state it
ends in. -/
abbrev Outcome (σ α : Type) := Except AccessError α × Evaluation σ

def Step (σ α : Type) := Evaluation σ → Outcome σ α

namespace Step

variable {σ α β : Type}

instance : Monad (Step σ) where
  pure a := fun s => (.ok a, s)
  bind x f := fun s =>
    match x s with
    | (.ok a, s) => f a s
    | (.error err, s) => (.error err, s)

instance : MonadExcept AccessError (Step σ) where
  throw err := fun s => (.error err, s)
  tryCatch x f := fun s =>
    match x s with
    | (.error err, s) => f err s
    | r => r

def ofExcept (r : Except AccessError α) : Step σ α := fun s => (r, s)

/-- A step that only the world outside takes part in. -/
def ofWorld (act : StateM σ α) : Step σ α := fun s =>
  let (a, w) := act s.world
  (.ok a, { s with world := w })

/-- A step that only the world outside takes part in, and that may fail. -/
def ofAct (act : Act σ α) : Step σ α := fun s =>
  let (r, w) := act s.world
  (r, { s with world := w })

@[simp] theorem pure_apply (a : α) (s : Evaluation σ) :
    (pure a : Step σ α) s = (.ok a, s) := rfl

@[simp] theorem throw_apply (err : AccessError) (s : Evaluation σ) :
    (throw err : Step σ α) s = (.error err, s) := rfl

theorem bind_ok {x : Step σ α} {f : α → Step σ β} {s s₁ : Evaluation σ} {a : α}
    (h : x s = (.ok a, s₁)) : (x >>= f) s = f a s₁ := by
  simp only [bind, h]

theorem bind_error {x : Step σ α} {f : α → Step σ β} {s s₁ : Evaluation σ}
    {err : AccessError} (h : x s = (.error err, s₁)) :
    (x >>= f) s = (.error err, s₁) := by
  simp only [bind, h]

theorem ofAct_eq_iff {act : Act σ α} {r : Except AccessError α} {s s' : Evaluation σ} :
    ofAct act s = (r, s') ↔ ∃ w, act s.world = (r, w) ∧
      s' = { s with world := w } := by
  constructor
  · intro h
    obtain ⟨rfl, rfl⟩ := Prod.mk.inj h
    exact ⟨_, rfl, rfl⟩
  · rintro ⟨w, h, rfl⟩
    show ((act s.world).1, { s with world := (act s.world).2 }) = _
    rw [h]

theorem ofExcept_bind (r : Except AccessError α) (f : α → Step σ β)
    (s : Evaluation σ) :
    (ofExcept r >>= f) s =
      match r with
      | .ok a => f a s
      | .error err => (.error err, s) := by
  cases r <;> rfl

/-- A sequence fails where its first part fails, or its second. -/
theorem bind_eq_error {x : Step σ α} {f : α → Step σ β} {s s' : Evaluation σ}
    {err : AccessError} :
    (x >>= f) s = (.error err, s') ↔
      x s = (.error err, s') ∨ ∃ a s₁, x s = (.ok a, s₁) ∧
        f a s₁ = (.error err, s') := by
  rcases h : x s with ⟨err' | a, s₁⟩
  · rw [bind_error h]
    simp
  · rw [bind_ok h]
    constructor
    · exact fun hf => .inr ⟨a, s₁, rfl, hf⟩
    · rintro (hx | ⟨_, _, hx, hf⟩)
      · cases hx
      · cases hx
        exact hf

end Step

namespace Engine

variable {σ : Type} (e : Engine σ)

/-- What the host says about types. -/
abbrev typing : Typing := e.host.toTyping

/-- The subjects as the context's cache has them, or as the locator finds them. -/
def locate (ctx : Context) : StateM (σ × SubjectCaches) (List Value) :=
  let find : StateM (σ × SubjectCaches) (List Value) := fun s =>
    let (vs, w) := e.subjects.find s.1
    (vs, (w, s.2))
  match ctx.cache with
  | some id => (SubjectCaches.slot id).getOrInit find
  | none => find

/-- The subjects; they are located at most once in an evaluation. -/
def currentSubjects (ctx : Context) : Step σ (List Value) := fun s =>
  match s.located with
  | some vs => (.ok vs, s)
  | none =>
      let (vs, w, caches) := e.locate ctx (s.world, s.caches)
      (.ok vs, { world := w, caches, located := some vs })

/-- What goes by which name in a call: the subjects, the resource, and the values of
the context, none of which can take one of the first two names. -/
def contextArguments (ctx : Context) (resource : Value)
    (subjects : List Value) : Arguments :=
  let own : Arguments :=
    (Table.empty.insert "subject" (.choices subjects)).insert "resource"
      (.plain resource)
  ctx.values.entries.foldl (fun args p => args.insertIfAbsent p.1 (.plain p.2)) own

/-- The arguments for a call, under the names it passes them by. -/
def arguments (ctx : Context) (call : Call) (resource : Value) : Step σ Arguments := do
  let subjects ← e.currentSubjects ctx
  Step.ofAct (call.route e.host (contextArguments ctx resource subjects))

/-- An outcome in which a configuration fault is met by an answer instead, except in
debug mode. -/
def contained {α : Type} (answer : α) : Except AccessError α → Except AccessError α
  | .error (.configuration fault) =>
      if e.settings.debug then .error (.configuration fault) else .ok answer
  | r => r

/-- A step in which configuration faults are contained. -/
def contain {α : Type} (answer : α) (step : Step σ α) : Step σ α := fun s =>
  let (r, s') := step s
  (e.contained answer r, s')

/-- The resource of a type whose identifier is read from the current resource. -/
def tryLocate (type accessor : String) (resource : Value) : Step σ (Option Value) :=
  match e.resources with
  | none => throw (.configuration .noResourceLocator)
  | some locator =>
      match resource with
      | .object o => do
          let id ← Step.ofAct (o.read e.host .alone accessor)
          if id.isNull then
            throw (.configuration (.missingIdentifier (o.typeName e.typing) accessor))
          else
            let found ← Step.ofWorld (locator.load type id)
            match found.filter (fun v => !v.isNotFound) with
            | some v => pure (some v)
            | none =>
                if e.settings.debug then
                  throw (.runtime (.resourceNotFound type (id.text e.typing)))
                else pure none
      | v => throw (.configuration (.identifierOnNonObject (v.typeName e.typing)))

/-- The resource that a list of policies is about: the one its first `Resource` policy
names, or else the current one. Nothing if it cannot be located. -/
def resourceFor (ps : List Policy) (resource : Value) : Step σ (Option Value) :=
  match ps.find? Policy.isResource with
  | some (.resource type accessor) =>
      e.contain none (e.tryLocate type accessor resource)
  | _ => pure (some resource)

end Engine

end Clearance
