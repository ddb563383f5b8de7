import Clearance.Decision.Dispatch
import Clearance.Decision.Target

/-!
# Checking a target

The questions an engine answers. A check loads the policies of its target and decides
them; the subjects located on the way are forgotten when it ends, while the caches
and the world outside remain as they are then. A check whose evaluation never ends
has no answer.
-/

namespace Clearance

/-- What remains from one check to the next. -/
structure Session (σ : Type) where
  world : σ
  caches : SubjectCaches := .empty

/-- A question to an engine, answered or failed, if it ever ends. -/
abbrev Question (σ α : Type) := Session σ → Option (Except AccessError α × Session σ)

namespace Evaluation

variable {σ : Type}

/-- The evaluation at the beginning of a check. -/
def start (s : Session σ) : Evaluation σ := { world := s.world, caches := s.caches }

/-- What remains of an evaluation when its check ends. -/
def session (s : Evaluation σ) : Session σ := { world := s.world, caches := s.caches }

end Evaluation

namespace Engine

variable {σ : Type} (e : Engine σ)

/-- The policies that are declared for a target. -/
def policiesOf : Target → Act σ (List Policy)
  | .instance o => e.loader.loadType (o.typeName e.typing)
  | .method receiver name => e.loader.loadMethod (receiver.typeName e.typing) name
  | .function name => e.loader.loadFunction name

/-- Whether the current subjects may access a target. -/
def check (target : Target) (ctx : Context) : Question σ Bool := fun s =>
  match Step.ofAct (e.policiesOf target) (.start s) with
  | (.ok ps, s) =>
      (e.decideList ctx (target.origin e.typing) ps target.resource s).map
        fun (r, s) => (r, s.session)
  | (.error err, s) => some (e.contained false (.error err), s.session)

def isGranted (o : Object) (ctx : Context) : Question σ Bool :=
  e.check (.instance o) ctx

def isMethodGranted (receiver : Receiver) (method : String)
    (ctx : Context) : Question σ Bool :=
  e.check (.method receiver method) ctx

def isFunctionGranted (function : String) (ctx : Context) : Question σ Bool :=
  e.check (.function function) ctx

/-- The first current subject that is an object of a type, in its own judgement. -/
def currentSubject (type : String) : StateM σ (Option Value) := do
  let subjects ← e.subjects.find
  pure (subjects.find? fun v =>
    match v with
    | .object o => o.isInstanceOf e.typing type
    | _ => false)

end Engine

end Clearance
