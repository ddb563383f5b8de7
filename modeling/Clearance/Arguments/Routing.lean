import Clearance.Arguments.Binding
import Clearance.Call

/-!
# Routing arguments

What is supplied goes by the names of the context; what a call passes goes by the names
of its parameters. `Call.route` brings the first to the second, one argument after the
other. An argument with a key receives a copy of what goes by that key, which must not
be there under the argument's own name already. An argument with a property is then
replaced by that property of it; of candidates, those that are no objects are dropped.
-/

namespace Clearance

/-- The property of each candidate that is an object, from candidate number `n` on. -/
def readCandidates {σ : Type} (host : Host σ) (name property : String) :
    Nat → List Value → Act σ (List Value)
  | _, [] => pure []
  | n, .object o :: rest => do
      let v ← o.read host (.candidate name n) property
      let vs ← readCandidates host name property (n + 1) rest
      pure (v :: vs)
  | n, _ :: rest => readCandidates host name property (n + 1) rest

/-- A property of what is supplied under `name`. -/
def Supply.property {σ : Type} (host : Host σ) (name property : String) :
    Supply → Act σ Supply
  | .plain (.object o) => do
      let v ← o.read host (.argument name) property
      pure (.plain v)
  | .plain _ => throw (.runtime (.propertyOfNonObject name property))
  | .choices candidates => do
      let vs ← readCandidates host name property 0 candidates
      pure (.choices vs)

namespace CallArgument

/-- Copies what goes by the argument's key to its name. -/
def copyKey (a : CallArgument) (args : Arguments) : Except AccessError Arguments :=
  match a.key with
  | none => pure args
  | some key =>
      match args.get? key with
      | none => pure args
      | some s =>
          if args.contains a.name then
            throw (.runtime (.overriddenArgument a.name key))
          else pure (args.insert a.name s)

/-- Replaces what goes by the argument's name by its property. -/
def takeProperty {σ : Type} (host : Host σ) (a : CallArgument) (args : Arguments) :
    Act σ Arguments :=
  match a.property with
  | none => pure args
  | some property =>
      match args.get? a.name with
      | none => pure args
      | some s => do
          let s ← s.property host a.name property
          pure (args.insert a.name s)

/-- Brings one argument to its name. -/
def route {σ : Type} (host : Host σ) (a : CallArgument) (args : Arguments) :
    Act σ Arguments := do
  let args ← Act.ofExcept (a.copyKey args)
  a.takeProperty host args

end CallArgument

/-- Brings the arguments of a call to their names, in the order in which they
are written. -/
def Call.route {σ : Type} (host : Host σ) (c : Call)
    (args : Arguments) : Act σ Arguments :=
  c.arguments.foldlM (fun args a => a.route host args) args

end Clearance
