import Clearance.Error
import Clearance.Signature

/-!
# Hosts

The application whose objects are guarded is the host. A `Directory` says what can be
learned about an object without doing anything: its types, properties and methods.
Calling a method is an act: it may change the state `σ` of the host and of the
collaborators, and it may fail. An act that fails has still happened, so the state is
there after a failure too.
-/

namespace Clearance

/-- Something that may change the state of the world and may fail. -/
abbrev Act (σ : Type) := ExceptT AccessError (StateM σ)

theorem Act.bind_ok {σ α β : Type} {x : Act σ α} {f : α → Act σ β} {w w₁ : σ} {a : α}
    (h : x w = (.ok a, w₁)) : (x >>= f) w = f a w₁ := by
  show ExceptT.bindCont f (x w).1 (x w).2 = f a w₁
  rw [h]
  rfl

theorem Act.bind_error {σ α β : Type} {x : Act σ α} {f : α → Act σ β} {w w₁ : σ}
    {err : AccessError} (h : x w = (.error err, w₁)) :
    (x >>= f) w = (.error err, w₁) := by
  show ExceptT.bindCont f (x w).1 (x w).2 = (.error err, w₁)
  rw [h]
  rfl

/-- What can be learned about the objects of a host. An object that says nothing of its
own has no properties and no methods. -/
structure Directory extends Typing where
  property : Handle → String → Option Value := fun _ _ => none
  /-- The signature of a method, if there is such a method. -/
  method : Handle → String → Option Signature := fun _ _ => none
  /-- A value holder answers every read itself. -/
  holder : Handle → Option (String → Value) := fun _ => none

/-- A host: its directory, and how its methods are called. -/
structure Host (σ : Type) extends Directory where
  call : Handle → String → List Value → Act σ Value

/-- The name of a method in messages. -/
def calleeName (type method : String) : String := type ++ "::" ++ method

/-- The error of calling a method that is not there. -/
def AccessError.missingMethod (type method : String) : AccessError :=
  .configuration (.missingMethod (calleeName type method))

namespace Object

def property (d : Directory) (place : Place) : Object → String → Option Value
  | .host h, name => d.property h name
  | .record r, name => r.member? place name

def method (d : Directory) : Object → String → Option Signature
  | .host h, name => d.method h name
  | .record _, _ => none

/-- How an object answers reads, if it answers them all itself. A record does: with
null for what it does not have. -/
def holder (d : Directory) (place : Place) : Object → Option (String → Value)
  | .host h => d.holder h
  | .record r => some fun name => (r.member? place name).getD .null

/-- Calls a method of an object with one value for each parameter. -/
def call {σ : Type} (host : Host σ) : Object → String → List Value → Act σ Value
  | .host h, name, args => host.call h name args
  | .record _, name, _ => throw (.missingMethod Record.typeName name)

/-- Reads a value from an object: the answer of a holder; else a property that is not
null; else the answer of a method that needs no arguments; else null. -/
def read {σ : Type} (host : Host σ) (place : Place) (o : Object) (name : String) :
    Act σ Value :=
  match o.holder host.toDirectory place with
  | some answer => pure (answer name)
  | none =>
      match o.property host.toDirectory place name with
      | some v => if v.isNull then byMethod else pure v
      | none => byMethod
where
  /-- The answer of the method `name`, if it needs no arguments. -/
  byMethod : Act σ Value :=
    match o.method host.toDirectory name with
    | some s =>
        if s.isAllOptional then o.call host name (s.parameters.map Parameter.standIn)
        else pure .null
    | none => pure .null

end Object

end Clearance
