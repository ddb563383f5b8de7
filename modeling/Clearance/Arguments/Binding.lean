import Clearance.Host
import Clearance.Table

/-!
# Binding arguments to parameters

Under each name either one value is supplied, or several candidates of which the called
parameter may choose: the subjects of a decision are supplied like that.

`bind` finds one value for each parameter of a signature, in order, and stops at the
first parameter that has none. A supplied value must be accepted as it is. Of several
candidates the parameter takes the one that fits its types best, in the order in which
it lists them. Only where nothing is supplied, or no candidate at all, is the
parameter's own value used, or null.
-/

namespace Clearance

/-- What is supplied under a name. -/
inductive Supply where
  | plain (v : Value)
  | choices (candidates : List Value)

/-- What is supplied, by name. -/
abbrev Arguments := Table Supply

namespace Supply

/-- The first candidate of the first type that any candidate is an instance of; without
types, the first candidate. -/
def choose? (t : Typing) (candidates : List Value)
    (types : List String) : Option Value :=
  if types.isEmpty then candidates.head?
  else types.findSome? fun type => candidates.find? (·.isInstanceOf t type)

/-- The candidate that fits the types, or the error that none does. -/
def choose (t : Typing) (candidates : List Value) (types : List String) :
    Except AccessError Value :=
  match choose? t candidates types with
  | some v => pure v
  | none => throw (.runtime (.noCandidate types))

end Supply

/-- The value that the parameter at a position, counted from one, is called with. -/
def Parameter.bind (t : Typing) (callee : String) (position : Nat) (p : Parameter) :
    Option Supply → Except AccessError Value
  | some (.plain v) =>
      if p.accepts t v then pure v
      else throw
        (.runtime (.typeMismatch callee position p.name p.types (v.typeName t)))
  | some (.choices (first :: others)) =>
      Supply.choose t (first :: others) (if p.acceptsAnything then [] else p.types)
  | _ =>
      match p.fallback with
      | some v => pure v
      | none =>
          if p.nullable then pure .null
          else throw (.runtime (.missingParameter callee position p.name))

/-- The values for the parameters from a position on. -/
def bindFrom (t : Typing) (callee : String) (args : Arguments) :
    Nat → List Parameter → Except AccessError (List Value)
  | _, [] => pure []
  | position, p :: ps => do
      let v ← p.bind t callee position (args.get? p.name)
      let vs ← bindFrom t callee args (position + 1) ps
      pure (v :: vs)

/-- The values for the parameters of a signature. -/
def Signature.bind (t : Typing) (callee : String) (s : Signature) (args : Arguments) :
    Except AccessError (List Value) :=
  bindFrom t callee args 1 s.parameters

/-- An act that does nothing but succeed or fail. -/
def Act.ofExcept {σ α : Type} (r : Except AccessError α) : Act σ α := fun s => (r, s)

/-- Something that can be called. -/
structure Callee (σ : Type) where
  /-- By which name it goes in messages. -/
  name : String
  /-- Nothing if it turns out that there is no such thing to call. -/
  signature : Option Signature
  invoke : List Value → Act σ Value

/-- Calls with the arguments that the signature asks for. -/
def Callee.callWith {σ : Type} (t : Typing) (c : Callee σ)
    (args : Arguments) : Act σ Value :=
  match c.signature with
  | none => throw (.configuration (.missingMethod c.name))
  | some s => do
      let bound ← Act.ofExcept (s.bind t c.name args)
      c.invoke bound

/-- A method of an object, which it may not have. -/
def Object.callee {σ : Type} (host : Host σ) (o : Object)
    (method : String) : Callee σ where
  name := calleeName (o.typeName host.toTyping) method
  signature := o.method host.toDirectory method
  invoke := o.call host method

/-- Calls a method of an object with the arguments its signature asks for. -/
def Object.callWith {σ : Type} (host : Host σ) (o : Object) (method : String)
    (args : Arguments) : Act σ Value :=
  (o.callee host method).callWith host.toTyping args

/-- A function of the host that can be called by a service's name or on its own. -/
structure ServiceMethod (σ : Type) where
  name : String
  signature : Signature
  invoke : List Value → Act σ Value

/-- A service method under the name of the call that it is found for. -/
def ServiceMethod.callee {σ : Type} (name : String)
    (m : ServiceMethod σ) : Callee σ where
  name := name
  signature := some m.signature
  invoke := m.invoke

/-- Invokes a service method with the arguments its signature asks for. -/
def ServiceMethod.callWith {σ : Type} (t : Typing) (name : String)
    (m : ServiceMethod σ) (args : Arguments) : Act σ Value :=
  (m.callee name).callWith t args

end Clearance
