import Clearance.Value.Typing

/-!
# Signatures

A signature is the list of parameters of something that can be called. A parameter
without types, or with `mixed` among them, accepts anything; a nullable one accepts
null besides its types.
-/

namespace Clearance

/-- One parameter of something that can be called. -/
structure Parameter where
  name : String
  /-- The types it accepts; none means all. -/
  types : List String := []
  /-- What is passed where nothing is supplied. -/
  fallback : Option Value := none
  nullable : Bool := false

namespace Parameter

def isOptional (p : Parameter) : Bool := p.fallback.isSome || p.nullable

def acceptsAnything (p : Parameter) : Bool := p.types.isEmpty || p.types.contains mixed

/-- Whether a value can be passed as it is. -/
def accepts (t : Typing) (p : Parameter) (v : Value) : Bool :=
  (v.isNull && p.nullable) || p.acceptsAnything || p.types.any (v.isInstanceOf t)

/-- What is passed where nothing is supplied to an optional parameter: its own value,
or null. -/
def standIn (p : Parameter) : Value := p.fallback.getD .null

end Parameter

/-- The parameters of something that can be called, in order. -/
structure Signature where
  parameters : List Parameter := []

def Signature.isAllOptional (s : Signature) : Bool :=
  s.parameters.all Parameter.isOptional

end Clearance
