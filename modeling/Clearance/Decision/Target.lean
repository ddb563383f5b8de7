import Clearance.Value.Typing

/-!
# Targets

What a decision is about: an object, a method of an object or of a type, or a function.
-/

namespace Clearance

/-- Whose method is meant: an object's, or that of a type without an object. -/
inductive Receiver where
  | instance (o : Object)
  | type (name : String)

namespace Receiver

def typeName (t : Typing) : Receiver → String
  | .instance o => o.typeName t
  | .type name => name

/-- The receiver as a value: the object, or the name of the type. -/
def toValue : Receiver → Value
  | .instance o => .object o
  | .type name => .string name

end Receiver

/-- What a decision is about. -/
inductive Target where
  | instance (o : Object)
  | method (receiver : Receiver) (name : String)
  | function (name : String)

namespace Target

/-- The resource that is given with a target: the object, the receiver, or the name of
the function. -/
def resource : Target → Value
  | .instance o => .object o
  | .method receiver _ => receiver.toValue
  | .function name => .string name

/-- The chain that the delegations from a target start with. -/
def origin (t : Typing) : Target → List String
  | .instance o => [o.typeName t]
  | _ => []

def text (t : Typing) : Target → String
  | .instance o => o.typeName t
  | .method receiver name => receiver.typeName t ++ "::" ++ name
  | .function name => name ++ "()"

end Target

end Clearance
