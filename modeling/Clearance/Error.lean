/-!
# What can go wrong

A decision fails for a cause. Causes are of two kinds: a configuration fault lies in
what was declared or registered and can be met by denying, a runtime fault lies in the
values at hand and never can. `AccessError.message` is the only place where a cause
becomes text.
-/

namespace Clearance

/-- A fault in a set of declarations. -/
inductive DeclarationFault where
  | unreadable
  | malformed
  /-- More than one `Resource` policy in the list of one target. -/
  | duplicateResource (target : String)
  /-- A type that delegates to itself. -/
  | selfDelegation (type : String)
deriving DecidableEq

/-- A fault in what was declared or registered. -/
inductive ConfigurationFault where
  /-- Reported by a collaborator in its own words. -/
  | reported (text : String)
  /-- A call that is not of the form `[Service.]method(arguments)`. -/
  | malformedCall
  | emptyParameterName
  | invalidParameterName (name : String)
  /-- A method that the receiver does not have. -/
  | missingMethod (callee : String)
  | noRoleChecker
  | noPermissionChecker
  | noServiceLocator
  | noResourceLocator
  /-- A call that names a service, where a method of the resource is meant. -/
  | serviceInMethodPolicy
  | unknownService (call : String)
  /-- A modifier that was dispatched like a policy. -/
  | modifierDispatched (policy : String)
  /-- A policy of a kind that is not known. -/
  | unhandledPolicy (policy : String)
  | unknownType (type : String)
  /-- A delegation to a type that is already being evaluated, after the types
  of `chain`. -/
  | circularDelegation (chain : List String) (type : String)
  | identifierOnNonObject (type : String)
  | missingIdentifier (type accessor : String)
  | declarations (fault : DeclarationFault)
  /-- Settings that are not what they should be. -/
  | settings (detail : String)
deriving DecidableEq

/-- A fault in the values at hand. -/
inductive RuntimeFault where
  /-- Reported by a collaborator in its own words. -/
  | reported (text : String)
  /-- An argument that is given already and cannot be taken from `key` as well. -/
  | overriddenArgument (name key : String)
  | propertyOfNonObject (name property : String)
  /-- No candidate is of any of the types. -/
  | noCandidate (types : List String)
  | typeMismatch (callee : String) (position : Nat) (name : String)
      (types : List String) (given : String)
  | missingParameter (callee : String) (position : Nat) (name : String)
  | methodOnNonObject (type : String)
  | notBoolean (call given : String)
  /-- No resource of the type has the identifier, which is given as text. -/
  | resourceNotFound (type identifier : String)
deriving DecidableEq

/-- The cause of a failed decision. -/
inductive AccessError where
  | configuration (fault : ConfigurationFault)
  | runtime (fault : RuntimeFault)
deriving DecidableEq

def DeclarationFault.message : DeclarationFault → String
  | .unreadable => "cannot read policy file"
  | .malformed => "invalid static policy configuration"
  | .duplicateResource target => s!"{target} declares more than one Resource policy"
  | .selfDelegation type => s!"{type} cannot delegate to itself"

def ConfigurationFault.message : ConfigurationFault → String
  | .reported text => text
  | .malformedCall =>
      "Invalid service method expression: it must match: " ++
        "'[ServiceName.]methodName([param [, ...]])'"
  | .emptyParameterName => "Invalid service method expression: empty parameter name"
  | .invalidParameterName name =>
      s!"Invalid parameter name expression: invalid parameter name '{name}'"
  | .missingMethod callee => s!"'{callee}' method does not exist"
  | .noRoleChecker => "No RoleChecker is registered, cannot process Role policy"
  | .noPermissionChecker =>
      "No PermissionChecker is registered, cannot process Permission policy"
  | .noServiceLocator =>
      "No ServiceLocator is registered, cannot process Service policy"
  | .noResourceLocator =>
      "No ResourceLocator is registered, cannot process Resource policy"
  | .serviceInMethodPolicy =>
      "Cannot apply a service method call when using a Method policy"
  | .unknownService call => s!"No service locator was able to find the service {call}"
  | .modifierDispatched policy => s!"Modifier policy cannot be dispatched: {policy}"
  | .unhandledPolicy policy => s!"Unhandled policy: {policy}"
  | .unknownType type =>
      s!"Type or interface {type} does not exist, cannot process Delegate policy"
  | .circularDelegation chain type =>
      "Circular delegation: " ++ String.intercalate " -> " (chain ++ [type])
  | .identifierOnNonObject type =>
      s!"Cannot find the resource identifier on a non-object '{type}'"
  | .missingIdentifier type accessor =>
      s!"Could not find the resource identifier on {type}::{accessor}"
  | .declarations fault => fault.message
  | .settings detail => s!"invalid access control configuration: {detail}"

def RuntimeFault.message : RuntimeFault → String
  | .reported text => text
  | .overriddenArgument name key =>
      s!"Argument ${name} cannot be overridden from context argument '{key}'"
  | .propertyOfNonObject name property =>
      s!"Argument from context ${name} is not an object, cannot fetch property '{property}'"
  | .noCandidate types =>
      "Could not find value for given types '" ++ String.intercalate ", " types ++ "'"
  | .typeMismatch callee position name types given =>
      s!"Cannot call {callee}, type mismatch for parameter #{position} (${name}), " ++
        "expected one of '" ++ String.intercalate "', '" types ++
          s!"', '{given}' given"
  | .missingParameter callee position name =>
      s!"Cannot call {callee}, missing parameter #{position} (${name})"
  | .methodOnNonObject type =>
      s!"Cannot apply a Method policy on a non-object '{type}'"
  | .notBoolean call given => s!"{call} must return a boolean, '{given}' given"
  | .resourceNotFound type identifier =>
      s!"No resource locator was able to find the {type} typed object " ++
        s!"with identifier {identifier}"

namespace AccessError

def message : AccessError → String
  | .configuration fault => fault.message
  | .runtime fault => fault.message

/-- Whether the fault lies in what was declared or registered. -/
def isConfiguration : AccessError → Bool
  | .configuration _ => true
  | .runtime _ => false

end AccessError

end Clearance
