/-!
# Policies

A policy is one condition under which a target is granted. Two kinds are no conditions
but modify the list they stand in: `resource` says which object the others are about,
and `allOrNothing` that all of them must grant instead of any. A policy of a kind that
is not known is kept as `unrecognized`, so that it can be refused when it is met.
-/

namespace Clearance

/-- A condition, or a modifier of the list it stands in. -/
inductive Policy where
  | allow (reason : Option String)
  | deny (reason : Option String)
  /-- A subject has the role. -/
  | role (role : String)
  /-- A subject has the permission. -/
  | permission (permission : String)
  /-- A method of the resource says so. -/
  | method (call : String)
  /-- A service says so. -/
  | service (call : String)
  /-- The resource of the list is the one of this type with the identifier read from
  the current one. -/
  | resource (type accessor : String)
  /-- The policies of another type say so. -/
  | delegate (type : String)
  | allOrNothing
  | unrecognized
deriving DecidableEq

namespace Policy

/-- Whether the policy modifies its list instead of deciding. -/
def isModifier : Policy → Bool
  | .resource _ _ => true
  | .allOrNothing => true
  | _ => false

def isResource : Policy → Bool
  | .resource _ _ => true
  | _ => false

def kind : Policy → String
  | .allow _ => "allow"
  | .deny _ => "deny"
  | .role _ => "role"
  | .permission _ => "permission"
  | .method _ => "method"
  | .service _ => "service"
  | .resource _ _ => "resource"
  | .delegate _ => "delegate"
  | .allOrNothing => "all_or_nothing"
  | .unrecognized => "unrecognized"

def text : Policy → String
  | .allow reason => "Allow(" ++ reason.getD "No reason" ++ ")"
  | .deny reason => "Deny(" ++ reason.getD "No reason" ++ ")"
  | .role r => s!"Role({r})"
  | .permission p => s!"Permission({p})"
  | .method call => s!"Method({call})"
  | .service call => s!"Service({call})"
  | .resource type accessor => s!"Resource({type}, {accessor})"
  | .delegate type => s!"Delegate({type})"
  | .allOrNothing => "AllOrNothing"
  | .unrecognized => "Unrecognized"

end Policy

end Clearance
