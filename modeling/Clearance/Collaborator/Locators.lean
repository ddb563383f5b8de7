import Clearance.Arguments.Binding
import Clearance.Context

/-!
# Locators

What is looked for outside of the policies: the current subjects, the resource with an
identifier, and the services that policies name. Each kind of locator can be put
together from others; a chain of locators asks its members in order, and stops as soon
as the answer is settled.
-/

namespace Clearance

variable {σ : Type}

/-- Finds the current subjects. -/
structure SubjectLocator (σ : Type) where
  find : StateM σ (List Value)

namespace SubjectLocator

def none : SubjectLocator σ := ⟨pure []⟩

/-- Always the same subjects. -/
def fixed (subjects : List Value) : SubjectLocator σ := ⟨pure subjects⟩

/-- The subjects that all members find, one after the other. -/
def findAll : List (SubjectLocator σ) → StateM σ (List Value)
  | [] => pure []
  | l :: ls => do
      let vs ← l.find
      let rest ← findAll ls
      pure (vs ++ rest)

/-- The subjects of all members without the nulls among them. -/
def chain (ls : List (SubjectLocator σ)) : SubjectLocator σ :=
  ⟨do
    let vs ← findAll ls
    pure (vs.filter fun v => !v.isNull)⟩

/-- The subjects that another locator finds when it is first asked. -/
def remember (slot : Slot σ (List Value)) (l : SubjectLocator σ) : SubjectLocator σ :=
  ⟨slot.getOrInit l.find⟩

end SubjectLocator

/-- Finds the resource of a type with an identifier. -/
structure ResourceLocator (σ : Type) where
  load : String → Value → StateM σ (Option Value)

namespace ResourceLocator

def none : ResourceLocator σ := ⟨fun _ _ => pure .none⟩

/-- The first answer that stands for something found. -/
def firstFound (type : String) (id : Value) :
    List (ResourceLocator σ) → StateM σ (Option Value)
  | [] => pure .none
  | l :: ls => do
      match (← l.load type id).filter (fun v => !v.isNotFound) with
      | some v => pure (some v)
      | .none => firstFound type id ls

/-- The first member that finds something. -/
def chain (ls : List (ResourceLocator σ)) : ResourceLocator σ :=
  ⟨fun type id => firstFound type id ls⟩

end ResourceLocator

/-- Finds the method of a service, or a function that stands alone. -/
structure ServiceLocator (σ : Type) where
  find : (method : String) → (service : Option String) →
    StateM σ (Option (ServiceMethod σ))

namespace ServiceLocator

def none : ServiceLocator σ := ⟨fun _ _ => pure .none⟩

/-- The first method found. -/
def firstFound (method : String) (service : Option String) :
    List (ServiceLocator σ) → StateM σ (Option (ServiceMethod σ))
  | [] => pure .none
  | l :: ls => do
      match (← l.find method service) with
      | some m => pure (some m)
      | .none => firstFound method service ls

/-- The first member that finds the method. -/
def chain (ls : List (ServiceLocator σ)) : ServiceLocator σ :=
  ⟨fun method service => firstFound method service ls⟩

end ServiceLocator

/-- Service methods and functions, each under its own name. -/
structure ServiceRegistry (σ : Type) where
  services : Table (Table (ServiceMethod σ)) := .empty
  functions : Table (ServiceMethod σ) := .empty

namespace ServiceRegistry

/-- Adds a method of a service, or a function, over the one of the same name that may
be there. -/
def register (r : ServiceRegistry σ) (service : Option String) (m : ServiceMethod σ) :
    ServiceRegistry σ :=
  match service with
  | .none => { r with functions := r.functions.insert m.name m }
  | some s =>
      let methods := (r.services.get? s).getD .empty
      { r with services := r.services.insert s (methods.insert m.name m) }

def find? (r : ServiceRegistry σ) (method : String) (service : Option String) :
    Option (ServiceMethod σ) :=
  match service with
  | .none => r.functions.get? method
  | some s => (r.services.get? s).bind (·.get? method)

def size (r : ServiceRegistry σ) : Nat :=
  r.services.entries.foldl (fun n p => n + p.2.size) r.functions.size

end ServiceRegistry

/-- Finds what is registered. -/
def ServiceLocator.ofRegistry (r : ServiceRegistry σ) : ServiceLocator σ :=
  ⟨fun method service => pure (r.find? method service)⟩

/-- Says whether a subject has a role, or a permission. -/
structure Checker (σ : Type) where
  holds : (subject : Value) → (name : String) → StateM σ Bool

namespace Checker

/-- Whether any member says yes; those after the first that does are not asked. -/
def anyHolds (subject : Value) (name : String) : List (Checker σ) → StateM σ Bool
  | [] => pure false
  | c :: cs => do
      if (← c.holds subject name) then pure true else anyHolds subject name cs

/-- Yes if any member says yes. -/
def chain (cs : List (Checker σ)) : Checker σ :=
  ⟨fun subject name => anyHolds subject name cs⟩

/-- Whether a value is the name, or a list that has the name among its items. -/
def mentions (name : String) : Value → Bool
  | .string s => s == name
  | .list items => items.any fun v => v.asString? == some name
  | _ => false

/-- Looks for the name in a property of the subject. What is no object, and what cannot
be read, holds nothing. -/
def ofProperty (host : Host σ) (property : String) : Checker σ :=
  ⟨fun subject name =>
    match subject with
    | .object o => do
        match (← (o.read host .alone property).run) with
        | .ok v => pure (mentions name v)
        | .error _ => pure false
    | _ => pure false⟩

/-- Where subjects have the names of their roles. -/
def rolesProperty : String := "roles"

/-- Where subjects have the names of their permissions. -/
def permissionsProperty : String := "permissions"

end Checker

end Clearance
