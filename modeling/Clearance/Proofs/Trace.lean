import Clearance.Proofs.Invocations

/-!
# A record of what is asked

As for the journal of invocations, the world is given a record that nobody reads.
This one is of everything that an engine asks of its host and its collaborators,
in the order in which it asks, with what it asks. An engine that decides alike in
two situations and leaves the same world has therefore asked the same in both, once
this is known of every engine: it is known of the one with the record.
-/

namespace Clearance

/-- What an engine asks of the world. -/
inductive Request where
  | call (handle : Handle) (method : String) (arguments : List Value)
  | find (method : String) (service : Option String)
  | invoke (method : String) (service : Option String) (arguments : List Value)
  | subjects
  | resource (type : String) (id : Value)
  | role (subject : Value) (name : String)
  | permission (subject : Value) (name : String)
  | typeExists (type : String)
  | loadType (type : String)
  | loadMethod (type method : String)
  | loadFunction (function : String)

/-- The state of the world, and the requests so far. -/
abbrev Traced (σ : Type) := σ × List Request

variable {σ : Type}

def noting {A : Type} (r : Request) (x : σ → A × σ) :
    Traced σ → A × Traced σ := fun p =>
  ((x p.1).1, (x p.1).2, p.2 ++ [r])

def Host.traced (host : Host σ) : Host (Traced σ) where
  toDirectory := host.toDirectory
  call h name vs := noting (.call h name vs) (host.call h name vs)

def ServiceMethod.traced (method : String) (service : Option String)
    (m : ServiceMethod σ) :
    ServiceMethod (Traced σ) where
  name := m.name
  signature := m.signature
  invoke vs := noting (.invoke method service vs) (m.invoke vs)

def ServiceLocator.traced (l : ServiceLocator σ) : ServiceLocator (Traced σ) where
  find method service := fun p =>
    ((l.find method service p.1).1.map (.traced method service),
      (l.find method service p.1).2, p.2 ++ [.find method service])

def ResourceLocator.traced (l : ResourceLocator σ) : ResourceLocator (Traced σ) where
  load type id := noting (.resource type id) (l.load type id)

def SubjectLocator.traced (l : SubjectLocator σ) : SubjectLocator (Traced σ) where
  find := noting .subjects l.find

def PolicyLoader.traced (l : PolicyLoader σ) : PolicyLoader (Traced σ) where
  loadType type := noting (.loadType type) (l.loadType type)
  loadMethod type method := noting (.loadMethod type method) (l.loadMethod type method)
  loadFunction function := noting (.loadFunction function) (l.loadFunction function)
  typeExists type := noting (.typeExists type) (l.typeExists type)

/-- The questions to a checker are noted, and what one of a property calls. -/
def Checking.traced (request : Value → String → Request) (host : Host σ) :
    Checking σ → Checker (Traced σ)
  | .own c =>
      ⟨fun subject name => noting (request subject name) (c.holds subject name)⟩
  | .property name => .ofProperty host.traced name
  | .chain members => .chain (members.map (traced request host))

/-- The engine with other checkers, in a world with a record. -/
def Engine.traced (e : Engine σ) (roles permissions : Option (Checking σ)) :
    Engine (Traced σ) where
  host := e.host.traced
  loader := e.loader.traced
  subjects := e.subjects.traced
  resources := e.resources.map .traced
  services := e.services.map .traced
  roles := roles.map (Checking.traced .role e.host)
  permissions := permissions.map (Checking.traced .permission e.host)
  settings := e.settings

/-- The world is the same, whatever the record says. -/
def Traces (w : σ) (p : Traced σ) : Prop := p.1 = w

theorem lockstep_noting {A : Type} (r : Request) (x : σ → A × σ) :
    Lockstep Traces x (noting r x) := by
  rintro _ p rfl
  exact ⟨rfl, rfl⟩

theorem Host.matches_traced (host : Host σ) : host.Matches Traces host.traced where
  directory := rfl
  call := fun _ _ _ _ _ _ => lockstep_noting _ _

theorem ServiceMethod.matches_traced (t : Typing) (method : String)
    (service : Option String) (m : ServiceMethod σ) :
    m.Matches Traces t (m.traced method service) where
  signature := rfl
  invoke := fun _ _ => lockstep_noting _ _

theorem Checking.rel_traced (request : Value → String → Request) (host : Host σ)
    (c : Option (Checking σ)) :
    Option.Rel (fun c c' => ∀ v name,
      Lockstep Traces (c.holds v name) (c'.holds v name))
      (c.map (Checking.checker host)) (c.map (Checking.traced request host)) := by
  refine Checking.rel host.matches_traced (fun c v name => ?_) (fun p => ?_)
    (fun members => ?_) c
  · rw [traced]
    exact lockstep_noting _ _
  · rw [traced]
  · rw [traced]

namespace Engine

theorem matches_traced (e : Engine σ) (roles permissions : Option (Checking σ)) :
    (e.checkedBy roles permissions).Matches Traces (fun _ => True)
      (e.traced roles permissions) where
  host := e.host.matches_traced
  settings := rfl
  subjects := lockstep_noting _ _
  resources := rel_map_right (fun _ _ _ => lockstep_noting _ _) _
  services := by
    refine rel_map_right (fun l method service w p hw => ?_) _
    obtain rfl : p.1 = w := hw
    exact ⟨rel_map_right (ServiceMethod.matches_traced _ method service) _, rfl⟩
  roles := Checking.rel_traced .role e.host roles
  permissions := Checking.rel_traced .permission e.host permissions
  typeExists := fun _ _ => lockstep_noting _ _
  loadType := fun _ _ => lockstep_noting _ _

theorem lockstep_policiesOf_traced (e : Engine σ)
    (roles permissions : Option (Checking σ)) (target : Target) :
    Lockstep Traces ((e.checkedBy roles permissions).policiesOf target)
      ((e.traced roles permissions).policiesOf target) := by
  cases target with
  | «instance» | method | function => exact lockstep_noting _ _

end Engine

end Clearance
