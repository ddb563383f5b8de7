import Clearance.Proofs.Parallel
import Clearance.Proofs.Reach

/-!
# What is invoked, and with what

Methods of the host and methods of services are all that an engine invokes. To
see it do so, the world is given a journal in which every invocation is written
down, with the signature that is declared for the callee. An engine cannot read
the journal, so it decides as it does without; this is one more relation between
worlds that the engine keeps. The journal it leaves behind holds nothing but
invocations with arguments that fit.

A checker that has been brought along writes nothing into the journal, since
what it does is its own affair. But a checker that looks for a name in a property
of the subject reads the property as the engine would, so it is given the host
that keeps the journal.
-/

namespace Clearance

/-- A host method or a service method is invoked, with these arguments. -/
structure Invocation where
  /-- What is declared for the callee. -/
  signature : Option Signature
  arguments : List Value

def Invocation.Fits (t : Typing) (i : Invocation) : Prop :=
  ∃ sig, i.signature = some sig ∧ sig.Fits t i.arguments

/-! ## A world with a journal -/

/-- The state of the world, and the invocations so far. -/
abbrev Watched (σ : Type) := σ × List Invocation

variable {σ : Type}

def unrecorded {A : Type} (x : σ → A × σ) : Watched σ → A × Watched σ := fun p =>
  ((x p.1).1, (x p.1).2, p.2)

def recorded {A : Type} (i : Invocation) (x : σ → A × σ) :
    Watched σ → A × Watched σ := fun p =>
  ((x p.1).1, (x p.1).2, p.2 ++ [i])

def Host.watched (host : Host σ) : Host (Watched σ) where
  toDirectory := host.toDirectory
  call h name vs := recorded ⟨host.method h name, vs⟩ (host.call h name vs)

def ServiceMethod.watched (m : ServiceMethod σ) : ServiceMethod (Watched σ) where
  name := m.name
  signature := m.signature
  invoke vs := recorded ⟨some m.signature, vs⟩ (m.invoke vs)

def ServiceLocator.watched (l : ServiceLocator σ) : ServiceLocator (Watched σ) where
  find method service := fun p =>
    ((l.find method service p.1).1.map .watched, (l.find method service p.1).2, p.2)

def ResourceLocator.watched (l : ResourceLocator σ) : ResourceLocator (Watched σ) where
  load type id := unrecorded (l.load type id)

def SubjectLocator.watched (l : SubjectLocator σ) : SubjectLocator (Watched σ) where
  find := unrecorded l.find

def PolicyLoader.watched (l : PolicyLoader σ) : PolicyLoader (Watched σ) where
  loadType type := unrecorded (l.loadType type)
  loadMethod type method := unrecorded (l.loadMethod type method)
  loadFunction function := unrecorded (l.loadFunction function)
  typeExists type := unrecorded (l.typeExists type)

/-- A checker that is brought along, that of a property, or several of them. -/
inductive Checking (σ : Type) where
  | own (c : Checker σ)
  | property (name : String)
  | chain (members : List (Checking σ))

namespace Checking

def checker (host : Host σ) : Checking σ → Checker σ
  | .own c => c
  | .property name => .ofProperty host name
  | .chain members => .chain (members.map (checker host))

def watched (host : Host σ) : Checking σ → Checker (Watched σ)
  | .own c => ⟨fun subject name => unrecorded (c.holds subject name)⟩
  | .property name => .ofProperty host.watched name
  | .chain members => .chain (members.map (watched host))

end Checking

namespace Engine

/-- The engine with other checkers. -/
def checkedBy (e : Engine σ) (roles permissions : Option (Checking σ)) : Engine σ :=
  { e with
    roles := roles.map (Checking.checker e.host)
    permissions := permissions.map (Checking.checker e.host) }

/-- The engine with other checkers, in a world with a journal. -/
def watched (e : Engine σ)
    (roles permissions : Option (Checking σ)) : Engine (Watched σ) where
  host := e.host.watched
  loader := e.loader.watched
  subjects := e.subjects.watched
  resources := e.resources.map .watched
  services := e.services.map .watched
  roles := roles.map (Checking.watched e.host)
  permissions := permissions.map (Checking.watched e.host)
  settings := e.settings

end Engine

/-! ## The journal does not change anything, and everything in it fits -/

/-- The world is the same, and to a journal only invocations have been added that
fit. -/
def Watches (t : Typing) (journal : List Invocation) (w : σ) (p : Watched σ) : Prop :=
  p.1 = w ∧ ∃ new, p.2 = journal ++ new ∧ ∀ i ∈ new, i.Fits t

variable {t : Typing} {journal : List Invocation}

theorem watches_start (w : σ) : Watches t journal w (w, journal) :=
  ⟨rfl, [], (List.append_nil _).symm, fun _ h => by cases h⟩

theorem lockstep_unrecorded {A : Type} (x : σ → A × σ) :
    Lockstep (Watches t journal) x (unrecorded x) := by
  rintro _ p ⟨rfl, hj⟩
  exact ⟨rfl, rfl, hj⟩

theorem lockstep_recorded {A : Type} {i : Invocation} (hi : i.Fits t) (x : σ → A × σ) :
    Lockstep (Watches t journal) x (recorded i x) := by
  rintro _ ⟨w, _⟩ ⟨rfl, new, rfl, hn⟩
  refine ⟨rfl, rfl, new ++ [i], List.append_assoc .., fun j hj => ?_⟩
  rcases List.mem_append.mp hj with hj | hj
  · exact hn j hj
  · cases List.mem_singleton.mp hj
    exact hi

theorem Host.matches_watched (host : Host σ) :
    host.Matches (Watches host.toTyping journal) host.watched where
  directory := rfl
  call := fun _ _ sig _ hs hf => lockstep_recorded ⟨sig, hs, hf⟩ _

theorem ServiceMethod.matches_watched (m : ServiceMethod σ) :
    m.Matches (Watches t journal) t m.watched where
  signature := rfl
  invoke := fun _ hf => lockstep_recorded ⟨m.signature, rfl, hf⟩ _

theorem lockstep_anyHolds {τ A : Type} {W : σ → τ → Prop} {f : A → Checker σ}
    {g : A → Checker τ} {v : Value} {name : String} {members : List A}
    (h : ∀ a ∈ members, Lockstep W ((f a).holds v name) ((g a).holds v name)) :
    Lockstep W (Checker.anyHolds v name (members.map f))
      (Checker.anyHolds v name (members.map g)) := by
  induction members with
  | nil => exact .pure false
  | cons a members ih =>
      refine (h a (List.mem_cons_self ..)).bind fun b => ?_
      cases b with
      | true => exact .pure true
      | false => exact ih fun a ha => h a (List.mem_cons_of_mem _ ha)

/-- Checkings are taken from one world to another member by member, so it is enough
that those that are brought along are taken well. -/
theorem Checking.lockstep {τ : Type} {W : σ → τ → Prop} {host : Host σ}
    {host' : Host τ} (hh : host.Matches W host') {f : Checking σ → Checker τ}
    (own : ∀ c v name, Lockstep W (c.holds v name) ((f (.own c)).holds v name))
    (property : ∀ p, f (.property p) = .ofProperty host' p)
    (chain : ∀ members, f (.chain members) = .chain (members.map f)) (v : Value)
    (name : String) :
    (c : Checking σ) → Lockstep W ((c.checker host).holds v name) ((f c).holds v name)
  | .own c => by
      rw [checker]
      exact own c v name
  | .property p => by
      rw [checker, property]
      exact hh.ofProperty p v name
  | .chain members => by
      rw [checker, chain]
      exact lockstep_anyHolds fun c _ => lockstep hh own property chain v name c

theorem Checking.rel {τ : Type} {W : σ → τ → Prop} {host : Host σ} {host' : Host τ}
    (hh : host.Matches W host') {f : Checking σ → Checker τ}
    (own : ∀ c v name, Lockstep W (c.holds v name) ((f (.own c)).holds v name))
    (property : ∀ p, f (.property p) = .ofProperty host' p)
    (chain : ∀ members, f (.chain members) = .chain (members.map f))
    (c : Option (Checking σ)) :
    Option.Rel (fun c c' => ∀ v name, Lockstep W (c.holds v name) (c'.holds v name))
      (c.map (Checking.checker host)) (c.map f) := by
  cases c with
  | none => exact .none
  | some c => exact .some fun v name => c.lockstep hh own property chain v name

theorem ServiceLocator.find_watched (l : ServiceLocator σ) (method : String)
    (service : Option String) {w : σ} {p : Watched σ} (hw : Watches t journal w p) :
    Option.Rel (ServiceMethod.Matches (Watches t journal) t)
        (l.find method service w).1 (l.watched.find method service p).1 ∧
      Watches t journal (l.find method service w).2
        (l.watched.find method service p).2 := by
  obtain ⟨rfl, hj⟩ := hw
  exact ⟨rel_map_right ServiceMethod.matches_watched _, rfl, hj⟩

theorem Checking.rel_watched (host : Host σ) (c : Option (Checking σ)) :
    Option.Rel (fun c c' => ∀ v name,
        Lockstep (Watches host.toTyping journal) (c.holds v name) (c'.holds v name))
      (c.map (Checking.checker host)) (c.map (Checking.watched host)) := by
  refine Checking.rel host.matches_watched (fun c v name => ?_) (fun p => ?_)
    (fun members => ?_) c
  · rw [watched]
    exact lockstep_unrecorded _
  · rw [watched]
  · rw [watched]

namespace Engine

theorem matches_watched (e : Engine σ) (roles permissions : Option (Checking σ)) :
    (e.checkedBy roles permissions).Matches (Watches e.typing journal) (fun _ => True)
      (e.watched roles permissions) where
  host := e.host.matches_watched
  settings := rfl
  subjects := lockstep_unrecorded _
  resources := rel_map_right (fun _ _ _ => lockstep_unrecorded _) _
  services := by
    refine rel_map_right (fun l method service w p hw => ?_) _
    exact l.find_watched method service hw
  roles := Checking.rel_watched e.host roles
  permissions := Checking.rel_watched e.host permissions
  typeExists := fun _ _ => lockstep_unrecorded _
  loadType := fun _ _ => lockstep_unrecorded _

theorem lockstep_policiesOf_watched (e : Engine σ)
    (roles permissions : Option (Checking σ)) (target : Target) :
    Lockstep (Watches e.typing journal)
      ((e.checkedBy roles permissions).policiesOf target)
      ((e.watched roles permissions).policiesOf target) := by
  cases target with
  | «instance» | method | function => exact lockstep_unrecorded _

theorem decideCall_of_unbound {e : Engine σ} {ctx : Context} {call : Call} {v : Value}
    {c : Callee σ} {args : Arguments} {s s₁ : Evaluation σ} {err : AccessError}
    (ha : e.arguments ctx call v s = (.ok args, s₁))
    (hc : c.callWith e.typing args = throw err) :
    e.decideCall ctx call v c s = (.error err, s₁) := by
  unfold decideCall
  rw [Step.bind_ok ha, hc]
  exact Step.bind_error rfl

/-- Nothing is invoked but with arguments that fit, at whatever point of a check or
by a call or a read alone; and if one parameter cannot be bound, nothing is invoked
at all. -/
theorem invocations_fit (e : Engine σ) :
    e.checkedBy (e.roles.map .own) (e.permissions.map .own) = e ∧
    (∀ roles permissions ctx target journal (s : Session σ),
      Option.Rel
        (fun o o' => o.1 = o'.1 ∧ Watches e.typing journal o.2.world o'.2.world ∧
          o.2.caches = o'.2.caches)
        ((e.checkedBy roles permissions).check target ctx s)
        ((e.watched roles permissions).check target ctx
          ⟨(s.world, journal), s.caches⟩) ∧
      ∀ evs pt, (e.watched roles permissions).Visits ctx target
        ⟨(s.world, journal), s.caches⟩ evs pt →
        ∃ w, Watches e.typing journal w pt.state.world) ∧
    (∀ journal,
      (∀ (o : Object) method args, Lockstep (Watches e.typing journal)
        (o.callWith e.host method args) (o.callWith e.host.watched method args)) ∧
      (∀ (m : ServiceMethod σ) name args, Lockstep (Watches e.typing journal)
        (m.callWith e.typing name args) (m.watched.callWith e.typing name args)) ∧
      ∀ (o : Object) place name, Lockstep (Watches e.typing journal)
        (o.read e.host place name) (o.read e.host.watched place name)) ∧
    (∀ (c : Callee σ) (args : Arguments) (sig : Signature) (p : Parameter) i err,
      c.signature = some sig → sig.parameters[i]? = some p →
      p.bind e.typing c.name (i + 1) (args.get? p.name) = .error err →
      ∃ err', c.callWith e.typing args = throw err' ∧
        ∀ ctx call v s s₁, e.arguments ctx call v s = (.ok args, s₁) →
          e.decideCall ctx call v c s = (.error err', s₁)) ∧
    ∀ (o : Object) (sig : Signature) p name,
      o.method e.host.toDirectory name = some sig →
      p ∈ sig.parameters → p.isOptional = false →
      ∀ place, ∃ v, o.read e.host place name = pure v := by
  refine ⟨?_, fun roles permissions ctx target journal s => ⟨?_, fun evs pt hv => ?_⟩,
    fun journal => ⟨fun o method args => ?_, fun m name args => ?_,
      fun o place name => ?_⟩,
    fun c args sig p i err hs hp hb => ?_, fun o sig p name hm hp hr place => ?_⟩
  -- Every engine has checkers that are brought along, if it has any.
  · have own : ∀ c : Option (Checker σ),
        (c.map .own).map (Checking.checker e.host) = c := by
      intro c
      cases c with
      | none => rfl
      | some c => rw [Option.map_some, Option.map_some, Checking.checker]
    unfold checkedBy
    rw [own, own]
  · exact (e.matches_watched roles permissions).check
      (e.lockstep_policiesOf_watched roles permissions target)
        (watches_start s.world) rfl
  · obtain ⟨s₁, hs₁⟩ := (e.matches_watched roles permissions).visits
      (e.lockstep_policiesOf_watched roles permissions target)
        (watches_start s.world) rfl hv
    exact ⟨s₁.world, hs₁.world⟩
  · exact (e.host.matches_watched.callee o method).callWith args
  · exact (m.matches_watched.callee name).callWith args
  · exact e.host.matches_watched.read place o name
  · obtain ⟨err', hc⟩ := Callee.callWith_of_unbound hs hp hb
    exact ⟨err', hc, fun ctx call v s s₁ ha => decideCall_of_unbound ha hc⟩
  · exact Object.exists_read_eq_pure hm hp hr place

/-- An engine whose objects have one method, which has to be told who asks. -/
def asking : Engine Unit :=
  { ofLists [] [] {} with
    host :=
      { typeName := Handle.name
        method := fun _ name =>
          if name = "may" then some ⟨[{ name := "who" }]⟩ else none
        call := fun _ _ _ => pure (.bool true) } }

theorem asking_fits :
    (∃ p : Watched Unit, p.2 = [⟨some ⟨[{ name := "who" }]⟩, [.string "ann"]⟩] ∧
      (Object.callWith asking.host.watched (.host ⟨"doc"⟩) "may"
        (.ofPairs [("who", .plain (.string "ann"))]) ((), [])).2 = p ∧
      ∀ i ∈ p.2, i.Fits asking.typing) ∧
    ∃ err, Object.callWith asking.host (.host ⟨"doc"⟩) "may" .empty = throw err := by
  constructor
  · have hw := (((invocations_fit asking).2.2.1 []).1 (.host ⟨"doc"⟩) "may"
      (.ofPairs [("who", .plain (.string "ann"))]) () ((), []) (watches_start ())).2
    obtain ⟨_, new, hn, hf⟩ := hw
    refine ⟨_, ?_, rfl, ?_⟩
    · rfl
    · rw [hn]
      exact hf
  · obtain ⟨err, hc, _⟩ := (invocations_fit asking).2.2.2.1
      ((Object.host ⟨"doc"⟩).callee asking.host "may") .empty ⟨[{ name := "who" }]⟩
      { name := "who" } 0 _ rfl rfl rfl
    exact ⟨err, hc⟩

end Engine

end Clearance
