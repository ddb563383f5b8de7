import Clearance.Proofs.Adequacy
import Clearance.Proofs.Fitting

/-!
# Worlds that cannot be told apart

An engine has no access to the world but through its host and its collaborators,
so it cannot tell two worlds apart that they do not tell apart. This file says
so for a relation between worlds, which may be of different types: if the
collaborators of two engines answer alike in related worlds and leave related
worlds, so do the engines. What a callee does is asked for only with arguments
that fit its signature, since it is called with no others.

One relation is equality together with a property of the world that every
collaborator keeps, so what they keep is kept by the engine. Another leaves a
part of the world out, such as a record of what has been asked.
-/

namespace Clearance

/-- From related states two state transformers give the same answer and leave
related states. -/
def Lockstep {S T A : Type} (W : S → T → Prop) (x : S → A × S)
    (y : T → A × T) : Prop :=
  ∀ s t, W s t → (x s).1 = (y t).1 ∧ W (x s).2 (y t).2

namespace Lockstep

variable {σ τ α β : Type} {W : σ → τ → Prop}

theorem refl {S A : Type} (x : S → A × S) : Lockstep Eq x x := by
  rintro s _ rfl
  exact ⟨rfl, rfl⟩

theorem symm {S T A : Type} {W : S → T → Prop} {x : S → A × S} {y : T → A × T}
    (h : Lockstep W x y) : Lockstep (fun t s => W s t) y x := by
  intro t s hw
  obtain ⟨ha, hs⟩ := h s t hw
  exact ⟨ha.symm, hs⟩

theorem bind {x : StateM σ α} {y : StateM τ α} {f : α → StateM σ β}
    {g : α → StateM τ β} (h : Lockstep W x y) (hf : ∀ a, Lockstep W (f a) (g a)) :
    Lockstep W (x >>= f) (y >>= g) := by
  intro s t hw
  obtain ⟨ha, hw⟩ := h s t hw
  show (f (x s).1 (x s).2).1 = (g (y t).1 (y t).2).1 ∧
    W (f (x s).1 (x s).2).2 (g (y t).1 (y t).2).2
  rw [ha]
  exact hf _ _ _ hw

theorem pure (a : α) :
    Lockstep W (Pure.pure a : StateM σ α) (Pure.pure a : StateM τ α) :=
  fun _ _ h => ⟨rfl, h⟩

/-! Acts can fail, and a failure ends them on both sides. -/

theorem pure_act (a : α) :
    Lockstep W (Pure.pure a : Act σ α) (Pure.pure a : Act τ α) :=
  fun _ _ h => ⟨rfl, h⟩

theorem throw_act (err : AccessError) :
    Lockstep W (throw err : Act σ α) (throw err : Act τ α) :=
  fun _ _ h => ⟨rfl, h⟩

theorem ofExcept (r : Except AccessError α) :
    Lockstep W (Act.ofExcept r : Act σ α) (Act.ofExcept r : Act τ α) :=
  fun _ _ h => ⟨rfl, h⟩

theorem bind_act {x : Act σ α} {y : Act τ α} {f : α → Act σ β} {g : α → Act τ β}
    (h : Lockstep W x y) (hf : ∀ a, Lockstep W (f a) (g a)) :
    Lockstep W (x >>= f) (y >>= g) := by
  refine bind (α := Except AccessError α) (β := Except AccessError β)
    (f := ExceptT.bindCont f) (g := ExceptT.bindCont g) h fun r => ?_
  cases r with
  | error err => exact throw_act err
  | ok a => exact hf a

end Lockstep

/-! ## Hosts -/

structure Host.Matches {σ τ : Type} (W : σ → τ → Prop) (host : Host σ)
    (host' : Host τ) : Prop where
  directory : host.toDirectory = host'.toDirectory
  call : ∀ h name sig vs, host.method h name = some sig → sig.Fits host.toTyping vs →
    Lockstep W (host.call h name vs) (host'.call h name vs)

namespace Host.Matches

variable {σ τ : Type} {W : σ → τ → Prop} {host : Host σ} {host' : Host τ}

theorem typing (h : host.Matches W host') : host.toTyping = host'.toTyping :=
  congrArg Directory.toTyping h.directory

theorem symm (h : host.Matches W host') : host'.Matches (fun t s => W s t) host where
  directory := h.directory.symm
  call := by
    intro handle name sig vs hs hf
    rw [← h.typing] at hf
    rw [← congrArg (Directory.method · handle name) h.directory] at hs
    exact (h.call handle name sig vs hs hf).symm

theorem call_object (h : host.Matches W host') {o : Object} {name : String}
    {sig : Signature} {vs : List Value}
    (hs : o.method host.toDirectory name = some sig) (hf : sig.Fits host.toTyping vs) :
    Lockstep W (o.call host name vs) (o.call host' name vs) := by
  cases o with
  | host handle => exact h.call handle name sig vs hs hf
  | record r => cases hs

theorem read (h : host.Matches W host') (place : Place) (o : Object) (name : String) :
    Lockstep W (o.read host place name) (o.read host' place name) := by
  rcases o.readsAs_read host.toDirectory place name with
    ⟨v, hv⟩ | ⟨sig, vs, hs, hf, hv⟩
  · have hl : o.read host place name = pure v := hv host rfl
    have hr : o.read host' place name = pure v := hv host' h.directory.symm
    rw [hl, hr]
    exact .pure_act v
  · have hl : o.read host place name = o.call host name vs := hv host rfl
    have hr : o.read host' place name = o.call host' name vs :=
      hv host' h.directory.symm
    rw [hl, hr]
    exact h.call_object hs hf

theorem readCandidates (h : host.Matches W host') (name property : String) (n : Nat)
    (candidates : List Value) :
    Lockstep W (readCandidates host name property n candidates)
      (readCandidates host' name property n candidates) := by
  induction candidates generalizing n with
  | nil => exact .pure_act []
  | cons v rest ih =>
      cases v with
      | object o =>
          refine (h.read _ o property).bind_act fun v => ?_
          exact (ih _).bind_act fun _ => .pure_act _
      | _ => exact ih _

theorem property (h : host.Matches W host') (name property : String) (s : Supply) :
    Lockstep W (s.property host name property) (s.property host' name property) := by
  cases s with
  | plain v =>
      cases v with
      | object o => exact (h.read _ o property).bind_act fun _ => .pure_act _
      | _ => exact .throw_act _
  | choices candidates =>
      exact (h.readCandidates name property 0 candidates).bind_act fun _ => .pure_act _

theorem routeArgument (h : host.Matches W host') (a : CallArgument)
    (args : Arguments) :
    Lockstep W (a.route host args) (a.route host' args) := by
  refine (Lockstep.ofExcept _).bind_act fun args => ?_
  unfold CallArgument.takeProperty
  cases a.property with
  | none => exact .pure_act _
  | some p =>
      simp only []
      cases args.get? a.name with
      | none => exact .pure_act _
      | some s => exact (h.property a.name p s).bind_act fun _ => .pure_act _

theorem route (h : host.Matches W host') (call : Call) (args : Arguments) :
    Lockstep W (call.route host args) (call.route host' args) := by
  unfold Call.route
  induction call.arguments generalizing args with
  | nil => exact .pure_act _
  | cons a rest ih => exact (h.routeArgument a args).bind_act fun args => ih args

/-- A property checker does nothing but read. -/
theorem ofProperty (h : host.Matches W host') (property : String) (subject : Value)
    (name : String) :
    Lockstep W ((Checker.ofProperty host property).holds subject name)
      ((Checker.ofProperty host' property).holds subject name) := by
  cases subject with
  | object o =>
      refine Lockstep.bind (α := Except AccessError Value) (h.read .alone o property)
        fun r => ?_
      cases r with
      | error err => exact .pure _
      | ok v => exact .pure _
  | _ => exact .pure _

end Host.Matches

/-! ## Callees -/

structure Callee.Matches {σ τ : Type} (W : σ → τ → Prop) (t : Typing) (c : Callee σ)
    (c' : Callee τ) : Prop where
  name : c.name = c'.name
  signature : c.signature = c'.signature
  invoke : ∀ sig vs, c.signature = some sig → sig.Fits t vs →
    Lockstep W (c.invoke vs) (c'.invoke vs)

theorem Callee.Matches.callWith {σ τ : Type} {W : σ → τ → Prop} {t : Typing}
    {c : Callee σ} {c' : Callee τ} (h : c.Matches W t c') (args : Arguments) :
    Lockstep W (c.callWith t args) (c'.callWith t args) := by
  unfold Callee.callWith
  rw [← h.signature, ← h.name]
  cases hs : c.signature with
  | none => exact .throw_act _
  | some sig =>
      simp only []
      cases hb : sig.bind t c.name args with
      | error err => exact .throw_act err
      | ok vs => exact h.invoke sig vs hs (Signature.fits_of_bind hb)

structure ServiceMethod.Matches {σ τ : Type} (W : σ → τ → Prop) (t : Typing)
    (m : ServiceMethod σ) (m' : ServiceMethod τ) : Prop where
  signature : m.signature = m'.signature
  invoke : ∀ vs, m.signature.Fits t vs → Lockstep W (m.invoke vs) (m'.invoke vs)

theorem ServiceMethod.Matches.callee {σ τ : Type} {W : σ → τ → Prop} {t : Typing}
    {m : ServiceMethod σ} {m' : ServiceMethod τ} (h : m.Matches W t m')
    (name : String) :
    (m.callee name).Matches W t (m'.callee name) where
  name := rfl
  signature := congrArg some h.signature
  invoke := by
    rintro sig vs ⟨⟩ hf
    exact h.invoke vs hf

theorem ServiceMethod.Matches.symm {σ τ : Type} {W : σ → τ → Prop} {t : Typing}
    {m : ServiceMethod σ} {m' : ServiceMethod τ} (h : m.Matches W t m') :
    m'.Matches (fun t s => W s t) t m where
  signature := h.signature.symm
  invoke := fun vs hf => (h.invoke vs (h.signature ▸ hf)).symm

theorem Host.Matches.callee {σ τ : Type} {W : σ → τ → Prop} {host : Host σ}
    {host' : Host τ} (h : host.Matches W host') (o : Object) (method : String) :
    (o.callee host method).Matches W host.toTyping (o.callee host' method) where
  name := congrArg (fun t => calleeName (o.typeName t) method) h.typing
  signature := congrArg (o.method · method) h.directory
  invoke := fun _ _ hs hf => h.call_object hs hf

/-! ## Optional collaborators -/

section Rel

variable {A B C D : Type} {R : A → B → Prop}

theorem rel_refl {R : A → A → Prop} (hR : ∀ a, R a a)
    (x : Option A) : Option.Rel R x x := by
  cases x with
  | none => exact .none
  | some a => exact .some (hR a)

theorem rel_symm {S : B → A → Prop} {x : Option A} {y : Option B}
    (h : Option.Rel R x y) (hs : ∀ {a b}, R a b → S b a) : Option.Rel S y x := by
  cases h with
  | none => exact .none
  | some h => exact .some (hs h)

theorem rel_mono {S : A → B → Prop} {x : Option A} {y : Option B}
    (h : Option.Rel R x y) (hs : ∀ {a b}, R a b → S a b) : Option.Rel S x y := by
  cases h with
  | none => exact .none
  | some h => exact .some (hs h)

theorem rel_map {S : C → D → Prop} {x : Option A} {y : Option B} {f : A → C}
    {g : B → D} (h : Option.Rel R x y) (hs : ∀ {a b}, R a b → S (f a) (g b)) :
    Option.Rel S (x.map f) (y.map g) := by
  cases h with
  | none => exact .none
  | some h => exact .some (hs h)

theorem rel_map_right {f : A → B} (h : ∀ a, R a (f a)) (x : Option A) :
    Option.Rel R x (x.map f) := by
  cases x with
  | none => exact .none
  | some a => exact .some (h a)

end Rel

/-! ## Engines -/

/-- A list delegates to no other types than those that count. -/
def StaysNear (near : String → Prop) (ps : List Policy) : Prop :=
  ∀ type, .delegate type ∈ ps → near type

theorem StaysNear.head {near : String → Prop} {p : Policy} {ps : List Policy}
    (h : StaysNear near (p :: ps)) : StaysNear near [p] :=
  fun type hm => h type (List.mem_singleton.mp hm ▸ List.mem_cons_self ..)

theorem StaysNear.tail {near : String → Prop} {p : Policy} {ps : List Policy}
    (h : StaysNear near (p :: ps)) : StaysNear near ps :=
  fun type hm => h type (List.mem_cons_of_mem _ hm)

theorem StaysNear.conditions {near : String → Prop} {ps : List Policy}
    (h : StaysNear near ps) : StaysNear near (conditions ps) :=
  fun type hm => h type (List.mem_filter.mp hm).1

/-- The lists of the types that count delegate to no others, in any world of which
the other engine has one that is alike. -/
def PolicyLoader.Closed {σ τ : Type} (l : PolicyLoader σ) (W : σ → τ → Prop)
    (near : String → Prop) : Prop :=
  ∀ type s t ps, near type → W s t → (l.typeExists type s).1 = true →
    (l.loadType type (l.typeExists type s).2).1 = .ok ps → StaysNear near ps

theorem PolicyLoader.closed_all {σ τ : Type} (l : PolicyLoader σ) (W : σ → τ → Prop) :
    l.Closed W fun _ => True :=
  fun _ _ _ _ _ _ _ _ _ _ => trivial

/-- Two engines with the same settings, whose host and collaborators answer alike
in related worlds. Of the types only those in `near` count. -/
structure Engine.Matches {σ τ : Type} (W : σ → τ → Prop) (near : String → Prop)
    (e : Engine σ) (e' : Engine τ) : Prop where
  host : e.host.Matches W e'.host
  settings : e.settings = e'.settings
  subjects : Lockstep W e.subjects.find e'.subjects.find
  resources :
    Option.Rel (fun l l' => ∀ type id, Lockstep W (l.load type id) (l'.load type id))
    e.resources e'.resources
  services : Option.Rel (fun l l' => ∀ method service s t, W s t →
    Option.Rel (ServiceMethod.Matches W e.typing) (l.find method service s).1
        (l'.find method service t).1 ∧
      W (l.find method service s).2 (l'.find method service t).2) e.services
        e'.services
  roles :
    Option.Rel (fun c c' => ∀ v name, Lockstep W (c.holds v name) (c'.holds v name))
    e.roles e'.roles
  permissions :
    Option.Rel (fun c c' => ∀ v name, Lockstep W (c.holds v name) (c'.holds v name))
    e.permissions e'.permissions
  typeExists : ∀ type, near type →
    Lockstep W (e.loader.typeExists type) (e'.loader.typeExists type)
  loadType : ∀ type, near type →
    Lockstep W (e.loader.loadType type) (e'.loader.loadType type)

namespace Engine.Matches

variable {σ τ : Type} {W : σ → τ → Prop} {near : String → Prop} {e : Engine σ}
  {e' : Engine τ}

theorem symm (h : e.Matches W near e') : e'.Matches (fun t s => W s t) near e where
  host := h.host.symm
  settings := h.settings.symm
  subjects := h.subjects.symm
  resources := rel_symm h.resources fun hl type id => (hl type id).symm
  services := by
    refine rel_symm h.services fun hl method service t s hw => ?_
    obtain ⟨hm, hw⟩ := hl method service s t hw
    rw [← show e.typing = e'.typing from h.host.typing]
    exact ⟨rel_symm hm fun hm => hm.symm, hw⟩
  roles := rel_symm h.roles fun hc v name => (hc v name).symm
  permissions := rel_symm h.permissions fun hc v name => (hc v name).symm
  typeExists := fun type hn => (h.typeExists type hn).symm
  loadType := fun type hn => (h.loadType type hn).symm

theorem closed_symm (h : e.Matches W near e') (hc : e.loader.Closed W near) :
    e'.loader.Closed (fun t s => W s t) near := by
  intro type t s ps hn hw hx hl
  obtain ⟨ha, hw'⟩ := h.typeExists type hn s t hw
  obtain ⟨hb, _⟩ := h.loadType type hn _ _ hw'
  exact hc type s t ps hn hw (ha.trans hx) (hb.trans hl)

theorem mono (h : e.Matches W near e') {near' : String → Prop}
    (hn : ∀ type, near' type → near type) : e.Matches W near' e' :=
  { h with
    typeExists := fun type ht => h.typeExists type (hn type ht)
    loadType := fun type ht => h.loadType type (hn type ht) }

/-- Engines that differ only in their loaders, and there only in what they say about
types that do not count. -/
theorem withLoader (e : Engine σ) (l : PolicyLoader σ)
    (hx : ∀ type, near type → e.loader.typeExists type = l.typeExists type)
    (hl : ∀ type, near type → e.loader.loadType type = l.loadType type) :
    e.Matches Eq near { e with loader := l } where
  host := ⟨rfl, fun _ _ _ _ _ _ => .refl _⟩
  settings := rfl
  subjects := .refl _
  resources := rel_refl (fun _ _ _ => .refl _) _
  services := by
    refine rel_refl (fun l method service s t h => ?_) _
    obtain rfl : s = t := h
    exact ⟨rel_refl (fun m => ⟨rfl, fun _ _ => .refl _⟩) _, rfl⟩
  roles := rel_refl (fun _ _ _ => .refl _) _
  permissions := rel_refl (fun _ _ _ => .refl _) _
  typeExists := fun type hn => hx type hn ▸ .refl _
  loadType := fun type hn => hl type hn ▸ .refl _

/-- An engine matches itself. -/
theorem refl (e : Engine σ) (near : String → Prop) : e.Matches Eq near e :=
  .withLoader e e.loader (fun _ _ => rfl) fun _ _ => rfl

theorem contained (h : e.Matches W near e') {α : Type} (answer : α)
    (r : Except AccessError α) :
    e.contained answer r = e'.contained answer r := by
  unfold Engine.contained
  rw [h.settings]

end Engine.Matches

end Clearance
