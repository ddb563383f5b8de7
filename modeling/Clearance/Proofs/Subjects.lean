import Clearance.Proofs.Chronology
import Clearance.Proofs.Reserved

/-!
# Subjects are located at most once

A locator may answer differently each time it is asked, so it matters that it is not
asked twice: the policies of one check are all to be about the same subjects. What
has been located is kept in two places, for the check and, if its context has one,
in a cache. `memo` is what the two come to, and it is filled at most once: this is
what `Learns` says of two moments, one of which is the later. The moments of a check
are in order, by `Undergoes.compare`, and so are those of checks that come one after
the other.

To see the locator being asked the world is given a journal of its answers. Nobody
reads it, and nobody but the locator writes into it.
-/

namespace Clearance

variable {σ : Type}

/-! ## A world with something beside it -/

section Aside

variable {J : Type}

/-- What happens in the world leaves alone what is beside it. -/
def aside {A : Type} (x : σ → A × σ) : σ × J → A × (σ × J) := fun p =>
  ((x p.1).1, (x p.1).2, p.2)

def Host.aside (host : Host σ) : Host (σ × J) where
  toDirectory := host.toDirectory
  call h name vs := Clearance.aside (host.call h name vs)

def ServiceMethod.aside (m : ServiceMethod σ) : ServiceMethod (σ × J) where
  name := m.name
  signature := m.signature
  invoke vs := Clearance.aside (m.invoke vs)

def ServiceLocator.aside (l : ServiceLocator σ) : ServiceLocator (σ × J) where
  find method service := fun p =>
    ((l.find method service p.1).1.map .aside, (l.find method service p.1).2, p.2)

def ResourceLocator.aside (l : ResourceLocator σ) : ResourceLocator (σ × J) where
  load type id := Clearance.aside (l.load type id)

def Checker.aside (c : Checker σ) : Checker (σ × J) where
  holds subject name := Clearance.aside (c.holds subject name)

def PolicyLoader.aside (l : PolicyLoader σ) : PolicyLoader (σ × J) where
  loadType type := Clearance.aside (l.loadType type)
  loadMethod type method := Clearance.aside (l.loadMethod type method)
  loadFunction function := Clearance.aside (l.loadFunction function)
  typeExists type := Clearance.aside (l.typeExists type)

/-- The world is the same, and what is beside it is as it should be. -/
def Beside (Q : J → Prop) (w : σ) (p : σ × J) : Prop := p.1 = w ∧ Q p.2

variable {Q : J → Prop}

theorem lockstep_aside {A : Type} (x : σ → A × σ) :
    Lockstep (Beside Q) x (aside x) := by
  rintro _ p ⟨rfl, hq⟩
  exact ⟨rfl, rfl, hq⟩

theorem Host.matches_aside (host : Host σ) : host.Matches (Beside Q) host.aside where
  directory := rfl
  call := fun _ _ _ _ _ _ => lockstep_aside _

theorem ServiceMethod.matches_aside (t : Typing) (m : ServiceMethod σ) :
    m.Matches (Beside Q) t m.aside where
  signature := rfl
  invoke := fun _ _ => lockstep_aside _

end Aside

/-! ## The journal of the locator -/

/-- The state of the world, and what the subject locator has answered so far. -/
abbrev Surveyed (σ : Type) := σ × List (List Value)

def SubjectLocator.surveyed (l : SubjectLocator σ) : SubjectLocator (Surveyed σ) where
  find := fun p => ((l.find p.1).1, (l.find p.1).2, p.2 ++ [(l.find p.1).1])

/-- The engine in a world with a journal of the answers of its subject locator. -/
def Engine.surveyed (e : Engine σ) : Engine (Surveyed σ) where
  host := e.host.aside
  loader := e.loader.aside
  subjects := e.subjects.surveyed
  resources := e.resources.map .aside
  services := e.services.map .aside
  roles := e.roles.map .aside
  permissions := e.permissions.map .aside
  settings := e.settings

namespace Engine

/-- The journal does not change anything. -/
theorem matches_surveyed (e : Engine σ) :
    e.Matches (Beside fun _ => True) (fun _ => True) e.surveyed where
  host := e.host.matches_aside
  settings := rfl
  subjects := by
    rintro _ p ⟨rfl, _⟩
    exact ⟨rfl, rfl, trivial⟩
  resources := rel_map_right (fun _ _ _ => lockstep_aside _) _
  services := by
    refine rel_map_right (fun l method service w p hw => ?_) _
    obtain ⟨rfl, _⟩ := hw
    exact ⟨rel_map_right (ServiceMethod.matches_aside _) _, rfl, trivial⟩
  roles := rel_map_right (fun _ _ _ => lockstep_aside _) _
  permissions := rel_map_right (fun _ _ _ => lockstep_aside _) _
  typeExists := fun _ _ => lockstep_aside _
  loadType := fun _ _ => lockstep_aside _

theorem lockstep_policiesOf_surveyed {Q : List (List Value) → Prop} (e : Engine σ)
    (target : Target) :
    Lockstep (Beside Q) (e.policiesOf target) (e.surveyed.policiesOf target) := by
  cases target with
  | «instance» | method | function => exact lockstep_aside _

end Engine

/-! ## What leaves the journal alone

A relation that is tolerant is not disturbed by anything that leaves the journal, the
caches and the located subjects alone. -/

theorem Lockstep.leaves {A J : Type} {x : σ → A × σ} {y : σ × J → A × (σ × J)}
    (h : ∀ j, Lockstep (Beside (· = j)) x y) (p : σ × J) : (y p).2.2 = p.2 :=
  (h p.2 p.1 p ⟨rfl, rfl⟩).2.2

/-- Evaluations are related that differ only in the world, and there not in the
journal. -/
structure Tolerant
    (P : Evaluation (Surveyed σ) → Evaluation (Surveyed σ) → Prop) : Prop where
  refl : ∀ s, P s s
  trans : ∀ {s t u}, P s t → P t u → P s u
  world : ∀ s w, P s { s with world := (w, s.world.2) }

/-- A step leads from every state to one that is related. -/
def Step.Respects {α : Type} (P : Evaluation σ → Evaluation σ → Prop)
    (x : Step σ α) : Prop :=
  ∀ s, P s (x s).2

namespace Tolerant

variable {P : Evaluation (Surveyed σ) → Evaluation (Surveyed σ) → Prop} {α β : Type}

theorem pure (hP : Tolerant P) (a : α) :
    (Pure.pure a : Step (Surveyed σ) α).Respects P :=
  fun s => hP.refl s

theorem throw (hP : Tolerant P) (err : AccessError) :
    (MonadExcept.throw err : Step (Surveyed σ) α).Respects P :=
  fun s => hP.refl s

/-- Of the first of two steps it is enough to know what it does here. -/
theorem bind (hP : Tolerant P) {x : Step (Surveyed σ) α} {f : α → Step (Surveyed σ) β}
    {t s : Evaluation (Surveyed σ)} (hx : P t (x s).2) (hf : ∀ a, (f a).Respects P) :
    P t ((x >>= f) s).2 := by
  rcases h : x s with ⟨err | a, s₁⟩
  · rw [h] at hx
    rw [Step.bind_error h]
    exact hx
  · rw [h] at hx
    rw [Step.bind_ok h]
    exact hP.trans hx (hf a s₁)

theorem ofWorld (hP : Tolerant P) {y : StateM (Surveyed σ) α}
    (h : ∀ p, (y p).2.2 = p.2) :
    (Step.ofWorld y).Respects P := by
  intro s
  have hw : (y s.world).2 = ((y s.world).2.1, s.world.2) := Prod.ext rfl (h s.world)
  show P s { s with world := (y s.world).2 }
  rw [hw]
  exact hP.world s _

theorem ofAct (hP : Tolerant P) {y : Act (Surveyed σ) α} (h : ∀ p, (y p).2.2 = p.2) :
    (Step.ofAct y).Respects P :=
  hP.ofWorld (α := Except AccessError α) h

variable {e : Engine σ} {ctx : Context}

theorem resourceFor (hP : Tolerant P) (ps : List Policy) (v : Value) :
    (e.surveyed.resourceFor ps v).Respects P := by
  have ht (type accessor : String) :
      (e.surveyed.tryLocate type accessor v).Respects P := by
    unfold Engine.tryLocate
    rw [show e.surveyed.resources = e.resources.map .aside from rfl]
    cases e.resources with
    | none => exact hP.throw _
    | some l =>
        cases v with
        | object o =>
            intro s
            have hr := Lockstep.leaves fun j : List (List Value) =>
              e.host.matches_aside (Q := (· = j)).read .alone o accessor
            refine hP.bind (hP.ofAct hr s) fun id s => ?_
            split
            · exact hP.refl s
            · refine hP.bind (hP.ofWorld (fun _ => rfl) s) fun found s => ?_
              cases found.filter (fun v => !v.isNotFound) with
              | some v => exact hP.refl s
              | none =>
                  simp only []
                  split
                  · exact hP.refl s
                  · exact hP.refl s
        | _ => exact hP.throw _
  unfold Engine.resourceFor
  split
  · next type accessor _ => exact fun s => ht type accessor s
  · exact hP.pure _

theorem delegated (hP : Tolerant P) (chain : List String) (type : String) :
    (e.surveyed.delegated chain type).Respects P := by
  intro s
  refine hP.bind (hP.ofWorld (fun _ => rfl) s) fun b s => ?_
  cases b with
  | false => exact hP.refl s
  | true =>
      rw [if_pos rfl]
      split
      · exact hP.refl s
      · exact hP.ofAct (fun _ => rfl) s

/-- After its arguments a call leaves the journal alone. -/
theorem decideCall (hP : Tolerant P) {call : Call} {v : Value} {c : Callee σ}
    {c' : Callee (Surveyed σ)} {s t : Evaluation (Surveyed σ)}
    (hc : ∀ j, c.Matches (Beside (· = j)) e.typing c')
    (ha : P t (e.surveyed.arguments ctx call v s).2) :
    P t (e.surveyed.decideCall ctx call v c' s).2 := by
  refine hP.bind ha fun args s => ?_
  refine hP.bind (hP.ofAct (Lockstep.leaves fun j => (hc j).callWith args) s)
    fun w s => ?_
  unfold Engine.expectDecision
  cases w.asBool? with
  | some b => exact hP.refl s
  | none => exact hP.refl s

end Tolerant

/-! ## Who asks -/

namespace Engine

/-- A policy comes to ask for the subjects, and in which state it does: it has a
checker that is registered, or a call that has found what is to be called. -/
inductive Asks (e : Engine σ) :
    Policy → Value → Evaluation σ → Evaluation σ → Prop where
  | role {r v s c} (h : e.roles = some c) : Asks e (.role r) v s s
  | permission {n v s c} (h : e.permissions = some c) : Asks e (.permission n) v s s
  | call {p v s call s₁} (h : e.ComesTo p v s call s₁) : Asks e p v s s₁

/-- A policy goes on with these subjects, and from which state it does: its checker is
asked about them, or the arguments of its call are taken from them. -/
inductive Sees (e : Engine σ) (ctx : Context) (vs : List Value) :
    Policy → Value → Evaluation σ → Evaluation σ → Prop where
  | role {r v s c s₂} (h : e.roles = some c)
      (hc : e.consult ctx (.role r) v s = Step.ofWorld (anySubject c r vs) s₂) :
      Sees e ctx vs (.role r) v s s₂
  | permission {n v s c s₂} (h : e.permissions = some c)
      (hc : e.consult ctx (.permission n) v s = Step.ofWorld (anySubject c n vs) s₂) :
      Sees e ctx vs (.permission n) v s s₂
  | call {p v s call s₁ s₂} (h : e.ComesTo p v s call s₁)
      (ha : e.arguments ctx call v s₁ =
        Step.ofAct (call.route e.host (contextArguments ctx v vs)) s₂) :
      Sees e ctx vs p v s s₂

variable {e : Engine σ} {ctx : Context} {p : Policy} {v : Value} {vs : List Value}

theorem Asks.sees {s s₁ s₂ : Evaluation σ} (h : e.Asks p v s s₁)
    (hs : e.currentSubjects ctx s₁ = (.ok vs, s₂)) : e.Sees ctx vs p v s s₂ := by
  have checked {checker : Option (Checker σ)} {c : Checker σ} (hc : checker = some c)
      (missing : ConfigurationFault) (name : String) :
      e.answerChecked ctx checker missing name s₁ =
        Step.ofWorld (anySubject c name vs) s₂ := by
    rw [hc]
    exact Step.bind_ok hs
  cases h with
  | role h => exact .role h (checked h _ _)
  | permission h => exact .permission h (checked h _ _)
  | call h => exact .call h (Step.bind_ok hs)

/-- In a world with a journal the callee of a call is that of the world without it. -/
theorem ComesTo.exists_callee {call : Call} {s s₁ : Evaluation (Surveyed σ)}
    (h : e.surveyed.ComesTo p v s call s₁) (ctx : Context) :
    ∃ (c : Callee σ) (c' : Callee (Surveyed σ)),
      (∀ j, c.Matches (Beside (· = j)) e.typing c') ∧
      e.surveyed.consult ctx p v s = e.surveyed.decideCall ctx call v c' s₁ := by
  cases h with
  | @method text o s call h hs =>
      refine ⟨_, _, fun j => e.host.matches_aside.callee o call.method, ?_⟩
      show e.surveyed.answerMethod ctx text (.object o) s = _
      rw [answerMethod_of_object, h]
      simp only [hs, Bool.false_eq_true, if_false]
      rfl
  | @service text v s call l m s₁ hl h hf =>
      obtain ⟨l₀, hl₀, rfl⟩ := Option.map_eq_some_iff.mp
        (show e.services.map .aside = some l from hl)
      obtain ⟨m₀, hm₀, rfl⟩ :=
        Option.map_eq_some_iff.mp (Except.ok.inj (Prod.mk.inj hf).1)
      refine ⟨_, _, fun j => (m₀.matches_aside e.typing).callee call.text, ?_⟩
      show e.surveyed.answerService ctx text v s = _
      unfold answerService
      rw [hl]
      simp only [Step.ofExcept_bind, h]
      exact Step.bind_ok hf

section Tolerant

variable {P : Evaluation (Surveyed σ) → Evaluation (Surveyed σ) → Prop}
  {s s₁ s₂ : Evaluation (Surveyed σ)}

theorem respects_find (hP : Tolerant P) {l : ServiceLocator (Surveyed σ)}
    (hl : e.surveyed.services = some l) (method : String) (service : Option String) :
    (Step.ofWorld (l.find method service)).Respects P := by
  obtain ⟨l₀, _, rfl⟩ := Option.map_eq_some_iff.mp
    (show e.services.map .aside = some l from hl)
  exact hP.ofWorld fun _ => rfl

theorem Asks.before (hP : Tolerant P) (h : e.surveyed.Asks p v s s₁) : P s s₁ := by
  cases h with
  | role | permission => exact hP.refl s
  | @call _ _ _ call _ h =>
      cases h with
      | method => exact hP.refl s
      | service hl _ hf =>
          have hs := respects_find hP hl call.method call.service s
          rw [hf] at hs
          exact hs

theorem Sees.after (hP : Tolerant P) (h : e.surveyed.Sees ctx vs p v s s₂) :
    P s₂ (e.surveyed.consult ctx p v s).2 := by
  have checked {checker : Option (Checker σ)} {c : Checker (Surveyed σ)}
      (hc : checker.map .aside = some c) (name : String) :
      P s₂ (Step.ofWorld (anySubject c name vs) s₂).2 := by
    obtain ⟨c₀, _, rfl⟩ := Option.map_eq_some_iff.mp hc
    have hl (j : List (List Value)) : Lockstep (Beside (· = j)) (anySubject c₀ name vs)
        (anySubject c₀.aside name vs) :=
          .anySubject (fun _ _ => lockstep_aside _) name vs
    exact hP.ofWorld (Lockstep.leaves hl) s₂
  cases h with
  | role h hc =>
      rw [hc]
      exact checked h _
  | permission h hc =>
      rw [hc]
      exact checked h _
  | @call _ _ _ call _ _ h ha =>
      obtain ⟨c, c', hc, hd⟩ := h.exists_callee ctx
      have hr := Lockstep.leaves fun j : List (List Value) =>
        e.host.matches_aside (Q := (· = j)).route call (contextArguments ctx v vs)
      rw [hd]
      refine hP.decideCall hc ?_
      rw [ha]
      exact hP.ofAct hr s₂

theorem consult_of_not_asks (hP : Tolerant P) (h : ∀ s₁, ¬ e.surveyed.Asks p v s s₁) :
    P s (e.surveyed.consult ctx p v s).2 := by
  cases p with
  | allow | deny | delegate | resource | allOrNothing | unrecognized => exact hP.refl s
  | role r =>
      cases hc : e.surveyed.roles with
      | none =>
          unfold consult answerChecked
          rw [hc]
          exact hP.refl s
      | some c => exact absurd (.role hc) (h s)
  | permission n =>
      cases hc : e.surveyed.permissions with
      | none =>
          unfold consult answerChecked
          rw [hc]
          exact hP.refl s
      | some c => exact absurd (.permission hc) (h s)
  | method text =>
      cases v with
      | object o =>
          show P s (e.surveyed.answerMethod ctx text (.object o) s).2
          rw [answerMethod_of_object]
          cases hp : Call.parse text with
          | error err => exact hP.refl s
          | ok call =>
              cases hs : call.service.isSome with
              | true =>
                  simp only [hs, if_true]
                  exact hP.refl s
              | false => exact absurd (.call (.method hp hs)) (h s)
      | _ => exact hP.refl s
  | service text =>
      show P s (e.surveyed.answerService ctx text v s).2
      unfold answerService
      cases hl : e.surveyed.services with
      | none => exact hP.refl s
      | some l =>
          simp only [Step.ofExcept_bind]
          cases hp : Call.parse text with
          | error err => exact hP.refl s
          | ok call =>
              simp only []
              rcases hf : Step.ofWorld (l.find call.method call.service) s with
                ⟨_ | m, s₁⟩
              · cases hf
              · rw [Step.bind_ok hf]
                cases m with
                | none =>
                    have hs := respects_find hP hl call.method call.service s
                    rw [hf] at hs
                    exact hs
                | some m => exact absurd (.call (.service hl hp hf)) (h s₁)

end Tolerant

/-! ## What is known of the subjects -/

/-- What a policy is told without the locator being asked. -/
def memo (ctx : Context) (s : Evaluation σ) : Option (List Value) :=
  s.located.or (ctx.cached s.caches).join

/-- What has been located is in the cache of the context as well, if it has one. -/
def Settled (ctx : Context) (s : Evaluation σ) : Prop :=
  ∀ vs, s.located = some vs → ctx.cached s.caches =
    (ctx.cached s.caches).map fun _ => some vs

theorem memo_of_located {s : Evaluation σ}
    (h : s.located = some vs) : memo ctx s = some vs := by
  unfold memo
  rw [h]
  rfl

/-- Whoever asks is told what is known, and the locator is asked only if nothing is. -/
theorem currentSubjects_spec {s s₁ : Evaluation σ}
    (h : e.currentSubjects ctx s = (.ok vs, s₁)) :
    s₁.located = some vs ∧ (Settled ctx s → Settled ctx s₁) ∧
      (memo ctx s = some vs ∧ s₁.world = s.world ∨
        memo ctx s = none ∧ e.subjects.find s.world = (vs, s₁.world)) := by
  unfold currentSubjects at h
  cases hs : s.located with
  | some us =>
      rw [hs] at h
      cases h
      exact ⟨hs, id, .inl ⟨memo_of_located hs, rfl⟩⟩
  | none =>
      rw [hs] at h
      obtain ⟨ha, hc⟩ := e.locate_eq ctx s.world s.caches
      rcases hl : e.locate ctx (s.world, s.caches) with ⟨us, w, caches⟩
      rw [hl] at ha hc
      simp only [hl] at h
      cases h
      refine ⟨rfl, fun _ us hu => ?_, ?_⟩
      · cases hu
        rw [hc, Option.map_map]
        rfl
      · unfold memo
        rw [hs, Option.none_or]
        cases hm : (ctx.cached s.caches).join with
        | some us =>
            rw [hm] at ha
            obtain ⟨rfl, hw⟩ := Prod.mk.inj ha
            exact .inl ⟨rfl, hw⟩
        | none =>
            rw [hm] at ha
            exact .inr ⟨rfl, ha.symm⟩

end Engine

/-- What is known of the subjects, and what the locator has answered so far. -/
abbrev Knowledge := Option (List Value) × List (List Value)

/-- From an earlier moment to a later one nothing is added to what is known, or the one
answer of the locator is. -/
inductive Learns : Knowledge → Knowledge → Prop where
  | same (k : Knowledge) : Learns k k
  | found (vs : List Value) (answers : List (List Value)) :
      Learns (none, answers) (some vs, answers ++ [vs])

namespace Learns

variable {k k' k'' : Knowledge} {vs : List Value}

theorem eq_of_known (h : Learns k k') (hk : k.1 = some vs) : k' = k := by
  cases h with
  | same => rfl
  | found => cases hk

theorem trans (h : Learns k k') (h' : Learns k' k'') : Learns k k'' := by
  cases h with
  | same => exact h'
  | found vs answers =>
      rw [h'.eq_of_known rfl]
      exact .found vs answers

end Learns

namespace Engine

variable {e : Engine σ} {ctx : Context} {vs : List Value}
  {s s₁ : Evaluation (Surveyed σ)}

def knowledge (ctx : Context) (s : Evaluation (Surveyed σ)) : Knowledge :=
  (memo ctx s, s.world.2)

/-- The later of two evaluations knows what the earlier one does, and what it knows it
has put into the cache. -/
def Progress (ctx : Context) (s t : Evaluation (Surveyed σ)) : Prop :=
  Learns (knowledge ctx s) (knowledge ctx t) ∧ (Settled ctx s → Settled ctx t)

theorem tolerant_progress (ctx : Context) : Tolerant (Progress (σ := σ) ctx) where
  refl := fun _ => ⟨.same _, id⟩
  trans := fun h h' => ⟨h.1.trans h'.1, h'.2 ∘ h.2⟩
  world := fun _ _ => ⟨.same _, id⟩

theorem progress_currentSubjects
    (h : e.surveyed.currentSubjects ctx s = (.ok vs, s₁)) :
    Progress ctx s s₁ ∧ memo ctx s₁ = some vs := by
  obtain ⟨hl, hs, hm⟩ := currentSubjects_spec h
  have hk : memo ctx s₁ = some vs := memo_of_located hl
  refine ⟨⟨?_, hs⟩, hk⟩
  unfold knowledge
  rw [hk]
  rcases hm with ⟨hm, hw⟩ | ⟨hm, hf⟩
  · rw [hm, hw]
    exact .same _
  · have hj : s₁.world.2 = s.world.2 ++ [vs] := by
      obtain ⟨rfl, hw⟩ := Prod.mk.inj hf
      rw [← hw]
    rw [hm, hj]
    exact .found vs _

theorem progress_consult (e : Engine σ) (ctx : Context) (p : Policy) (v : Value)
    (s : Evaluation (Surveyed σ)) :
    Progress ctx s (e.surveyed.consult ctx p v s).2 := by
  have ht := tolerant_progress (σ := σ) ctx
  by_cases h : ∃ s₁, e.surveyed.Asks p v s s₁
  · obtain ⟨s₁, h⟩ := h
    obtain ⟨vs, s₂, hs⟩ := e.surveyed.currentSubjects_ok ctx s₁
    have hp := (progress_currentSubjects hs).1
    exact ht.trans (h.before ht) (ht.trans hp ((h.sees hs).after ht))
  · exact consult_of_not_asks ht (not_exists.mp h)

theorem keepsIn_progress (e : Engine σ) (ctx : Context) (target : Target)
    (s : Session (Surveyed σ)) : e.surveyed.KeepsIn ctx (Progress ctx) target s where
  refl := (tolerant_progress ctx).refl
  trans := (tolerant_progress ctx).trans
  policiesOf := (tolerant_progress ctx).ofAct
    (Lockstep.leaves fun _ => e.lockstep_policiesOf_surveyed target) _
  resourceFor := (tolerant_progress ctx).resourceFor
  delegated := (tolerant_progress ctx).delegated
  consult := fun _ => e.progress_consult ctx _ _ _

/-- If nobody asks, nothing is written into the journal. -/
theorem keepsIn_journal {target : Target} {s : Session (Surveyed σ)}
    (h : ∀ evs chain p v t t', e.surveyed.Visits ctx target s evs
      ⟨chain, .policy p, v, t⟩ → ¬ e.surveyed.Asks p v t t') :
    e.surveyed.KeepsIn ctx (fun s t => t.world.2 = s.world.2) target s := by
  have ht : Tolerant fun s t : Evaluation (Surveyed σ) => t.world.2 = s.world.2 :=
    { refl := fun _ => rfl
      trans := fun h h' => h'.trans h
      world := fun _ _ => rfl }
  exact
    { refl := ht.refl
      trans := ht.trans
      policiesOf :=
        ht.ofAct (Lockstep.leaves fun _ => e.lockstep_policiesOf_surveyed target) _
      resourceFor := ht.resourceFor
      delegated := ht.delegated
      consult := fun hv => consult_of_not_asks ht fun t' => h _ _ _ _ _ t' hv }

end Engine

/-! ## One check, and checks that share a cache -/

/-- A check that is made: by which engine, of what, and in which session. -/
structure Inquiry (σ : Type) where
  engine : Engine σ
  target : Target
  context : Context
  session : Session (Surveyed σ)

namespace Inquiry

/-- The check passes through a state. -/
def Undergoes (i : Inquiry σ) (t : Evaluation (Surveyed σ)) : Prop :=
  i.engine.surveyed.Undergoes i.context i.target i.session t

/-- A policy is dispatched for a resource and asks for the subjects. -/
def Asks (i : Inquiry σ) (p : Policy) (v : Value)
    (s s₁ : Evaluation (Surveyed σ)) : Prop :=
  (∃ evs chain, i.engine.surveyed.Visits i.context i.target i.session evs
    ⟨chain, .policy p, v, s⟩) ∧ i.engine.surveyed.Asks p v s s₁

/-- What is known when the check begins. -/
def before (i : Inquiry σ) : Knowledge :=
  ((i.context.cached i.session.caches).join, i.session.world.2)

/-- Since a moment before the check the locator has been asked at most once, and not at
all if the subjects were known then. These are the subjects, and whoever asks for them
sees them. -/
structure Once (i : Inquiry σ) (before : Knowledge) (vs : List Value) : Prop where
  asked : ∀ t, i.Undergoes t →
    t.world.2 = before.2 ∨ before.1 = none ∧ t.world.2 = before.2 ++ [vs]
  seen : ∀ p v s s₁, i.Asks p v s s₁ →
    ∃ s₂, i.engine.surveyed.Sees i.context vs p v s s₂ ∧
    (before.1 = some vs ∧ s₂.world.2 = before.2 ∨
      before.1 = none ∧ s₂.world.2 = before.2 ++ [vs])

/-- Nothing else is known in the check than these subjects, and that by way of the one
answer of the locator. -/
structure Knows (i : Inquiry σ) (before : Knowledge) (vs : List Value) : Prop where
  learns : ∀ t, i.Undergoes t → Learns before (Engine.knowledge i.context t)
  eq : ∀ t us, i.Undergoes t → Engine.memo i.context t = some us → us = vs

variable {i : Inquiry σ} {before : Knowledge} {vs : List Value}

/-- Who asks has been told by the time it is answered. -/
theorem exists_sees {p : Policy} {v : Value} {s s₁ : Evaluation (Surveyed σ)}
    (h : i.Asks p v s s₁) :
    ∃ us s₂ t, i.engine.surveyed.Sees i.context us p v s s₂ ∧ i.Undergoes t ∧
      Engine.knowledge i.context t = (some us, s₂.world.2) := by
  obtain ⟨⟨evs, chain, hv⟩, ha⟩ := h
  obtain ⟨us, s₂, hs⟩ := i.engine.surveyed.currentSubjects_ok i.context s₁
  have hm := (Engine.progress_currentSubjects hs).2
  have hk : Engine.knowledge i.context s₂ = (some us, s₂.world.2) := by
    unfold Engine.knowledge
    rw [hm]
  have hp := (ha.sees hs).after (Engine.tolerant_progress i.context)
  refine ⟨us, s₂, _, ha.sees hs, ?_, (hp.1.eq_of_known hm).trans hk⟩
  -- The answer of a policy, or its failure, is where its run ends.
  obtain ⟨r, s₃, hc⟩ : ∃ r s₃, i.engine.surveyed.consult i.context p v s = (r, s₃) :=
    ⟨_, _, rfl⟩
  rw [hc]
  have hd : p.isRefused = false ∧ ∀ type, p ≠ .delegate type := by
    cases ha with
    | role | permission => exact ⟨rfl, fun _ h => by cases h⟩
    | call h =>
        cases h with
        | method | service => exact ⟨rfl, fun _ h => by cases h⟩
  cases r with
  | ok b => exact hv.undergoes (.ends (.consulted hc))
  | error err =>
      exact hv.undergoes (.ends (.faulted ((Engine.consult_eq_error hd.1 hd.2).mp hc)))

theorem Knows.once (h : i.Knows before vs) : i.Once before vs where
  asked := by
    intro t ht
    have hl := h.learns t ht
    have he := h.eq t
    generalize hk : Engine.knowledge i.context t = k at hl
    obtain ⟨hm, hj⟩ := Prod.mk.inj hk
    cases hl with
    | same => exact .inl hj
    | found us answers =>
        cases he us ht hm
        exact .inr ⟨rfl, hj⟩
  seen := by
    intro p v s s₁ ha
    obtain ⟨us, s₂, t, hs, ht, hk⟩ := exists_sees ha
    obtain rfl := h.eq t us ht (congrArg Prod.fst hk)
    refine ⟨s₂, hs, ?_⟩
    have hl := h.learns t ht
    rw [hk] at hl
    generalize s₂.world.2 = answers at hl ⊢
    cases hl with
    | same => exact .inl ⟨rfl, rfl⟩
    | found => exact .inr ⟨rfl, rfl⟩

theorem learns_before {t : Evaluation (Surveyed σ)} (h : i.Undergoes t) :
    Learns i.before (Engine.knowledge i.context t) :=
  (Engine.Undergoes.after h (i.engine.keepsIn_progress i.context i.target i.session)).1

/-- What is known at two moments of a check is the same, since one of them is the
later. -/
theorem exists_knows (i : Inquiry σ) : ∃ vs, i.Knows i.before vs := by
  by_cases h : ∃ t vs, i.Undergoes t ∧ Engine.memo i.context t = some vs
  · obtain ⟨t, vs, ht, hm⟩ := h
    refine ⟨vs, fun _ => learns_before, fun u us hu hn => ?_⟩
    have hk : Engine.knowledge i.context u = Engine.knowledge i.context t := by
      rcases Engine.Undergoes.compare ht hu (i.engine.keepsIn_progress ..) with hp | hp
      · exact hp.1.eq_of_known hm
      · exact (hp.1.eq_of_known hn).symm
    have hv : some us = some vs := hn.symm.trans ((congrArg Prod.fst hk).trans hm)
    exact Option.some.inj hv
  · exact ⟨[], fun _ => learns_before, fun u us hu hn => absurd ⟨u, us, hu, hn⟩ h⟩

/-- A journal with something new in it has been written for somebody who asks. -/
theorem exists_asks {t : Evaluation (Surveyed σ)} (h : i.Undergoes t)
    (hj : t.world.2 ≠ i.session.world.2) : ∃ p v s s₁, i.Asks p v s s₁ := by
  by_contra hn
  refine hj (Engine.Undergoes.after h (Engine.keepsIn_journal ?_))
  intro evs chain p v s s₁ hv ha
  exact hn ⟨p, v, s, s₁, ⟨evs, chain, hv⟩, ha⟩

end Inquiry

/-- Checks are made one after the other, each with a context that carries the handle of
the same cache. In between anything may happen that leaves the journal and the cache
alone, and the last of the checks need not end. -/
inductive Series (id : CacheId) : Session (Surveyed σ) → List (Inquiry σ) → Prop where
  | nil {s} : Series id s []
  | last {e target ctx s} (hc : ctx.cache = some id) :
      Series id s [⟨e, target, ctx, s⟩]
  | check {e target ctx s r s₁ log} (hc : ctx.cache = some id)
      (h : e.surveyed.check target ctx s = some (r, s₁)) (hs : Series id s₁ log) :
      Series id s (⟨e, target, ctx, s⟩ :: log)
  | elsewhere {s s₁ log} (hj : s₁.world.2 = s.world.2)
      (hh : s₁.caches.held id = s.caches.held id)
      (hs : Series id s₁ log) : Series id s log

/-- What the checks that share a cache have in common. -/
def Session.knowledge (id : CacheId) (s : Session (Surveyed σ)) : Knowledge :=
  (s.caches.held id, s.world.2)

theorem Inquiry.before_eq {i : Inquiry σ} {id : CacheId}
    (hc : i.context.cache = some id) :
    i.before = i.session.knowledge id := by
  unfold before Session.knowledge Context.cached
  rw [hc]
  rfl

/-- When a check ends, what is known is in the cache. -/
theorem Engine.knowledge_session {ctx : Context} {id : CacheId}
    (hc : ctx.cache = some id) {t : Evaluation (Surveyed σ)} (ht : Settled ctx t) :
    t.session.knowledge id = knowledge ctx t := by
  have hh : ctx.cached t.caches = some (t.caches.held id) := by
    unfold Context.cached
    rw [hc]
    rfl
  refine Prod.ext ?_ rfl
  show t.caches.held id = t.located.or (ctx.cached t.caches).join
  rw [hh]
  cases hl : t.located with
  | none => rfl
  | some vs =>
      have hs := ht vs hl
      rw [hh] at hs
      exact Option.some.inj hs

theorem Series.exists_knows {id : CacheId} {s : Session (Surveyed σ)}
    {log : List (Inquiry σ)} (h : Series id s log) :
    ∃ vs, (∀ us, s.caches.held id = some us → us = vs) ∧
      ∀ i ∈ log, i.Knows (s.knowledge id) vs := by
  induction h with
  | @nil s =>
      refine ⟨(s.caches.held id).getD [], fun us hu => ?_, fun i hi => by cases hi⟩
      rw [hu]
      rfl
  | @last e target ctx s hc =>
      obtain ⟨vs, hk⟩ := Inquiry.exists_knows ⟨e, target, ctx, s⟩
      rw [Inquiry.before_eq hc] at hk
      refine ⟨vs, fun us hu => ?_, fun i hi => ?_⟩
      · have ht : (Inquiry.mk e target ctx s).Undergoes _ := .loads rfl
        have he := (hk.learns _ ht).eq_of_known hu
        exact hk.eq _ us ht ((congrArg Prod.fst he).trans hu)
      · cases List.mem_singleton.mp hi
        exact hk
  | @check e target ctx s r s₁ log hc h hs ih =>
      obtain ⟨vs, hvs, hk⟩ := ih
      obtain ⟨t, ht, rfl, hlast⟩ := Engine.exists_last h
      have hp := e.keepsIn_progress ctx target s
      have hset : Engine.Settled ctx t := (ht.after hp).2 fun us hu => by cases hu
      have hst := Engine.knowledge_session hc hset
      have hb : Learns (s.knowledge id) (t.session.knowledge id) := by
        rw [hst, ← Inquiry.before_eq (i := ⟨e, target, ctx, s⟩) hc]
        exact Inquiry.learns_before (i := ⟨e, target, ctx, s⟩) ht
      refine ⟨vs, fun us hu => ?_, fun i hi => ?_⟩
      · exact hvs us ((congrArg Prod.fst (hb.eq_of_known hu)).trans hu)
      · rcases List.mem_cons.mp hi with rfl | hi
        · refine ⟨fun u hu => ?_, fun u us hu hm => ?_⟩
          · rw [← Inquiry.before_eq (i := ⟨e, target, ctx, s⟩) hc]
            exact Inquiry.learns_before hu
          · -- What is known at any moment is known at the last, and so to the
            -- checks that follow.
            have he := ((hlast hp u hu).1.eq_of_known hm).symm.trans hst.symm
            exact hvs us ((congrArg Prod.fst he).symm.trans hm)
        · exact ⟨fun u hu => hb.trans ((hk i hi).learns u hu), (hk i hi).eq⟩
  | @elsewhere s s₁ log hj hh _ ih =>
      obtain ⟨vs, hvs, hk⟩ := ih
      have hb : s₁.knowledge id = s.knowledge id := Prod.ext hh hj
      rw [hb] at hk
      rw [hh] at hvs
      exact ⟨vs, hvs, hk⟩

/-- The subject locator is asked at most once in a check, and not at all if its
subjects are cached or nobody asks for them; and all who ask see the one list. The same
holds of all checks together that share a cache. The journal in which this is seen
makes no difference to a check, and the check gets to the same points with it. -/
theorem subjects_located_once :
    (∀ i : Inquiry σ,
      (Option.Rel (fun o o' => o.1 = o'.1 ∧ o'.2.world.1 = o.2.world ∧
        o.2.caches = o'.2.caches)
        (i.engine.check i.target i.context ⟨i.session.world.1, i.session.caches⟩)
        (i.engine.surveyed.check i.target i.context i.session) ∧
      ∀ evs pt, i.engine.Visits i.context i.target
        ⟨i.session.world.1, i.session.caches⟩ evs pt →
        ∃ evs' t, i.engine.surveyed.Visits i.context i.target i.session evs'
          (pt.withState t) ∧
          pt.state.Matches (Beside fun _ => True) t) ∧
      (∃ vs, i.Once i.before vs) ∧
      (∀ t, i.Undergoes t → t.world.2 ≠ i.session.world.2 →
        ∃ p v s s₁, i.Asks p v s s₁) ∧
      ∀ r s', i.engine.surveyed.check i.target i.context i.session = some (r, s') →
        ∃ t, i.Undergoes t ∧ t.session = s') ∧
    ∀ id (s : Session (Surveyed σ)) log, Series id s log →
      ∃ vs, ∀ i ∈ log, i.Once (s.knowledge id) vs := by
  refine ⟨fun i => ⟨⟨?_, fun evs pt hv => ?_⟩, ?_, fun t => Inquiry.exists_asks,
    fun r s' h => ?_⟩, fun id s log h => ?_⟩
  · refine rel_mono (i.engine.matches_surveyed.check
      (i.engine.lockstep_policiesOf_surveyed i.target) (t := i.session)
        ⟨rfl, trivial⟩ rfl) ?_
    rintro o o' ⟨hr, hw, hc⟩
    exact ⟨hr, hw.1, hc⟩
  · have hp := (i.engine.matches_surveyed.parallel i.context).symm
    obtain ⟨evs', t, hv, hm⟩ :=
      hp.visits (i.engine.lockstep_policiesOf_surveyed i.target).symm
      (s := i.session) ⟨⟨rfl, trivial⟩, rfl, rfl⟩ hv
    exact ⟨evs', t, hv, hm⟩
  · obtain ⟨vs, h⟩ := i.exists_knows
    exact ⟨vs, h.once⟩
  · obtain ⟨t, ht, hs, _⟩ := Engine.exists_last h
    exact ⟨t, ht, hs⟩
  · obtain ⟨vs, _, h⟩ := h.exists_knows
    exact ⟨vs, fun i hi => (h i hi).once⟩

/-- An engine whose locator never answers the same twice. -/
def Engine.fickle : Engine Nat where
  host := { typeName := Handle.name, call := fun _ _ _ => pure .null }
  loader :=
    { loadType := fun _ => pure [.role "r"]
      loadMethod := fun _ _ => pure []
      loadFunction := fun _ => pure [.role "r", .delegate "B"]
      typeExists := fun _ => pure true }
  subjects := ⟨fun n => (List.replicate n .null, n + 1)⟩
  roles := some ⟨fun _ _ => pure false⟩

namespace Inquiry

/-- The first check of a function, and the second, with the same cache. -/
def earlier : Inquiry Nat :=
  ⟨.fickle, .function "f", ({} : Context).withCache 0, ⟨(1, []), ⟨1, fun _ => none⟩⟩⟩

def later : Inquiry Nat :=
  { earlier with session := ⟨(2, [[.null]]),
    SubjectCaches.fill 0 [.null] ⟨1, fun _ => none⟩⟩ }

theorem earlier_check :
    Engine.fickle.surveyed.check earlier.target earlier.context earlier.session =
      some (.ok false, later.session) := by
  have hb : Engine.fickle.surveyed.Runs earlier.context
      ⟨["B"], .list [.role "r"], .string "f",
        ⟨(2, [[.null]]), later.session.caches, some [.null]⟩⟩ _ (.ok false) _ :=
    .opened rfl (.given rfl) (.next (.consulted rfl) .done)
  have hd : Engine.fickle.surveyed.Runs earlier.context
      ⟨[], .policy (.delegate "B"), .string "f",
        ⟨(2, [[.null]]), later.session.caches, some [.null]⟩⟩ _
      (.ok (!Mode.any.settling)) _ :=
    Engine.Runs.delegated (e := Engine.fickle.surveyed) (r := .ok false) rfl hb
  have hf : Engine.fickle.surveyed.Runs earlier.context
      ⟨[], .list [.role "r", .delegate "B"], .string "f", .start earlier.session⟩ _
      (.ok false) ⟨(2, [[.null]]), later.session.caches, some [.null]⟩ :=
    .opened rfl (.given rfl) (.next (.consulted rfl) (.next hd .done))
  have hc : Engine.fickle.surveyed.Checks earlier.context earlier.target
      earlier.session _ (.ok false)
      (Evaluation.session ⟨(2, [[.null]]), later.session.caches, some [.null]⟩) :=
    .loaded rfl hf
  exact Engine.check_eq_some_iff.mpr ⟨_, hc⟩

end Inquiry

open Inquiry in
/-- In the second check the role is looked for among the subjects that were located for
the first. -/
theorem fickle_located_once :
    Series 0 earlier.session [earlier, later] ∧
      ∃ s₂, Engine.fickle.surveyed.Sees later.context [.null] (.role "r") (.string "f")
        (.start later.session) s₂ := by
  have hs : Series 0 earlier.session [earlier, later] :=
    .check rfl earlier_check (.last rfl)
  obtain ⟨vs, h⟩ := subjects_located_once.2 0 earlier.session _ hs
  have ha : later.Asks (.role "r") (.string "f") (.start later.session)
      (.start later.session) :=
    ⟨⟨_, [], _, _, rfl, .step (.opens rfl (.given rfl)) (.step .first .refl)⟩,
      .role rfl⟩
  obtain ⟨s₂, hv, _⟩ := (h later (by simp)).seen _ _ _ _ ha
  obtain ⟨t, ht, hl⟩ := (subjects_located_once.1 earlier).2.2.2 _ _ earlier_check
  have hj : t.world.2 = [[.null]] := congrArg (fun s => s.world.2) hl
  rcases (h earlier (by simp)).asked t ht with hn | ⟨_, hn⟩
  · cases hj.symm.trans hn
  · cases hj.symm.trans hn
    exact ⟨hs, s₂, hv⟩

end Clearance
