import Clearance.Proofs.Containment
import Clearance.Proofs.Search
import Clearance.Proofs.Subjects
import Clearance.Proofs.Termination

/-!
# More grants never deny

A target that is granted stays granted when there are further subjects, when a chain of
checkers has further members, or when targets without policies are no longer denied.
The larger evaluation need not dispatch what the smaller one does: a list may be
settled earlier, and a delegation that was a "no" may be a "yes". What carries the
proof is that a policy that says "yes" still does, and that one that says "no" still
answers. With this a list that is granted is granted, whichever of its two modes it
has, by induction on the run of the smaller evaluation.

Two things could spoil it. A fault at runtime ends an evaluation, and the larger one
may get to a place where the smaller one never gets, so there are to be no such faults,
and no policies that lead to things other than subjects. And what a collaborator
answers must not depend on what it has been asked before; otherwise a subject that
comes in front of another could use up the answer that was meant for the other. So a
collaborator sees a view of the world that is not changed by asking. The subject
locator alone may answer differently each time, which it does from a source of its own.

Delegation to ever new types is one more place where the larger evaluation may get and
the smaller does not. It comes to an end if finitely many of the types exist that
delegations lead to from the target's own list, however many there may be besides, and
need not otherwise, as `endless_check` shows.
-/

namespace Clearance

variable {σ : Type}

/-! ## What the collaborators see of the world -/

/-- The part of the world that the collaborators see, and the part from which the
subject locator takes the subjects. -/
structure Outlook (σ : Type) where
  View : Type
  Source : Type
  view : σ → View
  source : σ → Source

namespace Outlook

variable {α β : Type} {A : Type}

/-- Nobody can see that this has been asked. -/
structure Unseen (k : Outlook σ) (x : σ → A × σ) : Prop where
  view : ∀ w, k.view (x w).2 = k.view w
  source : ∀ w, k.source (x w).2 = k.source w

/-- Besides, the answer depends on nothing but the view. -/
structure Steady (k : Outlook σ) (x : σ → A × σ) : Prop extends k.Unseen x where
  answer : ∀ {w w'}, k.view w = k.view w' → (x w).1 = (x w').1

/-- The answer of the locator depends on its source as well, and asking for it may
change the source. -/
structure Locates (k : Outlook σ) (l : SubjectLocator σ) : Prop where
  view : ∀ w, k.view (l.find w).2 = k.view w
  answer : ∀ {w w'}, k.view w = k.view w' → k.source w = k.source w' →
    (l.find w).1 = (l.find w').1

variable {k : Outlook σ}

/-! ### One yes is enough -/

variable {ask : α → StateM σ β} {as : List α}

theorem unseen_mapM (h : ∀ a ∈ as, k.Unseen (ask a)) : k.Unseen (as.mapM ask) := by
  induction as with
  | nil => exact ⟨fun _ => rfl, fun _ => rfl⟩
  | cons a as ih =>
      obtain ⟨ha, has⟩ := List.forall_mem_cons.mp h
      refine ⟨fun w => ?_, fun w => ?_⟩
      · rw [mapM_cons_apply]
        exact ((ih has).view _).trans (ha.view w)
      · rw [mapM_cons_apply]
        exact ((ih has).source _).trans (ha.source w)

/-- All that are asked answer in the view in which the first of them is asked. -/
theorem exists_mem_mapM (h : ∀ a ∈ as, k.Unseen (ask a)) {a : α} (ha : a ∈ as)
    (w : σ) :
    ∃ w₁, k.view w₁ = k.view w ∧ (ask a w₁).1 ∈ (as.mapM ask w).1 := by
  induction as generalizing w with
  | nil => cases ha
  | cons b as ih =>
      obtain ⟨hb, has⟩ := List.forall_mem_cons.mp h
      rw [mapM_cons_apply]
      rcases List.mem_cons.mp ha with rfl | ha
      · exact ⟨w, rfl, List.mem_cons_self ..⟩
      · obtain ⟨w₁, hv, hm⟩ := ih has ha (ask b w).2
        exact ⟨w₁, hv.trans (hb.view w), List.mem_cons_of_mem _ hm⟩

theorem unseen_of_searches {settles : β → Prop} {nothing : β} {done : StateM σ β}
    (hs : Searches ask settles nothing as done) (h : ∀ a ∈ as, k.Unseen (ask a)) :
    k.Unseen done := by
  have leaves : ∀ w, k.view (done w).2 = k.view w ∧
      k.source (done w).2 = k.source w := by
    intro w
    rcases (hs w _ _).mp rfl with hset | ⟨_, answers, hm, _⟩
    · obtain ⟨before, a, after, answers, w₁, rfl, hb, _, ha, _⟩ := hset
      have hbefore := unseen_mapM fun c hc => h c (List.mem_append_left _ hc)
      have hask := h a (List.mem_append_right _ (List.mem_cons_self ..))
      have hw₁ : (before.mapM ask w).2 = w₁ := congrArg Prod.snd hb
      rw [← congrArg Prod.snd ha, hask.view, hask.source, ← hw₁]
      exact ⟨hbefore.view w, hbefore.source w⟩
    · rw [← congrArg Prod.snd hm]
      exact ⟨(unseen_mapM h).view w, (unseen_mapM h).source w⟩
  exact ⟨fun w => (leaves w).1, fun w => (leaves w).2⟩

variable {p : α → StateM σ Bool} {q : β → StateM σ Bool} {bs : List β} {w w' : σ}
  {done done' : StateM σ Bool}

/-- A yes comes from one of those that are asked. -/
theorem exists_of_searches (hs : Searches p (· = true) false as done)
    (h : ∀ a ∈ as, k.Unseen (p a)) (hw : (done w).1 = true) :
    ∃ a ∈ as, ∃ w₁, k.view w₁ = k.view w ∧ (p a w₁).1 = true := by
  rcases (hs w _ _).mp rfl with hset | ⟨hf, _⟩
  · obtain ⟨before, a, after, answers, w₁, rfl, hb, _, ha, hy⟩ := hset
    have hv := (unseen_mapM fun c hc => h c (List.mem_append_left _ hc)).view w
    rw [congrArg Prod.snd hb] at hv
    exact ⟨a, List.mem_append_right _ (List.mem_cons_self ..), w₁, hv,
      (congrArg Prod.fst ha).trans hy⟩
  · cases hw.symm.trans hf

/-- And if one of them says yes, whenever it is asked, there is a yes. -/
theorem yes_of_searches (hs : Searches p (· = true) false as done)
    (h : ∀ a ∈ as, k.Unseen (p a)) {a : α} (ha : a ∈ as)
    (hy : ∀ w₁, k.view w₁ = k.view w → (p a w₁).1 = true) : (done w).1 = true := by
  rcases (hs w _ _).mp rfl with hset | ⟨_, answers, hm, hn⟩
  · obtain ⟨_, _, _, _, _, _, _, _, _, hyes⟩ := hset
    exact hyes
  · obtain ⟨w₁, hv, hmem⟩ := exists_mem_mapM h ha w
    rw [congrArg Prod.fst hm] at hmem
    exact absurd (hy w₁ hv) (hn _ hmem)

theorem searches_mono (hs : Searches p (· = true) false as done)
    (hs' : Searches q (· = true) false bs done') (hp : ∀ a ∈ as, k.Unseen (p a))
    (hq : ∀ b ∈ bs, k.Unseen (q b))
    (h : ∀ a ∈ as, ∃ b ∈ bs, ∀ w w', k.view w = k.view w' → (p a w).1 = true →
      (q b w').1 = true)
    (hv : k.view w = k.view w') (hw : (done w).1 = true) : (done' w').1 = true := by
  obtain ⟨a, ha, w₁, hv₁, hy⟩ := exists_of_searches hs hp hw
  obtain ⟨b, hb, hm⟩ := h a ha
  exact yes_of_searches hs' hq hb fun w₂ hv₂ =>
    hm w₁ w₂ (hv₁.trans (hv.trans hv₂.symm)) hy

end Outlook

/-! ## Checkers -/

namespace Checker

variable {k : Outlook σ}

/-- The one checker is the other, or a chain to which members have been added: to the
chain, or to a member that is a chain. The members that are added may answer as they
like. -/
inductive Gains (k : Outlook σ) : Checker σ → Checker σ → Prop where
  | same {c} (h : ∀ v name, k.Steady (c.holds v name)) : Gains k c c
  | members {cs cs'} (hs : cs.Sublist cs')
      (h : ∀ c ∈ cs, ∀ v name, k.Steady (c.holds v name))
      (h' : ∀ c ∈ cs', ∀ v name, k.Unseen (c.holds v name)) :
      Gains k (.chain cs) (.chain cs')
  | member {before after c c'} (h : Gains k c c')
      (hs : ∀ c ∈ before ++ after, ∀ v name, k.Steady (c.holds v name)) :
      Gains k (.chain (before ++ c :: after)) (.chain (before ++ c' :: after))
  | trans {c c' c''} (h : Gains k c c') (h' : Gains k c' c'') : Gains k c c''

/-- Wherever the one checker says yes, the other says yes. -/
structure Concedes (k : Outlook σ) (c c' : Checker σ) : Prop where
  unseen : ∀ v name, k.Unseen (c.holds v name)
  unseen' : ∀ v name, k.Unseen (c'.holds v name)
  yes : ∀ {v name w w'}, k.view w = k.view w' → (c.holds v name w).1 = true →
    (c'.holds v name w').1 = true

theorem Concedes.of_steady {c : Checker σ} (h : ∀ v name, k.Steady (c.holds v name)) :
    Concedes k c c where
  unseen := fun v name => (h v name).toUnseen
  unseen' := fun v name => (h v name).toUnseen
  yes := fun hw hy => ((h _ _).answer hw).symm.trans hy

/-- A chain concedes to one that has for each member one that the member
concedes to. -/
theorem Concedes.chain {cs cs' : List (Checker σ)}
    (h : ∀ c ∈ cs, ∃ c' ∈ cs', Concedes k c c')
    (h' : ∀ c' ∈ cs', ∀ v name, k.Unseen (c'.holds v name)) :
    Concedes k (.chain cs) (.chain cs') := by
  have hu : ∀ c ∈ cs, ∀ v name, k.Unseen (c.holds v name) := by
    intro c hc
    obtain ⟨_, _, hg⟩ := h c hc
    exact hg.unseen
  refine ⟨fun v name => ?_, fun v name => ?_, fun {v name w w'} hw hy => ?_⟩
  · exact Outlook.unseen_of_searches (searches_anyHolds v name cs) fun c hc =>
      hu c hc v name
  · exact Outlook.unseen_of_searches (searches_anyHolds v name cs') fun c hc =>
      h' c hc v name
  · refine Outlook.searches_mono (searches_anyHolds v name cs)
      (searches_anyHolds v name cs') (fun c hc => hu c hc v name)
      (fun c hc => h' c hc v name) (fun c hc => ?_) hw hy
    obtain ⟨c', hc', hg⟩ := h c hc
    exact ⟨c', hc', fun _ _ hv => hg.yes hv⟩

theorem Gains.concedes {c c' : Checker σ} (h : Gains k c c') : Concedes k c c' := by
  induction h with
  | same h => exact .of_steady h
  | members hs h h' =>
      exact .chain (fun c hc => ⟨c, hs.subset hc, .of_steady (h c hc)⟩) h'
  | @member before after c c' _ hs ih =>
      have hm {d : Checker σ} (hd : d ∈ before ++ after) : Concedes k d d :=
        .of_steady (hs d hd)
      refine .chain (fun d hd => ?_) fun d hd => ?_
      · rcases List.mem_append.mp hd with hd | hd
        · exact ⟨d, List.mem_append_left _ hd, hm (List.mem_append_left _ hd)⟩
        · rcases List.mem_cons.mp hd with rfl | hd
          · exact ⟨c', List.mem_append_right _ (List.mem_cons_self ..), ih⟩
          · exact ⟨d, List.mem_append_right _ (List.mem_cons_of_mem _ hd),
              hm (List.mem_append_right _ hd)⟩
      · rcases List.mem_append.mp hd with hd | hd
        · exact (hm (List.mem_append_left _ hd)).unseen
        · rcases List.mem_cons.mp hd with rfl | hd
          · exact ih.unseen'
          · exact (hm (List.mem_append_right _ hd)).unseen
  | trans _ _ ih ih' =>
      exact ⟨ih.unseen, ih'.unseen', fun hw hy => ih'.yes hw (ih.yes rfl hy)⟩

end Checker

/-! ## Loaders, and the lists that a check comes to -/

/-- Whether a policy is answered without regard to the resource. -/
def Policy.ignoresResource : Policy → Bool
  | .method _ => false
  | .service _ => false
  | .resource _ _ => false
  | _ => true

namespace PolicyLoader

variable {k : Outlook σ} {l : PolicyLoader σ}

structure Steady (k : Outlook σ) (l : PolicyLoader σ) : Prop where
  loadType : ∀ type, k.Steady (l.loadType type)
  loadMethod : ∀ type method, k.Steady (l.loadMethod type method)
  loadFunction : ∀ function, k.Steady (l.loadFunction function)
  typeExists : ∀ type, k.Steady (l.typeExists type)

/-- If the loader fails it is for what has been declared. -/
structure FailsDeclared (l : PolicyLoader σ) : Prop where
  loadType : ∀ type w fault, (l.loadType type w).1 ≠ .error (.runtime fault)
  loadMethod : ∀ type method w fault,
    (l.loadMethod type method w).1 ≠ .error (.runtime fault)
  loadFunction : ∀ function w fault,
    (l.loadFunction function w).1 ≠ .error (.runtime fault)

/-- The lists that delegations lead to from a list, itself included, in one view of the
world. -/
inductive Offers (k : Outlook σ) (l : PolicyLoader σ) (o : k.View)
    (root : List Policy) : List Policy → Prop where
  | root : Offers k l o root root
  | delegated {ps type w w' qs} (h : Offers k l o root ps) (hm : .delegate type ∈ ps)
      (hw : k.view w = o) (hx : (l.typeExists type w).1 = true) (hw' : k.view w' = o)
      (hl : (l.loadType type w').1 = .ok qs) : Offers k l o root qs

/-- The types that are delegated to in these lists, if they exist. -/
def offered (k : Outlook σ) (l : PolicyLoader σ) (o : k.View) (root : List Policy) :
    Set String :=
  {type | ∃ ps w, l.Offers k o root ps ∧ .delegate type ∈ ps ∧ k.view w = o ∧
    (l.typeExists type w).1 = true}

/-- There are finitely many of them if finitely many types exist at all. -/
theorem finite_offered (h : l.existing.Finite) (o : k.View) (root : List Policy) :
    (l.offered k o root).Finite := by
  refine h.subset ?_
  rintro type ⟨_, w, _, _, _, hx⟩
  exact ⟨w, hx⟩

/-- Policies that are all in lists that delegations lead to. -/
def Among (k : Outlook σ) (l : PolicyLoader σ) (o : k.View)
    (root ps : List Policy) : Prop :=
  ∀ p ∈ ps, ∃ qs, l.Offers k o root qs ∧ p ∈ qs

namespace Among

variable {o : k.View} {root ps qs : List Policy} {p : Policy}

theorem of_subset (h : l.Among k o root ps) (hs : qs ⊆ ps) : l.Among k o root qs :=
  fun p hp => h p (hs hp)

theorem head (h : l.Among k o root (p :: ps)) : l.Among k o root [p] :=
  fun _ hq => h _ (List.mem_singleton.mp hq ▸ List.mem_cons_self ..)

theorem tail (h : l.Among k o root (p :: ps)) : l.Among k o root ps :=
  h.of_subset (List.subset_cons_self ..)

end Among

end PolicyLoader

/-- The policies that an evaluation has before it. -/
def Task.policies : Task → List Policy
  | .list ps => ps
  | .rest _ ps => ps
  | .policy p => [p]

namespace Engine

variable {k : Outlook σ} {e e' : Engine σ} {ctx ctx' : Context} {o : k.View}
  {root : List Policy} {vs vs' : List Value} {s s' : Evaluation σ}

/-! ## One evaluation

An engine that is tame has the same view of the world all the time, and whoever asks is
told the same subjects. Besides it meets no fault at runtime. -/

/-- Outside debug mode an engine is tame whose collaborators do not see what has been
asked. -/
structure Tame (k : Outlook σ) (e : Engine σ) : Prop where
  debug : e.settings.debug = false
  loader : e.loader.Steady k
  declared : e.loader.FailsDeclared
  subjects : k.Locates e.subjects
  roles : ∀ c, e.roles = some c → ∀ v name, k.Unseen (c.holds v name)
  permissions : ∀ c, e.permissions = some c → ∀ v name, k.Unseen (c.holds v name)

/-- An evaluation has a view of the world, and whoever asks is told these subjects. -/
structure Stands (k : Outlook σ) (e : Engine σ) (ctx : Context) (o : k.View)
    (vs : List Value) (s : Evaluation σ) : Prop where
  view : k.view s.world = o
  told : (e.currentSubjects ctx s).1 = .ok vs

theorem steady_policiesOf (h : e.loader.Steady k) (target : Target) :
    k.Steady (e.policiesOf target) := by
  cases target with
  | «instance» => exact h.loadType _
  | method => exact h.loadMethod _ _
  | function => exact h.loadFunction _

namespace Stands

theorem of_world (hl : k.Locates e.subjects) (hs : Stands k e ctx o vs s) {w : σ}
    (hv : k.view w = k.view s.world) (hw : k.source w = k.source s.world) :
    Stands k e ctx o vs { s with world := w } := by
  refine ⟨hv.trans hs.view, ?_⟩
  obtain ⟨us, t, ht⟩ := e.currentSubjects_ok ctx s
  obtain ⟨us', t', ht'⟩ := e.currentSubjects_ok ctx { s with world := w }
  have hus : us = vs := by
    have h := hs.told
    rw [ht] at h
    exact Except.ok.inj h
  rw [ht', ← hus]
  refine congrArg Except.ok ?_
  -- The locator is asked in both states or in neither.
  have hm : memo ctx { s with world := w } = memo ctx s := rfl
  rcases (currentSubjects_spec ht).2.2 with ⟨hk, _⟩ | ⟨hk, hf⟩
  · rcases (currentSubjects_spec ht').2.2 with ⟨hk', _⟩ | ⟨hk', _⟩
    · exact Option.some.inj (hk'.symm.trans (hm.trans hk))
    · cases hk'.symm.trans (hm.trans hk)
  · rcases (currentSubjects_spec ht').2.2 with ⟨hk', _⟩ | ⟨_, hf'⟩
    · cases hk'.symm.trans (hm.trans hk)
    · have ha := hl.answer hv hw
      rw [hf, hf'] at ha
      exact ha

theorem ofWorld {A : Type} (hl : k.Locates e.subjects) (hs : Stands k e ctx o vs s)
    {x : StateM σ A} (hx : k.Unseen x) : Stands k e ctx o vs (Step.ofWorld x s).2 :=
  hs.of_world hl (hx.view _) (hx.source _)

theorem ofAct {A : Type} (hl : k.Locates e.subjects) (hs : Stands k e ctx o vs s)
    {x : Act σ A} (hx : k.Unseen x) : Stands k e ctx o vs (Step.ofAct x s).2 :=
  hs.of_world hl (hx.view _) (hx.source _)

theorem exists_currentSubjects (hl : k.Locates e.subjects)
    (hs : Stands k e ctx o vs s) :
    ∃ s₁, e.currentSubjects ctx s = (.ok vs, s₁) ∧ Stands k e ctx o vs s₁ := by
  obtain ⟨us, s₁, h⟩ := e.currentSubjects_ok ctx s
  have hus : us = vs := by
    have ht := hs.told
    rw [h] at ht
    exact Except.ok.inj ht
  subst hus
  obtain ⟨hloc, _, hw⟩ := currentSubjects_spec h
  refine ⟨s₁, h, ?_, ?_⟩
  · rcases hw with ⟨_, hw⟩ | ⟨_, hf⟩
    · rw [hw]
      exact hs.view
    · have hv := hl.view s.world
      rw [hf] at hv
      exact hv.trans hs.view
  · unfold currentSubjects
    rw [hloc]

end Stands

theorem Stands.exists_answerChecked (hl : k.Locates e.subjects)
    (hs : Stands k e ctx o vs s) (c : Checker σ) (missing : ConfigurationFault)
    (name : String) :
    ∃ s₁, Stands k e ctx o vs s₁ ∧ e.answerChecked ctx (some c) missing name s =
      Step.ofWorld (anySubject c name vs) s₁ := by
  obtain ⟨s₁, h, hs₁⟩ := hs.exists_currentSubjects hl
  exact ⟨s₁, hs₁, Step.bind_ok h⟩

theorem Stands.answerChecked (hl : k.Locates e.subjects) (hs : Stands k e ctx o vs s)
    {checker : Option (Checker σ)}
    (hc : ∀ c, checker = some c → ∀ v name, k.Unseen (c.holds v name))
    (missing : ConfigurationFault) (name : String) :
    Stands k e ctx o vs (e.answerChecked ctx checker missing name s).2 ∧
      ∀ fault, (e.answerChecked ctx checker missing name s).1 ≠
        .error (.runtime fault) := by
  cases checker with
  | none => exact ⟨hs, fun _ h => by cases h⟩
  | some c =>
      obtain ⟨s₁, hs₁, ha⟩ := hs.exists_answerChecked hl c missing name
      rw [ha]
      exact ⟨hs₁.ofWorld hl (Outlook.unseen_of_searches (searches_anySubject c name vs)
        fun v _ => hc c rfl v name), fun _ h => by cases h⟩

theorem Stands.consult (ht : Tame k e) (hs : Stands k e ctx o vs s) {p : Policy}
    (v : Value) (hp : p.ignoresResource = true) :
    Stands k e ctx o vs (e.consult ctx p v s).2 ∧
      ∀ fault, (e.consult ctx p v s).1 ≠ .error (.runtime fault) := by
  cases p with
  | method | service | resource => cases hp
  | role r => exact hs.answerChecked ht.subjects ht.roles _ r
  | permission n => exact hs.answerChecked ht.subjects ht.permissions _ n
  | allow | deny | delegate | allOrNothing | unrecognized =>
      exact ⟨hs, fun _ h => by cases h⟩

theorem Stands.delegated (ht : Tame k e) (hs : Stands k e ctx o vs s)
    (root : List Policy) (chain : List String) (type : String) :
    Stands k e ctx o vs (e.delegated chain type s).2 ∧
      (∀ fault, (e.delegated chain type s).1 ≠ .error (.runtime fault)) ∧
      ∀ ps qs, (e.delegated chain type s).1 = .ok qs → e.loader.Among k o root ps →
        .delegate type ∈ ps → e.loader.Among k o root qs := by
  have hx := (ht.loader.typeExists type).toUnseen
  have hl := (ht.loader.loadType type).toUnseen
  rcases hd : e.delegated chain type s with ⟨err | qs, s₁⟩
  · have hf : e.Faults ctx chain (.delegate type) .null s err s₁ :=
      delegated_eq_error.mp hd
    refine ⟨?_, ?_, fun _ _ h => by cases h⟩
    · cases hf with
      | unknownType h | circular h =>
          have hs := hs.ofWorld ht.subjects hx
          rw [h] at hs
          exact hs
      | load h _ hf =>
          have hs := hs.ofWorld ht.subjects hx
          rw [h] at hs
          have hs := hs.ofAct ht.subjects hl
          rw [hf] at hs
          exact hs
    · rintro fault ⟨⟩
      cases hf with
      | load h _ hf => exact ht.declared.loadType type _ fault (congrArg Prod.fst hf)
  · obtain ⟨s₂, h, _, hf⟩ := delegated_eq_ok.mp hd
    have hs₂ := hs.ofWorld ht.subjects hx
    rw [h] at hs₂
    have hs₁ := hs₂.ofAct ht.subjects hl
    rw [hf] at hs₁
    refine ⟨hs₁, fun _ h => (by cases h), fun ps qs' hq hn hm => ?_⟩
    cases hq
    obtain ⟨qs', ho, hq⟩ := hn _ hm
    exact fun p hp =>
      ⟨qs, .delegated ho hq hs.view (Except.ok.inj (congrArg Prod.fst h))
        hs₂.view (congrArg Prod.fst hf), hp⟩

theorem given_of_ignoresResource {ps : List Policy}
    (hp : ∀ p ∈ ps, p.ignoresResource = true) : ps.find? Policy.isResource = none := by
  refine List.find?_eq_none.mpr fun p hm => ?_
  have hp := hp p hm
  cases p with
  | resource => cases hp
  | _ => exact Bool.false_ne_true

theorem Opens.of_ignoresResource {ps : List Policy} {v : Value} {evs : List Event}
    {r : Except AccessError (Option Value)} (hp : ∀ p ∈ ps, p.ignoresResource = true)
    (ho : e.Opens ps v s evs r s') : r = .ok (some v) ∧ s' = s := by
  obtain ⟨_, hr, hs⟩ := ho.unique (.given (given_of_ignoresResource hp))
  exact ⟨hr, hs⟩

theorem conditions_subset (ps : List Policy) :
    conditions ps ⊆ ps := List.filter_subset_self ps

/-- The policies of all lists that delegations lead to are answered without regard to
the resource. -/
def Ignores (k : Outlook σ) (e : Engine σ) (o : k.View) (root : List Policy) : Prop :=
  ∀ ps, e.loader.Offers k o root ps → ∀ p ∈ ps, p.ignoresResource = true

theorem Ignores.of_among (h : Ignores k e o root) {ps : List Policy}
    (hn : e.loader.Among k o root ps) : ∀ p ∈ ps, p.ignoresResource = true := by
  intro p hp
  obtain ⟨qs, hq, hm⟩ := hn p hp
  exact h qs hq p hm

theorem Runs.stands {pt : Point σ} {evs : List Event} {r : Except AccessError Bool}
    (h : e.Runs ctx pt evs r s') (ht : Tame k e) (hi : Ignores k e o root)
    (hn : e.loader.Among k o root pt.task.policies)
    (hs : Stands k e ctx o vs pt.state) :
    Stands k e ctx o vs s' ∧ ∀ fault, r ≠ .error (.runtime fault) := by
  induction h with
  | unconditional | done => exact ⟨hs, fun _ h => by cases h⟩
  | opened _ ho _ ih =>
      obtain ⟨_, rfl⟩ := ho.of_ignoresResource (hi.of_among hn)
      exact ih (hn.of_subset (conditions_subset _)) hs
  | unlocated _ ho | unopened _ ho => cases (ho.of_ignoresResource (hi.of_among hn)).1
  | settled _ ih | failed _ ih => exact ih hn.head hs
  | next _ _ ihp ihr => exact ihr hn.tail (ihp hn.head hs).1
  | @refused _ p v _ _ _ _ h | @consulted _ p v _ _ _ h =>
      have hc := hs.consult ht v (hi.of_among hn p (List.mem_singleton_self p))
      simp only [h] at hc
      exact hc
  | @faulted chain p v s err s₁ h =>
      have hf : Stands k e ctx o vs s₁ ∧
          ∀ fault, (.error err : Except AccessError Bool) ≠
            .error (.runtime fault) := by
        rcases eq_delegate_or p with ⟨type, rfl⟩ | hd
        · obtain ⟨hd, hr, _⟩ := hs.delegated ht root chain type
          rw [delegated_eq_error.mpr h] at hd hr
          refine ⟨hd, fun fault he => hr fault ?_⟩
          cases he
          rfl
        · have hc := hs.consult ht v (hi.of_among hn p (List.mem_singleton_self p))
          rw [(consult_eq_error h.isRefused hd).mpr h] at hc
          exact hc
      exact ⟨hf.1, fun fault he => hf.2 fault (contained_eq_runtime.mp he)⟩
  | @delegated chain type v s ps s₁ _ _ _ h _ ih =>
      obtain ⟨hd, _, hq⟩ := hs.delegated ht root chain type
      rw [h] at hd hq
      have hr := ih (hq _ _ rfl hn (List.mem_singleton_self _)) hd
      exact ⟨hr.1, fun fault he => hr.2 fault (contained_eq_runtime.mp he)⟩

/-- What remains true of the points of an evaluation: the lists it comes to are those
that delegations lead to from the first, and it has the same view all the time. -/
structure Remains (k : Outlook σ) (e : Engine σ) (ctx : Context) (o : k.View)
    (root : List Policy) (vs : List Value) (origin : List String)
    (pt : Point σ) : Prop where
  among : e.loader.Among k o root pt.task.policies
  stands : Stands k e ctx o vs pt.state
  chain : ∀ type ∈ pt.chain, type ∈ origin ∨ type ∈ e.loader.offered k o root

theorem Moves.remains {origin : List String} {pt pt' : Point σ} {evs : List Event}
    (h : e.Moves ctx pt evs pt') (ht : Tame k e) (hi : Ignores k e o root)
    (hr : Remains k e ctx o root vs origin pt) :
    Remains k e ctx o root vs origin pt' := by
  obtain ⟨hn, hs, hc⟩ := hr
  cases h with
  | opens _ ho =>
      obtain ⟨_, rfl⟩ := ho.of_ignoresResource (hi.of_among hn)
      exact ⟨hn.of_subset (conditions_subset _), hs, hc⟩
  | first => exact ⟨hn.head, hs, hc⟩
  | next hp => exact ⟨hn.tail, (hp.stands ht hi hn.head hs).1, hc⟩
  | @delegates chain type v s ps s₁ hd =>
      obtain ⟨hs₁, _, hq⟩ := hs.delegated ht root chain type
      rw [hd] at hs₁ hq
      obtain ⟨_, hx, _⟩ := delegated_eq_ok.mp hd
      obtain ⟨qs, ho, hm⟩ := hn _ (List.mem_singleton_self _)
      refine ⟨hq _ _ rfl hn (List.mem_singleton_self _), hs₁, fun t ht => ?_⟩
      rcases List.mem_append.mp ht with ht | ht
      · exact hc t ht
      · cases List.mem_singleton.mp ht
        exact .inr ⟨qs, s.world, ho, hm, hs.view, Except.ok.inj (congrArg Prod.fst hx)⟩

theorem Reaches.remains {origin : List String} {pt pt' : Point σ} {evs : List Event}
    (h : e.Reaches ctx pt evs pt') (ht : Tame k e) (hi : Ignores k e o root)
    (hr : Remains k e ctx o root vs origin pt) :
    Remains k e ctx o root vs origin pt' :=
  h.invariant (fun hm => hm.remains ht hi) hr

/-- The evaluation of a list ends if delegations lead to finitely many types from
there. -/
theorem Stands.ends (ht : Tame k e) (hi : Ignores k e o root)
    (hf : (e.loader.offered k o root).Finite) (hs : Stands k e ctx o vs s)
    (origin : List String) (v : Value) : e.Ends ctx ⟨origin, .list root, v, s⟩ := by
  have hr : Remains k e ctx o root vs origin ⟨origin, .list root, v, s⟩ :=
    ⟨fun p hp => ⟨root, .root, hp⟩, hs, fun _ h => .inl h⟩
  exact .of_finite (origin.finite_toSet.union hf) _ fun _ _ h =>
    (h.remains ht hi hr).chain

/-! ## Two evaluations -/

theorem eq_ok_of_contained {r : Except AccessError Bool}
    (h : e.contained false r = .ok true) : r = .ok true := by
  rcases r with (fault | fault) | b
  · unfold contained at h
    simp only [] at h
    split at h
    · cases h
    · cases h
  · cases h
  · exact h

/-- A policy that is not refused has an answer, if it is not for a fault at runtime. -/
theorem Runs.exists_answer {chain : List String} {p : Policy} {v : Value}
    {evs : List Event} {r : Except AccessError Bool}
    (h : e.Runs ctx ⟨chain, .policy p, v, s⟩ evs r s') (hq : e.settings.debug = false)
    (hp : p.isRefused = false)
    (hr : ∀ fault, r ≠ .error (.runtime fault)) : ∃ b, r = .ok b := by
  rcases r with (fault | fault) | b
  · generalize hc : (.error (.configuration fault) : Except AccessError Bool) = r at h
    cases h with
    | refused hp' => rw [hp] at hp'; cases hp'
    | consulted => cases hc
    | faulted | delegated => exact absurd hc.symm (contained_ne_configuration hq)
  · exact absurd rfl (hr fault)
  · exact ⟨b, rfl⟩

theorem Runs.isRefused_of_ok {chain : List String} {p : Policy} {v : Value}
    {evs : List Event} {b : Bool}
    (h : e.Runs ctx ⟨chain, .policy p, v, s⟩ evs (.ok b) s') :
    p.isRefused = false := by
  generalize hr : (.ok b : Except AccessError Bool) = r at h
  cases h with
  | refused => cases hr
  | consulted h => exact (asked_of_consult h).1
  | faulted h => exact h.isRefused
  | delegated => rfl

/-- The answer of a policy that is asked for its own is what it says, contained. -/
theorem Runs.of_consult {chain : List String} {p : Policy} {v : Value}
    {evs : List Event} {r : Except AccessError Bool}
    (h : e.Runs ctx ⟨chain, .policy p, v, s⟩ evs r s') (hp : p.isRefused = false)
    (hd : ∀ type, p ≠ .delegate type) :
    e.contained false (e.consult ctx p v s).1 = r := by
  rcases hc : e.consult ctx p v s with ⟨r₀, s₀⟩
  have hh : e.handle ctx chain p v s = some (r₀, s₀) :=
    (handle_of_consult hd).trans (congrArg some hc)
  have ha := answer_of_handle hh
  rw [if_neg (by simp [hp])] at ha
  have ho : e.answer ctx chain p v s = some (r, s') := h.outcome
  cases ha.symm.trans ho
  rfl

/-- The second engine has the policies of the first, and perhaps other subjects.
Besides its checkers may have further members, and it may no longer deny targets
without policies. -/
structure Widens (k : Outlook σ) (e e' : Engine σ) : Prop where
  host : e'.host = e.host
  loader : e'.loader = e.loader
  debug : e'.settings.debug = e.settings.debug
  empty : e'.settings.denyIfNoPolicies = true → e.settings.denyIfNoPolicies = true
  roles : Option.Rel (Checker.Gains k) e.roles e'.roles
  permissions : Option.Rel (Checker.Gains k) e.permissions e'.permissions

theorem Widens.ignores (hw : Widens k e e') (hi : Ignores k e o root) :
    Ignores k e' o root := by
  unfold Ignores
  rw [hw.loader]
  exact hi

theorem Widens.among (hw : Widens k e e') {ps : List Policy}
    (hn : e.loader.Among k o root ps) : e'.loader.Among k o root ps := by
  rw [hw.loader]
  exact hn

theorem Widens.policiesOf_eq (hw : Widens k e e') (target : Target) :
    e'.policiesOf target = e.policiesOf target := by
  unfold policiesOf typing
  rw [hw.loader, hw.host]

theorem answerChecked_mono (hl : k.Locates e.subjects) (hl' : k.Locates e'.subjects)
    {checker checker' : Option (Checker σ)}
    (hc : Option.Rel (Checker.Gains k) checker checker') (hs : Stands k e ctx o vs s)
    (hs' : Stands k e' ctx' o vs' s') (hv : vs ⊆ vs') (missing : ConfigurationFault)
    (name : String) (h : (e.answerChecked ctx checker missing name s).1 = .ok true) :
    (e'.answerChecked ctx' checker' missing name s').1 = .ok true := by
  cases hc with
  | none => cases h
  | @some c c' hc =>
      have hc := hc.concedes
      obtain ⟨s₁, hs₁, ha⟩ := hs.exists_answerChecked hl c missing name
      obtain ⟨s₂, hs₂, ha'⟩ := hs'.exists_answerChecked hl' c' missing name
      rw [ha] at h
      rw [ha']
      refine congrArg Except.ok (Outlook.searches_mono (searches_anySubject c name vs)
        (searches_anySubject c' name vs') (fun v _ => hc.unseen v name)
        (fun v _ => hc.unseen' v name)
        (fun v hm => ⟨v, hv hm, fun _ _ hw => hc.yes hw⟩)
        (hs₁.view.trans hs₂.view.symm) (Except.ok.inj h))

theorem Widens.consult (hw : Widens k e e') (hl : k.Locates e.subjects)
    (hl' : k.Locates e'.subjects) (hs : Stands k e ctx o vs s)
    (hs' : Stands k e' ctx' o vs' s') (hv : vs ⊆ vs') {p : Policy} (v : Value)
    (hp : p.ignoresResource = true) (h : (e.consult ctx p v s).1 = .ok true) :
    (e'.consult ctx' p v s').1 = .ok true := by
  cases p with
  | method | service | resource => cases hp
  | allow => rfl
  | role r => exact answerChecked_mono hl hl' hw.roles hs hs' hv _ r h
  | permission n => exact answerChecked_mono hl hl' hw.permissions hs hs' hv _ n h
  | deny | delegate | allOrNothing | unrecognized => cases h

theorem lockstep_of_steady {A : Type} {x : σ → A × σ} (h : k.Steady x) :
    Lockstep (fun w w' => k.view w = k.view w') x x :=
  fun w w' hw => ⟨h.answer hw, (h.view w).trans (hw.trans (h.view w').symm)⟩

/-- A delegation comes to the same list. -/
theorem Widens.delegated (hw : Widens k e e') (ht : Tame k e)
    (hv : k.view s.world = k.view s'.world) (chain : List String) (type : String) :
    (e.delegated chain type s).1 = (e'.delegated chain type s').1 := by
  have hc : Carries (fun w w' => k.view w = k.view w')
      (fun s s' : Evaluation σ => k.view s.world = k.view s'.world) :=
        ⟨id, fun _ h => h⟩
  have hx := Lockstep.ofWorld hc (lockstep_of_steady (ht.loader.typeExists type))
  have hl := Lockstep.ofAct hc (lockstep_of_steady (ht.loader.loadType type))
  unfold Engine.delegated
  rw [hw.loader]
  refine (hx.bind_step fun b => ?_) s s' hv |>.1
  split
  · split
    · exact .throw_step _
    · exact hl
  · exact .throw_step _

/-- What the one evaluation grants the other grants. -/
theorem Runs.grants (hw : Widens k e e') (ht : Tame k e) (ht' : Tame k e')
    (hi : Ignores k e o root) (hv : vs ⊆ vs') {pt : Point σ} {evs evs' : List Event}
    {r r' : Except AccessError Bool} {s₁ s₁' : Evaluation σ}
    (h : e.Runs ctx pt evs r s₁) (hr : r = .ok true)
    (hn : e.loader.Among k o root pt.task.policies) (hs : Stands k e ctx o vs pt.state)
    (hs' : Stands k e' ctx' o vs' s')
    (h' : e'.Runs ctx' (pt.withState s') evs' r' s₁') : r' = .ok true := by
  induction h generalizing s' evs' r' s₁' with
  | unconditional hps =>
      cases h' with
      | unconditional =>
          cases hd : e'.settings.denyIfNoPolicies with
          | false => rfl
          | true =>
              rw [hw.empty hd] at hr
              cases hr
      | opened hps' | unlocated hps' | unopened hps' => rw [hps] at hps'; cases hps'
  | opened hps ho _ ih =>
      obtain ⟨hl, rfl⟩ := ho.of_ignoresResource (hi.of_among hn)
      cases hl
      cases h' with
      | unconditional hps' => rw [hps] at hps'; cases hps'
      | opened _ ho' hr' =>
          obtain ⟨hl, rfl⟩ := ho'.of_ignoresResource (hi.of_among hn)
          cases hl
          exact ih hr (hn.of_subset (conditions_subset _)) hs hs' hr'
      | unlocated _ ho' | unopened _ ho' =>
          cases (ho'.of_ignoresResource (hi.of_among hn)).1
  | unlocated | unopened | failed | refused => cases hr
  | done =>
      cases h' with
      | done => exact hr
  | settled _ ih =>
      cases h' with
      | settled => exact hr
      | next hp' =>
          have hp := ih hr hn.head hs hs' hp'
          rw [Except.ok.inj hr] at hp
          cases hp
      | failed hp' => cases ih hr hn.head hs hs' hp'
  | @next _ mode _ _ _ _ _ _ _ _ _ hp _ ihp ihr =>
      cases h' with
      | settled hp' =>
          cases hm : mode.settling with
          | true => rfl
          | false =>
              rw [hm] at ihp hp'
              cases ihp rfl hn.head hs hs' hp'
      | next hp' hr' =>
          exact ihr hr hn.tail (hp.stands ht hi hn.head hs).1
            (hp'.stands ht' (hw.ignores hi) (hw.among hn.head) hs').1 hr'
      | failed hp' =>
          -- The first evaluation goes on, so its policy is not one that is refused.
          obtain ⟨b, hb⟩ := hp'.exists_answer ht'.debug hp.isRefused_of_ok
            (hp'.stands ht' (hw.ignores hi) (hw.among hn.head) hs').2
          cases hb
  | @consulted chain p v s b s₁ hc =>
      obtain ⟨hp, hd⟩ := asked_of_consult hc
      have hy := hw.consult ht.subjects ht'.subjects hs hs' hv v
        (hi.of_among hn p (List.mem_singleton_self p))
        ((congrArg Prod.fst hc).trans hr)
      rw [← h'.of_consult hp hd, hy]
      rfl
  | faulted => cases eq_ok_of_contained hr
  | @delegated chain type v s ps s₁ _ _ _ hd _ ih =>
      have hl := hw.delegated ht (hs.view.trans hs'.view.symm) chain type
      rw [hd] at hl
      cases h' with
      | refused hp => cases hp
      | consulted hc => cases hc
      | faulted hf => rw [delegated_eq_error.mpr hf] at hl; cases hl
      | delegated hd' hr' =>
          rw [hd'] at hl
          cases hl
          obtain ⟨hs₁, _, hq⟩ := hs.delegated ht root chain type
          obtain ⟨hs₁', _, _⟩ := hs'.delegated ht' root chain type
          rw [hd] at hs₁ hq
          rw [hd'] at hs₁'
          have hn' := hq _ _ rfl hn (List.mem_singleton_self _)
          rw [ih (eq_ok_of_contained hr) hn' hs₁ hs₁' hr']
          rfl

theorem unseen_of_gains {checker checker' : Option (Checker σ)}
    (h : Option.Rel (Checker.Gains k) checker checker') :
    (∀ c, checker = some c → ∀ v name, k.Unseen (c.holds v name)) ∧
      ∀ c', checker' = some c' → ∀ v name, k.Unseen (c'.holds v name) := by
  cases h with
  | none => exact ⟨fun _ h => (by cases h), fun _ h => (by cases h)⟩
  | some h =>
      refine ⟨?_, ?_⟩
      · rintro _ ⟨⟩
        exact h.concedes.unseen
      · rintro _ ⟨⟩
        exact h.concedes.unseen'

/-- A list that is loaded is that of the target in the view of the world there is, and
its evaluation begins with what is told of the subjects. -/
theorem Stands.of_policiesOf (hl : e.loader.Steady k) (hf : k.Locates e.subjects)
    {target : Target} {s : Session σ} {s₁ : Evaluation σ} (hv : k.view s.world = o)
    (hs : (e.currentSubjects ctx (.start s)).1 = .ok vs)
    (h : Step.ofAct (e.policiesOf target) (.start s) = (.ok root, s₁)) :
    Stands k e ctx o vs s₁ ∧ ∀ w, k.view w = o →
      (e.policiesOf target w).1 = .ok root := by
  have hp := steady_policiesOf hl target
  refine ⟨?_, fun w hw => (hp.answer (hw.trans hv.symm)).trans (congrArg Prod.fst h)⟩
  have hs₁ := Stands.ofAct hf ⟨hv, hs⟩ hp.toUnseen
  rwa [h] at hs₁

/-- What is granted is still granted with further subjects anywhere among those that
are located, with further members anywhere in a chain of checkers, and if targets
without policies are no longer denied. Unless delegations lead to ever new types from
the target's own list, there is an answer. -/
theorem granting_monotone (hw : Widens k e e') (hq : e.settings.debug = false)
    (hl : e.loader.Steady k) (hd : e.loader.FailsDeclared) (hf : k.Locates e.subjects)
    (hf' : k.Locates e'.subjects) {target : Target} {s s' t : Session σ}
    (hv : k.view s.world = k.view s'.world)
    (hi : ∀ root, (e.policiesOf target s.world).1 = .ok root →
      Ignores k e (k.view s.world) root)
    (hs : (e.currentSubjects ctx (.start s)).1 = .ok vs)
    (hs' : (e'.currentSubjects ctx' (.start s')).1 = .ok vs') (hvs : vs.Sublist vs')
    (h : e.check target ctx s = some (.ok true, t)) :
    (∀ r t', e'.check target ctx' s' = some (r, t') → r = .ok true) ∧
      ((∀ root, (e.policiesOf target s.world).1 = .ok root →
        (e.loader.offered k (k.view s.world) root).Finite) →
        ∃ t', e'.check target ctx' s' = some (.ok true, t')) := by
  have hr := unseen_of_gains hw.roles
  have hp := unseen_of_gains hw.permissions
  have ht : Tame k e := ⟨hq, hl, hd, hf, hr.1, hp.1⟩
  have ht' : Tame k e' :=
    ⟨hw.debug.trans hq, hw.loader ▸ hl, hw.loader ▸ hd, hf', hr.2, hp.2⟩
  have htyp : e'.typing = e.typing :=
    congrArg (fun host : Host σ => host.toTyping) hw.host
  -- Whatever list the second engine loads, the first has the same one.
  have loads {root : List Policy} {s₁' : Evaluation σ}
      (hload' : Step.ofAct (e'.policiesOf target) (.start s') = (.ok root, s₁')) :
      Stands k e' ctx' (k.view s.world) vs' s₁' ∧
        (e.policiesOf target s.world).1 = .ok root := by
    obtain ⟨hs₁', hroot⟩ := Stands.of_policiesOf ht'.loader hf' hv.symm hs' hload'
    exact ⟨hs₁', hw.policiesOf_eq target ▸ hroot s.world rfl⟩
  have granted : ∀ r t', e'.check target ctx' s' = some (r, t') → r = .ok true := by
    intro r t' h'
    obtain ⟨evs, hc⟩ := check_eq_some_iff.mp h
    obtain ⟨evs', hc'⟩ := check_eq_some_iff.mp h'
    generalize hr : (.ok true : Except AccessError Bool) = r₀ at hc
    cases hc with
    | unloaded => cases eq_ok_of_contained hr.symm
    | @loaded root s₁ _ _ s₂ hload hrun =>
        obtain ⟨hs₁, hroot⟩ := Stands.of_policiesOf hl hf rfl hs hload
        cases hc' with
        | unloaded hload' =>
            rw [hw.policiesOf_eq] at hload'
            have hroot' :
                (Step.ofAct (e.policiesOf target) (.start s')).1 = .ok root :=
              hroot s'.world hv.symm
            cases hroot'.symm.trans (congrArg Prod.fst hload')
        | loaded hload' hrun' =>
            obtain ⟨hs₁', hroot'⟩ := loads hload'
            cases (hroot s.world rfl).symm.trans hroot'
            rw [htyp] at hrun'
            exact (hrun.grants hw ht ht' (hi root hroot') hvs.subset hr.symm
              (fun p hm => ⟨root, .root, hm⟩) hs₁ hs₁' hrun').trans hr
  refine ⟨granted, fun hfin => ?_⟩
  obtain ⟨r, t', h'⟩ := exists_check fun root s₁' hload' => by
    obtain ⟨hs₁', hroot⟩ := loads hload'
    exact hs₁'.ends ht' (hw.ignores (hi root hroot)) (hw.loader ▸ hfin root hroot) _ _
  rw [granted r t' h'] at h'
  exact ⟨t', h'⟩

/-- A function that asks for a role and for what another type says, and this type for
what a type without policies says, or else for the role. Every name is a checker's own,
and the locator answers by the clock. -/
def guarded (subjects : List Value) (names : List String)
    (deny : Bool) : Engine Nat where
  host := { typeName := Handle.name, call := fun _ _ _ => pure .null }
  loader :=
    { loadType := fun type =>
        pure (if type = "B" then [.delegate "C", .role "r"] else [])
      loadMethod := fun _ _ => pure []
      loadFunction := fun _ => pure [.allOrNothing, .role "r", .delegate "B"]
      typeExists := fun _ => pure true }
  subjects := ⟨fun n => (subjects ++ [.string (toString n)], n + 1)⟩
  roles := some (.chain (names.map fun name =>
    ⟨fun v _ => pure (v.asString? == some name)⟩))
  settings := { denyIfNoPolicies := deny }

/-- Nobody looks at the clock but the locator. -/
def clock : Outlook Nat where
  View := Unit
  Source := Nat
  view _ := ()
  source n := n

theorem steady_pure {A : Type} (a : A) : k.Steady (pure a : StateM σ A) :=
  ⟨⟨fun _ => rfl, fun _ => rfl⟩, fun _ => rfl⟩

theorem guarded_steady (vs : List Value) (names : List String) (deny : Bool) :
    (guarded vs names deny).loader.Steady clock ∧
      clock.Locates (guarded vs names deny).subjects where
  left := ⟨fun _ => steady_pure _, fun _ _ => steady_pure _, fun _ => steady_pure _,
    fun _ => steady_pure _⟩
  right := ⟨fun _ => rfl, fun _ hn => by cases hn; rfl⟩

theorem guarded_declared (vs : List Value) (names : List String) (deny : Bool) :
    (guarded vs names deny).loader.FailsDeclared where
  loadType := fun _ _ _ h => by cases h
  loadMethod := fun _ _ _ _ h => by cases h
  loadFunction := fun _ _ _ h => by cases h

theorem guarded_widens {names names' : List String} (hn : names.Sublist names')
    (vs vs' : List Value) :
    (guarded vs names true).Widens clock (guarded vs' names' false) where
  host := rfl
  loader := rfl
  debug := rfl
  empty := fun h => by cases h
  roles := by
    refine .some (.members (hn.map _) (fun c hc v name => ?_) fun c hc v name => ?_)
    · obtain ⟨_, _, rfl⟩ := List.mem_map.mp hc
      exact steady_pure _
    · obtain ⟨_, _, rfl⟩ := List.mem_map.mp hc
      exact (steady_pure _).toUnseen
  permissions := .none

/-- Delegations lead from the list of the function to two more lists. -/
theorem guarded_offers {subjects : List Value} {names : List String} {deny : Bool}
    {ps : List Policy} (h : (guarded subjects names deny).loader.Offers clock ()
      [.allOrNothing, .role "r", .delegate "B"] ps) :
    ps = [.allOrNothing, .role "r", .delegate "B"] ∨ ps = [.delegate "C", .role "r"] ∨
      ps = [] := by
  cases h with
  | root => exact .inl rfl
  | @delegated _ type _ _ _ _ _ _ _ _ hl =>
      obtain rfl : (if type = "B" then [.delegate "C", .role "r"] else []) = ps :=
        Except.ok.inj hl
      split
      · exact .inr (.inl rfl)
      · exact .inr (.inr rfl)

theorem guarded_ignores (vs : List Value) (names : List String) (deny : Bool) :
    (guarded vs names deny).Ignores clock ()
      [.allOrNothing, .role "r", .delegate "B"] := by
  intro ps h
  rcases guarded_offers h with rfl | rfl | rfl
  · decide
  · decide
  · decide

theorem guarded_finite_offered (vs : List Value) (names : List String) (deny : Bool) :
    ((guarded vs names deny).loader.offered clock ()
      [.allOrNothing, .role "r", .delegate "B"]).Finite := by
  refine ["B", "C"].finite_toSet.subset ?_
  rintro type ⟨ps, _, h, hm, _⟩
  rcases guarded_offers h with rfl | rfl | rfl
  · obtain rfl : type = "B" := by simpa using hm
    exact List.mem_cons_self ..
  · obtain rfl : type = "C" := by simpa using hm
    exact List.mem_cons_of_mem _ (List.mem_cons_self ..)
  · cases hm

/-- One subject, one checker, and targets without policies are denied. -/
def modest : Engine Nat := guarded [.string "ann"] ["ann"] true

/-- A subject in front of the one, a checker in front of the other, and targets without
policies are granted. -/
def generous : Engine Nat :=
  guarded [.string "eve", .string "ann"] ["bob", "ann"] false

/-- After the subjects have been located. -/
def told : Evaluation Nat := ⟨1, .empty, some [.string "ann", .string "0"]⟩

theorem modest_check :
    modest.check (.function "f") {} ⟨0, .empty⟩ = some (.ok true, told.session) := by
  have hc : modest.Runs {} ⟨["B", "C"], .list [], .string "f", told⟩ _
      (.ok false) told :=
    .unconditional rfl
  have hdc : modest.Runs {} ⟨["B"], .policy (.delegate "C"), .string "f", told⟩ _
      (.ok (!Mode.any.settling)) told :=
        Runs.delegated (e := modest) (r := .ok false) rfl hc
  have hb :
      modest.Runs {} ⟨["B"], .list [.delegate "C", .role "r"], .string "f", told⟩ _
        (.ok true) told :=
        .opened rfl (.given rfl) (.next hdc (.settled (.consulted rfl)))
  have hdb : modest.Runs {} ⟨[], .policy (.delegate "B"), .string "f", told⟩ _
      (.ok (!Mode.all.settling)) told :=
        Runs.delegated (e := modest) (r := .ok true) rfl hb
  have hf :
      modest.Runs {} ⟨[], .list [.allOrNothing, .role "r", .delegate "B"], .string "f",
        .start ⟨0, .empty⟩⟩ _ (.ok true) told :=
    .opened rfl (.given rfl) (.next (.consulted rfl) (.next hdb .done))
  have hl : modest.Checks {} (.function "f") ⟨0, .empty⟩ _ (.ok true) told.session :=
    .loaded rfl hf
  exact check_eq_some_iff.mpr ⟨_, hl⟩

/-- The larger engine grants the function as well, and does not get to the second role:
the type without policies grants before. -/
theorem generous_monotone :
    modest.check (.function "f") {} ⟨0, .empty⟩ = some (.ok true, told.session) ∧
      ∃ t, generous.check (.function "f") {} ⟨0, .empty⟩ = some (.ok true, t) := by
  have hs := guarded_steady [.string "ann"] ["ann"] true
  have hs' := guarded_steady [.string "eve", .string "ann"] ["bob", "ann"] false
  have hw : Widens clock modest generous := guarded_widens (.cons _ (.refl _)) _ _
  have hroot {root : List Policy}
      (h : (modest.policiesOf (.function "f") 0).1 = .ok root) :
      [.allOrNothing, .role "r", .delegate "B"] = root := Except.ok.inj h
  exact ⟨modest_check,
    (granting_monotone hw rfl hs.1 (guarded_declared _ _ _) hs.2 hs'.2 rfl
      (fun root h => hroot h ▸ guarded_ignores _ _ _) rfl rfl (.cons _ (.refl _))
      modest_check).2 fun root h => hroot h ▸ guarded_finite_offered _ _ _⟩

end Engine

end Clearance
