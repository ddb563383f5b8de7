import Clearance.Proofs.Lockstep

/-!
# Evaluations that cannot be told apart

Two engines that match are followed through an evaluation, however long it is.
Besides the worlds there are three things in which the evaluations may differ.
They may stand at different points of delegation: what the chain is used for is
to refuse types that are on it, and to say so in an error, so it is enough that
the chains hold the same of the types that are still delegated to, and the errors
then agree up to the chain they show. They may have different contexts, if these
say the same to the engines; and then their subject caches may differ as well, as
long as the contexts lead to the same one.

What two evaluations have in common is therefore a relation that is left open.
All that is asked of it is that what happens in the worlds keeps it. For one
context on both sides it is that the caches and the located subjects are the same.
-/

namespace Clearance

/-- The same outcome, up to the chain that a circular delegation shows. -/
inductive Agrees (R : List String → List String → Prop) {α : Type} :
    Except AccessError α → Except AccessError α → Prop where
  | same (r : Except AccessError α) : Agrees R r r
  | circular {chain chain' : List String} (h : R chain chain') (type : String) :
      Agrees R (.error (.configuration (.circularDelegation chain type)))
        (.error (.configuration (.circularDelegation chain' type)))

theorem Agrees.eq {α : Type} {r r' : Except AccessError α}
    (h : Agrees Eq r r') : r = r' := by
  cases h with
  | same r => rfl
  | circular h type => rw [h]

/-- Chains that hold the same of some types, and still do when one of these is
delegated to. -/
structure Follows (near : String → Prop)
    (R : List String → List String → Prop) : Prop where
  mem : ∀ {chain chain' type}, R chain chain' → near type →
    (type ∈ chain ↔ type ∈ chain')
  push : ∀ {chain chain' type}, R chain chain' → near type →
    R (chain ++ [type]) (chain' ++ [type])

theorem Follows.eq (near : String → Prop) : Follows near Eq where
  mem := by
    rintro _ _ _ rfl _
    rfl
  push := by
    rintro _ _ _ rfl _
    rfl

/-- Evaluations in related worlds that have located the same subjects. -/
structure Evaluation.Matches {σ τ : Type} (W : σ → τ → Prop) (s : Evaluation σ)
    (t : Evaluation τ) : Prop where
  world : W s.world t.world
  caches : s.caches = t.caches
  located : s.located = t.located

theorem Follows.symm {near : String → Prop} {R : List String → List String → Prop}
    (h : Follows near R) : Follows near (fun chain' chain => R chain chain') where
  mem := fun hc hn => (h.mem hc hn).symm
  push := h.push

/-- A relation between evaluations that is one between their worlds, and that is
kept when something happens in the worlds and nowhere else. -/
structure Carries {σ τ : Type} (W : σ → τ → Prop)
    (V : Evaluation σ → Evaluation τ → Prop) : Prop where
  world : ∀ {s t}, V s t → W s.world t.world
  update : ∀ {s t w w'}, V s t → W w w' →
    V { s with world := w } { t with world := w' }

theorem Carries.symm {σ τ : Type} {W : σ → τ → Prop}
    {V : Evaluation σ → Evaluation τ → Prop} (h : Carries W V) :
    Carries (fun t s => W s t) (fun t s => V s t) where
  world := h.world
  update := h.update

theorem Evaluation.carries_matches {σ τ : Type} (W : σ → τ → Prop) :
    Carries W (Evaluation.Matches W) where
  world := fun h => h.world
  update := fun h hw => ⟨hw, h.caches, h.located⟩

/-- The same outcome, and evaluations that are related when it is there. -/
def Outcome.Related {σ τ : Type} (R : List String → List String → Prop)
    (V : Evaluation σ → Evaluation τ → Prop) (o : Outcome σ Bool)
    (o' : Outcome τ Bool) : Prop :=
  Agrees R o.1 o'.1 ∧ V o.2 o'.2

/-- The same outcome in evaluations that are alike. -/
def Outcome.Matches {σ τ : Type} (R : List String → List String → Prop)
    (W : σ → τ → Prop) (o : Outcome σ Bool) (o' : Outcome τ Bool) : Prop :=
  Agrees R o.1 o'.1 ∧ o.2.Matches W o'.2

/-- The same point of an evaluation in another state, perhaps of another world. -/
def Point.withState {σ τ : Type} (pt : Point τ) (s : Evaluation σ) : Point σ :=
  ⟨pt.chain, pt.task, pt.resource, s⟩

/-- To two engines that match, each with a context of its own, the contexts say the
same wherever the evaluations are related. -/
structure Engine.Parallel {σ τ : Type} (W : σ → τ → Prop)
    (V : Evaluation σ → Evaluation τ → Prop) (near : String → Prop) (e : Engine σ)
    (ctx : Context) (e' : Engine τ) (ctx' : Context) : Prop extends Carries W V where
  engines : e.Matches W near e'
  subjects : Lockstep V (e.currentSubjects ctx) (e'.currentSubjects ctx')
  supplied : ∀ v vs, contextArguments ctx v vs = contextArguments ctx' v vs

namespace Lockstep

variable {σ τ α β : Type} {W : σ → τ → Prop} {V : Evaluation σ → Evaluation τ → Prop}

theorem ofWorld (hv : Carries W V) {x : StateM σ α} {y : StateM τ α}
    (h : Lockstep W x y) :
    Lockstep V (Step.ofWorld x) (Step.ofWorld y) := by
  intro s t hs
  obtain ⟨ha, hw⟩ := h s.world t.world (hv.world hs)
  exact ⟨congrArg Except.ok ha, hv.update hs hw⟩

theorem ofAct (hv : Carries W V) {x : Act σ α} {y : Act τ α} (h : Lockstep W x y) :
    Lockstep V (Step.ofAct x) (Step.ofAct y) := by
  intro s t hs
  obtain ⟨ha, hw⟩ := h s.world t.world (hv.world hs)
  exact ⟨ha, hv.update hs hw⟩

theorem pure_step (a : α) :
    Lockstep V (Pure.pure a : Step σ α) (Pure.pure a : Step τ α) :=
  fun _ _ h => ⟨rfl, h⟩

theorem throw_step (err : AccessError) :
    Lockstep V (throw err : Step σ α) (throw err : Step τ α) :=
  fun _ _ h => ⟨rfl, h⟩

theorem bind_step {x : Step σ α} {y : Step τ α} {f : α → Step σ β} {g : α → Step τ β}
    (h : Lockstep V x y) (hf : ∀ a, Lockstep V (f a) (g a)) :
    Lockstep V (x >>= f) (y >>= g) := by
  intro s t hs
  obtain ⟨ha, hs⟩ := h s t hs
  rcases hx : x s with ⟨err | a, s₁⟩ <;> rcases hy : y t with ⟨err' | b, t₁⟩ <;>
    rw [hx, hy] at ha hs <;> cases ha
  · rw [Step.bind_error hx, Step.bind_error hy]
    exact ⟨rfl, hs⟩
  · rw [Step.bind_ok hx, Step.bind_ok hy]
    exact hf a s₁ t₁ hs

theorem anySubject {c : Checker σ} {c' : Checker τ}
    (h : ∀ v name, Lockstep W (c.holds v name) (c'.holds v name)) (name : String)
    (vs : List Value) :
    Lockstep W (Engine.anySubject c name vs) (Engine.anySubject c' name vs) := by
  induction vs with
  | nil => exact .pure false
  | cons v vs ih =>
      refine (h v name).bind fun b => ?_
      cases b with
      | true => exact .pure true
      | false => exact ih

/-- What is found in the world may differ on the two sides, if it is alike. -/
theorem ofWorld_bind (hv : Carries W V) {A B : Type} {R : A → B → Prop}
    {x : StateM σ A} {y : StateM τ B} {f : A → Step σ α} {g : B → Step τ α}
    (h : ∀ s t, W s t → R (x s).1 (y t).1 ∧ W (x s).2 (y t).2)
    (hf : ∀ a b, R a b → Lockstep V (f a) (g b)) :
    Lockstep V (Step.ofWorld x >>= f) (Step.ofWorld y >>= g) := by
  intro s t hs
  obtain ⟨hr, hw⟩ := h s.world t.world (hv.world hs)
  exact hf _ _ hr { s with world := (x s.world).2 } { t with world := (y t.world).2 }
    (hv.update hs hw)

end Lockstep

namespace Engine.Matches

variable {σ τ : Type} {W : σ → τ → Prop} {near : String → Prop} {e : Engine σ}
  {e' : Engine τ}

/-! ## One context -/

theorem locate (h : e.Matches W near e') (ctx : Context) :
    Lockstep (fun p q => W p.1 q.1 ∧ p.2 = q.2) (e.locate ctx) (e'.locate ctx) := by
  have hf : Lockstep (fun p q : _ × SubjectCaches => W p.1 q.1 ∧ p.2 = q.2)
      (fun p => ((e.subjects.find p.1).1, ((e.subjects.find p.1).2, p.2)))
      (fun q => ((e'.subjects.find q.1).1, ((e'.subjects.find q.1).2, q.2))) := by
    rintro p q ⟨hw, hc⟩
    obtain ⟨ha, hw⟩ := h.subjects p.1 q.1 hw
    exact ⟨ha, hw, hc⟩
  unfold Engine.locate
  cases ctx.cache with
  | none => exact hf
  | some id =>
      rintro ⟨w, caches⟩ ⟨w', caches'⟩ ⟨hw, hc⟩
      obtain rfl : caches = caches' := hc
      simp only [Slot.getOrInit, SubjectCaches.slot]
      cases caches.held id with
      | some vs => exact ⟨rfl, hw, rfl⟩
      | none =>
          obtain ⟨ha, hw, _⟩ := hf (w, caches) (w', caches) ⟨hw, rfl⟩
          exact ⟨ha, hw, congrArg (SubjectCaches.fill id · caches) ha⟩

theorem currentSubjects (h : e.Matches W near e') (ctx : Context) :
    Lockstep (Evaluation.Matches W) (e.currentSubjects ctx)
      (e'.currentSubjects ctx) := by
  intro s t hs
  unfold Engine.currentSubjects
  rw [← hs.located]
  cases s.located with
  | some vs => exact ⟨rfl, hs⟩
  | none =>
      obtain ⟨ha, hw, hc⟩ := h.locate ctx (s.world, s.caches) (t.world, t.caches)
        ⟨hs.world, hs.caches⟩
      exact ⟨congrArg Except.ok ha, hw, hc, congrArg some ha⟩

/-- With the same context on both sides two engines that match are parallel. -/
theorem parallel (h : e.Matches W near e') (ctx : Context) :
    e.Parallel W (Evaluation.Matches W) near ctx e' ctx where
  toCarries := Evaluation.carries_matches W
  engines := h
  subjects := h.currentSubjects ctx
  supplied := fun _ _ => rfl

end Engine.Matches

namespace Engine.Parallel

variable {σ τ : Type} {W : σ → τ → Prop} {V : Evaluation σ → Evaluation τ → Prop}
  {near : String → Prop} {e : Engine σ} {e' : Engine τ} {ctx ctx' : Context}

theorem symm (h : e.Parallel W V near ctx e' ctx') :
    e'.Parallel (fun t s => W s t) (fun t s => V s t) near ctx' e ctx where
  toCarries := h.toCarries.symm
  engines := h.engines.symm
  subjects := h.subjects.symm
  supplied := fun v vs => (h.supplied v vs).symm

theorem typing (h : e.Parallel W V near ctx e' ctx') : e.typing = e'.typing :=
  h.engines.host.typing

/-! ## The parts of an evaluation -/

theorem arguments (h : e.Parallel W V near ctx e' ctx') (call : Call) (v : Value) :
    Lockstep V (e.arguments ctx call v) (e'.arguments ctx' call v) := by
  refine h.subjects.bind_step fun vs => ?_
  rw [h.supplied v vs]
  exact .ofAct h.toCarries (h.engines.host.route call _)

theorem expectDecision (h : e.Parallel W V near ctx e' ctx') (call : Call)
    (v : Value) :
    Lockstep V (e.expectDecision call v) (e'.expectDecision call v) := by
  unfold Engine.expectDecision
  rw [h.typing]
  cases v.asBool? with
  | some b => exact .pure_step b
  | none => exact .throw_step _

theorem decideCall (h : e.Parallel W V near ctx e' ctx') (call : Call) (v : Value)
    {c : Callee σ} {c' : Callee τ} (hc : c.Matches W e.typing c') :
    Lockstep V (e.decideCall ctx call v c) (e'.decideCall ctx' call v c') := by
  unfold Engine.decideCall
  rw [← h.typing]
  exact (h.arguments call v).bind_step fun args =>
    (Lockstep.ofAct h.toCarries (hc.callWith args)).bind_step fun v =>
      h.expectDecision call v

theorem answerChecked (h : e.Parallel W V near ctx e' ctx')
    {checker : Option (Checker σ)} {checker' : Option (Checker τ)}
    (missing : ConfigurationFault) (name : String)
    (hc :
      Option.Rel (fun c c' => ∀ v name, Lockstep W (c.holds v name) (c'.holds v name))
      checker checker') :
    Lockstep V (e.answerChecked ctx checker missing name)
      (e'.answerChecked ctx' checker' missing name) := by
  cases hc with
  | none => exact .throw_step _
  | @some c c' hc =>
      exact h.subjects.bind_step fun vs =>
        .ofWorld h.toCarries (.anySubject hc name vs)

theorem answerMethod (h : e.Parallel W V near ctx e' ctx') (text : String)
    (v : Value) :
    Lockstep V (e.answerMethod ctx text v) (e'.answerMethod ctx' text v) := by
  cases v with
  | object o =>
      refine Lockstep.bind_step (fun _ _ hs => ⟨rfl, hs⟩) fun call => ?_
      split
      · exact .throw_step _
      · exact h.decideCall call _ (h.engines.host.callee o call.method)
  | _ =>
      unfold Engine.answerMethod
      rw [h.typing]
      exact .throw_step _

theorem answerService (h : e.Parallel W V near ctx e' ctx') (text : String)
    (v : Value) :
    Lockstep V (e.answerService ctx text v) (e'.answerService ctx' text v) := by
  have hs := h.engines.services
  unfold Engine.answerService
  revert hs
  generalize e.services = services
  generalize e'.services = services'
  intro hs
  cases hs with
  | none => exact .throw_step _
  | @some l l' hl =>
      refine Lockstep.bind_step (fun _ _ hs => ⟨rfl, hs⟩) fun call => ?_
      -- The methods that are found are as little equal as the worlds are, but alike.
      refine Lockstep.ofWorld_bind h.toCarries (hl call.method call.service)
        fun m m' hm => ?_
      cases hm with
      | none => exact .throw_step _
      | some hm => exact h.decideCall call v (hm.callee call.text)

theorem consult (h : e.Parallel W V near ctx e' ctx') (p : Policy) (v : Value) :
    Lockstep V (e.consult ctx p v) (e'.consult ctx' p v) := by
  cases p with
  | allow => exact .pure_step true
  | deny => exact .pure_step false
  | role r => exact h.answerChecked _ r h.engines.roles
  | permission n => exact h.answerChecked _ n h.engines.permissions
  | method text => exact h.answerMethod text v
  | service text => exact h.answerService text v
  | delegate | resource | allOrNothing | unrecognized => exact .throw_step _

theorem tryLocate (h : e.Parallel W V near ctx e' ctx') (type accessor : String)
    (v : Value) :
    Lockstep V (e.tryLocate type accessor v) (e'.tryLocate type accessor v) := by
  have hr := h.engines.resources
  unfold Engine.tryLocate
  rw [h.engines.settings, h.typing]
  revert hr
  generalize e.resources = resources
  generalize e'.resources = resources'
  intro hr
  cases hr with
  | none => exact .throw_step _
  | @some l l' hl =>
      cases v with
      | object o =>
          refine (Lockstep.ofAct h.toCarries
            (h.engines.host.read .alone o accessor)).bind_step fun id => ?_
          split
          · exact .throw_step _
          · refine (Lockstep.ofWorld h.toCarries (hl type id)).bind_step
              fun found => ?_
            cases found.filter (fun v => !v.isNotFound) with
            | some v => exact .pure_step _
            | none =>
                simp only []
                split
                · exact .throw_step _
                · exact .pure_step _
      | _ => exact .throw_step _

theorem resourceFor (h : e.Parallel W V near ctx e' ctx') (ps : List Policy)
    (v : Value) :
    Lockstep V (e.resourceFor ps v) (e'.resourceFor ps v) := by
  unfold Engine.resourceFor
  split
  · next type accessor _ =>
      intro s t hs
      obtain ⟨ha, hs⟩ := h.tryLocate type accessor v s t hs
      refine ⟨?_, hs⟩
      show e.contained none (e.tryLocate type accessor v s).1 =
        e'.contained none (e'.tryLocate type accessor v t).1
      rw [ha, h.engines.contained]
  · exact .pure_step _

/-! ## Two chains

A delegation asks of the chain only whether a type is on it. What it says of the
chain is in the error, and the outcomes agree up to that. -/

theorem contained_agrees (h : e.Parallel W V near ctx e' ctx')
    {R : List String → List String → Prop} {α : Type} (answer : α)
    {r r' : Except AccessError α} (hr : Agrees R r r') :
    Agrees R (e.contained answer r) (e'.contained answer r') := by
  rw [h.engines.contained]
  cases hr with
  | same r => exact .same _
  | circular hc type =>
      cases hd : e'.settings.debug with
      | true =>
          rw [contained_of_debug hd, contained_of_debug hd]
          exact .circular hc type
      | false =>
          rw [contained_configuration hd, contained_configuration hd]
          exact .same _

theorem delegated (h : e.Parallel W V near ctx e' ctx')
    {R : List String → List String → Prop} (hR : Follows near R)
    {chain chain' : List String} {type : String} {s : Evaluation σ} {t : Evaluation τ}
    (hc : R chain chain') (hn : near type) (hs : V s t) :
    Agrees R (e.delegated chain type s).1 (e'.delegated chain' type t).1 ∧
      V (e.delegated chain type s).2 (e'.delegated chain' type t).2 := by
  obtain ⟨hx, hs⟩ := Lockstep.ofWorld h.toCarries (h.engines.typeExists type hn) s t hs
  rcases hb : Step.ofWorld (e.loader.typeExists type) s with ⟨err | b, s₁⟩
  · cases hb
  · rcases hb' : Step.ofWorld (e'.loader.typeExists type) t with ⟨err | b', t₁⟩
    · cases hb'
    · rw [hb, hb'] at hx hs
      obtain rfl : b = b' := Except.ok.inj hx
      unfold Engine.delegated
      rw [Step.bind_ok hb, Step.bind_ok hb']
      cases b with
      | false => exact ⟨.same _, hs⟩
      | true =>
          rw [if_pos rfl, if_pos rfl]
          by_cases hm : type ∈ chain
          · rw [if_pos hm, if_pos ((hR.mem hc hn).mp hm)]
            exact ⟨.circular hc type, hs⟩
          · rw [if_neg hm, if_neg fun hm' => hm ((hR.mem hc hn).mpr hm')]
            obtain ⟨hl, hs⟩ :=
              Lockstep.ofAct h.toCarries (h.engines.loadType type hn) s₁ t₁ hs
            rw [hl]
            exact ⟨.same _, hs⟩

theorem staysNear_of_delegated (h : e.Parallel W V near ctx e' ctx')
    (hcl : e.loader.Closed W near) {chain : List String} {type : String}
    {s s' : Evaluation σ} {t : Evaluation τ} {ps : List Policy} (hn : near type)
    (hs : V s t)
    (hd : e.delegated chain type s = (.ok ps, s')) : StaysNear near ps := by
  obtain ⟨s₁, hx, _, hl⟩ := delegated_eq_ok.mp hd
  obtain ⟨hb, rfl⟩ := Prod.mk.inj hx
  exact hcl type s.world t.world ps hn (h.world hs) (Except.ok.inj hb)
    (Prod.mk.inj hl).1

/-- Whatever one engine comes to the other comes to as well. As for runs, it is
enough that this is kept by one more round of the evaluator's equations. -/
theorem exists_related (h : e.Parallel W V near ctx e' ctx')
    (hcl : e.loader.Closed W near) {R : List String → List String → Prop}
    (hR : Follows near R) :
    (∀ chain ps v s o, e.decideList ctx chain ps v s = some o →
      ∀ chain' t, R chain chain' → StaysNear near ps → V s t →
        ∃ o', e'.decideList ctx' chain' ps v t = some o' ∧ o.Related R V o') ∧
    (∀ chain mode ps v s o, e.combine ctx chain mode ps v s = some o →
      ∀ chain' t, R chain chain' → StaysNear near ps → V s t →
        ∃ o', e'.combine ctx' chain' mode ps v t = some o' ∧ o.Related R V o') ∧
    (∀ chain p v s o, e.answer ctx chain p v s = some o →
      ∀ chain' t, R chain chain' → StaysNear near [p] → V s t →
        ∃ o', e'.answer ctx' chain' p v t = some o' ∧ o.Related R V o') ∧
    (∀ chain p v s o, e.handle ctx chain p v s = some o →
      ∀ chain' t, R chain chain' → StaysNear near [p] → V s t →
        ∃ o', e'.handle ctx' chain' p v t = some o' ∧ o.Related R V o') := by
  refine decideList.mutual_partial_correctness e ctx
    (fun chain ps v s o => ∀ chain' t, R chain chain' → StaysNear near ps → V s t →
      ∃ o', e'.decideList ctx' chain' ps v t = some o' ∧ o.Related R V o')
    (fun chain mode ps v s o => ∀ chain' t, R chain chain' →
      StaysNear near ps → V s t →
      ∃ o', e'.combine ctx' chain' mode ps v t = some o' ∧ o.Related R V o')
    (fun chain p v s o => ∀ chain' t, R chain chain' → StaysNear near [p] → V s t →
      ∃ o', e'.answer ctx' chain' p v t = some o' ∧ o.Related R V o')
    (fun chain p v s o => ∀ chain' t, R chain chain' → StaysNear near [p] → V s t →
      ∃ o', e'.handle ctx' chain' p v t = some o' ∧ o.Related R V o') ?_ ?_ ?_ ?_
  case refine_1 =>
    -- A list: its resource step, then its conditions.
    intro combine ih chain ps v s o ho chain' t hc hn hs
    rw [decideList]
    split at ho
    · next hps =>
        cases ho
        rw [if_pos hps, ← h.engines.settings]
        exact ⟨_, rfl, .same _, hs⟩
    · next hps =>
        rw [if_neg hps]
        obtain ⟨ha, hs⟩ := h.resourceFor ps v s t hs
        rcases hr : e'.resourceFor ps v t with ⟨r, t₁⟩
        rw [hr] at ha hs
        split at ho
        · next located s₁ hl =>
            rw [hl] at ha hs
            cases ha
            exact ih _ _ _ _ _ _ ho chain' t₁ hc hn.conditions hs
        · next s₁ hl =>
            rw [hl] at ha hs
            cases ha
            cases ho
            exact ⟨_, rfl, .same _, hs⟩
        · next err s₁ hl =>
            rw [hl] at ha hs
            cases ha
            cases ho
            exact ⟨_, rfl, .same _, hs⟩
  case refine_2 =>
    -- The conditions: the first of them, then perhaps the others.
    intro combine answer ihc iha chain mode ps v s o ho chain' t hc hn hs
    cases ps with
    | nil =>
        cases ho
        rw [Engine.combine]
        exact ⟨_, rfl, .same _, hs⟩
    | cons p ps =>
        obtain ⟨⟨r, s₁⟩, hp, ho⟩ := Option.bind_eq_some_iff.mp ho
        obtain ⟨⟨r', t₁⟩, hp', ha, hs₁⟩ := iha _ _ _ _ _ hp chain' t hc hn.head hs
        cases ha with
        | same =>
            cases r with
            | error err =>
                cases ho
                exact ⟨_, combine_of_error hp', .same _, hs₁⟩
            | ok b =>
                rw [combine_of_answer hp']
                simp only [] at ho
                split at ho
                · next hb =>
                    cases ho
                    rw [if_pos hb]
                    exact ⟨_, rfl, .same _, hs₁⟩
                · next hb =>
                    rw [if_neg hb]
                    exact ihc _ _ _ _ _ _ ho chain' t₁ hc hn.tail hs₁
        | circular hr type =>
            cases ho
            exact ⟨_, combine_of_error hp', .circular hr type, hs₁⟩
  case refine_3 =>
    -- A policy: what it is handled with, contained unless it is refused.
    intro handle ih chain p v s o ho chain' t hc hn hs
    obtain ⟨⟨r, s₁⟩, hp, ho⟩ := Option.bind_eq_some_iff.mp ho
    obtain ⟨⟨r', t₁⟩, hp', ha, hs₁⟩ := ih _ _ _ _ _ hp chain' t hc hn hs
    cases ho
    refine ⟨_, answer_of_handle hp', ?_, hs₁⟩
    split
    · exact ha
    · exact h.contained_agrees false ha
  case refine_4 =>
    -- What a policy is handled with: a list, or the policy's own answer.
    intro decideList ih chain p v s o ho chain' t hc hn hs
    split at ho
    · next type =>
        have hnt : near type := hn type (List.mem_singleton_self _)
        obtain ⟨ha, hs₁⟩ := h.delegated hR hc hnt hs
        rcases hd' : e'.delegated chain' type t with ⟨r', t₁⟩
        rw [hd'] at ha hs₁
        rw [Engine.handle]
        simp only [hd']
        split at ho
        · next ps s₁ hd =>
            have hps := h.staysNear_of_delegated hcl hnt hs hd
            rw [hd] at ha hs₁
            cases ha
            exact ih _ _ _ _ _ ho _ t₁ (hR.push hc hnt) hps hs₁
        · next err s₁ hd =>
            rw [hd] at ha hs₁
            cases ho
            cases ha with
            | same => exact ⟨_, rfl, .same _, hs₁⟩
            | circular hr => exact ⟨_, rfl, .circular hr _, hs₁⟩
    · next hp =>
        obtain ⟨ha, hs₁⟩ := h.consult p v s t hs
        cases ho
        refine ⟨_, handle_of_consult hp, ?_, hs₁⟩
        rw [ha]
        exact .same _

/-- Two parallel engines decide alike, and if one of them does not come to an end
the other does not either. -/
theorem decideList (h : e.Parallel W V near ctx e' ctx') (hcl : e.loader.Closed W near)
    {R : List String → List String → Prop} (hR : Follows near R)
    {chain chain' : List String} {ps : List Policy} {v : Value} {s : Evaluation σ}
    {t : Evaluation τ} (hc : R chain chain') (hn : StaysNear near ps) (hs : V s t) :
    Option.Rel (Outcome.Related R V) (e.decideList ctx chain ps v s)
      (e'.decideList ctx' chain' ps v t) := by
  cases ho : e.decideList ctx chain ps v s with
  | some o =>
      obtain ⟨o', ho', hm⟩ :=
        (h.exists_related hcl hR).1 _ _ _ _ _ ho chain' t hc hn hs
      rw [ho']
      exact .some hm
  | none =>
      cases ho' : e'.decideList ctx' chain' ps v t with
      | none => exact .none
      | some o' =>
          obtain ⟨o, ho₂, _⟩ :=
            (h.symm.exists_related (h.engines.closed_symm hcl) hR.symm).1
            _ _ _ _ _ ho' chain s hc hn hs
          rw [ho] at ho₂
          cases ho₂

/-! ## Checks, and points on the way

From here on every type counts, and the two engines stand after the same
delegations, so their outcomes are the same. -/

theorem check (h : e.Parallel W V (fun _ => True) ctx e' ctx') {target : Target}
    (hp : Lockstep W (e.policiesOf target) (e'.policiesOf target)) {s : Session σ}
    {t : Session τ} (hs : V (.start s) (.start t)) :
    Option.Rel
      (fun o o' => o.1 = o'.1 ∧ ∃ s' t', V s' t' ∧ o.2 = s'.session ∧
        o'.2 = t'.session)
      (e.check target ctx s) (e'.check target ctx' t) := by
  obtain ⟨ha, hs⟩ := Lockstep.ofAct h.toCarries hp _ _ hs
  rcases hl : Step.ofAct (e.policiesOf target) (.start s) with ⟨r, s₁⟩
  rcases hl' : Step.ofAct (e'.policiesOf target) (.start t) with ⟨r', t₁⟩
  rw [hl, hl'] at ha hs
  obtain rfl : r = r' := ha
  unfold Engine.check
  rw [hl, hl']
  cases r with
  | error err =>
      refine .some ⟨?_, s₁, t₁, hs, rfl, rfl⟩
      rw [h.engines.contained]
  | ok ps =>
      simp only []
      rw [h.typing]
      refine rel_map (R := Outcome.Related Eq V) ?_ fun ho =>
        ⟨ho.1.eq, _, _, ho.2, rfl, rfl⟩
      exact h.decideList (e.loader.closed_all W) (.eq _) rfl (fun _ _ => trivial) hs

/-- Where the one engine moves, from a state that is related the other moves too. -/
theorem moves (h : e.Parallel W V (fun _ => True) ctx e' ctx') {pt pt' : Point τ}
    {evs : List Event} (hm : e'.Moves ctx' pt evs pt') {s : Evaluation σ}
    (hs : V s pt.state) :
    ∃ evs' s', e.Moves ctx (pt.withState s) evs' (pt'.withState s') ∧
      V s' pt'.state := by
  cases hm with
  | opens hps ho =>
      obtain ⟨ha, hs'⟩ := h.resourceFor _ _ _ _ hs
      rw [resourceFor_eq_iff.mpr ⟨_, ho⟩] at ha hs'
      obtain ⟨evs', ho'⟩ := resourceFor_eq_iff.mp (Prod.ext ha rfl)
      exact ⟨evs', _, .opens hps ho', hs'⟩
  | first => exact ⟨[], s, .first, hs⟩
  | @next chain _ p _ v t _ t₁ hr =>
      obtain ⟨⟨r, s'⟩, ha, hr', hs'⟩ :=
        (h.symm.exists_related (h.engines.closed_symm (e.loader.closed_all W))
          (.eq _)).2.2.1 _ _ _ _ _ hr.outcome chain s rfl (fun _ _ => trivial) hs
      obtain rfl := hr'.eq
      obtain ⟨evs', hr'⟩ := outcome_eq_some_iff.mp
        (show e.outcome ctx ⟨chain, .policy p, v, s⟩ = some (_, s') from ha)
      exact ⟨evs', s', .next hr', hs'⟩
  | @delegates chain type _ t ps t₁ hd =>
      obtain ⟨ha, hs'⟩ : Agrees Eq _ _ ∧ V (e.delegated chain type s).2
          (e'.delegated chain type t).2 := h.delegated (.eq _) rfl trivial hs
      rw [hd] at ha hs'
      exact ⟨_, _, .delegates (Prod.ext (ha.eq) rfl), hs'⟩

theorem reaches (h : e.Parallel W V (fun _ => True) ctx e' ctx') {pt pt' : Point τ}
    {evs : List Event} (hr : e'.Reaches ctx' pt evs pt') {s : Evaluation σ}
    (hs : V s pt.state) :
    ∃ evs' s', e.Reaches ctx (pt.withState s) evs' (pt'.withState s') ∧
      V s' pt'.state := by
  induction hr generalizing s with
  | refl => exact ⟨[], s, .refl, hs⟩
  | step hm _ ih =>
      obtain ⟨evs₁, s₁, hm', hs₁⟩ := h.moves hm hs
      obtain ⟨evs₂, s₂, hr', hs₂⟩ := ih hs₁
      exact ⟨_, s₂, .step hm' hr', hs₂⟩

/-- Wherever the one check gets to, the other gets to as well. -/
theorem visits (h : e.Parallel W V (fun _ => True) ctx e' ctx') {target : Target}
    (hp : Lockstep W (e.policiesOf target) (e'.policiesOf target)) {s : Session σ}
    {t : Session τ} (hs : V (.start s) (.start t)) {pt : Point τ} {evs : List Event}
    (hv : e'.Visits ctx' target t evs pt) :
    ∃ evs' s', e.Visits ctx target s evs' (pt.withState s') ∧ V s' pt.state := by
  obtain ⟨ps, t₁, hl, hr⟩ := hv
  obtain ⟨ha, hs⟩ := Lockstep.ofAct h.toCarries hp _ _ hs
  rw [hl] at ha hs
  obtain ⟨evs', s', hr', hs'⟩ := h.reaches hr hs
  rw [← h.typing] at hr'
  exact ⟨evs', s', ⟨ps, _, Prod.ext ha rfl, hr'⟩, hs'⟩

end Engine.Parallel

/-! ## One context on both sides -/

namespace Engine.Matches

variable {σ τ : Type} {W : σ → τ → Prop} {near : String → Prop} {e : Engine σ}
  {e' : Engine τ} {ctx : Context}

theorem decideList (h : e.Matches W near e') (hcl : e.loader.Closed W near)
    {R : List String → List String → Prop} (hR : Follows near R)
    {chain chain' : List String} {ps : List Policy} {v : Value} {s : Evaluation σ}
    {t : Evaluation τ} (hc : R chain chain') (hn : StaysNear near ps)
    (hs : s.Matches W t) :
    Option.Rel (Outcome.Matches R W) (e.decideList ctx chain ps v s)
      (e'.decideList ctx chain' ps v t) :=
  (h.parallel ctx).decideList hcl hR hc hn hs

theorem check (h : e.Matches W (fun _ => True) e') {target : Target}
    (hp : Lockstep W (e.policiesOf target) (e'.policiesOf target)) {s : Session σ}
    {t : Session τ} (hw : W s.world t.world) (hc : s.caches = t.caches) :
    Option.Rel
      (fun o o' => o.1 = o'.1 ∧ W o.2.world o'.2.world ∧ o.2.caches = o'.2.caches)
      (e.check target ctx s) (e'.check target ctx t) := by
  refine rel_mono ((h.parallel ctx).check hp ⟨hw, hc, rfl⟩) fun ho => ?_
  obtain ⟨hr, s₁, t₁, hs, hs₁, ht₁⟩ := ho
  rw [hs₁, ht₁]
  exact ⟨hr, hs.world, hs.caches⟩

theorem visits (h : e.Matches W (fun _ => True) e') {target : Target}
    (hp : Lockstep W (e.policiesOf target) (e'.policiesOf target)) {s : Session σ}
    {t : Session τ} (hw : W s.world t.world) (hc : s.caches = t.caches) {pt : Point τ}
    {evs : List Event} (hv : e'.Visits ctx target t evs pt) :
    ∃ s : Evaluation σ, s.Matches W pt.state := by
  obtain ⟨_, s', _, hs⟩ := (h.parallel ctx).visits hp ⟨hw, hc, rfl⟩ hv
  exact ⟨s', hs⟩

end Engine.Matches

end Clearance
