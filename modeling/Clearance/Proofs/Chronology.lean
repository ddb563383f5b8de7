import Clearance.Proofs.Adequacy

/-!
# The order in which things happen

An evaluation passes through states: those of the points it gets to, and those in
which the runs from these points end. They are passed one after the other, so of any
two of them one is the earlier, also if the evaluation never comes to an end. This
file says so for whatever is kept from earlier states to later ones. To know that
something is kept it is enough to look at the three places where a state changes: a
list comes to its resource, a delegation to its list, a policy to its own answer. The
last of these need only be looked at where the evaluation gets to.

An evaluation has a choice nowhere but at a list of conditions, where it may be
followed into the first of them or past it. It is past it only after the run of the
first has ended, and so the two ways are in order as well.
-/

namespace Clearance

namespace Engine

variable {σ : Type} {e : Engine σ} {ctx : Context}
  {P : Evaluation σ → Evaluation σ → Prop}

/-! ## What is kept -/

/-- Whatever happens from a point on leads from a state to one that is related. -/
structure Keeps (e : Engine σ) (ctx : Context) (P : Evaluation σ → Evaluation σ → Prop)
    (pt : Point σ) : Prop where
  refl : ∀ s, P s s
  trans : ∀ {s t u}, P s t → P t u → P s u
  resourceFor : ∀ ps v s, P s (e.resourceFor ps v s).2
  delegated : ∀ chain type s, P s (e.delegated chain type s).2
  consult : ∀ {evs chain p v s}, e.Reaches ctx pt evs ⟨chain, .policy p, v, s⟩ →
    P s (e.consult ctx p v s).2

theorem Keeps.move {pt pt' : Point σ} {evs : List Event} (hk : e.Keeps ctx P pt)
    (hm : e.Moves ctx pt evs pt') : e.Keeps ctx P pt' where
  refl := hk.refl
  trans := hk.trans
  resourceFor := hk.resourceFor
  delegated := hk.delegated
  consult := fun hr => hk.consult (.step hm hr)

theorem Keeps.opens {pt : Point σ} {ps : List Policy} {v : Value} {s s' : Evaluation σ}
    {evs : List Event} {r : Except AccessError (Option Value)} (hk : e.Keeps ctx P pt)
    (ho : e.Opens ps v s evs r s') : P s s' := by
  have hs := hk.resourceFor ps v s
  rw [resourceFor_eq_iff.mpr ⟨_, ho⟩] at hs
  exact hs

theorem Keeps.delegates {pt : Point σ} {chain : List String} {type : String}
    {s s' : Evaluation σ} {r : Except AccessError (List Policy)}
    (hk : e.Keeps ctx P pt) (hd : e.delegated chain type s = (r, s')) : P s s' := by
  have hs := hk.delegated chain type s
  rw [hd] at hs
  exact hs

theorem Keeps.consults {chain : List String} {p : Policy} {v : Value}
    {s s' : Evaluation σ} {r : Except AccessError Bool}
    (hk : e.Keeps ctx P ⟨chain, .policy p, v, s⟩)
    (hc : e.consult ctx p v s = (r, s')) : P s s' := by
  have hs := hk.consult .refl
  rw [hc] at hs
  exact hs

theorem Keeps.faults {chain : List String} {p : Policy} {v : Value}
    {s s' : Evaluation σ} {err : AccessError}
    (hk : e.Keeps ctx P ⟨chain, .policy p, v, s⟩)
    (hf : e.Faults ctx chain p v s err s') : P s s' := by
  rcases eq_delegate_or p with ⟨type, rfl⟩ | hd
  · exact hk.delegates (delegated_eq_error.mpr hf)
  · exact hk.consults ((consult_eq_error hf.isRefused hd).mpr hf)

/-- What each step keeps, a run keeps. -/
theorem Runs.keeps {pt : Point σ} {evs : List Event} {r : Except AccessError Bool}
    {s' : Evaluation σ} (h : e.Runs ctx pt evs r s') (hk : e.Keeps ctx P pt) :
    P pt.state s' := by
  induction h with
  | unconditional | done => exact hk.refl _
  | opened h ho _ ih => exact hk.trans (hk.opens ho) (ih (hk.move (.opens h ho)))
  | unlocated _ ho | unopened _ ho => exact hk.opens ho
  | settled _ ih | failed _ ih => exact ih (hk.move .first)
  | next hp _ ihp ihr =>
      exact hk.trans (ihp (hk.move .first)) (ihr (hk.move (.next hp)))
  | refused _ h | consulted h => exact hk.consults h
  | faulted h => exact hk.faults h
  | delegated h _ ih => exact hk.trans (hk.delegates h) (ih (hk.move (.delegates h)))

theorem Moves.keeps {pt pt' : Point σ} {evs : List Event} (h : e.Moves ctx pt evs pt')
    (hk : e.Keeps ctx P pt) : P pt.state pt'.state := by
  cases h with
  | opens _ ho => exact hk.opens ho
  | first => exact hk.refl _
  | next hp => exact hp.keeps (hk.move .first)
  | delegates h => exact hk.delegates h

/-! ## What is passed -/

/-- An evaluation passes through a state on its way from a point. -/
inductive Passes (e : Engine σ) (ctx : Context) : Point σ → Evaluation σ → Prop where
  | here {pt} : Passes e ctx pt pt.state
  | ends {pt evs r s'} (h : e.Runs ctx pt evs r s') : Passes e ctx pt s'
  | moves {pt evs pt' t} (hm : e.Moves ctx pt evs pt') (h : Passes e ctx pt' t) :
      Passes e ctx pt t

theorem Reaches.passes {pt pt' : Point σ} {evs : List Event} {t : Evaluation σ}
    (h : e.Reaches ctx pt evs pt') (hp : e.Passes ctx pt' t) : e.Passes ctx pt t := by
  induction h with
  | refl => exact hp
  | step hm _ ih => exact .moves hm (ih hp)

theorem Passes.after {pt : Point σ} {t : Evaluation σ} (h : e.Passes ctx pt t)
    (hk : e.Keeps ctx P pt) : P pt.state t := by
  induction h with
  | here => exact hk.refl _
  | ends h => exact h.keeps hk
  | moves hm _ ih => exact hk.trans (hm.keeps hk) (ih (hk.move hm))

/-- If a point has a run, so has every point that it moves on to, and it has ended by
the end of the other. -/
theorem Runs.of_moves {pt pt' : Point σ} {evs evs' : List Event}
    {r : Except AccessError Bool} {s' : Evaluation σ} (h : e.Runs ctx pt evs r s')
    (hm : e.Moves ctx pt evs' pt') (hk : e.Keeps ctx P pt) :
    ∃ evs₁ r₁ s₁, e.Runs ctx pt' evs₁ r₁ s₁ ∧ P s₁ s' := by
  cases hm with
  | opens hps ho =>
      cases h with
      | unconditional h => rw [hps] at h; cases h
      | opened _ ho' hr =>
          obtain ⟨_, hv, rfl⟩ := ho.unique ho'
          cases hv
          exact ⟨_, _, _, hr, hk.refl _⟩
      | unlocated _ ho' | unopened _ ho' => cases (ho.unique ho').2.1
  | first =>
      cases h with
      | settled hp | failed hp => exact ⟨_, _, _, hp, hk.refl _⟩
      | next hp hr => exact ⟨_, _, _, hp, hr.keeps (hk.move (.next hp))⟩
  | next hp =>
      cases h with
      | settled hp' => simpa using (hp.outcome_unique hp').1
      | failed hp' => cases (hp.outcome_unique hp').1
      | next hp' hr =>
          obtain ⟨_, rfl⟩ := hp.outcome_unique hp'
          exact ⟨_, _, _, hr, hk.refl _⟩
  | delegates hd =>
      cases h with
      | refused hp => cases hp
      | consulted h => cases h
      | faulted h => rw [delegated_eq_error.mpr h] at hd; cases hd
      | delegated hd' hr =>
          rw [hd] at hd'
          cases hd'
          exact ⟨_, _, _, hr, hk.refl _⟩

theorem Passes.before {pt : Point σ} {evs : List Event} {r : Except AccessError Bool}
    {s' t : Evaluation σ} (h : e.Passes ctx pt t) (hr : e.Runs ctx pt evs r s')
    (hk : e.Keeps ctx P pt) : P t s' := by
  induction h generalizing evs r s' with
  | here => exact hr.keeps hk
  | ends h =>
      obtain ⟨_, rfl⟩ := h.outcome_unique hr
      exact hk.refl _
  | moves hm _ ih =>
      obtain ⟨_, _, _, hr₁, hs⟩ := hr.of_moves hm hk
      exact hk.trans (ih hr₁ (hk.move hm)) hs

theorem Moves.unique {pt pt₁ pt₂ : Point σ} {evs₁ evs₂ : List Event}
    (h₁ : e.Moves ctx pt evs₁ pt₁) (h₂ : e.Moves ctx pt evs₂ pt₂) :
    pt₁ = pt₂ ∨ (∃ evs r, e.Runs ctx pt₁ evs r pt₂.state) ∨
      ∃ evs r, e.Runs ctx pt₂ evs r pt₁.state := by
  cases h₁ with
  | opens _ ho =>
      cases h₂ with
      | opens _ ho' =>
          obtain ⟨_, hv, rfl⟩ := ho.unique ho'
          cases hv
          exact .inl rfl
  | first =>
      cases h₂ with
      | first => exact .inl rfl
      | next hp => exact .inr (.inl ⟨_, _, hp⟩)
  | next hp =>
      cases h₂ with
      | first => exact .inr (.inr ⟨_, _, hp⟩)
      | next hp' =>
          obtain ⟨_, rfl⟩ := hp.outcome_unique hp'
          exact .inl rfl
  | delegates hd =>
      cases h₂ with
      | delegates hd' =>
          rw [hd] at hd'
          cases hd'
          exact .inl rfl

/-- Of any two states that an evaluation passes through one is the earlier. -/
theorem Passes.compare {pt : Point σ} {t u : Evaluation σ} (ht : e.Passes ctx pt t)
    (hu : e.Passes ctx pt u) (hk : e.Keeps ctx P pt) : P t u ∨ P u t := by
  induction ht generalizing u with
  | here => exact .inl (hu.after hk)
  | ends h => exact .inr (hu.before h hk)
  | moves hm ht ih =>
      cases hu with
      | here => exact .inr ((Passes.moves hm ht).after hk)
      | ends h => exact .inl ((Passes.moves hm ht).before h hk)
      | moves hm' hu =>
          -- The evaluation is followed past a policy only once the policy has ended.
          rcases hm.unique hm' with rfl | ⟨_, _, hr⟩ | ⟨_, _, hr⟩
          · exact ih hu (hk.move hm)
          · exact .inl (hk.trans (ht.before hr (hk.move hm)) (hu.after (hk.move hm')))
          · exact .inr (hk.trans (hu.before hr (hk.move hm')) (ht.after (hk.move hm)))

/-! ## Checks -/

/-- A check passes through a state: that in which the policies of its target have been
loaded, or not, and those which the decision passes through. -/
inductive Undergoes (e : Engine σ) (ctx : Context) (target : Target) (s : Session σ) :
    Evaluation σ → Prop where
  | loads {r t} (h : Step.ofAct (e.policiesOf target) (.start s) = (r, t)) :
      Undergoes e ctx target s t
  | decides {ps s₁ t} (h : Step.ofAct (e.policiesOf target) (.start s) = (.ok ps, s₁))
      (hp : e.Passes ctx ⟨target.origin e.typing, .list ps, target.resource, s₁⟩ t) :
      Undergoes e ctx target s t

/-- What happens in a check leads from a state to one that is related. -/
structure KeepsIn (e : Engine σ) (ctx : Context)
    (P : Evaluation σ → Evaluation σ → Prop) (target : Target)
    (s : Session σ) : Prop where
  refl : ∀ s, P s s
  trans : ∀ {s t u}, P s t → P t u → P s u
  policiesOf : P (.start s) (Step.ofAct (e.policiesOf target) (.start s)).2
  resourceFor : ∀ ps v s, P s (e.resourceFor ps v s).2
  delegated : ∀ chain type s, P s (e.delegated chain type s).2
  consult : ∀ {evs chain p v t}, e.Visits ctx target s evs ⟨chain, .policy p, v, t⟩ →
    P t (e.consult ctx p v t).2

section Checks

variable {target : Target} {s : Session σ} {t u : Evaluation σ}

theorem KeepsIn.keeps {ps : List Policy} {s₁ : Evaluation σ}
    (hk : e.KeepsIn ctx P target s)
    (h : Step.ofAct (e.policiesOf target) (.start s) = (.ok ps, s₁)) :
    e.Keeps ctx P ⟨target.origin e.typing, .list ps, target.resource, s₁⟩ where
  refl := hk.refl
  trans := hk.trans
  resourceFor := hk.resourceFor
  delegated := hk.delegated
  consult := fun hr => hk.consult ⟨ps, s₁, h, hr⟩

theorem KeepsIn.loads {r : Except AccessError (List Policy)}
    (hk : e.KeepsIn ctx P target s)
    (h : Step.ofAct (e.policiesOf target) (.start s) = (r, t)) : P (.start s) t := by
  have hs := hk.policiesOf
  rw [h] at hs
  exact hs

theorem Undergoes.after (h : e.Undergoes ctx target s t)
    (hk : e.KeepsIn ctx P target s) :
    P (.start s) t := by
  cases h with
  | loads h => exact hk.loads h
  | decides h hp => exact hk.trans (hk.loads h) (hp.after (hk.keeps h))

theorem Undergoes.compare (ht : e.Undergoes ctx target s t)
    (hu : e.Undergoes ctx target s u)
    (hk : e.KeepsIn ctx P target s) : P t u ∨ P u t := by
  cases ht with
  | loads ht =>
      cases hu with
      | loads hu =>
          rw [ht] at hu
          cases hu
          exact .inl (hk.refl _)
      | decides hu hp =>
          rw [ht] at hu
          cases hu
          exact .inl (hp.after (hk.keeps ht))
  | decides ht hp =>
      cases hu with
      | loads hu =>
          rw [ht] at hu
          cases hu
          exact .inr (hp.after (hk.keeps ht))
      | decides hu hp' =>
          rw [ht] at hu
          cases hu
          exact hp.compare hp' (hk.keeps ht)

/-- A check that ends does so in a state that it passes through, after all
the others. -/
theorem exists_last {r : Except AccessError Bool} {s' : Session σ}
    (h : e.check target ctx s = some (r, s')) :
    ∃ t, e.Undergoes ctx target s t ∧ t.session = s' ∧
      ∀ {P}, e.KeepsIn ctx P target s → ∀ u, e.Undergoes ctx target s u → P u t := by
  obtain ⟨evs, hc⟩ := check_eq_some_iff.mp h
  cases hc with
  | unloaded hl =>
      refine ⟨_, .loads hl, rfl, fun hk u hu => ?_⟩
      cases hu with
      | loads hu =>
          rw [hl] at hu
          cases hu
          exact hk.refl _
      | decides hu => rw [hl] at hu; cases hu
  | loaded hl hr =>
      refine ⟨_, .decides hl (.ends hr), rfl, fun hk u hu => ?_⟩
      cases hu with
      | loads hu =>
          rw [hl] at hu
          cases hu
          exact hr.keeps (hk.keeps hl)
      | decides hu hp =>
          rw [hl] at hu
          cases hu
          exact hp.before hr (hk.keeps hl)

theorem Visits.undergoes {evs : List Event} {pt : Point σ}
    (h : e.Visits ctx target s evs pt) (hp : e.Passes ctx pt t) :
    e.Undergoes ctx target s t := by
  obtain ⟨ps, s₁, hl, hr⟩ := h
  exact .decides hl (hr.passes hp)

end Checks

end Engine

end Clearance
