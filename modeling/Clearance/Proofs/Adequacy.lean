import Clearance.Proofs.Sites

/-!
# The evaluator is what its runs say

A point of an evaluation has an outcome just if there is a run to it, and so
has a check. From a run to the outcome the proof is by induction on the run;
from an outcome to a run it is by induction on the fixed point that the
evaluator is, which is why an evaluation that never ends needs no case of its
own.
-/

namespace Clearance

namespace Engine

variable {σ : Type} {e : Engine σ} {ctx : Context}

/-! ## From runs to outcomes -/

theorem answer_of_handle {chain : List String} {p : Policy} {v : Value}
    {s s' : Evaluation σ} {r : Except AccessError Bool}
    (h : e.handle ctx chain p v s = some (r, s')) :
    e.answer ctx chain p v s =
      some (if p.isRefused then r else e.contained false r, s') := by
  rw [answer, h]
  rfl

theorem eq_delegate_or (p : Policy) :
    (∃ type, p = .delegate type) ∨ ∀ type, p ≠ .delegate type := by
  by_cases hd : ∃ type, p = .delegate type
  · exact .inl hd
  · exact .inr fun type ht => hd ⟨type, ht⟩

theorem handle_of_consult {chain : List String} {p : Policy} {v : Value}
    {s : Evaluation σ} (hd : ∀ type, p ≠ .delegate type) :
    e.handle ctx chain p v s = some (e.consult ctx p v s) := by
  rw [handle]
  exact hd

theorem asked_of_consult {p : Policy} {v : Value} {s s' : Evaluation σ} {b : Bool}
    (h : e.consult ctx p v s = (.ok b, s')) :
    p.isRefused = false ∧ ∀ type, p ≠ .delegate type := by
  cases p with
  | delegate | resource | allOrNothing | unrecognized => cases h
  | _ => exact ⟨rfl, fun _ hd => by cases hd⟩

theorem handle_of_delegated {chain : List String} {type : String} {v : Value}
    {s s₁ : Evaluation σ} {ps : List Policy}
    (h : e.delegated chain type s = (.ok ps, s₁)) :
    e.handle ctx chain (.delegate type) v s =
      e.decideList ctx (chain ++ [type]) ps v s₁ := by
  rw [handle]
  simp only [h]

theorem Faults.handle {chain : List String} {p : Policy} {v : Value}
    {s s' : Evaluation σ} {err : AccessError} (h : e.Faults ctx chain p v s err s') :
    e.handle ctx chain p v s = some (.error err, s') := by
  rcases eq_delegate_or p with ⟨type, rfl⟩ | hd
  · rw [Engine.handle]
    simp only [delegated_eq_error.mpr h]
  · have hp : p.isRefused = false := by cases h <;> rfl
    rw [handle_of_consult hd, (consult_eq_error hp hd).mpr h]

theorem Faults.isRefused {chain : List String} {p : Policy} {v : Value}
    {s s' : Evaluation σ} {err : AccessError}
    (h : e.Faults ctx chain p v s err s') : p.isRefused = false := by
  cases h <;> rfl

theorem combine_of_answer {chain : List String} {mode : Mode} {p : Policy}
    {ps : List Policy} {v : Value} {s s₁ : Evaluation σ} {b : Bool}
    (h : e.answer ctx chain p v s = some (.ok b, s₁)) :
    e.combine ctx chain mode (p :: ps) v s =
      if b = mode.settling then some (.ok b, s₁)
      else e.combine ctx chain mode ps v s₁ := by
  rw [combine]
  simp only [h]
  rfl

theorem combine_of_error {chain : List String} {mode : Mode} {p : Policy}
    {ps : List Policy} {v : Value} {s s₁ : Evaluation σ} {err : AccessError}
    (h : e.answer ctx chain p v s = some (.error err, s₁)) :
    e.combine ctx chain mode (p :: ps) v s = some (.error err, s₁) := by
  rw [combine]
  simp only [h]
  rfl

theorem decideList_of_resourceFor {chain : List String} {ps : List Policy}
    {v v' : Value} {s s₀ : Evaluation σ} (h : ps.all Policy.isModifier = false)
    (hl : e.resourceFor ps v s = (.ok (some v'), s₀)) :
    e.decideList ctx chain ps v s =
      e.combine ctx chain (.ofList ps) (conditions ps) v' s₀ := by
  rw [decideList, if_neg (by simp [h]), hl]

/-- The outcome of a point is that of any run from it. -/
theorem Runs.outcome {pt : Point σ} {evs : List Event} {r : Except AccessError Bool}
    {s' : Evaluation σ} (h : e.Runs ctx pt evs r s') :
    e.outcome ctx pt = some (r, s') := by
  unfold Engine.outcome
  induction h with
  | unconditional h =>
      simp only []
      rw [decideList, if_pos h]
  | opened h ho hr ih =>
      simp only [] at ih ⊢
      rw [decideList, if_neg (by simp [h]), resourceFor_eq_iff.mpr ⟨_, ho⟩]
      exact ih
  | unlocated h ho =>
      simp only []
      rw [decideList, if_neg (by simp [h]), resourceFor_eq_iff.mpr ⟨_, ho⟩]
  | unopened h ho =>
      simp only []
      rw [decideList, if_neg (by simp [h]), resourceFor_eq_iff.mpr ⟨_, ho⟩]
  | done =>
      simp only []
      rw [combine]
  | settled hp ih =>
      simp only [] at ih ⊢
      rw [combine_of_answer ih, if_pos rfl]
  | next hp hr ihp ihr =>
      simp only [] at ihp ihr ⊢
      rw [combine_of_answer ihp, if_neg (by simp)]
      exact ihr
  | failed hp ih =>
      simp only [] at ih ⊢
      exact combine_of_error ih
  | refused hp h =>
      simp only []
      rw [answer_of_handle ((handle_of_consult ?_).trans (congrArg some h)), if_pos hp]
      rintro type rfl
      cases hp
  | consulted h =>
      simp only []
      obtain ⟨hp, hd⟩ := asked_of_consult h
      rw [answer_of_handle ((handle_of_consult hd).trans (congrArg some h)),
        if_neg (by simp [hp])]
      rfl
  | faulted h =>
      simp only []
      rw [answer_of_handle h.handle, if_neg (by simp [h.isRefused])]
  | delegated h hr ih =>
      simp only [] at ih ⊢
      rw [answer_of_handle ((handle_of_delegated h).trans ih)]
      rfl

/-! ## From outcomes to runs

The evaluator is the least function that satisfies its equations, so it is
enough to show that whatever has runs for all its outcomes still has them
after one more round of the equations. -/

theorem exists_runs (ctx : Context) :
    (∀ chain ps v s o, e.decideList ctx chain ps v s = some o →
      ∃ evs, e.Runs ctx ⟨chain, .list ps, v, s⟩ evs o.1 o.2) ∧
    (∀ chain mode ps v s o, e.combine ctx chain mode ps v s = some o →
      ∃ evs, e.Runs ctx ⟨chain, .rest mode ps, v, s⟩ evs o.1 o.2) ∧
    (∀ chain p v s o, e.answer ctx chain p v s = some o →
      ∃ evs, e.Runs ctx ⟨chain, .policy p, v, s⟩ evs o.1 o.2) ∧
    (∀ chain p v s o, e.handle ctx chain p v s = some o →
      ∃ evs, e.Runs ctx ⟨chain, .policy p, v, s⟩ evs
        (if p.isRefused then o.1 else e.contained false o.1) o.2) := by
  refine decideList.mutual_partial_correctness e ctx
    (fun chain ps v s o => ∃ evs, e.Runs ctx ⟨chain, .list ps, v, s⟩ evs o.1 o.2)
    (fun chain mode ps v s o =>
      ∃ evs, e.Runs ctx ⟨chain, .rest mode ps, v, s⟩ evs o.1 o.2)
    (fun chain p v s o => ∃ evs, e.Runs ctx ⟨chain, .policy p, v, s⟩ evs o.1 o.2)
    (fun chain p v s o => ∃ evs, e.Runs ctx ⟨chain, .policy p, v, s⟩ evs
      (if p.isRefused then o.1 else e.contained false o.1) o.2) ?_ ?_ ?_ ?_
  case refine_1 =>
    -- A list: its resource step, then its conditions.
    intro combine ih chain ps v s o h
    split at h
    · next hps =>
        cases h
        exact ⟨[], .unconditional hps⟩
    · next hps =>
        have hps : ps.all Policy.isModifier = false := Bool.eq_false_iff.mpr hps
        split at h
        · next located s₁ ho =>
            obtain ⟨evs, ho⟩ := resourceFor_eq_iff.mp ho
            obtain ⟨evs', hr⟩ := ih _ _ _ _ _ _ h
            exact ⟨_, .opened hps ho hr⟩
        · next s₁ ho =>
            obtain ⟨evs, ho⟩ := resourceFor_eq_iff.mp ho
            cases h
            exact ⟨_, .unlocated hps ho⟩
        · next err s₁ ho =>
            obtain ⟨evs, ho⟩ := resourceFor_eq_iff.mp ho
            cases h
            exact ⟨_, .unopened hps ho⟩
  case refine_2 =>
    -- The conditions: the first of them, then perhaps the others.
    intro combine answer ihc iha chain mode ps v s o h
    cases ps with
    | nil =>
        cases h
        exact ⟨[], .done⟩
    | cons p ps =>
        obtain ⟨⟨r, s₁⟩, hp, h⟩ := Option.bind_eq_some_iff.mp h
        obtain ⟨evs, hp⟩ := iha _ _ _ _ _ hp
        cases r with
        | error err =>
            cases h
            exact ⟨_, .failed hp⟩
        | ok b =>
            simp only [] at h
            split at h
            · next hb =>
                subst hb
                cases h
                exact ⟨_, .settled hp⟩
            · next hb =>
                obtain rfl : b = !mode.settling := Bool.eq_not.mpr hb
                obtain ⟨evs', hr⟩ := ihc _ _ _ _ _ _ h
                exact ⟨_, .next hp hr⟩
  case refine_3 =>
    -- A policy: what it is handled with, contained unless it is refused.
    intro handle ih chain p v s o h
    obtain ⟨⟨r, s₁⟩, hp, h⟩ := Option.bind_eq_some_iff.mp h
    cases h
    exact ih _ _ _ _ _ hp
  case refine_4 =>
    -- What a policy is handled with: a list, or the policy's own answer.
    intro decideList ih chain p v s o h
    split at h
    · next type =>
        split at h
        · next ps s₁ hd =>
            obtain ⟨evs, hr⟩ := ih _ _ _ _ _ h
            exact ⟨_, .delegated hd hr⟩
        · next err s₁ hd =>
            cases h
            exact ⟨_, .faulted (delegated_eq_error.mp hd)⟩
    · next hd =>
        rcases hc : e.consult ctx p v s with ⟨err | b, s₁⟩
        · rw [hc] at h
          cases h
          cases hp : p.isRefused with
          | true => exact ⟨_, .refused hp hc⟩
          | false => exact ⟨_, .faulted ((consult_eq_error hp hd).mp hc)⟩
        · rw [hc] at h
          cases h
          rw [if_neg (by simp [(asked_of_consult hc).1])]
          exact ⟨_, .consulted hc⟩

/-- A point has an outcome just if there is a run to it. -/
theorem outcome_eq_some_iff {pt : Point σ} {r : Except AccessError Bool}
    {s' : Evaluation σ} :
    e.outcome ctx pt = some (r, s') ↔ ∃ evs, e.Runs ctx pt evs r s' := by
  constructor
  · intro h
    obtain ⟨hl, hr, hp, _⟩ := exists_runs (e := e) ctx
    obtain ⟨chain, task, v, s⟩ := pt
    cases task with
    | list ps => exact hl _ _ _ _ _ h
    | rest mode ps => exact hr _ _ _ _ _ _ h
    | policy p => exact hp _ _ _ _ _ h
  · rintro ⟨evs, h⟩
    exact h.outcome

/-- A check is answered just if there is a run of it. -/
theorem check_eq_some_iff {target : Target} {s s' : Session σ}
    {r : Except AccessError Bool} :
    e.check target ctx s = some (r, s') ↔ ∃ evs, e.Checks ctx target s evs r s' := by
  unfold check
  constructor
  · intro h
    split at h
    · next ps s₁ hl =>
        obtain ⟨⟨r, s₂⟩, ho, h⟩ := Option.map_eq_some_iff.mp h
        cases h
        obtain ⟨evs, hr⟩ := outcome_eq_some_iff.mp
          (show e.outcome ctx ⟨_, .list ps, _, s₁⟩ = some (r, s₂) from ho)
        exact ⟨evs, .loaded hl hr⟩
    · next err s₁ hl =>
        cases h
        exact ⟨_, .unloaded hl⟩
  · rintro ⟨evs, h⟩
    cases h with
    | unloaded h => simp only [h]
    | loaded h hr =>
        have ho := hr.outcome
        simp only [outcome] at ho
        simp only [h, ho]
        rfl

/-! ## One run from a point

The outcome of a point is that of any run from it, and the events are
determined as well. -/

theorem Locates.unique {type accessor : String} {v : Value} {s s₁ s₂ : Evaluation σ}
    {evs₁ evs₂ : List Event} {r₁ r₂ : Except AccessError (Option Value)}
    (h₁ : e.Locates type accessor v s evs₁ r₁ s₁)
    (h₂ : e.Locates type accessor v s evs₂ r₂ s₂) : evs₁ = evs₂ := by
  cases h₁ <;> cases h₂ <;> simp_all [Value.asObject?]

theorem Opens.unique {ps : List Policy} {v : Value} {s s₁ s₂ : Evaluation σ}
    {evs₁ evs₂ : List Event} {r₁ r₂ : Except AccessError (Option Value)}
    (h₁ : e.Opens ps v s evs₁ r₁ s₁) (h₂ : e.Opens ps v s evs₂ r₂ s₂) :
    evs₁ = evs₂ ∧ r₁ = r₂ ∧ s₁ = s₂ := by
  have hr : (r₁, s₁) = (r₂, s₂) :=
    (resourceFor_eq_iff.mpr ⟨_, h₁⟩).symm.trans (resourceFor_eq_iff.mpr ⟨_, h₂⟩)
  refine ⟨?_, Prod.mk.inj hr⟩
  cases h₁ with
  | given h =>
      cases h₂ with
      | given => rfl
      | located h' => rw [h] at h'; cases h'
  | located h hl =>
      cases h₂ with
      | given h' => rw [h] at h'; cases h'
      | located h' hl' =>
          rw [h] at h'
          cases h'
          exact hl.unique hl'

theorem Runs.outcome_unique {pt : Point σ} {evs₁ evs₂ : List Event}
    {r₁ r₂ : Except AccessError Bool} {s₁ s₂ : Evaluation σ}
    (h₁ : e.Runs ctx pt evs₁ r₁ s₁)
    (h₂ : e.Runs ctx pt evs₂ r₂ s₂) : r₁ = r₂ ∧ s₁ = s₂ :=
  Prod.mk.inj (Option.some.inj (h₁.outcome.symm.trans h₂.outcome))

theorem Runs.events_unique {pt : Point σ} {evs₁ evs₂ : List Event}
    {r₁ r₂ : Except AccessError Bool} {s₁ s₂ : Evaluation σ}
    (h₁ : e.Runs ctx pt evs₁ r₁ s₁) (h₂ : e.Runs ctx pt evs₂ r₂ s₂) : evs₁ = evs₂ := by
  induction h₁ generalizing evs₂ r₂ s₂ with
  | unconditional h =>
      cases h₂ with
      | unconditional => rfl
      | opened h' | unlocated h' | unopened h' => rw [h] at h'; cases h'
  | opened h ho hr ih =>
      cases h₂ with
      | unconditional h' => rw [h] at h'; cases h'
      | opened h' ho' hr' =>
          obtain ⟨rfl, hv, rfl⟩ := ho.unique ho'
          cases hv
          rw [ih hr']
      | unlocated h' ho' | unopened h' ho' => cases (ho.unique ho').2.1
  | unlocated h ho =>
      cases h₂ with
      | unconditional h' => rw [h] at h'; cases h'
      | unlocated h' ho' => exact (ho.unique ho').1
      | opened h' ho' | unopened h' ho' => cases (ho.unique ho').2.1
  | unopened h ho =>
      cases h₂ with
      | unconditional h' => rw [h] at h'; cases h'
      | unopened h' ho' => exact (ho.unique ho').1
      | opened h' ho' | unlocated h' ho' => cases (ho.unique ho').2.1
  | done =>
      cases h₂ with
      | done => rfl
  | settled hp ih =>
      cases h₂ with
      | settled hp' => exact ih hp'
      | next hp' => simpa using (hp.outcome_unique hp').1
      | failed hp' => cases (hp.outcome_unique hp').1
  | next hp hr ihp ihr =>
      cases h₂ with
      | settled hp' => simpa using (hp.outcome_unique hp').1
      | next hp' hr' =>
          obtain ⟨_, rfl⟩ := hp.outcome_unique hp'
          rw [ihp hp', ihr hr']
      | failed hp' => cases (hp.outcome_unique hp').1
  | failed hp ih =>
      cases h₂ with
      | settled hp' | next hp' => cases (hp.outcome_unique hp').1
      | failed hp' => exact ih hp'
  | refused hp h =>
      cases h₂ with
      | refused hp' h' =>
          rw [h] at h'
          cases h'
          rfl
      | consulted h' => rw [h] at h'; cases h'
      | faulted h' => rw [h'.isRefused] at hp; cases hp
      | delegated => cases hp
  | consulted h =>
      obtain ⟨hp, hd⟩ := asked_of_consult h
      cases h₂ with
      | refused hp' => rw [hp] at hp'; cases hp'
      | consulted => rfl
      | faulted h' => rw [(consult_eq_error hp hd).mpr h'] at h; cases h
      | delegated => cases h
  | faulted h =>
      cases h₂ with
      | refused hp' => rw [h.isRefused] at hp'; cases hp'
      | consulted h' =>
          obtain ⟨hp, hd⟩ := asked_of_consult h'
          rw [(consult_eq_error hp hd).mpr h] at h'
          cases h'
      | faulted h' =>
          have := h.handle.symm.trans h'.handle
          cases this
          rfl
      | delegated h' => rw [delegated_eq_error.mpr h] at h'; cases h'
  | delegated h hr ih =>
      cases h₂ with
      | refused hp' => cases hp'
      | consulted h' => cases h'
      | faulted h' => rw [delegated_eq_error.mpr h'] at h; cases h
      | delegated h' hr' =>
          rw [h] at h'
          cases h'
          rw [ih hr']

/-- There is at most one run of a check. -/
theorem Checks.unique {target : Target} {s s₁ s₂ : Session σ} {evs₁ evs₂ : List Event}
    {r₁ r₂ : Except AccessError Bool} (h₁ : e.Checks ctx target s evs₁ r₁ s₁)
    (h₂ : e.Checks ctx target s evs₂ r₂ s₂) : evs₁ = evs₂ ∧ r₁ = r₂ ∧ s₁ = s₂ := by
  have ho := (check_eq_some_iff.mpr ⟨_, h₁⟩).symm.trans (check_eq_some_iff.mpr ⟨_, h₂⟩)
  refine ⟨?_, Prod.mk.inj (Option.some.inj ho)⟩
  cases h₁ with
  | unloaded h =>
      cases h₂ with
      | unloaded h' =>
          rw [h] at h'
          cases h'
          rfl
      | loaded h' => rw [h] at h'; cases h'
  | loaded h hr =>
      cases h₂ with
      | unloaded h' => rw [h] at h'; cases h'
      | loaded h' hr' =>
          rw [h] at h'
          cases h'
          exact hr.events_unique hr'

end Engine

end Clearance
