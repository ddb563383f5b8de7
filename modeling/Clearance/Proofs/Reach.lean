import Clearance.Proofs.Adequacy

/-!
# What a reached point does to the whole

An evaluation gets from a list into the lists it delegates to, and what happens
there comes back through every enclosing level. This file follows an error on
its way back. An error that is not contained passes every level unchanged, so
wherever it arises it ends the evaluation, in the state in which it arises. A
contained error passes as long as it does not leave a delegation, since only
the answer of a policy is where errors are contained.

The chain tells the levels apart: it grows by one with every delegation and is
the same at two points of one list.
-/

namespace Clearance

namespace Engine

variable {σ : Type} {e : Engine σ} {ctx : Context}

/-- What every move keeps holds of all points that are got to from one of which it
holds. -/
theorem Reaches.invariant {I : Point σ → Prop}
    (hm : ∀ {pt pt' evs}, e.Moves ctx pt evs pt' → I pt → I pt') {pt pt' : Point σ}
    {evs : List Event} (h : e.Reaches ctx pt evs pt') (hi : I pt) : I pt' := by
  induction h with
  | refl => exact hi
  | step h _ ih => exact ih (hm h hi)

/-- Nothing but a condition is dispatched, or waits to be. -/
def Proper (pt : Point σ) : Prop :=
  match pt.task with
  | .list _ => True
  | .rest _ ps => ∀ p ∈ ps, p.isModifier = false
  | .policy p => p.isModifier = false

theorem not_isModifier_of_mem_conditions {p : Policy} {ps : List Policy}
    (h : p ∈ conditions ps) : p.isModifier = false := by
  have := (List.mem_filter.mp h).2
  simpa only [Bool.not_eq_true'] using this

theorem Moves.proper {pt pt' : Point σ} {evs : List Event} (h : e.Moves ctx pt evs pt')
    (hp : Proper pt) : Proper pt' := by
  cases h with
  | opens h ho => exact fun p hm => not_isModifier_of_mem_conditions hm
  | first => exact hp _ (List.mem_cons_self ..)
  | next h => exact fun p hm => hp p (List.mem_cons_of_mem _ hm)
  | delegates h => trivial

theorem Reaches.proper {pt pt' : Point σ} {evs : List Event}
    (h : e.Reaches ctx pt evs pt') (hp : Proper pt) : Proper pt' :=
  h.invariant Moves.proper hp

/-! ## The chain -/

theorem Moves.chain_prefix {pt pt' : Point σ} {evs : List Event}
    (h : e.Moves ctx pt evs pt') : pt.chain <+: pt'.chain := by
  cases h with
  | delegates h => exact List.prefix_append ..
  | _ => exact List.prefix_rfl

theorem Reaches.chain_prefix {pt pt' : Point σ} {evs : List Event}
    (h : e.Reaches ctx pt evs pt') : pt.chain <+: pt'.chain :=
  h.invariant (I := fun q => pt.chain <+: q.chain)
    (fun hm hc => hc.trans hm.chain_prefix) List.prefix_rfl

/-- Between two points of one list there is no other. -/
theorem chain_eq_of_between {pt pt₁ pt' : Point σ} {evs evs' : List Event}
    (hm : e.Moves ctx pt evs pt₁) (hs : e.Reaches ctx pt₁ evs' pt')
    (hc : pt'.chain = pt.chain) : pt₁.chain = pt.chain := by
  have h₁ := hm.chain_prefix.length_le
  have h₂ := hs.chain_prefix.length_le
  rw [hc] at h₂
  exact (hm.chain_prefix.eq_of_length (Nat.le_antisymm h₁ h₂)).symm

/-! ## What a list comes to dispatch -/

/-- A policy is one that a point has yet to dispatch in its own list, and the
resource is the one it will be dispatched for. -/
def Awaits (e : Engine σ) (pt : Point σ) (p : Policy) (v : Value) : Prop :=
  match pt.task with
  | .list ps => p ∈ conditions ps ∧
      ∃ evs s, e.Opens ps pt.resource pt.state evs (.ok (some v)) s
  | .rest _ ps => p ∈ ps ∧ v = pt.resource
  | .policy q => p = q ∧ v = pt.resource

theorem Moves.awaits {pt pt' : Point σ} {evs : List Event} {p : Policy} {v : Value}
    (h : e.Moves ctx pt evs pt') (hc : pt'.chain = pt.chain) (ha : e.Awaits pt' p v) :
    e.Awaits pt p v := by
  cases h with
  | opens h ho =>
      obtain ⟨hm, rfl⟩ := ha
      exact ⟨hm, _, _, ho⟩
  | first =>
      obtain ⟨rfl, rfl⟩ := ha
      exact ⟨List.mem_cons_self .., rfl⟩
  | next hp =>
      obtain ⟨hm, rfl⟩ := ha
      exact ⟨List.mem_cons_of_mem _ hm, rfl⟩
  | delegates h => simp at hc

/-- What is dispatched in a list is one of its conditions, for the resource that
the list has come to. -/
theorem Reaches.awaits {pt pt' : Point σ} {evs : List Event} {p : Policy} {v : Value}
    (h : e.Reaches ctx pt evs pt') (hc : pt'.chain = pt.chain)
    (ha : e.Awaits pt' p v) :
    e.Awaits pt p v := by
  induction h with
  | refl => exact ha
  | step hm hs ih =>
      have hc₁ := chain_eq_of_between hm hs hc
      exact hm.awaits hc₁ (ih (hc.trans hc₁.symm) ha)

/-! ## Errors on their way back -/

def Uncontained (e : Engine σ) (err : AccessError) : Prop :=
  e.contained false (.error err) = .error err

theorem Moves.error {pt pt' : Point σ} {evs evs' : List Event} {err : AccessError}
    {s' : Evaluation σ} (h : e.Moves ctx pt evs pt')
    (hr : e.Runs ctx pt' evs' (.error err) s')
    (hc : pt'.chain = pt.chain ∨ e.Uncontained err) :
    e.Runs ctx pt (evs ++ evs') (.error err) s' := by
  cases h with
  | opens h ho => exact .opened h ho hr
  | first => exact .failed hr
  | next h => exact .next h hr
  | delegates h =>
      rcases hc with hc | hc
      · simp at hc
      · have := Runs.delegated h hr
        rw [hc] at this
        exact this

/-- An error ends everything that has led to it, unless it is contained where a
delegation is left. -/
theorem Reaches.error {pt pt' : Point σ} {evs evs' : List Event} {err : AccessError}
    {s' : Evaluation σ} (h : e.Reaches ctx pt evs pt')
    (hr : e.Runs ctx pt' evs' (.error err) s')
    (hc : pt'.chain = pt.chain ∨ e.Uncontained err) :
    e.Runs ctx pt (evs ++ evs') (.error err) s' := by
  induction h with
  | refl => exact hr
  | step hm hs ih =>
      rw [List.append_assoc]
      rcases hc with hc | hc
      · have hc₁ := chain_eq_of_between hm hs hc
        exact hm.error (ih hr (.inl (hc.trans hc₁.symm))) (.inl hc₁)
      · exact hm.error (ih hr (.inr hc)) (.inr hc)

theorem Visits.error {target : Target} {s : Session σ} {pt : Point σ}
    {evs evs' : List Event} {err : AccessError} {s' : Evaluation σ}
    (h : e.Visits ctx target s evs pt) (hr : e.Runs ctx pt evs' (.error err) s')
    (hc : pt.chain = target.origin e.typing ∨ e.Uncontained err) :
    e.Checks ctx target s (evs ++ evs') (.error err) s'.session := by
  obtain ⟨ps, s₁, hl, h⟩ := h
  exact .loaded hl (h.error hr hc)

/-! ## Configuration faults outside debug mode -/

theorem contained_ne_configuration {α : Type} (hq : e.settings.debug = false)
    {answer : α} {r : Except AccessError α} {fault : ConfigurationFault} :
    e.contained answer r ≠ .error (.configuration fault) := by
  rcases r with (f | f) | a
  · rw [contained_configuration hq]
    exact fun h => by cases h
  · exact fun h => by cases h
  · exact fun h => by cases h

theorem Opens.ne_configuration {ps : List Policy} {v : Value} {s s' : Evaluation σ}
    {evs : List Event} {r : Except AccessError (Option Value)}
    {fault : ConfigurationFault} (hq : e.settings.debug = false)
    (h : e.Opens ps v s evs r s') :
    r ≠ .error (.configuration fault) := by
  cases h with
  | given => exact fun h => by cases h
  | located => exact contained_ne_configuration hq

/-- Outside debug mode a configuration fault is only ever the refusal of a
policy, and one of the very list that it comes out of. -/
theorem Runs.exists_refused {pt : Point σ} {evs : List Event}
    {r : Except AccessError Bool} {fault : ConfigurationFault} {s' : Evaluation σ}
    (hq : e.settings.debug = false) (h : e.Runs ctx pt evs r s')
    (hr : r = .error (.configuration fault)) :
    ∃ evs' p v, p.isRefused = true ∧
      e.consult ctx p v s' = (.error (.configuration fault), s') ∧
      e.Reaches ctx pt evs' ⟨pt.chain, .policy p, v, s'⟩ := by
  induction h with
  | unconditional | unlocated | done | settled | consulted => cases hr
  | opened h ho _ ih =>
      obtain ⟨evs', p, v, hp, hc, hs⟩ := ih hr
      exact ⟨_, p, v, hp, hc, .step (.opens h ho) hs⟩
  | unopened h ho =>
      cases hr
      exact absurd rfl (ho.ne_configuration hq)
  | next hp' _ _ ih =>
      obtain ⟨evs', p, v, hp, hc, hs⟩ := ih hr
      exact ⟨_, p, v, hp, hc, .step (.next hp') hs⟩
  | failed _ ih =>
      obtain ⟨evs', p, v, hp, hc, hs⟩ := ih hr
      exact ⟨_, p, v, hp, hc, .step .first hs⟩
  | @refused chain p v s err s' hp h =>
      obtain rfl : s' = s := by
        cases p with
        | resource | allOrNothing | unrecognized => exact (Prod.mk.inj h).2.symm
        | _ => cases hp
      cases hr
      exact ⟨_, p, v, hp, h, .refl⟩
  | faulted | delegated => exact absurd hr (contained_ne_configuration hq)

/-- So a list without unrecognized policies comes to none. -/
theorem Runs.ne_configuration {chain : List String} {ps : List Policy} {v : Value}
    {s s' : Evaluation σ} {evs : List Event} {r : Except AccessError Bool}
    {fault : ConfigurationFault} (hq : e.settings.debug = false)
    (hu : .unrecognized ∉ ps) (h : e.Runs ctx ⟨chain, .list ps, v, s⟩ evs r s') :
    r ≠ .error (.configuration fault) := by
  intro hr
  obtain ⟨evs', p, w, hp, _, hs⟩ := h.exists_refused hq hr
  obtain ⟨hm, _⟩ : p ∈ conditions ps ∧ _ := hs.awaits rfl ⟨rfl, rfl⟩
  have hm' := List.mem_filter.mp hm
  cases p with
  | unrecognized => exact hu hm'.1
  | resource | allOrNothing => cases hm'.2
  | _ => cases hp

/-! ## Unrecognized policies -/

/-- The error of dispatching an unrecognized policy. -/
def unhandled : AccessError :=
  .configuration (.unhandledPolicy Policy.unrecognized.text)

theorem unhandled_message :
    unhandled.message = "Unhandled policy: Unrecognized" := by decide

/-- An unrecognized policy is refused in the state in which it is met. -/
theorem runs_unrecognized (chain : List String) (v : Value) (s : Evaluation σ) :
    e.Runs ctx ⟨chain, .policy .unrecognized, v, s⟩
      [.dispatched chain .unrecognized v, .raised unhandled] (.error unhandled) s :=
  .refused rfl rfl

theorem eq_unrecognized {p : Policy} (hr : p.isRefused = true)
    (hm : p.isModifier = false) :
    p = .unrecognized := by
  cases p with
  | unrecognized => rfl
  | resource | allOrNothing => cases hm
  | _ => cases hr

/-- Outside debug mode a check fails with a configuration fault only where an
unrecognized policy of the target's own list is dispatched. -/
theorem Checks.exists_unrecognized {target : Target} {s s' : Session σ}
    {evs : List Event} {r : Except AccessError Bool} {fault : ConfigurationFault}
    (hq : e.settings.debug = false) (h : e.Checks ctx target s evs r s')
    (hr : r = .error (.configuration fault)) :
    .configuration fault = unhandled ∧ ∃ evs' v s₁, s' = s₁.session ∧
      e.Visits ctx target s evs'
        ⟨target.origin e.typing, .policy .unrecognized, v, s₁⟩ := by
  cases h with
  | unloaded h => exact absurd hr (contained_ne_configuration hq)
  | @loaded ps s₁ _ _ s₂ hl h =>
      obtain ⟨evs', p, v, hp, hc, hs⟩ := h.exists_refused hq hr
      obtain rfl := eq_unrecognized hp (hs.proper trivial)
      cases hc
      exact ⟨rfl, evs', v, s₂, rfl, ps, s₁, hl, hs⟩

/-! ## An engine to apply theorems to -/

/-- An engine that has nothing but policies, those of some types and functions. -/
def ofLists (types functions : List (String × List Policy)) (settings : Settings) :
    Engine Unit where
  host := { typeName := Handle.name, call := fun _ _ _ => pure .null }
  loader :=
    { loadType := fun type => pure ((types.lookup type).getD [])
      loadMethod := fun _ _ => pure []
      loadFunction := fun function => pure ((functions.lookup function).getD [])
      typeExists := fun type => pure (types.lookup type).isSome }
  subjects := .none
  settings := settings

end Engine

end Clearance
