import Clearance.Proofs.Reach

/-!
# How a list is decided

A list is decided by the first of its conditions whose answer settles it, and
by all of them together if none does. Which answers let the evaluation go on
depends on the mode, the modifiers among the policies are never met, and an
error settles every list. The second half is about what is left out: the
conditions after the one that settles the list are not dispatched, and the list
ends in the state in which that one has answered.
-/

namespace Clearance

namespace Engine

variable {σ : Type} (e : Engine σ) (ctx : Context)

/-- Policies give the same answer, one after another. -/
inductive AllAnswer (chain : List String) (v : Value) (b : Bool) :
    List Policy → Evaluation σ → Evaluation σ → Prop where
  | nil {s} : AllAnswer chain v b [] s s
  | cons {p ps s s₁ s'} (h : e.answer ctx chain p v s = some (.ok b, s₁))
      (hs : AllAnswer chain v b ps s₁ s') : AllAnswer chain v b (p :: ps) s s'

/-- One of the policies has an outcome, and all before it give an answer that
lets the evaluation go on. -/
def FirstAnswers (chain : List String) (v : Value) (go : Bool) (ps : List Policy)
    (s : Evaluation σ) (r : Except AccessError Bool) (s' : Evaluation σ) : Prop :=
  ∃ before p after s₁, ps = before ++ p :: after ∧
    e.AllAnswer ctx chain v go before s s₁ ∧ e.answer ctx chain p v s₁ = some (r, s')

variable {e ctx} {chain : List String} {v : Value}

theorem allAnswer_cons {b : Bool} {p : Policy} {ps : List Policy}
    {s s' : Evaluation σ} :
    e.AllAnswer ctx chain v b (p :: ps) s s' ↔
      ∃ s₁, e.answer ctx chain p v s = some (.ok b, s₁) ∧
        e.AllAnswer ctx chain v b ps s₁ s' := by
  constructor
  · intro h
    cases h with
    | cons h hs => exact ⟨_, h, hs⟩
  · rintro ⟨s₁, h, hs⟩
    exact .cons h hs

theorem not_firstAnswers_nil {go : Bool} {s s' : Evaluation σ}
    {r : Except AccessError Bool} :
    ¬ e.FirstAnswers ctx chain v go [] s r s' := by
  rintro ⟨before, p, after, _, h, _⟩
  simp at h

theorem firstAnswers_cons {go : Bool} {p : Policy} {ps : List Policy}
    {s s' : Evaluation σ} {r : Except AccessError Bool} :
    e.FirstAnswers ctx chain v go (p :: ps) s r s' ↔
      e.answer ctx chain p v s = some (r, s') ∨
        ∃ s₁, e.answer ctx chain p v s = some (.ok go, s₁) ∧
          e.FirstAnswers ctx chain v go ps s₁ r s' := by
  constructor
  · rintro ⟨before, q, after, s₁, he, hb, hq⟩
    cases hb with
    | nil =>
        cases he
        exact .inl hq
    | cons h hs =>
        cases he
        exact .inr ⟨_, h, _, q, after, s₁, rfl, hs, hq⟩
  · rintro (h | ⟨s₁, h, before, q, after, s₂, rfl, hb, hq⟩)
    · exact ⟨[], p, ps, s, rfl, .nil, h⟩
    · exact ⟨p :: before, q, after, s₂, rfl, .cons h hb, hq⟩

/-! ## Decisions -/

/-- Conditions are combined by going on from the first, or by stopping there. -/
theorem combine_cons_eq_some_iff {mode : Mode} {p : Policy} {ps : List Policy}
    {s s' : Evaluation σ} {r : Except AccessError Bool} :
    e.combine ctx chain mode (p :: ps) v s = some (r, s') ↔
      (e.answer ctx chain p v s = some (r, s') ∧ r ≠ .ok (!mode.settling)) ∨
        ∃ s₁, e.answer ctx chain p v s = some (.ok (!mode.settling), s₁) ∧
          e.combine ctx chain mode ps v s₁ = some (r, s') := by
  rcases ha : e.answer ctx chain p v s with _ | ⟨err | b, s₁⟩
  · rw [combine, ha]
    simp
  · rw [combine_of_error ha]
    constructor
    · intro h
      cases h
      exact .inl ⟨rfl, fun h => by cases h⟩
    · rintro (⟨h, _⟩ | ⟨_, h, _⟩)
      · exact h
      · cases h
  · rw [combine_of_answer ha]
    by_cases hb : b = mode.settling
    · rw [if_pos hb, hb]
      constructor
      · intro h
        cases h
        exact .inl ⟨rfl, by simp⟩
      · rintro (⟨h, _⟩ | ⟨_, h, _⟩)
        · exact h
        · simp at h
    · rw [if_neg hb]
      obtain rfl : b = !mode.settling := Bool.eq_not.mpr hb
      constructor
      · exact fun h => .inr ⟨s₁, rfl, h⟩
      · rintro (⟨h, hr⟩ | ⟨_, h, hc⟩)
        · cases h
          exact absurd rfl hr
        · cases h
          exact hc

/-- No condition settles the decision just if all let the evaluation go on. -/
theorem combine_eq_unsettled_iff {mode : Mode} {ps : List Policy}
    {s s' : Evaluation σ} :
    e.combine ctx chain mode ps v s = some (.ok (!mode.settling), s') ↔
      e.AllAnswer ctx chain v (!mode.settling) ps s s' := by
  induction ps generalizing s with
  | nil =>
      rw [combine]
      constructor
      · intro h
        cases h
        exact .nil
      · intro h
        cases h
        rfl
  | cons p ps ih =>
      rw [combine_cons_eq_some_iff, allAnswer_cons]
      simp only [ne_eq, not_true_eq_false, and_false, false_or, ih]

/-- Any other outcome is that of the first condition that has it. -/
theorem combine_eq_settled_iff {mode : Mode} {ps : List Policy} {s s' : Evaluation σ}
    {r : Except AccessError Bool} (hr : r ≠ .ok (!mode.settling)) :
    e.combine ctx chain mode ps v s = some (r, s') ↔
      e.FirstAnswers ctx chain v (!mode.settling) ps s r s' := by
  induction ps generalizing s with
  | nil =>
      rw [combine]
      refine ⟨fun h => ?_, fun h => absurd h not_firstAnswers_nil⟩
      cases h
      exact absurd rfl hr
  | cons p ps ih =>
      rw [combine_cons_eq_some_iff, firstAnswers_cons]
      simp only [hr, not_false_eq_true, ne_eq, and_true, ih]

/-! ## What is dispatched -/

/-- The policies that are dispatched in a list itself, with their resources. -/
def dispatchedIn (chain : List String) (evs : List Event) : List (Policy × Value) :=
  evs.filterMap fun
    | .dispatched chain' p v => if chain' = chain then some (p, v) else none
    | _ => none

theorem dispatchedIn_append (chain : List String) (evs evs' : List Event) :
    dispatchedIn chain (evs ++ evs') = dispatchedIn chain evs ++
      dispatchedIn chain evs' :=
  List.filterMap_append ..

theorem dispatchedIn_eq_nil {evs : List Event}
    (h : ∀ p v, .dispatched chain p v ∉ evs) : dispatchedIn chain evs = [] := by
  refine List.filterMap_eq_nil_iff.mpr fun ev hm => ?_
  split
  · next chain' p v =>
      rw [if_neg]
      rintro rfl
      exact h p v hm
  · rfl

theorem Opens.notMem_dispatched {ps : List Policy} {s s' : Evaluation σ}
    {evs : List Event} {r : Except AccessError (Option Value)}
    (h : e.Opens ps v s evs r s') (chain : List String) (p : Policy) (v' : Value) :
    .dispatched chain p v' ∉ evs := by
  cases h with
  | given => exact List.not_mem_nil
  | located h hl => cases hl <;> simp

/-- Everything that is dispatched in a run is dispatched on the chain it has
started with, or beyond it. -/
theorem Runs.chain_prefix {pt : Point σ} {evs : List Event}
    {r : Except AccessError Bool} {s' : Evaluation σ} (h : e.Runs ctx pt evs r s')
    {chain : List String} {p : Policy} {v : Value}
    (hm : .dispatched chain p v ∈ evs) : pt.chain <+: chain := by
  induction h with
  | unconditional | done => cases hm
  | opened _ ho _ ih =>
      rcases List.mem_append.mp hm with hm | hm
      · exact absurd hm (ho.notMem_dispatched _ _ _)
      · exact ih hm
  | unlocated _ ho | unopened _ ho => exact absurd hm (ho.notMem_dispatched _ _ _)
  | settled _ ih | failed _ ih => exact ih hm
  | next _ _ ihp ihr => exact (List.mem_append.mp hm).elim ihp ihr
  | refused | consulted | faulted =>
      simp only [List.mem_cons, Event.dispatched.injEq, reduceCtorEq, List.not_mem_nil,
        or_false] at hm
      exact hm.1 ▸ List.prefix_rfl
  | delegated _ _ ih =>
      rcases List.mem_cons.mp hm with hm | hm
      · cases hm
        exact List.prefix_rfl
      · exact (List.prefix_append ..).trans (ih hm)

/-- The run of a policy dispatches this policy and, in its own list, no other. -/
theorem Runs.dispatchedIn_policy {p : Policy} {s s' : Evaluation σ} {evs : List Event}
    {r : Except AccessError Bool} (h : e.Runs ctx ⟨chain, .policy p, v, s⟩ evs r s') :
    dispatchedIn chain evs = [(p, v)] := by
  cases h with
  | refused | consulted | faulted => simp [dispatchedIn]
  | @delegated _ type _ _ _ _ evs _ _ h hr =>
      have hn : dispatchedIn chain evs = [] := by
        refine dispatchedIn_eq_nil fun q w hm => ?_
        have := (hr.chain_prefix hm).length_le
        rw [List.length_append, List.length_singleton] at this
        omega
      rw [← List.singleton_append, dispatchedIn_append, hn]
      simp [dispatchedIn]

/-- Policies that let the evaluation go on are dispatched in order, before
whatever comes next. -/
theorem AllAnswer.runs {mode : Mode} {before after : List Policy}
    {s s₁ s' : Evaluation σ} {evs : List Event} {r : Except AccessError Bool}
    (h : e.AllAnswer ctx chain v (!mode.settling) before s s₁)
    (hr : e.Runs ctx ⟨chain, .rest mode after, v, s₁⟩ evs r s') :
    ∃ evs₀, e.Runs ctx ⟨chain, .rest mode (before ++ after), v, s⟩ (evs₀ ++ evs) r s' ∧
      dispatchedIn chain evs₀ = before.map (·, v) := by
  induction h with
  | nil => exact ⟨[], hr, rfl⟩
  | @cons p ps s s₁ s₂ h hs ih =>
      obtain ⟨evs₁, hr, hd⟩ := ih hr
      obtain ⟨evs₀, hp⟩ := outcome_eq_some_iff.mp
        (show e.outcome ctx ⟨chain, .policy p, v, s⟩ =
          some (.ok (!mode.settling), s₁) from h)
      refine ⟨evs₀ ++ evs₁, ?_, ?_⟩
      · rw [List.append_assoc]
        exact .next hp hr
      · rw [dispatchedIn_append, hp.dispatchedIn_policy, hd, List.map_cons,
          List.singleton_append]

/-- Up to the condition that settles the decision everything is dispatched in
order, and nothing after it. -/
theorem exists_runs_dispatchedIn {mode : Mode} {before : List Policy} {p : Policy}
    (after : List Policy) {s s₁ s' : Evaluation σ} {r : Except AccessError Bool}
    (hb : e.AllAnswer ctx chain v (!mode.settling) before s s₁)
    (hp : e.answer ctx chain p v s₁ = some (r, s')) (hr : r ≠ .ok (!mode.settling)) :
    ∃ evs, e.Runs ctx ⟨chain, .rest mode (before ++ p :: after), v, s⟩ evs r s' ∧
      dispatchedIn chain evs = (before ++ [p]).map (·, v) := by
  obtain ⟨evs, hp⟩ := outcome_eq_some_iff.mp
    (show e.outcome ctx ⟨chain, .policy p, v, s₁⟩ = some (r, s') from hp)
  have hs : e.Runs ctx ⟨chain, .rest mode (p :: after), v, s₁⟩ evs r s' := by
    cases r with
    | error err => exact .failed hp
    | ok b =>
        obtain rfl : b = mode.settling := Bool.not_eq_not.mp fun hb => hr (hb ▸ rfl)
        exact .settled hp
  obtain ⟨evs₀, hr, hd⟩ := hb.runs hs
  exact ⟨evs₀ ++ evs, hr, by
    rw [dispatchedIn_append, hd, hp.dispatchedIn_policy, List.map_append]
    rfl⟩

/-- How a list is decided. Without conditions the settings decide, and nothing
happens. Otherwise, once the resource is there, the first condition whose answer
settles the decision is the one that counts, as the mode of the list has it; and
it is the last that is dispatched. -/
theorem decideList_decides (e : Engine σ) (ctx : Context) (chain : List String)
    (ps : List Policy) (v : Value) (s : Evaluation σ) :
    (ps.all Policy.isModifier = true →
      e.decideList ctx chain ps v s = some (.ok (!e.settings.denyIfNoPolicies), s) ∧
        e.Runs ctx ⟨chain, .list ps, v, s⟩ [] (.ok (!e.settings.denyIfNoPolicies)) s) ∧
    (ps.all Policy.isModifier = false → ∀ v' s₀,
      e.resourceFor ps v s = (.ok (some v'), s₀) →
      (Policy.allOrNothing ∉ ps → ∀ s',
        (e.decideList ctx chain ps v s = some (.ok true, s') ↔
          e.FirstAnswers ctx chain v' false (conditions ps) s₀ (.ok true) s') ∧
        (e.decideList ctx chain ps v s = some (.ok false, s') ↔
          e.AllAnswer ctx chain v' false (conditions ps) s₀ s') ∧
        ∀ err, e.decideList ctx chain ps v s = some (.error err, s') ↔
          e.FirstAnswers ctx chain v' false (conditions ps) s₀ (.error err) s') ∧
      (Policy.allOrNothing ∈ ps → ∀ s',
        (e.decideList ctx chain ps v s = some (.ok false, s') ↔
          e.FirstAnswers ctx chain v' true (conditions ps) s₀ (.ok false) s') ∧
        (e.decideList ctx chain ps v s = some (.ok true, s') ↔
          e.AllAnswer ctx chain v' true (conditions ps) s₀ s') ∧
        ∀ err, e.decideList ctx chain ps v s = some (.error err, s') ↔
          e.FirstAnswers ctx chain v' true (conditions ps) s₀ (.error err) s') ∧
      ∀ go before p after s₁ r s', (go = true ↔ Policy.allOrNothing ∈ ps) →
        conditions ps = before ++ p :: after →
        e.AllAnswer ctx chain v' go before s₀ s₁ →
        e.answer ctx chain p v' s₁ = some (r, s') → r ≠ .ok go →
          ∃ evs, e.Runs ctx ⟨chain, .list ps, v, s⟩ evs r s' ∧
            dispatchedIn chain evs = (before ++ [p]).map (·, v')) := by
  refine ⟨fun h => ?_, fun h v' s₀ hl => ⟨fun hm s' => ?_, fun hm s' => ?_, ?_⟩⟩
  · have hr : e.Runs ctx ⟨chain, .list ps, v, s⟩ [] _ s := .unconditional h
    exact ⟨hr.outcome, hr⟩
  · have hm : Mode.ofList ps = .any := if_neg hm
    rw [decideList_of_resourceFor h hl, hm]
    exact ⟨combine_eq_settled_iff (by simp [Mode.settling]), combine_eq_unsettled_iff,
      fun err => combine_eq_settled_iff (by simp)⟩
  · have hm : Mode.ofList ps = .all := if_pos hm
    rw [decideList_of_resourceFor h hl, hm]
    exact ⟨combine_eq_settled_iff (by simp [Mode.settling]), combine_eq_unsettled_iff,
      fun err => combine_eq_settled_iff (by simp)⟩
  · intro go before p after s₁ r s' hgo hc hb hp hr
    obtain rfl : go = !(Mode.ofList ps).settling := by
      unfold Mode.ofList
      split
      · next hm => exact hgo.mpr hm
      · next hm => exact Bool.eq_false_iff.mpr fun h => hm (hgo.mp h)
    obtain ⟨evs, ho⟩ := resourceFor_eq_iff.mp hl
    obtain ⟨evs', hr, hd⟩ := exists_runs_dispatchedIn after hb hp hr
    rw [← hc] at hr
    refine ⟨evs ++ evs', .opened h ho hr, ?_⟩
    rw [dispatchedIn_append, dispatchedIn_eq_nil (ho.notMem_dispatched chain), hd,
      List.nil_append]

/-- An engine that grants where nothing is declared. -/
def permissive : Engine Unit := ofLists [] [] { denyIfNoPolicies := false }

/-- A list that only says how to combine is decided by the settings; a denial
lets the evaluation go on to the policy that grants, and with `allOrNothing` the
policy that grants lets it go on to the denial. -/
theorem permissive_decides :
    permissive.decideList {} [] [.allOrNothing] (.string "f") (.start ⟨(), .empty⟩) =
      some (.ok true, .start ⟨(), .empty⟩) ∧
    permissive.decideList {} [] [.deny none, .allow none, .unrecognized] (.string "f")
      (.start ⟨(), .empty⟩) = some (.ok true, .start ⟨(), .empty⟩) ∧
    permissive.decideList {} [] [.allow none, .deny none, .unrecognized, .allOrNothing]
      (.string "f") (.start ⟨(), .empty⟩) = some (.ok false, .start ⟨(), .empty⟩) ∧
    ∃ evs,
        permissive.Runs {} ⟨[], .list [.deny none, .allow none, .unrecognized],
        .string "f", .start ⟨(), .empty⟩⟩ evs (.ok true) (.start ⟨(), .empty⟩) ∧
      dispatchedIn [] evs =
        [(.deny none, .string "f"), (.allow none, .string "f")] := by
  have hyes :
      permissive.answer {} [] (.allow none) (.string "f") (.start ⟨(), .empty⟩) =
        some (.ok true, .start ⟨(), .empty⟩) :=
    (Runs.consulted (e := permissive) rfl).outcome
  have hno : permissive.answer {} [] (.deny none) (.string "f") (.start ⟨(), .empty⟩) =
      some (.ok false, .start ⟨(), .empty⟩) :=
    (Runs.consulted (e := permissive) rfl).outcome
  have hany :=
    (decideList_decides permissive {} [] [.deny none, .allow none, .unrecognized]
    (.string "f") (.start ⟨(), .empty⟩)).2 rfl _ _ rfl
  have hall := (decideList_decides permissive {} []
    [.allow none, .deny none, .unrecognized, .allOrNothing] (.string "f")
    (.start ⟨(), .empty⟩)).2 rfl _ _ rfl
  refine ⟨((decideList_decides permissive {} [] [.allOrNothing] _ _).1
    rfl).1, ?_, ?_, ?_⟩
  · exact (hany.1 (by decide) _).1.mpr
      ⟨[.deny none], _, _, _, rfl, .cons hno .nil, hyes⟩
  · exact (hall.2.1 (by decide) _).1.mpr
      ⟨[.allow none], _, _, _, rfl, .cons hyes .nil, hno⟩
  · exact hany.2.2 false [.deny none] _ _ _ (.ok true) _ (by decide) rfl
      (.cons hno .nil) hyes (by simp)

end Engine

end Clearance
