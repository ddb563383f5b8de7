import Clearance.Proofs.Adequacy

/-!
# Delegations on a stack

The evaluator takes the chain of enclosing delegations as an argument, so a list
that is delegated to cannot leave anything on the chain of the list that delegates.
An evaluator that has only one such chain, as a part of the state that all levels
share, must put the type on it before it decides the type's list and take it off
afterwards, whatever the list has come to. This file has that evaluator, and shows
that it is the same one.

The induction that shows it also shows why: what is taken off is what has been put
on, since everything in between leaves the stack as it was.
-/

namespace Clearance

variable {σ : Type}

/-- An evaluation that has the types whose lists it is deciding on a stack. -/
structure Stacked (σ : Type) where
  delegation : List String
  evaluation : Evaluation σ

namespace Stacked

/-- A step that leaves the stack alone. -/
def step {α : Type} (s : Stacked σ) (x : Step σ α) :
    Except AccessError α × Stacked σ :=
  ((x s.evaluation).1, { s with evaluation := (x s.evaluation).2 })

theorem step_eq {α : Type} {s : Stacked σ} {x : Step σ α} {r : Except AccessError α}
    {t : Evaluation σ} (h : x s.evaluation = (r, t)) :
    s.step x = (r, ⟨s.delegation, t⟩) := by
  unfold step
  rw [h]

def push (s : Stacked σ) (type : String) : Stacked σ :=
  { s with delegation := s.delegation ++ [type] }

def pop (s : Stacked σ) : Stacked σ := { s with delegation := s.delegation.dropLast }

theorem pop_of_push {s s' : Stacked σ} {type : String}
    (h : s'.delegation = (s.push type).delegation) :
    s'.pop = ⟨s.delegation, s'.evaluation⟩ := by
  unfold pop
  rw [h]
  exact congrArg (Stacked.mk · s'.evaluation) List.dropLast_concat

end Stacked

namespace Engine

mutual

/-- The decision of a list of policies, by an evaluator with a stack. -/
def decideListOn (e : Engine σ) (ctx : Context) (ps : List Policy) (resource : Value)
    (s : Stacked σ) : Option (Except AccessError Bool × Stacked σ) :=
  if ps.all Policy.isModifier then some (.ok (!e.settings.denyIfNoPolicies), s)
  else
    match s.step (e.resourceFor ps resource) with
    | (.ok (some located), s) =>
        e |>.combineOn ctx (.ofList ps) (conditions ps) located s
    | (.ok none, s) => some (.ok false, s)
    | (.error err, s) => some (.error err, s)
partial_fixpoint

def combineOn (e : Engine σ) (ctx : Context) (mode : Mode) (ps : List Policy)
    (resource : Value) (s : Stacked σ) :
    Option (Except AccessError Bool × Stacked σ) :=
  match ps with
  | [] => some (.ok (!mode.settling), s)
  | p :: ps => do
      let (r, s) ← e |>.answerOn ctx p resource s
      match r with
      | .ok b =>
          if b = mode.settling then some (.ok b, s)
          else e |>.combineOn ctx mode ps resource s
      | .error err => some (.error err, s)
partial_fixpoint

def answerOn (e : Engine σ) (ctx : Context) (p : Policy) (resource : Value)
    (s : Stacked σ) :
    Option (Except AccessError Bool × Stacked σ) := do
  let (r, s) ← e |>.handleOn ctx p resource s
  some (if p.isRefused then r else e.contained false r, s)
partial_fixpoint

/-- What a policy says. The type that is delegated to is on the stack while its list is
decided, and taken off it again if the list fails as well as if it is decided. -/
def handleOn (e : Engine σ) (ctx : Context) (p : Policy) (resource : Value)
    (s : Stacked σ) :
    Option (Except AccessError Bool × Stacked σ) :=
  match p with
  | .delegate type =>
      match s.step (e.delegated s.delegation type) with
      | (.ok ps, s) => do
          let (r, s) ← e |>.decideListOn ctx ps resource (s.push type)
          some (r, s.pop)
      | (.error err, s) => some (.error err, s)
  | p => some (s.step (e.consult ctx p resource))
partial_fixpoint

end

variable {e : Engine σ} {ctx : Context}

/-! ## From the stack to the chain -/

/-- The outcome is that of the chain, and the stack is as it was. -/
def Restores (s : Stacked σ) (o : Except AccessError Bool × Stacked σ)
    (x : Option (Outcome σ Bool)) : Prop :=
  o.2.delegation = s.delegation ∧ x = some (o.1, o.2.evaluation)

theorem restores (ctx : Context) :
    (∀ ps v s o, e.decideListOn ctx ps v s = some o →
      Restores s o (e.decideList ctx s.delegation ps v s.evaluation)) ∧
    (∀ mode ps v s o, e.combineOn ctx mode ps v s = some o →
      Restores s o (e.combine ctx s.delegation mode ps v s.evaluation)) ∧
    (∀ p v s o, e.answerOn ctx p v s = some o →
      Restores s o (e.answer ctx s.delegation p v s.evaluation)) ∧
    (∀ p v s o, e.handleOn ctx p v s = some o →
      Restores s o (e.handle ctx s.delegation p v s.evaluation)) := by
  refine decideListOn.mutual_partial_correctness e ctx
    (fun ps v s o => Restores s o (e.decideList ctx s.delegation ps v s.evaluation))
    (fun mode ps v s o => Restores s o
      (e.combine ctx s.delegation mode ps v s.evaluation))
    (fun p v s o => Restores s o (e.answer ctx s.delegation p v s.evaluation))
    (fun p v s o => Restores s o
      (e.handle ctx s.delegation p v s.evaluation)) ?_ ?_ ?_ ?_
  case refine_1 =>
    -- A list: its resource step, then its conditions.
    intro combine ih ps v s o h
    rw [decideList]
    split at h
    · next hps =>
        cases h
        rw [if_pos hps]
        exact ⟨rfl, rfl⟩
    · next hps =>
        rw [if_neg hps]
        rcases hr : e.resourceFor ps v s.evaluation with ⟨err | located, s₁⟩
        · rw [Stacked.step_eq hr] at h
          cases h
          exact ⟨rfl, rfl⟩
        · rw [Stacked.step_eq hr] at h
          cases located with
          | none =>
              cases h
              exact ⟨rfl, rfl⟩
          | some located => exact ih _ _ _ _ _ h
  case refine_2 =>
    -- The conditions: the first of them, then perhaps the others.
    intro combine answer ihc iha mode ps v s o h
    cases ps with
    | nil =>
        cases h
        rw [Engine.combine]
        exact ⟨rfl, rfl⟩
    | cons p ps =>
        obtain ⟨⟨r, s₁⟩, hp, h⟩ := Option.bind_eq_some_iff.mp h
        obtain ⟨hs, ha⟩ := iha _ _ _ _ hp
        cases r with
        | error err =>
            cases h
            exact ⟨hs, combine_of_error ha⟩
        | ok b =>
            simp only [] at h
            rw [combine_of_answer ha]
            split at h
            · next hb =>
                cases h
                rw [if_pos hb]
                exact ⟨hs, rfl⟩
            · next hb =>
                rw [if_neg hb]
                have hs' : s₁.delegation = s.delegation := hs
                obtain ⟨hs₂, hc⟩ := ihc _ _ _ _ _ h
                rw [hs'] at hs₂ hc
                exact ⟨hs₂, hc⟩
  case refine_3 =>
    intro handle ih p v s o h
    obtain ⟨⟨r, s₁⟩, hp, h⟩ := Option.bind_eq_some_iff.mp h
    obtain ⟨hs, ha⟩ := ih _ _ _ _ hp
    cases h
    exact ⟨hs, answer_of_handle ha⟩
  case refine_4 =>
    -- A delegation: what is taken off the stack is what has been put on it.
    intro decideList ih p v s o h
    rcases eq_delegate_or p with ⟨type, rfl⟩ | hp
    · simp only [] at h
      rcases hd : e.delegated s.delegation type s.evaluation with ⟨err | ps, s₁⟩
      · rw [Stacked.step_eq hd] at h
        cases h
        rw [handle]
        simp only [hd]
        exact ⟨rfl, rfl⟩
      · rw [Stacked.step_eq hd] at h
        obtain ⟨⟨r, s₂⟩, hl, h⟩ := Option.bind_eq_some_iff.mp h
        cases h
        obtain ⟨hs, ho⟩ := ih _ _ _ _ hl
        have hpop : s₂.pop = ⟨s.delegation, s₂.evaluation⟩ := Stacked.pop_of_push hs
        rw [hpop]
        exact ⟨rfl, (handle_of_delegated hd).trans ho⟩
    · split at h
      · next type => exact absurd rfl (hp type)
      · cases h
        rw [handle_of_consult hp]
        exact ⟨rfl, rfl⟩

/-! ## From the chain to the stack -/

/-- The outcome with the stack that was there before. -/
def restored (chain : List String) (o : Outcome σ Bool) :
    Except AccessError Bool × Stacked σ :=
  (o.1, ⟨chain, o.2⟩)

theorem exists_on (ctx : Context) :
    (∀ chain ps v s o, e.decideList ctx chain ps v s = some o →
      e.decideListOn ctx ps v ⟨chain, s⟩ = some (restored chain o)) ∧
    (∀ chain mode ps v s o, e.combine ctx chain mode ps v s = some o →
      e.combineOn ctx mode ps v ⟨chain, s⟩ = some (restored chain o)) ∧
    (∀ chain p v s o, e.answer ctx chain p v s = some o →
      e.answerOn ctx p v ⟨chain, s⟩ = some (restored chain o)) ∧
    (∀ chain p v s o, e.handle ctx chain p v s = some o →
      e.handleOn ctx p v ⟨chain, s⟩ = some (restored chain o)) := by
  refine decideList.mutual_partial_correctness e ctx
    (fun chain ps v s o => e.decideListOn ctx ps v ⟨chain, s⟩ =
      some (restored chain o))
    (fun chain mode ps v s o =>
      e.combineOn ctx mode ps v ⟨chain, s⟩ = some (restored chain o))
    (fun chain p v s o => e.answerOn ctx p v ⟨chain, s⟩ = some (restored chain o))
    (fun chain p v s o => e.handleOn ctx p v ⟨chain, s⟩ =
      some (restored chain o)) ?_ ?_ ?_ ?_
  case refine_1 =>
    intro combine ih chain ps v s o h
    rw [decideListOn]
    split at h
    · next hps =>
        cases h
        rw [if_pos hps]
        rfl
    · next hps =>
        rw [if_neg hps]
        rcases hr : e.resourceFor ps v s with ⟨err | located, s₁⟩
        · rw [hr] at h
          cases h
          rw [Stacked.step_eq (s := ⟨chain, s⟩) hr]
          rfl
        · rw [hr] at h
          rw [Stacked.step_eq (s := ⟨chain, s⟩) hr]
          cases located with
          | none =>
              cases h
              rfl
          | some located => exact ih _ _ _ _ _ _ h
  case refine_2 =>
    intro combine answer ihc iha chain mode ps v s o h
    cases ps with
    | nil =>
        cases h
        rw [combineOn]
        rfl
    | cons p ps =>
        obtain ⟨⟨r, s₁⟩, hp, h⟩ := Option.bind_eq_some_iff.mp h
        have ha := iha _ _ _ _ _ hp
        rw [combineOn, ha]
        cases r with
        | error err =>
            cases h
            rfl
        | ok b =>
            simp only [] at h
            show (if b = mode.settling then some (.ok b, ⟨chain, s₁⟩)
              else e.combineOn ctx mode ps v ⟨chain, s₁⟩) = _
            split at h
            · next hb =>
                cases h
                rw [if_pos hb]
                rfl
            · next hb =>
                rw [if_neg hb]
                exact ihc _ _ _ _ _ _ h
  case refine_3 =>
    intro handle ih chain p v s o h
    obtain ⟨⟨r, s₁⟩, hp, h⟩ := Option.bind_eq_some_iff.mp h
    cases h
    rw [answerOn, ih _ _ _ _ _ hp]
    rfl
  case refine_4 =>
    intro decideList ih chain p v s o h
    split at h
    · next type =>
        rw [handleOn]
        rcases hd : e.delegated chain type s with ⟨err | ps, s₁⟩
        · rw [hd] at h
          cases h
          simp only [Stacked.step_eq (s := ⟨chain, s⟩) hd]
          rfl
        · rw [hd] at h
          simp only [Stacked.step_eq (s := ⟨chain, s⟩) hd]
          show (e.decideListOn ctx ps v ⟨chain ++ [type], s₁⟩ >>= _) = _
          rw [ih _ _ _ _ _ h]
          exact congrArg (fun d => some (o.1, Stacked.mk d o.2)) List.dropLast_concat
    · next hp =>
        cases h
        rw [handleOn]
        · rfl
        · exact hp

/-! ## One evaluator -/

theorem eq_of_restores {s : Stacked σ}
    {x : Option (Except AccessError Bool × Stacked σ)} {y : Option (Outcome σ Bool)}
    (hx : ∀ o, x = some o → Restores s o y)
    (hy : ∀ o, y = some o → x = some (restored s.delegation o)) :
    x = y.map (restored s.delegation) := by
  cases y with
  | some o => exact hy o rfl
  | none =>
      cases x with
      | none => rfl
      | some o => cases (hx o rfl).2

theorem decideListOn_eq (e : Engine σ) (ctx : Context) (ps : List Policy) (v : Value)
    (s : Stacked σ) :
    e.decideListOn ctx ps v s =
      (e.decideList ctx s.delegation ps v s.evaluation).map (restored s.delegation) :=
  eq_of_restores ((restores ctx).1 ps v s) fun o h => (exists_on ctx).1 _ _ _ _ o h

theorem answerOn_eq (e : Engine σ) (ctx : Context) (p : Policy) (v : Value)
    (s : Stacked σ) :
    e.answerOn ctx p v s =
      (e.answer ctx s.delegation p v s.evaluation).map (restored s.delegation) :=
  eq_of_restores ((restores ctx).2.2.1 p v s) fun o h =>
    (exists_on ctx).2.2.1 _ _ _ _ o h

theorem handleOn_eq (e : Engine σ) (ctx : Context) (p : Policy) (v : Value)
    (s : Stacked σ) :
    e.handleOn ctx p v s =
      (e.handle ctx s.delegation p v s.evaluation).map (restored s.delegation) :=
  eq_of_restores ((restores ctx).2.2.2 p v s) fun o h =>
    (exists_on ctx).2.2.2 _ _ _ _ o h

/-- A check by the evaluator with a stack. -/
def checkOn (e : Engine σ) (target : Target)
    (ctx : Context) : Question σ Bool := fun s =>
  match Step.ofAct (e.policiesOf target) (.start s) with
  | (.ok ps, s) =>
      (e.decideListOn ctx ps target.resource ⟨target.origin e.typing, s⟩).map
        fun (r, s) =>
        (r, s.evaluation.session)
  | (.error err, s) => some (e.contained false (.error err), s.session)

theorem checkOn_eq (e : Engine σ) (target : Target) (ctx : Context) :
    e.checkOn target ctx = e.check target ctx := by
  funext s
  unfold checkOn check
  rcases Step.ofAct (e.policiesOf target) (.start s) with ⟨err | ps, s₁⟩
  · rfl
  · simp only []
    rw [decideListOn_eq, Option.map_map]
    rfl

end Engine

end Clearance
