import Clearance.Proofs.Parallel
import Clearance.Proofs.Reach
import Clearance.Proofs.Stack

/-!
# What a dispatch leaves as it was

All levels of an evaluation share one state, and a list goes on after a policy has
failed. So what a policy leaves behind matters to the policies after it. It leaves
behind what it has done to the world, and the subjects if it was the first to ask
for them. Everything else is as it was: the chain of delegations is the same, and
the list is still decided by its own mode and about its own resource, whatever the
lists below it have asked for.

For the last point every point of a check is traced back to the list it lies in,
and the list to the policy that delegated to it. What a point has of mode and
resource it has from these two.
-/

namespace Clearance

namespace Engine

variable {σ : Type} {e : Engine σ} {ctx : Context}

/-! ## The located subjects -/

/-- The same evaluation, in which these subjects have been located. -/
def HasLocated (vs : List Value) (s t : Evaluation σ) : Prop :=
  s = t ∧ s.located = some vs

theorem parallel_hasLocated (e : Engine σ) (ctx : Context) (vs : List Value) :
    e.Parallel Eq (HasLocated vs) (fun _ => True) ctx e ctx where
  world := by
    rintro s _ ⟨rfl, _⟩
    rfl
  update := by
    rintro s _ w _ ⟨rfl, hs⟩ rfl
    exact ⟨rfl, hs⟩
  engines := .refl e _
  subjects := by
    rintro s _ ⟨rfl, hs⟩
    unfold currentSubjects
    rw [hs]
    exact ⟨rfl, rfl, hs⟩
  supplied := fun _ _ => rfl

theorem located_of_answer {chain : List String} {p : Policy} {v : Value}
    {s s' : Evaluation σ} {r : Except AccessError Bool}
    (h : e.answer ctx chain p v s = some (r, s')) :
    s'.located = s.located ∨ s.located = none := by
  cases hs : s.located with
  | none => exact .inr rfl
  | some vs =>
      obtain ⟨_, _, _, _, hs'⟩ := ((parallel_hasLocated e ctx vs).exists_related
        (e.loader.closed_all Eq) (.eq _)).2.2.1 _ _ _ _ _ h chain s rfl
          (fun _ _ => trivial)
        ⟨rfl, hs⟩
      exact .inl hs'

/-! ## The chain -/

theorem Moves.nodup {pt pt' : Point σ} {evs : List Event} (h : e.Moves ctx pt evs pt')
    (hn : pt.chain.Nodup) : pt'.chain.Nodup := by
  cases h with
  | opens | first | next => exact hn
  | delegates hd =>
      obtain ⟨_, _, hm, _⟩ := delegated_eq_ok.mp hd
      refine List.nodup_append.mpr
        ⟨hn, List.pairwise_singleton _ _, fun a ha b hb => ?_⟩
      rintro rfl
      exact hm (List.mem_singleton.mp hb ▸ ha)

theorem Reaches.nodup {pt pt' : Point σ} {evs : List Event}
    (h : e.Reaches ctx pt evs pt') (hn : pt.chain.Nodup) : pt'.chain.Nodup :=
  h.invariant Moves.nodup hn

theorem nodup_origin (t : Typing) (target : Target) : (target.origin t).Nodup := by
  cases target with
  | «instance» o => exact List.pairwise_singleton _ _
  | method | function => exact List.nodup_nil

theorem Visits.nodup {target : Target} {s : Session σ} {evs : List Event}
    {pt : Point σ} (h : e.Visits ctx target s evs pt) : pt.chain.Nodup := by
  obtain ⟨_, _, _, hr⟩ := h
  exact hr.nodup (nodup_origin _ target)

/-! ## What is circular -/

/-- A delegation to a type that is on the chain fails before the type's list
is loaded. -/
theorem handle_of_mem {chain : List String} {type : String} {v : Value}
    {s : Evaluation σ} (hx : (e.loader.typeExists type s.world).1 = true)
    (hc : type ∈ chain) :
    e.handle ctx chain (.delegate type) v s =
      some (.error (.configuration (.circularDelegation chain type)),
        { s with world := (e.loader.typeExists type s.world).2 }) := by
  have hx' : Step.ofWorld (e.loader.typeExists type) s =
      (.ok true, { s with world := (e.loader.typeExists type s.world).2 }) :=
    congrArg (Except.ok ·, _) hx
  exact Faults.handle (.circular hx' hc)

/-- Any other delegation to a type that exists comes to what the loader or the type's
list comes to. -/
theorem handle_of_notMem {chain : List String} {type : String} {v : Value}
    {s s₁ : Evaluation σ} {r : Except AccessError (List Policy)}
    (hx : (e.loader.typeExists type s.world).1 = true) (hc : type ∉ chain)
    (hl : Step.ofAct (e.loader.loadType type)
      { s with world := (e.loader.typeExists type s.world).2 } = (r, s₁)) :
    (∀ err, r = .error err → e.handle ctx chain (.delegate type) v s =
      some (.error err, s₁)) ∧
    ∀ ps, r = .ok ps → e.handle ctx chain (.delegate type) v s =
      e.decideList ctx (chain ++ [type]) ps v s₁ := by
  have hx' : Step.ofWorld (e.loader.typeExists type) s =
      (.ok true, { s with world := (e.loader.typeExists type s.world).2 }) :=
    congrArg (Except.ok ·, _) hx
  constructor
  · rintro err rfl
    exact Faults.handle (.load hx' hc hl)
  · rintro ps rfl
    exact handle_of_delegated (delegated_eq_ok.mpr ⟨_, hx', hc, hl⟩)

/-- The engine with other lists for the types. -/
def withLists (e : Engine σ) (load : String → Act σ (List Policy)) : Engine σ :=
  { e with loader := { e.loader with loadType := load } }

/-- So it is the chain alone that makes a delegation circular: that it fails as such
whatever the lists are is what it means to be on the chain. -/
theorem mem_chain_iff {chain : List String} {type : String} (v : Value)
    {s : Evaluation σ} (hx : (e.loader.typeExists type s.world).1 = true) :
    type ∈ chain ↔ ∀ load, ∃ s',
      (e.withLists load).handle ctx chain (.delegate type) v s =
      some (.error (.configuration (.circularDelegation chain type)), s') := by
  constructor
  · intro hc load
    exact ⟨_, handle_of_mem (e := e.withLists load) hx hc⟩
  · intro h
    by_cases hc : type ∈ chain
    · exact hc
    · obtain ⟨s', hs⟩ := h fun _ => pure []
      rw [(handle_of_notMem
        (e := e.withLists fun _ => pure []) hx hc rfl).2 [] rfl] at hs
      have hm : ([] : List Policy).all Policy.isModifier = true := rfl
      rw [decideList, if_pos hm] at hs
      cases hs

/-! ## The lists of a check -/

theorem Reaches.trans {pt pt₁ pt' : Point σ} {evs evs' : List Event}
    (h : e.Reaches ctx pt evs pt₁) (h' : e.Reaches ctx pt₁ evs' pt') :
    e.Reaches ctx pt (evs ++ evs') pt' := by
  induction h with
  | refl => exact h'
  | step hm _ ih =>
      rw [List.append_assoc]
      exact .step hm (ih h')

theorem Visits.move {target : Target} {s : Session σ} {evs evs' : List Event}
    {pt pt' : Point σ} (h : e.Visits ctx target s evs pt)
    (hm : e.Moves ctx pt evs' pt') :
    e.Visits ctx target s (evs ++ (evs' ++ [])) pt' := by
  obtain ⟨ps, s₁, hl, hr⟩ := h
  exact ⟨ps, s₁, hl, hr.trans (.step hm .refl)⟩

/-- A check comes to decide a list, after some delegations, for a resource and in some
state: the target's own, or that of a type to which a policy on the way delegates. -/
inductive Enters (e : Engine σ) (ctx : Context) (target : Target) (sess : Session σ) :
    List String → List Policy → Value → Evaluation σ → Prop where
  | own {ps s} (h : Step.ofAct (e.policiesOf target) (.start sess) = (.ok ps, s)) :
      Enters e ctx target sess (target.origin e.typing) ps target.resource s
  | delegated {evs chain type v s ps s₁}
      (hv : e.Visits ctx target sess evs ⟨chain, .policy (.delegate type), v, s⟩)
      (hd : e.delegated chain type s = (.ok ps, s₁)) :
      Enters e ctx target sess (chain ++ [type]) ps v s₁

/-- A point lies in a list that is decided for a resource. Once the list has come to
its resource, the point has that one, and what is left of the list's conditions is
combined in the list's own mode. -/
def Within (e : Engine σ) (ps : List Policy) (v : Value) (s : Evaluation σ)
    (pt : Point σ) : Prop :=
  match pt.task with
  | .list qs => qs = ps ∧ pt.resource = v ∧ pt.state = s
  | .rest mode qs => mode = .ofList ps ∧ qs <:+ conditions ps ∧
      ∃ evs s₁, e.Opens ps v s evs (.ok (some pt.resource)) s₁
  | .policy p => p ∈ conditions ps ∧
      ∃ evs s₁, e.Opens ps v s evs (.ok (some pt.resource)) s₁

/-- Within one list there is but one mode and one resource. -/
theorem Within.unique {ps qs qs' : List Policy} {v : Value} {s : Evaluation σ}
    {chain chain' : List String} {mode mode' : Mode} {w w' : Value}
    {t t' : Evaluation σ} (h : e.Within ps v s ⟨chain, .rest mode qs, w, t⟩)
    (h' : e.Within ps v s ⟨chain', .rest mode' qs', w', t'⟩) :
    mode = mode' ∧ w = w' := by
  obtain ⟨rfl, _, _, _, ho⟩ := h
  obtain ⟨rfl, _, _, _, ho'⟩ := h'
  exact ⟨rfl, Option.some.inj (Except.ok.inj (ho.unique ho').2.1)⟩

theorem Moves.within {pt pt' : Point σ} {evs : List Event} {ps : List Policy}
    {v : Value} {s : Evaluation σ} (h : e.Moves ctx pt evs pt')
    (hw : e.Within ps v s pt) (hc : pt'.chain = pt.chain) : e.Within ps v s pt' := by
  cases h with
  | opens _ ho =>
      obtain ⟨rfl, rfl, rfl⟩ := hw
      exact ⟨rfl, List.suffix_rfl, _, _, ho⟩
  | first =>
      obtain ⟨_, hs, ho⟩ := hw
      exact ⟨hs.subset (List.mem_cons_self ..), ho⟩
  | next =>
      obtain ⟨hm, hs, ho⟩ := hw
      exact ⟨hm, (List.suffix_cons _ _).trans hs, ho⟩
  | delegates => simp at hc

/-- Every point lies in a list that the check has entered. -/
def Placed (e : Engine σ) (ctx : Context) (target : Target) (sess : Session σ)
    (pt : Point σ) : Prop :=
  ∃ ps v s, e.Enters ctx target sess pt.chain ps v s ∧ e.Within ps v s pt

theorem Moves.placed {target : Target} {sess : Session σ} {evs₀ evs : List Event}
    {pt pt' : Point σ} (h : e.Moves ctx pt evs pt')
    (hv : e.Visits ctx target sess evs₀ pt) (hp : e.Placed ctx target sess pt) :
    e.Placed ctx target sess pt' := by
  by_cases hc : pt'.chain = pt.chain
  · obtain ⟨ps, v, s, he, hw⟩ := hp
    refine ⟨ps, v, s, ?_, h.within hw hc⟩
    rw [hc]
    exact he
  · cases h with
    | opens | first | next => exact absurd rfl hc
    | delegates hd => exact ⟨_, _, _, .delegated hv hd, rfl, rfl, rfl⟩

theorem Reaches.placed {target : Target} {sess : Session σ} {evs₀ evs : List Event}
    {pt pt' : Point σ} (h : e.Reaches ctx pt evs pt')
    (hv : e.Visits ctx target sess evs₀ pt) (hp : e.Placed ctx target sess pt) :
    e.Placed ctx target sess pt' := by
  induction h generalizing evs₀ with
  | refl => exact hp
  | step hm _ ih => exact ih (hv.move hm) (hm.placed hv hp)

theorem Visits.placed {target : Target} {sess : Session σ} {evs : List Event}
    {pt : Point σ} (h : e.Visits ctx target sess evs pt) :
    e.Placed ctx target sess pt := by
  obtain ⟨ps, s, hl, hr⟩ := h
  exact hr.placed ⟨ps, s, hl, .refl⟩ ⟨ps, _, s, .own hl, rfl, rfl, rfl⟩

/-! ## Dispatches -/

/-- The delegations are what they were, and so are the subjects once they
are located. -/
structure Intact (s s' : Stacked σ) : Prop where
  delegation : s'.delegation = s.delegation
  located : s'.evaluation.located = s.evaluation.located ∨ s.evaluation.located = none

theorem intact_of_answerOn {p : Policy} {v : Value} {s : Stacked σ}
    {o : Except AccessError Bool × Stacked σ} (h : e.answerOn ctx p v s = some o) :
    Intact s o.2 := by
  obtain ⟨hs, ha⟩ := (restores ctx).2.2.1 _ _ _ _ h
  exact ⟨hs, located_of_answer ha⟩

/-- Before its errors are contained a policy has done the same as after. -/
theorem intact_of_handleOn {p : Policy} {v : Value} {s : Stacked σ}
    {o : Except AccessError Bool × Stacked σ} (h : e.handleOn ctx p v s = some o) :
    Intact s o.2 := by
  have ha : e.answerOn ctx p v s =
      some (if p.isRefused then o.1 else e.contained false o.1, o.2) := by
    rw [answerOn, h]
    rfl
  have hi := intact_of_answerOn ha
  exact hi

theorem combineOn_of_answerOn {mode : Mode} {p : Policy} {rest : List Policy}
    {v : Value} {s s' : Stacked σ}
    (h : e.answerOn ctx p v s = some (.ok (!mode.settling), s')) :
    e.combineOn ctx mode (p :: rest) v s = e.combineOn ctx mode rest v s' := by
  rw [combineOn, h]
  exact if_neg (by simp)

theorem combineOn_of_settled {mode : Mode} {p : Policy} {rest : List Policy}
    {v : Value} {s s' : Stacked σ} {r : Except AccessError Bool}
    (h : e.answerOn ctx p v s = some (r, s')) (hr : r ≠ .ok (!mode.settling)) :
    e.combineOn ctx mode (p :: rest) v s = some (r, s') := by
  rw [combineOn, h]
  cases r with
  | error err => rfl
  | ok b =>
      have hb : b = mode.settling := Decidable.byContradiction fun hb =>
        hr (congrArg Except.ok (Bool.eq_not.mpr hb))
      exact if_pos hb

theorem Visits.next {target : Target} {sess : Session σ} {evs : List Event}
    {chain : List String} {mode : Mode} {p : Policy} {rest : List Policy} {v : Value}
    {s : Evaluation σ} {s' : Stacked σ}
    (h : e.Visits ctx target sess evs ⟨chain, .rest mode (p :: rest), v, s⟩)
    (ha : e.answerOn ctx p v ⟨chain, s⟩ = some (.ok (!mode.settling), s')) :
    ∃ evs', e.Visits ctx target sess evs'
      ⟨chain, .rest mode rest, v, s'.evaluation⟩ := by
  obtain ⟨_, ha⟩ := (restores ctx).2.2.1 _ _ _ _ ha
  obtain ⟨evs', hr⟩ := outcome_eq_some_iff.mp
    (show e.outcome ctx ⟨chain, .policy p, v, s⟩ = some (_, s'.evaluation) from ha)
  exact ⟨_, h.move (.next hr)⟩

/-- Whatever a policy comes to, an error as well as an answer, the evaluation goes
on as if nothing had been between but what it has done to the world: after the same
delegations, with the policies that remain, in the mode and for the resource of
their own list. No type is delegated to twice at once, and nothing but that is
called circular. -/
theorem dispatch_leaves_intact (e : Engine σ) (ctx : Context) :
    (∀ target, e.checkOn target ctx = e.check target ctx) ∧
    (∀ p v s, e.handleOn ctx p v s =
      (e.handle ctx s.delegation p v s.evaluation).map (restored s.delegation)) ∧
    (∀ p v s o, e.handleOn ctx p v s = some o ∨ e.answerOn ctx p v s = some o →
      Intact s o.2) ∧
    (∀ target sess evs chain mode p rest v s,
      e.Visits ctx target sess evs ⟨chain, .rest mode (p :: rest), v, s⟩ →
      ∀ r s', e.answerOn ctx p v ⟨chain, s⟩ = some (r, s') →
        (r = .ok (!mode.settling) →
          e.combineOn ctx mode (p :: rest) v ⟨chain, s⟩ =
            e.combineOn ctx mode rest v s' ∧
          ∃ evs', e.Visits ctx target sess evs'
            ⟨chain, .rest mode rest, v, s'.evaluation⟩) ∧
        (r ≠ .ok (!mode.settling) →
          e.combineOn ctx mode (p :: rest) v ⟨chain, s⟩ = some (r, s'))) ∧
    (∀ target sess evs pt, e.Visits ctx target sess evs pt →
      pt.chain.Nodup ∧ e.Placed ctx target sess pt) ∧
    (∀ ps v s chain chain' mode mode' qs qs' w w' t t',
      e.Within ps v s ⟨chain, .rest mode qs, w, t⟩ →
      e.Within ps v s ⟨chain', .rest mode' qs', w', t'⟩ → mode = mode' ∧ w = w') ∧
    ∀ chain type v s, (e.loader.typeExists type s.world).1 = true →
      (type ∈ chain ↔ ∀ load, ∃ s',
        (e.withLists load).handle ctx chain (.delegate type) v s =
        some (.error (.configuration (.circularDelegation chain type)), s')) ∧
      (type ∈ chain → e.handle ctx chain (.delegate type) v s =
        some (.error (.configuration (.circularDelegation chain type)),
          { s with world := (e.loader.typeExists type s.world).2 })) ∧
      (type ∉ chain → ∀ r s₁, Step.ofAct (e.loader.loadType type)
          { s with world := (e.loader.typeExists type s.world).2 } = (r, s₁) →
        (∀ err, r = .error err →
          e.handle ctx chain (.delegate type) v s = some (.error err, s₁)) ∧
        ∀ ps, r = .ok ps → e.handle ctx chain (.delegate type) v s =
          e.decideList ctx (chain ++ [type]) ps v s₁) := by
  refine ⟨fun target => checkOn_eq e target ctx, fun p v s => handleOn_eq e ctx p v s,
    fun p v s o h => ?_,
    fun target sess evs chain mode p rest v s hv r s' ha =>
      ⟨?_, combineOn_of_settled ha⟩,
    fun target sess evs pt hv => ⟨hv.nodup, hv.placed⟩, ?_,
    fun chain type v s hx => ⟨mem_chain_iff v hx, handle_of_mem hx, ?_⟩⟩
  · rcases h with h | h
    · exact intact_of_handleOn h
    · exact intact_of_answerOn h
  · rintro rfl
    exact ⟨combineOn_of_answerOn ha, hv.next ha⟩
  · intro ps v s chain chain' mode mode' qs qs' w w' t t' h h'
    exact h.unique h'
  · intro hc r s₁ hl
    exact handle_of_notMem hx hc hl

/-- A function delegates to two types, and both of them to a third. -/
def diamond : Engine Unit :=
  ofLists [("B", [.delegate "D"]), ("C", [.allOrNothing, .delegate "D"]),
    ("D", [.deny none])] [("f", [.delegate "B", .delegate "C"])] { debug := true }

theorem diamond_answerOn (s : Evaluation Unit) :
    diamond.answerOn {} (.delegate "B") (.string "f") ⟨[], s⟩ =
      some (.ok false, ⟨[], s⟩) := by
  have hd : diamond.Runs {} ⟨["B", "D"], .list [.deny none], .string "f", s⟩ _
      (.ok false) s :=
    .opened rfl (.given rfl) (.next (.consulted rfl) .done)
  have hb : diamond.Runs {} ⟨["B"], .policy (.delegate "D"), .string "f", s⟩ _
      (.ok (!Mode.any.settling)) s :=
        Runs.delegated (e := diamond) (r := .ok false) rfl hd
  have hl : diamond.Runs {} ⟨["B"], .list [.delegate "D"], .string "f", s⟩ _
      (.ok false) s :=
    .opened rfl (.given rfl) (.next hb .done)
  have ha : diamond.Runs {} ⟨[], .policy (.delegate "B"), .string "f", s⟩ _
      (.ok false) s :=
    Runs.delegated (e := diamond) (r := .ok false) rfl hl
  rw [answerOn_eq]
  exact congrArg (Option.map (restored [])) ha.outcome

/-- The second of the two types is delegated to as if the first had not been, and the
third is circular only below itself. -/
theorem diamond_leaves_intact :
    diamond.answerOn {} (.delegate "B") (.string "f") ⟨[], .start ⟨(), .empty⟩⟩ =
      some (.ok false, ⟨[], .start ⟨(), .empty⟩⟩) ∧
    diamond.combineOn {} .any [.delegate "B", .delegate "C"] (.string "f")
        ⟨[], .start ⟨(), .empty⟩⟩ =
      diamond.combineOn {} .any [.delegate "C"] (.string "f")
        ⟨[], .start ⟨(), .empty⟩⟩ ∧
    (∃ evs, diamond.Visits {} (.function "f") ⟨(), .empty⟩ evs
      ⟨[], .rest .any [.delegate "C"], .string "f", .start ⟨(), .empty⟩⟩) ∧
    diamond.handle {} ["C"] (.delegate "D") (.string "f") (.start ⟨(), .empty⟩) =
      diamond.decideList {} ["C", "D"] [.deny none] (.string "f")
        (.start ⟨(), .empty⟩) ∧
    diamond.handle {} ["C", "D"] (.delegate "D") (.string "f") (.start ⟨(), .empty⟩) =
      some (.error (.configuration (.circularDelegation ["C", "D"] "D")),
        .start ⟨(), .empty⟩) := by
  obtain ⟨_, _, _, hn, _, _, hc⟩ := dispatch_leaves_intact diamond {}
  have ha := diamond_answerOn (.start ⟨(), .empty⟩)
  have hv : diamond.Visits {} (.function "f") ⟨(), .empty⟩ _
      ⟨[], .rest .any [.delegate "B", .delegate "C"], .string "f",
        .start ⟨(), .empty⟩⟩ :=
    ⟨_, _, rfl, .step (.opens rfl (.given rfl)) .refl⟩
  obtain ⟨hrest, hnext⟩ := (hn _ _ _ _ _ _ _ _ _ hv _ _ ha).1 rfl
  refine ⟨ha, hrest, hnext, ?_, ?_⟩
  · exact ((hc ["C"] "D" (.string "f") (.start ⟨(), .empty⟩) rfl).2.2
      (by decide) _ _ rfl).2 _ rfl
  · exact (hc ["C", "D"] "D" (.string "f") (.start ⟨(), .empty⟩) rfl).2.1 (by decide)

end Engine

end Clearance
