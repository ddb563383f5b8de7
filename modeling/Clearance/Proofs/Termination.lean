import Clearance.Proofs.Reach
import Mathlib.Data.Set.Card

/-!
# Delegation comes to an end

A list can delegate to a list that is larger than itself, so nothing about the policies
at hand makes an evaluation end. What does is the chain: a type is delegated to only if
it exists and is not on the chain, and it is put there before its list is decided. So
if all types that are ever on the chain are among finitely many, those that are not on
it become fewer with every delegation. Between two delegations there is less and less
of a list to do, and so the evaluation ends, whatever the lists are and in whatever
state of the world they are loaded (`Ends.of_finite`). In particular it does if there
are finitely many types at all; `room` counts those that are not on the chain.

The other face of the same fact is the depth. The types that have been delegated to
exist and are all different, so there are never more of them than types that exist.
They are what stands on the chain after its origin, which need not exist and can be
delegated to only if it is not there.
-/

namespace Clearance

namespace PolicyLoader

variable {σ : Type}

/-- The types that exist, in whatever state of the world. -/
def existing (l : PolicyLoader σ) : Set String :=
  {type | ∃ w, (l.typeExists type w).1 = true}

theorem finite_existing_iff {l : PolicyLoader σ} :
    l.existing.Finite ↔ ∃ known, l.KnowsOnly known := by
  constructor
  · intro h
    refine ⟨h.toFinset.toList, fun type w hw => ?_⟩
    rw [Finset.mem_toList, Set.Finite.mem_toFinset]
    exact ⟨w, hw⟩
  · rintro ⟨known, hk⟩
    refine known.finite_toSet.subset ?_
    rintro type ⟨w, hw⟩
    exact hk type w hw

theorem KnowsOnly.mono {l : PolicyLoader σ} {known known' : List String}
    (h : l.KnowsOnly known) (hs : known ⊆ known') : l.KnowsOnly known' :=
  fun type w hw => hs (h type w hw)

/-- Of finitely many loaders that know finitely many types each, what they know
together is finite too. -/
theorem exists_knowsOnly {ls : List (PolicyLoader σ)}
    (h : ∀ l ∈ ls, ∃ known, l.KnowsOnly known) :
    ∃ known, ∀ l ∈ ls, l.KnowsOnly known := by
  induction ls with
  | nil => exact ⟨[], fun l hl => by cases hl⟩
  | cons l ls ih =>
      obtain ⟨known, hk⟩ := h l (List.mem_cons_self ..)
      obtain ⟨rest, hr⟩ := ih fun l' hl' => h l' (List.mem_cons_of_mem _ hl')
      refine ⟨known ++ rest, fun l' hl' => ?_⟩
      rcases List.mem_cons.mp hl' with rfl | hl'
      · exact hk.mono (List.subset_append_left ..)
      · exact (hr l' hl').mono (List.subset_append_right ..)

theorem finite_existing_chain {ls : List (PolicyLoader σ)}
    (h : ∀ l ∈ ls, l.existing.Finite) : (chain ls).existing.Finite := by
  obtain ⟨known, hk⟩ := exists_knowsOnly fun l hl => finite_existing_iff.mp (h l hl)
  exact finite_existing_iff.mpr ⟨known, chain_knowsOnly hk⟩

end PolicyLoader

/-- How much of its own list an evaluation has before it. -/
def Task.size : Task → Nat
  | .list ps => ps.length + 2
  | .rest _ ps => ps.length + 1
  | .policy _ => 0

namespace Engine

variable {σ : Type} {e : Engine σ} {ctx : Context}

/-! ## What a delegation needs -/

theorem mem_existing_of_delegated {chain : List String} {type : String}
    {s s' : Evaluation σ} {ps : List Policy}
    (h : e.delegated chain type s = (.ok ps, s')) :
    type ∈ e.loader.existing ∧ type ∉ chain := by
  obtain ⟨s₁, hx, hc, _⟩ := delegated_eq_ok.mp h
  exact ⟨⟨s.world, Except.ok.inj (Prod.mk.inj hx).1⟩, hc⟩

/-- One more type on the chain, of those of which there are finitely many, leaves fewer
that are not there. -/
theorem ncard_sdiff_lt {types : Set String} (hf : types.Finite) {chain : List String}
    {type : String} (ht : type ∈ types) (hc : type ∉ chain) :
    (types \ {t | t ∈ chain ++ [type]}).ncard < (types \ {t | t ∈ chain}).ncard := by
  refine Set.ncard_lt_ncard ?_ (hf.subset Set.sdiff_subset)
  refine Set.ssubset_iff_of_subset ?_ |>.mpr ⟨type, ⟨ht, hc⟩, ?_⟩
  · rintro t ⟨ht, hm⟩
    exact ⟨ht, fun hm' => hm (List.mem_append_left _ hm')⟩
  · rintro ⟨_, hm⟩
    exact hm (List.mem_append_right _ (List.mem_singleton_self _))

/-- How many types exist that are not on the chain. -/
noncomputable def room (e : Engine σ) (chain : List String) : Nat :=
  (e.loader.existing \ {type | type ∈ chain}).ncard

/-- A delegation takes one more type onto the chain, and one that was not there. -/
theorem room_lt_of_delegated (hf : e.loader.existing.Finite) {chain : List String}
    {type : String} {s s' : Evaluation σ} {ps : List Policy}
    (h : e.delegated chain type s = (.ok ps, s')) :
    e.room (chain ++ [type]) < e.room chain :=
  have ⟨hx, hc⟩ := mem_existing_of_delegated h
  ncard_sdiff_lt hf hx hc

/-! ## How deep delegations nest -/

/-- A chain is an origin and, after it, different types that all exist. -/
def Nests (e : Engine σ) (origin chain : List String) : Prop :=
  ∃ nested, chain = origin ++ nested ∧ nested.Nodup ∧ ∀ type ∈ nested,
    type ∈ e.loader.existing

theorem Nests.refl (chain : List String) : e.Nests chain chain :=
  ⟨[], (List.append_nil _).symm, .nil, fun _ ht => by cases ht⟩

theorem Moves.nests {origin : List String} {pt pt' : Point σ} {evs : List Event}
    (h : e.Moves ctx pt evs pt') (hn : e.Nests origin pt.chain) :
    e.Nests origin pt'.chain := by
  cases h with
  | opens | first | next => exact hn
  | delegates h =>
      obtain ⟨hx, hc⟩ := mem_existing_of_delegated h
      obtain ⟨nested, rfl, hd, hs⟩ := hn
      -- The type comes last. It is on no part of the chain, so not among these.
      refine ⟨nested ++ [_], List.append_assoc .., ?_, ?_⟩
      · refine List.nodup_append.mpr ⟨hd, List.nodup_singleton _, ?_⟩
        rintro t ht u hu rfl
        exact hc (List.mem_append_right _ (List.mem_singleton.mp hu ▸ ht))
      · intro t ht
        rcases List.mem_append.mp ht with ht | ht
        · exact hs t ht
        · exact List.mem_singleton.mp ht ▸ hx

theorem Reaches.nests {origin : List String} {pt pt' : Point σ} {evs : List Event}
    (h : e.Reaches ctx pt evs pt') (hn : e.Nests origin pt.chain) :
    e.Nests origin pt'.chain :=
  h.invariant Moves.nests hn

theorem Nests.exists_length_le (hf : e.loader.existing.Finite)
    {origin chain : List String} (h : e.Nests origin chain) :
    ∃ nested, chain = origin ++ nested ∧ nested.length ≤ e.loader.existing.ncard := by
  obtain ⟨nested, rfl, hd, hs⟩ := h
  refine ⟨nested, rfl, ?_⟩
  rw [← List.toFinset_card_of_nodup hd, ← Set.ncard_coe_finset]
  exact Set.ncard_le_ncard (fun t ht => hs t (by simpa using ht)) hf

/-! ## Every evaluation ends

An evaluation ends at a point if it ends at the points it moves on to. Of these moves
only a delegation goes back to a whole list. -/

/-- There is a run from a point. -/
def Ends (e : Engine σ) (ctx : Context) (pt : Point σ) : Prop :=
  ∃ evs r s', e.Runs ctx pt evs r s'

theorem Ends.exists_outcome {pt : Point σ} (h : e.Ends ctx pt) :
    ∃ r s', e.outcome ctx pt = some (r, s') := by
  obtain ⟨evs, r, s', hr⟩ := h
  exact ⟨r, s', hr.outcome⟩

theorem Ends.of_moves {pt : Point σ}
    (h : ∀ evs pt', e.Moves ctx pt evs pt' → e.Ends ctx pt') : e.Ends ctx pt := by
  obtain ⟨chain, task, v, s⟩ := pt
  cases task with
  | list ps =>
      cases hps : ps.all Policy.isModifier with
      | true => exact ⟨_, _, _, .unconditional hps⟩
      | false =>
          rcases hl : e.resourceFor ps v s with ⟨err | located, s₁⟩
          · obtain ⟨evs, ho⟩ := resourceFor_eq_iff.mp hl
            exact ⟨_, _, _, .unopened hps ho⟩
          · obtain ⟨evs, ho⟩ := resourceFor_eq_iff.mp hl
            cases located with
            | none => exact ⟨_, _, _, .unlocated hps ho⟩
            | some v' =>
                obtain ⟨evs', r, s', hr⟩ := h _ _ (.opens hps ho)
                exact ⟨_, _, _, .opened hps ho hr⟩
  | rest mode ps =>
      cases ps with
      | nil => exact ⟨_, _, _, .done⟩
      | cons p ps =>
          obtain ⟨evs, r, s₁, hp⟩ := h _ _ .first
          rcases r with err | b
          · exact ⟨_, _, _, .failed hp⟩
          · by_cases hb : b = mode.settling
            · subst hb
              exact ⟨_, _, _, .settled hp⟩
            · obtain rfl : b = !mode.settling := Bool.eq_not.mpr hb
              obtain ⟨evs', r, s', hr⟩ := h _ _ (.next hp)
              exact ⟨_, _, _, .next hp hr⟩
  | policy p =>
      rcases eq_delegate_or p with ⟨type, rfl⟩ | hd
      · rcases hl : e.delegated chain type s with ⟨err | ps, s₁⟩
        · exact ⟨_, _, _, .faulted (delegated_eq_error.mp hl)⟩
        · obtain ⟨evs, r, s', hr⟩ := h _ _ (.delegates hl)
          exact ⟨_, _, _, .delegated hl hr⟩
      · rcases hc : e.consult ctx p v s with ⟨err | b, s₁⟩
        · cases hp : p.isRefused with
          | true => exact ⟨_, _, _, .refused hp hc⟩
          | false => exact ⟨_, _, _, .faulted ((consult_eq_error hp hd).mp hc)⟩
        · exact ⟨_, _, _, .consulted hc⟩

/-- A move leaves less to do of one list, or takes onto the chain what was
not there. -/
theorem Moves.smaller {pt pt' : Point σ} {evs : List Event}
    (h : e.Moves ctx pt evs pt') :
    pt'.chain = pt.chain ∧ pt'.task.size < pt.task.size ∨
      ∃ type, type ∉ pt.chain ∧ pt'.chain = pt.chain ++ [type] := by
  cases h with
  | opens =>
      exact .inl
        ⟨rfl, Nat.add_lt_add_right (Nat.lt_succ_of_le (List.length_filter_le ..)) 1⟩
  | first => exact .inl ⟨rfl, Nat.succ_pos _⟩
  | next => exact .inl ⟨rfl, Nat.lt_succ_self _⟩
  | delegates h => exact .inr ⟨_, (mem_existing_of_delegated h).2, rfl⟩

/-- An evaluation ends if all types that are ever on its chain are among finitely
many. -/
theorem Ends.of_finite {types : Set String} (hf : types.Finite) (pt : Point σ)
    (hn : ∀ evs pt', e.Reaches ctx pt evs pt' → ∀ type ∈ pt'.chain, type ∈ types) :
    e.Ends ctx pt :=
  .of_moves fun _ pt' hm => of_finite hf pt' fun _ _ hs => hn _ _ (.step hm hs)
termination_by ((types \ {type | type ∈ pt.chain}).ncard, pt.task.size)
decreasing_by
  rcases hm.smaller with ⟨hc, hs⟩ | ⟨type, hc, hp⟩
  · rw [hc]
    exact Prod.Lex.right _ hs
  · have ht : type ∈ types :=
      hn _ _ (.step hm .refl) type
        (hp ▸ List.mem_append_right _ (List.mem_singleton_self _))
    rw [hp]
    exact Prod.Lex.left _ _ (ncard_sdiff_lt hf ht hc)

theorem Ends.of_finite_existing (hf : e.loader.existing.Finite) (pt : Point σ) :
    e.Ends ctx pt := by
  refine .of_finite (pt.chain.finite_toSet.union hf) pt fun evs pt' h type ht => ?_
  obtain ⟨nested, hc, _, hs⟩ := h.nests (.refl pt.chain)
  rw [hc] at ht
  exact (List.mem_append.mp ht).imp_right (hs type)

/-- A check is answered if its evaluation ends, provided that there is one. -/
theorem exists_check {target : Target} {s : Session σ}
    (h : ∀ ps s₁, Step.ofAct (e.policiesOf target) (.start s) = (.ok ps, s₁) →
      e.Ends ctx ⟨target.origin e.typing, .list ps, target.resource, s₁⟩) :
    ∃ r s', e.check target ctx s = some (r, s') := by
  rcases hl : Step.ofAct (e.policiesOf target) (.start s) with ⟨err | ps, s₁⟩
  · exact ⟨_, _, check_eq_some_iff.mpr ⟨_, .unloaded hl⟩⟩
  · obtain ⟨evs, r, s', hr⟩ := h ps s₁ hl
    exact ⟨_, _, check_eq_some_iff.mpr ⟨_, .loaded hl hr⟩⟩

/-- Every check of an engine is answered if only finitely many types exist for
its loader, which is so for declarations and for chains of such loaders. -/
theorem delegation_terminates :
    ((∀ x : PolicyIndex, (PolicyLoader.ofIndex x : PolicyLoader σ).existing.Finite) ∧
      ∀ ls : List (PolicyLoader σ), (∀ l ∈ ls, l.existing.Finite) →
        (PolicyLoader.chain ls).existing.Finite) ∧
    ∀ e : Engine σ, e.loader.existing.Finite → ∀ ctx : Context,
      (∀ target s, ∃ r s', e.check target ctx s = some (r, s')) ∧
      (∀ chain ps v s, ∃ r s', e.decideList ctx chain ps v s = some (r, s')) ∧
      (∀ chain type v s, ∃ r s', e.handle ctx chain (.delegate type) v s =
        some (r, s')) ∧
      (∀ chain type s ps s₁, e.delegated chain type s = (.ok ps, s₁) →
        e.room (chain ++ [type]) < e.room chain) ∧
      ∀ target s evs pt, e.Visits ctx target s evs pt → ∃ nested,
        pt.chain = target.origin e.typing ++ nested ∧
          nested.length ≤ e.loader.existing.ncard := by
  refine ⟨⟨fun x => ?_, fun ls h => PolicyLoader.finite_existing_chain h⟩,
    fun e hf ctx =>
    ⟨fun target s => ?_, fun chain ps v s => ?_, fun chain type v s => ?_,
      fun chain type s ps s₁ h => room_lt_of_delegated hf h, ?_⟩⟩
  · exact PolicyLoader.finite_existing_iff.mpr ⟨_, PolicyLoader.ofIndex_knowsOnly x⟩
  · exact exists_check fun _ _ _ => .of_finite_existing hf _
  · exact (Ends.of_finite_existing hf ⟨chain, .list ps, v, s⟩).exists_outcome
  · rcases hd : e.delegated chain type s with ⟨err | ps, s₁⟩
    · exact ⟨_, _, Faults.handle (delegated_eq_error.mp hd)⟩
    · rw [handle_of_delegated hd]
      exact (Ends.of_finite_existing hf
        ⟨chain ++ [type], .list ps, v, s₁⟩).exists_outcome
  · rintro target s evs pt ⟨ps, s₁, _, hr⟩
    exact (hr.nests (.refl _)).exists_length_le hf

/-- Two types that delegate to each other, one of them twice, and a function that
delegates to the first. -/
def cyclicDeclarations : Declarations :=
  { types := .ofPairs
      [("A", { policies := [.delegate "B", .delegate "B"] }),
        ("B", { policies := [.delegate "A"] })]
    functions := .ofPairs [("f", [.delegate "A"])] }

def cyclic : Engine Unit :=
  { ofLists [] [] {} with loader := .chain [.ofIndex ⟨cyclicDeclarations⟩, .none] }

theorem cyclic_terminates :
    PolicyIndex.ofDeclarations cyclicDeclarations = .ok ⟨cyclicDeclarations⟩ ∧
    cyclic.loader.existing.Finite ∧
    ∃ r s', cyclic.check (.function "f") {} ⟨(), .empty⟩ = some (r, s') := by
  have hn : (PolicyLoader.none : PolicyLoader Unit).existing.Finite :=
    PolicyLoader.finite_existing_iff.mpr ⟨[], PolicyLoader.none_knowsOnly⟩
  have hf : cyclic.loader.existing.Finite := by
    refine (delegation_terminates (σ := Unit)).1.2 _ fun l hl => ?_
    simp only [List.mem_cons, List.not_mem_nil, or_false] at hl
    rcases hl with rfl | rfl
    · exact (delegation_terminates (σ := Unit)).1.1 _
    · exact hn
  exact ⟨by rfl, hf, ((delegation_terminates (σ := Unit)).2 cyclic hf {}).1 _ _⟩

/-! ## Without end

If every type exists, a type can delegate to one that is longer by a letter, and
so on. No chain ever comes back to a type that is on it, and no run is a finite
derivation. -/

/-- An engine for which every type exists and delegates to a longer one. -/
def endless : Engine Unit :=
  { ofLists [] [("f", [.delegate "x"])] {} with
    loader :=
      { loadType := fun type => pure [.delegate (type ++ "x")]
        loadMethod := fun _ _ => pure []
        loadFunction := fun _ => pure [.delegate "x"]
        typeExists := fun _ => pure true } }

/-- Nothing remains to be done but to delegate to a type that is longer than all
those on the chain. -/
def Growing (pt : Point Unit) : Prop :=
  ∃ type, (∀ t ∈ pt.chain, t.length < type.length) ∧
    (pt.task = .list [.delegate type] ∨
      (∃ mode, pt.task = .rest mode [.delegate type]) ∨
        pt.task = .policy (.delegate type))

theorem endless_delegated {chain : List String} {type : String} {s : Evaluation Unit}
    (hc : ∀ t ∈ chain, t.length < type.length) :
    endless.delegated chain type s = (.ok [.delegate (type ++ "x")], s) :=
  delegated_eq_ok.mpr ⟨s, rfl, fun hm => Nat.lt_irrefl _ (hc type hm), rfl⟩

theorem endless_not_runs {pt : Point Unit} {evs : List Event}
    {r : Except AccessError Bool} {s' : Evaluation Unit}
    (h : endless.Runs {} pt evs r s') : ¬ Growing pt := by
  induction h with
  | unconditional h =>
      rintro ⟨type, _, ht | ⟨_, ht⟩ | ht⟩ <;> cases ht
      cases h
  | opened h ho _ ih =>
      rintro ⟨type, hc, ht | ⟨_, ht⟩ | ht⟩ <;> cases ht
      exact ih ⟨type, hc, .inr (.inl ⟨_, rfl⟩)⟩
  | unlocated h ho | unopened h ho =>
      rintro ⟨type, _, ht | ⟨_, ht⟩ | ht⟩ <;> cases ht
      have hv := resourceFor_eq_iff.mpr ⟨_, ho⟩
      cases hv
  | done =>
      rintro ⟨type, _, ht | ⟨_, ht⟩ | ht⟩ <;> cases ht
  | settled _ ih | failed _ ih | next _ _ ih _ =>
      rintro ⟨type, hc, ht | ⟨_, ht⟩ | ht⟩ <;> cases ht
      exact ih ⟨type, hc, .inr (.inr rfl)⟩
  | refused hp =>
      rintro ⟨type, _, ht | ⟨_, ht⟩ | ht⟩ <;> cases ht
      cases hp
  | consulted h =>
      rintro ⟨type, _, ht | ⟨_, ht⟩ | ht⟩ <;> cases ht
      cases h
  | faulted h =>
      rintro ⟨type, hc, ht | ⟨_, ht⟩ | ht⟩ <;> cases ht
      cases (endless_delegated hc).symm.trans (delegated_eq_error.mpr h)
  | @delegated chain type v s ps s₁ _ _ _ h _ ih =>
      -- The one rule that could apply leads to a point of the same kind.
      rintro ⟨_, hc, ht | ⟨_, ht⟩ | ht⟩ <;> cases ht
      cases (endless_delegated hc).symm.trans h
      refine ih ⟨type ++ "x", fun t ht => ?_, .inl rfl⟩
      rw [String.length_append]
      rcases List.mem_append.mp ht with ht | ht
      · exact Nat.lt_add_right _ (hc t ht)
      · cases List.mem_singleton.mp ht
        exact Nat.lt_add_of_pos_right (by decide)

/-- Without finitely many types a check need not be answered. -/
theorem endless_check (s : Session Unit) :
    endless.check (.function "f") {} s = none := by
  refine Option.eq_none_iff_forall_ne_some.mpr fun ⟨r, s'⟩ h => ?_
  obtain ⟨evs, hc⟩ := check_eq_some_iff.mp h
  cases hc with
  | unloaded hl => cases hl
  | loaded hl hr =>
      cases hl
      exact endless_not_runs hr ⟨"x", (fun _ ht => by cases ht), .inl rfl⟩

end Engine

end Clearance
