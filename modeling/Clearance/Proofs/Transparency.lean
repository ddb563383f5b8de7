import Clearance.Proofs.Parallel
import Clearance.Proofs.Reach

/-!
# Delegating is like having the other's list

A target whose whole list is a delegation to a type is decided by the list of
that type, and this is the same as if the list were its own. Two things differ
on the way. The type is on the chain while its list is decided, which nobody
notices unless a delegation leads back to it; and there is one more level at
which configuration faults are contained, which has nothing left to contain
unless the list itself has an unrecognized policy.

So this is a matter of one list that is decided twice, after different chains,
for which `Engine.Matches.decideList` is there. The types that count are those
that delegations lead to from the list. The chains differ by one type that is
not among them, and they differ in the same way at every point that is reached.

The loader that delegates is asked once more than the one that does not. It is
up to the relation between the worlds whether this makes a difference.
-/

namespace Clearance

/-! ## Where delegations lead -/

/-- Delegations lead from a list to a type, by way of types that exist and can be
loaded in some state of the world or other. -/
inductive PolicyLoader.Leads {σ : Type} (l : PolicyLoader σ) :
    List Policy → String → Prop where
  | direct {ps type} (h : .delegate type ∈ ps) : Leads l ps type
  | through {ps type qs last} (w : σ) (h : .delegate type ∈ ps)
      (hx : (l.typeExists type w).1 = true)
      (hl : (l.loadType type (l.typeExists type w).2).1 = .ok qs)
      (hs : Leads l qs last) :
      Leads l ps last

namespace PolicyLoader

variable {σ τ : Type} {l : PolicyLoader σ}

theorem Leads.next {ps qs : List Policy} {type last : String} (h : l.Leads ps type)
    {w : σ} (hx : (l.typeExists type w).1 = true)
    (hl : (l.loadType type (l.typeExists type w).2).1 = .ok qs)
    (hm : .delegate last ∈ qs) :
    l.Leads ps last := by
  induction h with
  | direct h => exact .through w h hx hl (.direct hm)
  | through w' h hx' hl' _ ih => exact .through w' h hx' hl' (ih hx hl)

theorem closed_leads (W : σ → τ → Prop) (ps : List Policy) :
    l.Closed W (l.Leads ps) := by
  intro type w _ qs h _ hx hl last hm
  exact h.next hx hl hm

end PolicyLoader

/-- A type stands on the one chain after the origin, and not on the other. -/
def Inserted (origin : List String) (type : String)
    (chain chain' : List String) : Prop :=
  ∃ rest, chain = origin ++ type :: rest ∧ chain' = origin ++ rest

theorem follows_inserted {near : String → Prop} {origin : List String} {type : String}
    (hn : ∀ t, near t → t ≠ type) : Follows near (Inserted origin type) where
  mem := by
    rintro _ _ t ⟨rest, rfl, rfl⟩ ht
    simp only [List.mem_append, List.mem_cons, hn t ht, false_or]
  push := by
    rintro _ _ t ⟨rest, rfl, rfl⟩ _
    exact ⟨rest ++ [t], by simp, by simp⟩

namespace Engine

variable {σ τ : Type} {e : Engine σ} {e' : Engine τ} {ctx : Context}

/-! ## A list that does nothing but delegate -/

theorem decideList_delegate {chain : List String} {type : String} {v : Value}
    {s s₁ : Evaluation σ} {ps : List Policy}
    (hd : e.delegated chain type s = (.ok ps, s₁)) :
    e.decideList ctx chain [.delegate type] v s =
      (e.decideList ctx (chain ++ [type]) ps v s₁).map fun o =>
        (e.contained false o.1, o.2) := by
  have hm : Mode.ofList [.delegate type] = .any := if_neg (by simp)
  have hl : e.decideList ctx chain [.delegate type] v s =
      e.combine ctx chain .any [.delegate type] v s := by
    rw [decideList_of_resourceFor rfl rfl, hm]
    rfl
  rw [hl]
  cases ho : e.decideList ctx (chain ++ [type]) ps v s₁ with
  | none =>
      rw [combine, answer, handle_of_delegated hd, ho]
      rfl
  | some o =>
      have ha := answer_of_handle ((handle_of_delegated hd).trans ho)
      rw [if_neg (by simp [Policy.isRefused])] at ha
      simp only [Option.map_some]
      cases hr : e.contained false o.1 with
      | error err => rw [combine_of_error (ha.trans (by rw [hr]))]
      | ok b =>
          rw [combine_of_answer (ha.trans (by rw [hr]))]
          cases b with
          | true => rfl
          | false =>
              rw [if_neg (by decide), combine]
              rfl

/-- What a list comes to is not changed by being contained, unless the list has an
unrecognized policy. -/
theorem contained_of_decideList {chain : List String} {ps : List Policy} {v : Value}
    {s s' : Evaluation σ} {r : Except AccessError Bool}
    (hu : e.settings.debug = true ∨ .unrecognized ∉ ps)
    (h : e.decideList ctx chain ps v s = some (r, s')) : e.contained false r = r := by
  cases hd : e.settings.debug with
  | true => exact contained_of_debug hd false r
  | false =>
      have hu : .unrecognized ∉ ps := hu.resolve_left (by simp [hd])
      obtain ⟨evs, hr⟩ := outcome_eq_some_iff.mp
        (show e.outcome ctx ⟨chain, .list ps, v, s⟩ = some (r, s') from h)
      exact contained_of_ne_configuration fun fault => hr.ne_configuration hd hu

theorem decideList_delegate_eq {chain : List String} {type : String} {v : Value}
    {s s₁ : Evaluation σ} {ps : List Policy}
    (hu : e.settings.debug = true ∨ .unrecognized ∉ ps)
    (hd : e.delegated chain type s = (.ok ps, s₁)) :
    e.decideList ctx chain [.delegate type] v s =
      e.decideList ctx (chain ++ [type]) ps v s₁ := by
  rw [decideList_delegate hd]
  cases ho : e.decideList ctx (chain ++ [type]) ps v s₁ with
  | none => rfl
  | some o => exact congrArg (fun r => some (r, o.2)) (contained_of_decideList hu ho)

/-! ## From lists to checks -/

theorem check_of_policiesOf {target : Target} {ps : List Policy} {s : Session σ}
    (h : (e.policiesOf target s.world).1 = .ok ps) :
    e.check target ctx s =
      (e.decideList ctx (target.origin e.typing) ps target.resource
        { Evaluation.start s with world := (e.policiesOf target s.world).2 }).map
          fun o => (o.1, o.2.session) := by
  have hs : Step.ofAct (e.policiesOf target) (.start s) =
      (.ok ps, { Evaluation.start s with world := (e.policiesOf target s.world).2 }) :=
    congrArg (·, _) h
  unfold check
  rw [hs]

theorem delegated_of_typeExists {chain : List String} {type : String}
    {ps : List Policy} {s : Evaluation σ}
    (hx : (e.loader.typeExists type s.world).1 = true) (hc : type ∉ chain)
    (hl : (e.loader.loadType type (e.loader.typeExists type s.world).2).1 = .ok ps) :
    e.delegated chain type s =
      (.ok ps, { s with
        world := (e.loader.loadType type (e.loader.typeExists type s.world).2).2 }) :=
  delegated_eq_ok.mpr ⟨_, congrArg (Except.ok ·, _) hx, hc, congrArg (·, _) hl⟩

/-- A check of a target whose list is a delegation to a type comes to the same as
the check of the target with the list of the type, if no delegation leads from
that list back to the type or the target. The second engine is the first with
another list for the target, in a world that cannot be told apart from the first
one's when both have loaded the list. -/
theorem delegation_transparent {W : σ → τ → Prop} {target : Target} {type : String}
    {ps : List Policy} {s : Session σ} {s' : Session τ}
    (h : e.Matches W (· ∉ target.origin e.typing) e')
    (hx : ∀ w, (e.loader.typeExists type w).1 = true)
    (hl : ∀ w, (e.loader.loadType type w).1 = .ok ps)
    (hn : ∀ t, e.loader.Leads ps t → t ≠ type ∧ t ∉ target.origin e.typing)
    (hu : e.settings.debug = true ∨ .unrecognized ∉ ps)
    (hp : (e.policiesOf target s.world).1 = .ok [.delegate type])
    (hp' : (e'.policiesOf target s'.world).1 = .ok ps)
    (hw : W (e.loader.loadType type
        (e.loader.typeExists type (e.policiesOf target s.world).2).2).2
      (e'.policiesOf target s'.world).2)
    (hc : s.caches = s'.caches) :
    Option.Rel
      (fun o o' => Agrees (Inserted (target.origin e.typing) type) o.1 o'.1 ∧
        W o.2.world o'.2.world ∧ o.2.caches = o'.2.caches)
      (e.check target ctx s) (e'.check target ctx s') := by
  -- A target of the type itself would be one that the list leads back to.
  have ho : type ∉ target.origin e.typing := by
    intro hm
    cases target with
    | method | function => cases hm
    | «instance» o =>
        obtain rfl := List.mem_singleton.mp hm
        obtain rfl : ps = [.delegate (o.typeName e.typing)] :=
          Except.ok.inj ((hl s.world).symm.trans hp)
        exact (hn _ (.direct (List.mem_singleton_self _))).1 rfl
  rw [check_of_policiesOf hp, check_of_policiesOf hp',
    decideList_delegate_eq hu (delegated_of_typeExists (hx _) ho (hl _)),
    ← show e.typing = e'.typing from h.host.typing]
  -- What remains is one list, decided with the type on the chain and without it.
  have hr : Inserted (target.origin e.typing) type (target.origin e.typing ++ [type])
      (target.origin e.typing) := ⟨[], rfl, (List.append_nil _).symm⟩
  have hs : Evaluation.Matches W { Evaluation.start s with world := _ }
      { Evaluation.start s' with world := _ } := ⟨hw, hc, rfl⟩
  refine rel_map (R := Outcome.Matches (Inserted (target.origin e.typing) type) W) ?_
    fun ho => ⟨ho.1, ho.2.world, ho.2.caches⟩
  exact (h.mono fun t ht => (hn t ht).2).decideList (PolicyLoader.closed_leads W ps)
    (follows_inserted fun t ht => (hn t ht).1) hr (fun t ht => .direct ht) hs

/-- A function delegates to a type, and that to one that delegates to itself. In
debug mode a check says so, and shows the chain. -/
def looping : Engine Unit :=
  ofLists [("B", [.delegate "C"]), ("C", [.delegate "C"])] [("f", [.delegate "B"])]
    { debug := true }

/-- The same without the type in between. -/
def loopingAtOnce : Engine Unit :=
  ofLists [("B", [.delegate "C"]), ("C", [.delegate "C"])] [("f", [.delegate "C"])]
    { debug := true }

theorem eq_of_looping_leads {t : String} (h : looping.loader.Leads [.delegate "C"] t) :
    t = "C" := by
  generalize hps : [Policy.delegate "C"] = ps at h
  induction h with
  | direct h =>
      subst hps
      cases List.mem_singleton.mp h
      rfl
  | through w h hx hl _ ih =>
      subst hps
      cases List.mem_singleton.mp h
      cases hl
      exact ih rfl

theorem looping_transparent :
    (∀ t, looping.loader.Leads [.delegate "C"] t →
      t ≠ "B" ∧ t ∉ Target.origin looping.typing (.function "f")) ∧
    Option.Rel
      (fun o o' => Agrees (Inserted [] "B") o.1 o'.1 ∧ o.2.world = o'.2.world ∧
        o.2.caches = o'.2.caches)
      (looping.check (.function "f") {} ⟨(), .empty⟩)
      (loopingAtOnce.check (.function "f") {} ⟨(), .empty⟩) := by
  have hm : looping.Matches Eq (· ∉ Target.origin looping.typing (.function "f"))
      loopingAtOnce :=
    .withLoader looping loopingAtOnce.loader (fun _ _ => rfl) fun _ _ => rfl
  have hn : ∀ t, looping.loader.Leads [.delegate "C"] t →
      t ≠ "B" ∧ t ∉ Target.origin looping.typing (.function "f") := by
    intro t ht
    obtain rfl := eq_of_looping_leads ht
    exact ⟨by decide, fun h => by cases h⟩
  exact ⟨hn, delegation_transparent hm
    (fun _ => rfl) (fun _ => rfl) hn (.inl rfl) rfl rfl rfl rfl⟩

end Engine

end Clearance
