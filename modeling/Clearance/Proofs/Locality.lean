import Clearance.Proofs.Declared
import Clearance.Proofs.Transparency

/-!
# Decisions are local

A check looks at the list of its target and at those that delegations lead to from
there. Of the declarations it sees nothing else, so two sets of declarations that
agree on these lists come to the same with every check of the target. To agree on a
type they must also agree on whether it is declared at all, since a delegation asks
for that first: a type that is declared with no policies is another thing than one
that is not declared.

Where delegations lead is the same for both sets, so it is enough to follow them in
one. An evaluation follows only some of them, and none twice; this makes no
difference, since `Engine.Matches` asks for agreement wherever one could go.
-/

namespace Clearance

/-- Delegations lead from a list to a type, by way of declared types. -/
inductive Declarations.Leads (d : Declarations) : List Policy → String → Prop where
  | direct {ps type} (h : .delegate type ∈ ps) : Leads d ps type
  | through {ps type qs last} (h : .delegate type ∈ ps)
      (hd : d.Declares (.type type) qs) (hl : Leads d qs last) : Leads d ps last

/-- The heading under which the policies of a target are declared. -/
def Target.heading (t : Typing) : Target → Heading
  | .instance o => .type (o.typeName t)
  | .method receiver name => .method (receiver.typeName t) name
  | .function name => .function name

namespace Declarations

variable {d d' : Declarations} {ps : List Policy}

/-- The list that counts under a heading, which is empty if none is declared. -/
def listed (d : Declarations) (heading : Heading) : List Policy :=
  (d.list? heading).getD []

/-- If the one set agrees with the other wherever the delegations of the one lead,
those of the other lead nowhere else. -/
theorem Leads.of_congr
    (h : ∀ type, d.Leads ps type → d.list? (.type type) = d'.list? (.type type))
    {type : String} (hl : d'.Leads ps type) : d.Leads ps type := by
  induction hl with
  | direct hm => exact .direct hm
  | @through ps type qs last hm hd _ ih =>
      have hqs : d.Declares (.type type) qs := by
        rw [← list?_eq_some_iff, h type (.direct hm)]
        exact list?_eq_some_iff.mpr hd
      exact .through hm hqs (ih fun t ht => h t (.through hm hqs ht))

theorem Leads.congr
    (h : ∀ type, d.Leads ps type → d.list? (.type type) = d'.list? (.type type))
    {type : String} (hl : d.Leads ps type) : d'.Leads ps type :=
  -- the agreement holds along the delegations of the other set as well
  Leads.of_congr (fun type hl => (h type (Leads.of_congr h hl)).symm) hl

theorem contains_types_congr {type : String}
    (h : d.list? (.type type) = d'.list? (.type type)) :
    d.types.contains type = d'.types.contains type := by
  rw [Bool.eq_iff_iff, contains_types, contains_types]
  simp only [← list?_eq_some_iff, h]

end Declarations

namespace PolicyLoader

variable {σ : Type} {d : Declarations}

/-- What the loader of the declarations leads to, the declarations lead to. -/
theorem Leads.declared {ps : List Policy} {type : String}
    (h : (ofIndex ⟨d⟩ : PolicyLoader σ).Leads ps type) : d.Leads ps type := by
  induction h with
  | direct hm => exact .direct hm
  | @through ps type qs last w hm hx hl _ ih =>
      have hlist : d.listed (.type type) = qs := Except.ok.inj hl
      obtain ⟨qs', hd⟩ := Declarations.contains_types.mp hx
      have hqs : d.listed (.type type) = qs' := by
        unfold Declarations.listed
        rw [Declarations.list?_eq_some_iff.mpr hd]
        rfl
      rw [← hlist, hqs] at ih
      exact .through hm hd ih

end PolicyLoader

namespace Engine

variable {σ : Type}

theorem policiesOf_eq (e : Engine σ) (target : Target) :
    e.policiesOf target = e.loader.serve (target.heading e.typing) := by
  cases target with
  | «instance» | method | function => rfl

/-- The engine, for the policies of an index. -/
def declaring (e : Engine σ) (x : PolicyIndex) : Engine σ :=
  { e with loader := .ofIndex x }

theorem policiesOf_declaring (e : Engine σ) (d : Declarations) (target : Target)
    (w : σ) :
    (e.declaring ⟨d⟩).policiesOf target w =
      (.ok (d.listed (target.heading e.typing)), w) := by
  rw [policiesOf_eq]
  exact PolicyLoader.serve_ofIndex d _ w

theorem matches_declaring (e : Engine σ) {d d' : Declarations} {ps : List Policy}
    (h : ∀ type, d.Leads ps type → d.list? (.type type) = d'.list? (.type type)) :
    (e.declaring ⟨d⟩).Matches Eq ((PolicyLoader.ofIndex ⟨d⟩ : PolicyLoader σ).Leads ps)
      (e.declaring ⟨d'⟩) := by
  refine .withLoader (e.declaring ⟨d⟩) (.ofIndex ⟨d'⟩) (fun type ht => ?_)
    fun type ht => ?_
  · have ha := h type ht.declared
    show (pure (d.types.contains type) : StateM σ Bool) = pure (d'.types.contains type)
    rw [Declarations.contains_types_congr ha]
  · have ha := h type ht.declared
    show (pure (d.listed (.type type)) : Act σ (List Policy)) =
      pure (d'.listed (.type type))
    unfold Declarations.listed
    rw [ha]

theorem eq_of_rel_matches {x y : Option (Outcome σ Bool)}
    (h : Option.Rel (Outcome.Matches Eq Eq) x y) : x = y := by
  cases h with
  | none => rfl
  | @some o o' h =>
      obtain ⟨hr, hw, hc, hl⟩ := h
      have hs : o.2 = o'.2 := by
        rcases o with ⟨_, _, _, _⟩
        rcases o' with ⟨_, _, _, _⟩
        cases hw
        cases hc
        cases hl
        rfl
      exact congrArg some (Prod.ext hr.eq hs)

/-- Two sets of declarations come to the same with every check of a target, if they
have the same list for it and agree on every type that delegations lead to from that
list. Whatever else is declared in either does not matter. -/
theorem decisions_local (e : Engine σ) {d d' : Declarations} {x x' : PolicyIndex}
    (hx : PolicyIndex.ofDeclarations d = .ok x)
    (hx' : PolicyIndex.ofDeclarations d' = .ok x') (target : Target)
    (hp : d.listed (target.heading e.typing) = d'.listed (target.heading e.typing))
    (ha : ∀ type, d.Leads (d.listed (target.heading e.typing)) type →
      d.list? (.type type) = d'.list? (.type type)) :
    (∀ type, d.Leads (d.listed (target.heading e.typing)) type ↔
      d'.Leads (d'.listed (target.heading e.typing)) type) ∧
    ∀ ctx s, (e.declaring x).check target ctx s =
      (e.declaring x').check target ctx s := by
  obtain ⟨rfl, _⟩ := PolicyIndex.ofDeclarations_eq_ok.mp hx
  obtain ⟨rfl, _⟩ := PolicyIndex.ofDeclarations_eq_ok.mp hx'
  refine ⟨fun type => ?_, fun ctx s => ?_⟩
  · rw [← hp]
    exact ⟨.congr ha, .of_congr ha⟩
  · have hps := congrArg Prod.fst (e.policiesOf_declaring d target s.world)
    have hps' := congrArg Prod.fst (e.policiesOf_declaring d' target s.world)
    have hw := congrArg Prod.snd (e.policiesOf_declaring d target s.world)
    have hw' := congrArg Prod.snd (e.policiesOf_declaring d' target s.world)
    rw [check_of_policiesOf hps, check_of_policiesOf hps', hw, hw', ← hp]
    refine congrArg (Option.map _) (eq_of_rel_matches ?_)
    exact (e.matches_declaring ha).decideList (PolicyLoader.closed_leads Eq _)
      (.eq _) rfl (fun type hm => .direct hm) ⟨rfl, rfl, rfl⟩

/-- Two types that delegate to each other, and beside them a type, its method and a
function. -/
def plain : Declarations :=
  { types := .ofPairs
      [("A", { policies := [.delegate "B"] }), ("B", { policies := [.delegate "A"] }),
        ("C", { policies := [.deny none], methods := .ofPairs [("m", [.deny none])] })]
    functions := .ofPairs [("f", [.delegate "A"]), ("g", [.deny none])] }

/-- The same two types, and everything beside them edited, removed or added. -/
def edited : Declarations :=
  { types := .ofPairs
      [("A", { policies := [.delegate "B"]
               methods := .ofPairs [("n", [.unrecognized])] }),
        ("B", { policies := [.delegate "A"] }), ("D", { policies := [.delegate "A"] })]
    functions := .ofPairs [("f", [.delegate "A"]), ("g", [.delegate "D"])] }

theorem plain_leads {ps : List Policy}
    (hps : ∀ t, .delegate t ∈ ps → t = "A" ∨ t = "B") {type : String}
    (h : plain.Leads ps type) : type = "A" ∨ type = "B" := by
  induction h with
  | direct hm => exact hps _ hm
  | @through ps type qs last hm hd _ ih =>
      refine ih fun t ht => ?_
      have hl := Declarations.list?_eq_some_iff.mpr hd
      rcases hps _ hm with rfl | rfl
      · obtain rfl : [Policy.delegate "B"] = qs := Option.some.inj hl
        cases List.mem_singleton.mp ht
        exact .inr rfl
      · obtain rfl : [Policy.delegate "A"] = qs := Option.some.inj hl
        cases List.mem_singleton.mp ht
        exact .inl rfl

theorem edited_local :
    PolicyIndex.ofDeclarations plain = .ok ⟨plain⟩ ∧
    PolicyIndex.ofDeclarations edited = .ok ⟨edited⟩ ∧
    plain.listed (.function "f") = edited.listed (.function "f") ∧
    (∀ type, plain.Leads (plain.listed (.function "f")) type →
      plain.list? (.type type) = edited.list? (.type type)) ∧
    ∀ ctx s,
      ((ofLists [] [] { debug := true }).declaring ⟨plain⟩).check
          (.function "f") ctx s =
        ((ofLists [] [] { debug := true }).declaring ⟨edited⟩).check
          (.function "f") ctx s := by
  have hx : PolicyIndex.ofDeclarations plain = .ok ⟨plain⟩ := by rfl
  have hx' : PolicyIndex.ofDeclarations edited = .ok ⟨edited⟩ := by rfl
  have ha : ∀ type, plain.Leads (plain.listed (.function "f")) type →
      plain.list? (.type type) = edited.list? (.type type) := by
    intro type h
    have hf : ∀ t, .delegate t ∈ plain.listed (.function "f") → t = "A" ∨ t = "B" := by
      intro t ht
      have ht : Policy.delegate t ∈ [Policy.delegate "A"] := ht
      cases List.mem_singleton.mp ht
      exact .inl rfl
    rcases plain_leads hf h with rfl | rfl
    · rfl
    · rfl
  exact ⟨hx, hx', rfl, ha,
    (decisions_local (ofLists [] [] { debug := true }) hx hx' (.function "f")
      rfl ha).2⟩

end Engine

end Clearance
