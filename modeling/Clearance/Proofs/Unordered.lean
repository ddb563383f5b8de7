import Clearance.Proofs.Purity

/-!
# A list of policies is a set

The policies of a list are gone through in order, and those after the one that
settles the list are not dispatched at all. So two orders of one list dispatch
different policies, in different states. If no policy fails and the collaborators are
pure, this does not show: a policy that is dispatched later says what it says on its
own, and a list in which no policy fails comes to the disjunction of what they say,
or to the conjunction if `allOrNothing` is among them. Both depend only on which
policies there are.

The modifiers are looked for before anything is dispatched, so it does not matter where
they stand either, but of several `resource` policies only the first counts. It has to
remain the first.
-/

namespace Clearance

/-- The list is in another order, in which its `resource` policies keep theirs, or
some of its policies are repeated, and then no `resource` policy in front of the
first one. -/
inductive Rearranges : List Policy → List Policy → Prop where
  | reordered {ps qs} (h : ps.Perm qs)
      (hr : ps.filter Policy.isResource = qs.filter Policy.isResource) :
      Rearranges ps qs
  | repeated {before after p} (h : p ∈ before ++ after)
      (hr : p.isResource = true → before.any Policy.isResource = true) :
      Rearranges (before ++ after) (before ++ p :: after)
  | trans {ps qs rs} (h : Rearranges ps qs) (h' : Rearranges qs rs) : Rearranges ps rs

namespace Rearranges

variable {ps qs : List Policy}

theorem mem_iff (h : Rearranges ps qs) (p : Policy) : p ∈ ps ↔ p ∈ qs := by
  induction h with
  | reordered h => exact h.mem_iff
  | @repeated before after q h =>
      simp only [List.mem_append, List.mem_cons] at h ⊢
      constructor
      · exact Or.imp_right .inr
      · rintro (hp | rfl | hp)
        · exact .inl hp
        · exact h
        · exact .inr hp
  | trans _ _ ih ih' => exact ih.trans ih'

theorem find?_isResource (h : Rearranges ps qs) :
    ps.find? Policy.isResource = qs.find? Policy.isResource := by
  induction h with
  | reordered _ hr => rw [← List.head?_filter, hr, List.head?_filter]
  | @repeated before after p _ hr =>
      rw [List.find?_append, List.find?_append]
      cases hp : p.isResource with
      | false => rw [List.find?_cons_of_neg (by simp [hp])]
      | true =>
          have hb : (before.find? Policy.isResource).isSome = true := by
            rw [List.find?_isSome]
            exact List.any_eq_true.mp (hr hp)
          obtain ⟨q, hq⟩ := Option.isSome_iff_exists.mp hb
          rw [hq]
          rfl
  | trans _ _ ih ih' => exact ih.trans ih'

theorem mem_conditions_iff (h : Rearranges ps qs) (p : Policy) :
    p ∈ conditions ps ↔ p ∈ conditions qs := by
  simp only [conditions, List.mem_filter, h.mem_iff p]

theorem all_isModifier (h : Rearranges ps qs) :
    ps.all Policy.isModifier = qs.all Policy.isModifier := by
  rw [Bool.eq_iff_iff, List.all_eq_true, List.all_eq_true]
  exact forall_congr' fun p => imp_congr_left (h.mem_iff p)

end Rearranges

/-! ## What the conditions say together -/

/-- What policies come to together, from what each of them says. -/
def Mode.together (verdict : Policy → Bool) (ps : List Policy) : Mode → Bool
  | .any => ps.any verdict
  | .all => ps.all verdict

theorem Mode.together_cons_of_settling {verdict : Policy → Bool} {mode : Mode}
    {p : Policy} (h : verdict p = mode.settling) (ps : List Policy) :
    mode.together verdict (p :: ps) = verdict p := by
  cases mode with
  | any => simp [together, show verdict p = true from h]
  | all => simp [together, show verdict p = false from h]

theorem Mode.together_cons_of_ne {verdict : Policy → Bool} {mode : Mode} {p : Policy}
    (h : verdict p ≠ mode.settling) (ps : List Policy) :
    mode.together verdict (p :: ps) = mode.together verdict ps := by
  cases mode with
  | any => simp [together, Bool.eq_false_iff.mpr h]
  | all => simp [together, Bool.ne_false_iff.mp h]

theorem Mode.together_congr {ps qs : List Policy} (h : ∀ p, p ∈ ps ↔ p ∈ qs)
    (verdict : Policy → Bool) (mode : Mode) :
    mode.together verdict ps = mode.together verdict qs := by
  cases mode with
  | any =>
      rw [together, together, Bool.eq_iff_iff, List.any_eq_true, List.any_eq_true]
      exact exists_congr fun p => and_congr_left' (h p)
  | all =>
      rw [together, together, Bool.eq_iff_iff, List.all_eq_true, List.all_eq_true]
      exact forall_congr' fun p => imp_congr_left (h p)

/-- What a list comes to as a set, from what its resource step comes to and what each
of its conditions says. Without conditions the settings decide; otherwise a resource
step that fails or locates nothing does; otherwise the conditions do. -/
def asSet (settings : Settings) (ps : List Policy) (verdict : Policy → Bool)
    (located : Except AccessError (Option Value)) : Except AccessError Bool :=
  if ps.all Policy.isModifier then .ok (!settings.denyIfNoPolicies)
  else located.map fun
    | some _ =>
        if .allOrNothing ∈ ps then (conditions ps).all verdict
        else (conditions ps).any verdict
    | none => false

theorem asSet_of_located {settings : Settings} {ps : List Policy}
    (verdict : Policy → Bool) (h : ps.all Policy.isModifier = false) (v : Value) :
    asSet settings ps verdict (.ok (some v)) =
      .ok ((Mode.ofList ps).together verdict (conditions ps)) := by
  rw [asSet, if_neg (by simp [h]), Mode.ofList]
  by_cases hm : Policy.allOrNothing ∈ ps
  · simp only [Except.map, if_pos hm]
    rfl
  · simp only [Except.map, if_neg hm]
    rfl

/-! ## Decisions -/

namespace Engine

variable {σ : Type} {e : Engine σ} {ctx : Context} {calm : σ → Prop} {vs : List Value}
  {s t : Evaluation σ} {chain : List String} {v : Value}

/-- The conditions of a list come to what they say on their own, taken together. -/
theorem IsPure.combine (h : e.IsPure calm) (hs : e.Tells ctx calm vs s)
    (ht : e.Tells ctx calm vs t) (mode : Mode) {verdict : Policy → Bool}
    {ps : List Policy}
    (ha : ∀ p ∈ ps, ∃ s', e.answer ctx chain p v s = some (.ok (verdict p), s')) :
    ∃ t', e.combine ctx chain mode ps v t =
      some (.ok (mode.together verdict ps), t') := by
  induction ps generalizing t with
  | nil =>
      rw [Engine.combine]
      cases mode with
      | any => exact ⟨t, rfl⟩
      | all => exact ⟨t, rfl⟩
  | cons p ps ih =>
      obtain ⟨s₁, hp⟩ := ha p (List.mem_cons_self ..)
      obtain ⟨t₁, hp, ht₁⟩ := h.answer hs ht hp
      rw [combine_of_answer hp]
      -- The others are dispatched only if this one does not settle the list.
      by_cases hb : verdict p = mode.settling
      · rw [if_pos hb, Mode.together_cons_of_settling hb]
        exact ⟨t₁, rfl⟩
      · rw [if_neg hb, Mode.together_cons_of_ne hb]
        exact ih ht₁ fun q hq => ha q (List.mem_cons_of_mem _ hq)

theorem resourceFor_congr {ps qs : List Policy}
    (h : ps.find? Policy.isResource = qs.find? Policy.isResource) :
    e.resourceFor ps v = e.resourceFor qs v := by
  unfold resourceFor
  rw [h]

/-- If none of its conditions fails on its own, a list comes to what it comes to as a
set, in whatever order its policies are and however often they are repeated. -/
theorem decided_as_set (h : e.IsPure calm) (hs : calm s.world) {ps qs : List Policy}
    (hq : Rearranges ps qs) {verdict : Policy → Bool}
    (ha : ∀ located, (e.resourceFor ps v s).1 = .ok (some located) →
      ∀ p ∈ conditions ps, ∃ s', e.answer ctx chain p located s =
      some (.ok (verdict p), s')) :
    ∃ s', e.decideList ctx chain qs v s =
      some (asSet e.settings ps verdict (e.resourceFor ps v s).1, s') := by
  obtain ⟨vs, hs⟩ := e.exists_tells ctx hs
  have ht := h.resourceFor hs ps v
  cases hm : ps.all Policy.isModifier with
  | true =>
      rw [decideList, if_pos (hq.all_isModifier ▸ hm), asSet, if_pos hm]
      exact ⟨s, rfl⟩
  | false =>
      have hm' : qs.all Policy.isModifier = false := hq.all_isModifier ▸ hm
      have hr := congrFun (resourceFor_congr (e := e) (v := v) hq.find?_isResource) s
      rcases hl : e.resourceFor ps v s with ⟨err | _ | located, t⟩
      · rw [decideList, if_neg (by simp [hm']), ← hr, hl, asSet, if_neg (by simp [hm])]
        exact ⟨t, rfl⟩
      · rw [decideList, if_neg (by simp [hm']), ← hr, hl, asSet, if_neg (by simp [hm])]
        exact ⟨t, rfl⟩
      · rw [hl] at ht ha
        have hmode : Mode.ofList ps = Mode.ofList qs := by
          simp only [Mode.ofList, hq.mem_iff .allOrNothing]
        rw [decideList_of_resourceFor hm' (hr.symm.trans hl),
          asSet_of_located verdict hm, hmode,
          Mode.together_congr hq.mem_conditions_iff]
        exact h.combine hs ht _ fun p hp =>
          ha located rfl p ((hq.mem_conditions_iff p).mpr hp)

/-- An engine whose world is the number of questions that have been asked. It knows one
subject, who has every role, and one type, which asks for a role. -/
def tallying : Engine Nat where
  host := { typeName := Handle.name, call := fun _ _ _ n => (.ok .null, n + 1) }
  loader :=
    { loadType := fun type n => (.ok (if type = "B" then [.role "r"] else []), n + 1)
      loadMethod := fun _ _ n => (.ok [], n + 1)
      loadFunction := fun _ n => (.ok [], n + 1)
      typeExists := fun type n => (type == "B", n + 1) }
  subjects := ⟨fun n => ([.string "ann"], n + 1)⟩
  resources := some ⟨fun _ id n => (some id, n + 1)⟩
  roles := some ⟨fun v _ n => (v.asString? == some "ann", n + 1)⟩

/-- Counting does not show in the answers. -/
theorem tallying_isPure : tallying.IsPure fun _ => True where
  host := ⟨rfl, fun _ _ _ _ hm _ => by cases hm⟩
  settings := rfl
  subjects := fun _ _ _ => ⟨rfl, trivial, trivial⟩
  resources := .some fun _ _ _ _ _ => ⟨rfl, trivial, trivial⟩
  services := .none
  roles := .some fun _ _ _ _ _ => ⟨rfl, trivial, trivial⟩
  permissions := .none
  typeExists := fun _ _ _ _ _ => ⟨rfl, trivial, trivial⟩
  loadType := fun _ _ _ _ _ => ⟨rfl, trivial, trivial⟩

/-- A resource with an identifier. -/
def numbered : Value := .object (.record ⟨.given 0, [("id", .string "1")]⟩)

/-- In a list in which all must grant, a role, what another type grants, and the
resource that they are about: the other type may be asked first, and twice. -/
theorem tallying_decided :
    Rearranges [.role "r", .resource "T" "id", .delegate "B", .allOrNothing]
        [.allOrNothing, .delegate "B", .resource "T" "id", .delegate "B", .role "r"] ∧
      ∃ s', tallying.decideList {} []
        [.allOrNothing, .delegate "B", .resource "T" "id", .delegate "B", .role "r"]
        numbered (.start ⟨0, .empty⟩) = some (.ok true, s') := by
  have hr : Rearranges [.role "r", .resource "T" "id", .delegate "B", .allOrNothing]
      ([.allOrNothing] ++ [.resource "T" "id", .delegate "B", .role "r"]) :=
    .reordered (by decide) rfl
  have hq := hr.trans (.repeated (p := .delegate "B") (by decide) fun h => by cases h)
  -- The type that is delegated to asks for the role as well.
  have hb :
      tallying.Runs {} ⟨["B"], .list [.role "r"], .string "1", ⟨2, .empty, none⟩⟩ _
        (.ok true) _ := .opened rfl (.given rfl) (.settled (.consulted rfl))
  have ha : ∀ located, (tallying.resourceFor
      [.role "r", .resource "T" "id", .delegate "B", .allOrNothing] numbered
      (.start ⟨0, .empty⟩)).1 = .ok (some located) →
      ∀ p ∈ conditions [.role "r", .resource "T" "id", .delegate "B", .allOrNothing],
        ∃ s', tallying.answer {} [] p located (.start ⟨0, .empty⟩) =
          some (.ok true, s') := by
    intro located hl p hp
    obtain rfl : Value.string "1" = located := Option.some.inj (Except.ok.inj hl)
    rcases List.mem_cons.mp hp with rfl | hp
    · exact ⟨_, (Runs.consulted (e := tallying) rfl).outcome⟩
    · obtain rfl := List.mem_singleton.mp hp
      exact ⟨_, (Runs.delegated (e := tallying) (r := .ok true) rfl hb).outcome⟩
  exact ⟨hq, decided_as_set tallying_isPure trivial hq ha⟩

end Engine

end Clearance
