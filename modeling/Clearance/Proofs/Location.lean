import Clearance.Proofs.Reach

/-!
# Resource policies act first, and fail closed

A list with a `resource` policy is about an object that has to be located before
anything else is done. Wherever the policy stands in the list, and whatever else
is there to grant by itself, nothing is dispatched until the object has been
found, and then everything is dispatched for just this object. If it is not
found the list is not evaluated at all.

`Finds` has the conditions for being found and `Misses` the ways to fail, each
with what the list then comes to. They are the rules of `Locates` without the
events and after containment, and every location falls under one of the two.
-/

namespace Clearance

namespace Engine

variable {σ : Type} {e : Engine σ} {ctx : Context}

/-! ## To find, and to miss -/

/-- A resource is located: there is a locator, what there is now is an object, the
identifier read from it is not null, and what the locator answers is neither null
nor false. -/
def Finds (e : Engine σ) (type accessor : String) (v : Value) (s : Evaluation σ)
    (found : Value) (s' : Evaluation σ) : Prop :=
  ∃ l o id s₁, e.resources = some l ∧ v = .object o ∧
    Step.ofAct (o.read e.host .alone accessor) s = (.ok id, s₁) ∧ id.isNull = false ∧
    Step.ofWorld (l.load type id) s₁ = (.ok (some found), s') ∧
      found.isNotFound = false

/-- A resource is not located, and what the list comes to that asks for it. -/
inductive Misses (e : Engine σ) (type accessor : String) :
    Value → Evaluation σ → Except AccessError Bool → Evaluation σ → Prop where
  | noLocator {v s} (h : e.resources = none) :
      Misses e type accessor v s
        (if e.settings.debug then .error (.configuration .noResourceLocator)
          else .ok false) s
  | nonObject {v s l} (h : e.resources = some l) (hv : v.asObject? = none) :
      Misses e type accessor v s
        (if e.settings.debug then
          .error (.configuration (.identifierOnNonObject (v.typeName e.typing)))
        else .ok false) s
  /-- The accessor fails for a fault of the configuration. -/
  | misconfigured {o s l fault s'} (h : e.resources = some l)
      (hr : Step.ofAct (o.read e.host .alone accessor) s =
        (.error (.configuration fault), s')) :
      Misses e type accessor (.object o) s
        (if e.settings.debug then .error (.configuration fault) else .ok false) s'
  | unreadable {o s l fault s'} (h : e.resources = some l)
      (hr : Step.ofAct (o.read e.host .alone accessor) s =
        (.error (.runtime fault), s')) :
      Misses e type accessor (.object o) s (.error (.runtime fault)) s'
  | nullIdentifier {o s l id s'} (h : e.resources = some l)
      (hr : Step.ofAct (o.read e.host .alone accessor) s = (.ok id, s'))
      (hi : id.isNull = true) :
      Misses e type accessor (.object o) s
        (if e.settings.debug then
          .error (.configuration (.missingIdentifier (o.typeName e.typing) accessor))
        else .ok false) s'
  | notFound {o s l id s₁ a s'} (h : e.resources = some l)
      (hr : Step.ofAct (o.read e.host .alone accessor) s = (.ok id, s₁))
      (hi : id.isNull = false)
      (hl : Step.ofWorld (l.load type id) s₁ = (.ok a, s'))
      (hv : ∀ v, a = some v → v.isNotFound = true) :
      Misses e type accessor (.object o) s
        (if e.settings.debug then
          .error (.runtime (.resourceNotFound type (id.text e.typing)))
        else .ok false) s'

theorem finds_or_misses (e : Engine σ) (type accessor : String) (v : Value)
    (s : Evaluation σ) :
    (∃ found s', e.Finds type accessor v s found s') ∨
      ∃ r s', e.Misses type accessor v s r s' := by
  obtain ⟨r, s', ht⟩ : ∃ r s', e.tryLocate type accessor v s = (r, s') := ⟨_, _, rfl⟩
  obtain ⟨evs, h⟩ := tryLocate_eq_iff.mp ht
  cases h with
  | found h hr hi hl hv => exact .inl ⟨_, _, _, _, _, _, h, rfl, hr, hi, hl, hv⟩
  | noLocator h => exact .inr ⟨_, _, .noLocator h⟩
  | nonObject h hv => exact .inr ⟨_, _, .nonObject h hv⟩
  | @accessor _ _ _ err _ h hr =>
      cases err with
      | configuration => exact .inr ⟨_, _, .misconfigured h hr⟩
      | runtime => exact .inr ⟨_, _, .unreadable h hr⟩
  | nullIdentifier h hr hi => exact .inr ⟨_, _, .nullIdentifier h hr hi⟩
  | notFound h hr hi hl hv | notFoundInDebug h hr hi hl hv =>
      exact .inr ⟨_, _, .notFound h hr hi hl hv⟩

/-! ## What a list makes of it -/

theorem Finds.resourceFor {ps : List Policy} {type accessor : String} {v found : Value}
    {s s' : Evaluation σ} (h : e.Finds type accessor v s found s')
    (hp : ps.find? Policy.isResource = some (.resource type accessor)) :
    e.resourceFor ps v s = (.ok (some found), s') := by
  obtain ⟨l, o, id, s₁, hl, rfl, hr, hi, hf, hn⟩ := h
  exact resourceFor_eq_iff.mpr ⟨_, .located hp (.found hl hr hi hf hn)⟩

theorem Misses.ne_true {type accessor : String} {v : Value} {s s' : Evaluation σ}
    {r : Except AccessError Bool}
    (h : e.Misses type accessor v s r s') : r ≠ .ok true := by
  cases h with
  | unreadable => exact fun h => by cases h
  | noLocator | nonObject | misconfigured | nullIdentifier | notFound =>
      split
      · exact fun h => by cases h
      · exact fun h => by cases h

theorem Misses.resourceFor {ps : List Policy} {type accessor : String} {v : Value}
    {s s' : Evaluation σ} {r : Except AccessError Bool}
    (h : e.Misses type accessor v s r s')
    (hp : ps.find? Policy.isResource = some (.resource type accessor)) :
    e.resourceFor ps v s = (r.map fun _ => none, s') := by
  have hl {evs q} (h : e.Locates type accessor v s evs q s') :
      e.resourceFor ps v s = (e.contained none q, s') :=
    resourceFor_eq_iff.mpr ⟨evs, .located hp h⟩
  -- Configuration faults are contained by "nothing", where the list says "no".
  have closed (fault : ConfigurationFault) :
      e.contained (none : Option Value) (.error (.configuration fault)) =
        (if e.settings.debug then .error (.configuration fault) else .ok false :
          Except AccessError Bool).map fun _ => none := by
    unfold contained
    simp only []
    split
    · rfl
    · rfl
  cases h with
  | noLocator h => rw [hl (.noLocator h), closed]
  | nonObject h hv => rw [hl (.nonObject h hv), closed]
  | misconfigured h hr => rw [hl (.accessor h hr), closed]
  | unreadable h hr =>
      rw [hl (.accessor h hr)]
      rfl
  | nullIdentifier h hr hi => rw [hl (.nullIdentifier h hr hi), closed]
  | notFound h hr hi hf hv =>
      cases hd : e.settings.debug with
      | true =>
          rw [hl (.notFoundInDebug h hr hi hf hv hd)]
          rfl
      | false =>
          rw [hl (.notFound h hr hi hf hv hd)]
          rfl

theorem Misses.decideList {chain : List String} {ps : List Policy}
    {type accessor : String} {v : Value} {s s' : Evaluation σ}
    {r : Except AccessError Bool} (h : e.Misses type accessor v s r s')
    (hc : ps.all Policy.isModifier = false)
    (hp : ps.find? Policy.isResource = some (.resource type accessor)) :
    e.decideList ctx chain ps v s = some (r, s') := by
  rw [Engine.decideList, if_neg (by simp [hc]), h.resourceFor hp]
  cases r with
  | error err => rfl
  | ok b =>
      cases b with
      | false => rfl
      | true => exact absurd rfl h.ne_true

/-- After a miss there is nowhere to go. -/
theorem Misses.eq_of_reaches {chain : List String} {ps : List Policy}
    {type accessor : String} {v : Value} {s s' : Evaluation σ}
    {r : Except AccessError Bool} {evs : List Event} {pt : Point σ}
    (h : e.Misses type accessor v s r s')
    (hp : ps.find? Policy.isResource = some (.resource type accessor))
    (hr : e.Reaches ctx ⟨chain, .list ps, v, s⟩ evs pt) :
    evs = [] ∧ pt = ⟨chain, .list ps, v, s⟩ := by
  cases hr with
  | refl => exact ⟨rfl, rfl⟩
  | step hm _ =>
      cases hm with
      | opens _ ho =>
          -- A list is left only with a resource.
          have hv := (h.resourceFor hp).symm.trans (resourceFor_eq_iff.mpr ⟨_, ho⟩)
          cases r with
          | error | ok => cases hv

/-- What is dispatched in the list itself is a condition of it, and is dispatched for
the resource that has been found. -/
theorem Finds.of_reaches {chain : List String} {ps : List Policy}
    {type accessor : String} {v found : Value} {s s' : Evaluation σ} {evs : List Event}
    {pt : Point σ} {p : Policy} (h : e.Finds type accessor v s found s')
    (hp : ps.find? Policy.isResource = some (.resource type accessor))
    (hr : e.Reaches ctx ⟨chain, .list ps, v, s⟩ evs pt) (hc : pt.chain = chain)
    (ht : pt.task = .policy p) : p ∈ conditions ps ∧ pt.resource = found := by
  have ha : e.Awaits pt p pt.resource := by
    unfold Awaits
    rw [ht]
    exact ⟨rfl, rfl⟩
  obtain ⟨hm, _, _, ho⟩ := hr.awaits hc ha
  have hv := (h.resourceFor hp).symm.trans (resourceFor_eq_iff.mpr ⟨_, ho⟩)
  cases hv
  exact ⟨hm, rfl⟩

/-! ## The first resource policy -/

theorem exists_find_isResource {ps : List Policy} (h : ∃ p ∈ ps, p.isResource = true) :
    ∃ type accessor, ps.find? Policy.isResource = some (.resource type accessor) := by
  obtain ⟨q, hq⟩ := Option.isSome_iff_exists.mp (List.find?_isSome.mpr h)
  have := List.find?_some hq
  cases q with
  | resource type accessor => exact ⟨type, accessor, hq⟩
  | _ => cases this

theorem conditions_filter_isResource (ps : List Policy) :
    conditions (ps.filter fun p => !p.isResource) = conditions ps := by
  unfold conditions
  rw [List.filter_filter]
  congr 1
  funext p
  cases p <;> rfl

theorem all_isModifier_eq (ps : List Policy) :
    ps.all Policy.isModifier = (conditions ps).isEmpty := by
  rw [Bool.eq_iff_iff, List.all_eq_true, List.isEmpty_iff]
  unfold conditions
  rw [List.filter_eq_nil_iff]
  simp only [Bool.not_eq_true', Bool.not_eq_false]

/-- Resource policies after the first make no difference. -/
theorem decideList_first_resource {chain : List String} {ps : List Policy}
    {type accessor : String}
    (hp : ps.find? Policy.isResource = some (.resource type accessor)) (v : Value)
    (s : Evaluation σ) :
    e.decideList ctx chain ps v s =
      e.decideList ctx chain (.resource type accessor :: ps.filter fun p =>
        !p.isResource) v s := by
  have hc : conditions (.resource type accessor :: ps.filter fun p => !p.isResource) =
      conditions ps := by
    rw [← conditions_filter_isResource ps]
    rfl
  have hm : Mode.ofList (.resource type accessor :: ps.filter fun p => !p.isResource) =
      Mode.ofList ps := by
    simp [Mode.ofList, List.mem_filter, Policy.isResource]
  have hr :
      e.resourceFor (.resource type accessor :: ps.filter fun p => !p.isResource) v s =
        e.resourceFor ps v s := by
    unfold Engine.resourceFor
    rw [hp]
    rfl
  rw [Engine.decideList, Engine.decideList, all_isModifier_eq, all_isModifier_eq,
    hc, hm, hr]

/-- A list with a resource policy grants, or dispatches anything, only once the
resource has been found, and then for the resource; otherwise it is denied or, in
debug mode, fails. -/
theorem resource_acts_first (e : Engine σ) (ctx : Context) (chain : List String)
    (ps : List Policy) (v : Value) (s : Evaluation σ)
    (hr : ∃ p ∈ ps, p.isResource = true) (hc : ∃ p ∈ ps, p.isModifier = false) :
    ∃ type accessor, ps.find? Policy.isResource = some (.resource type accessor) ∧
      e.decideList ctx chain ps v s =
        e.decideList ctx chain (.resource type accessor :: ps.filter fun p =>
          !p.isResource) v s ∧
      ((∃ found s₁, e.Finds type accessor v s found s₁) ∨
        ∃ r s₁, e.Misses type accessor v s r s₁) ∧
      (∀ s₁, e.decideList ctx chain ps v s = some (.ok true, s₁) →
        ∃ found s₂, e.Finds type accessor v s found s₂) ∧
      (∀ evs pt p, e.Reaches ctx ⟨chain, .list ps, v, s⟩ evs pt → pt.task = .policy p →
        ∃ found s₁, e.Finds type accessor v s found s₁ ∧
          (pt.chain = chain → p ∈ conditions ps ∧ pt.resource = found)) ∧
      (∀ found s₁, e.Finds type accessor v s found s₁ →
        e.decideList ctx chain ps v s =
          e.combine ctx chain (.ofList ps) (conditions ps) found s₁) ∧
      ∀ r s₁, e.Misses type accessor v s r s₁ →
        e.decideList ctx chain ps v s = some (r, s₁) ∧
        ∀ evs pt, e.Reaches ctx ⟨chain, .list ps, v, s⟩ evs pt →
          evs = [] ∧ pt = ⟨chain, .list ps, v, s⟩ := by
  obtain ⟨type, accessor, hp⟩ := exists_find_isResource hr
  have hc : ps.all Policy.isModifier = false := by
    obtain ⟨p, hm, hp⟩ := hc
    exact List.all_eq_false.mpr ⟨p, hm, by simp [hp]⟩
  refine ⟨type, accessor, hp, decideList_first_resource hp v s,
    finds_or_misses e type accessor v s, fun s₁ ho => ?_, fun evs pt p hr ht => ?_,
    fun found s₁ hf => decideList_of_resourceFor hc (hf.resourceFor hp),
    fun r s₁ hm => ⟨hm.decideList hc hp, fun evs pt hr => hm.eq_of_reaches hp hr⟩⟩
  · rcases finds_or_misses e type accessor v s with hf | ⟨r, s₂, hm⟩
    · exact hf
    · have hd : some (r, s₂) = some (.ok true, s₁) :=
        (hm.decideList hc hp).symm.trans ho
      cases hd
      exact absurd rfl hm.ne_true
  · rcases finds_or_misses e type accessor v s with ⟨found, s₁, hf⟩ | ⟨r, s₁, hm⟩
    · exact ⟨found, s₁, hf, fun hc => hf.of_reaches hp hr hc ht⟩
    · obtain ⟨_, rfl⟩ := hm.eq_of_reaches hp hr
      cases ht

/-- An engine whose locator knows one identifier. -/
def shelf : Engine Unit :=
  { ofLists [] [] {} with
    resources :=
      some ⟨fun _ id => pure (if id.asString? = some "1" then some id else none)⟩ }

/-- Something that names a resource by its identifier. -/
def reference (id : String) : Value :=
  .object (.record ⟨.given 0, [("id", .string id)]⟩)

/-- The policy that grants stands first, but what the list says of a resource that is
not there is "no". -/
theorem shelf_acts_first :
    shelf.decideList {} [] [.allow none, .resource "T" "id"] (reference "2")
      (.start ⟨(), .empty⟩) = some (.ok false, .start ⟨(), .empty⟩) ∧
    shelf.decideList {} [] [.allow none, .resource "T" "id"] (reference "1")
      (.start ⟨(), .empty⟩) =
      shelf.combine {} [] .any [.allow none] (.string "1") (.start ⟨(), .empty⟩) := by
  have first (id : String) :=
    resource_acts_first shelf {} [] [.allow none, .resource "T" "id"]
    (reference id) (.start ⟨(), .empty⟩) ⟨.resource "T" "id", by simp, rfl⟩
    ⟨.allow none, by simp, rfl⟩
  constructor
  · obtain ⟨type, accessor, hp, _, _, _, _, _, hm⟩ := first "2"
    cases hp
    exact (hm _ _ (.notFound rfl rfl rfl rfl fun _ h => by cases h)).1
  · obtain ⟨type, accessor, hp, _, _, _, _, hf, _⟩ := first "1"
    cases hp
    exact hf _ _ ⟨_, _, _, _, rfl, rfl, rfl, rfl, rfl, rfl⟩

end Engine

end Clearance
