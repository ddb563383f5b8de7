import Clearance.Proofs.Chains
import Clearance.Proofs.Purity

/-!
# Who has a role

Whoever asks property checkers for a role starts three searches, one in the other:
through the subjects, through the checkers of a chain and of the chains in it, and
through the list that a property may hold. The first two are one search, whose members
are pairs of a subject and a property: `Looks` says which properties a checker looks
at, however it has been put together, and a search among searches is a search. The
third is over before anything else is asked, and `Names` says what it comes to.

A pair settles the search if the name is there, and for no other reason. So a subject
that is no object, a read that fails and a property of another shape are all the same:
the search goes on. With a host that answers by what it is asked alone it goes on as if
nothing had been asked, and so what is left of the search is whether there is a pair
that settles it.
-/

namespace Clearance

variable {σ : Type}

/-! ## Property checkers -/

/-- A value has a name: it is the name, or a list in which the name stands as it is. -/
def Value.Names (u : Value) (name : String) : Prop :=
  u = .string name ∨ ∃ items, u = .list items ∧ .string name ∈ items

namespace Checker

variable {host : Host σ} {c : Checker σ} {cs : List (Checker σ)} {name : String}

theorem mentions_iff {u : Value} : mentions name u = true ↔ u.Names name := by
  have hs (v : Value) : (v.asString? == some name) = true ↔ v = .string name := by
    cases v <;> simp [Value.asString?]
  unfold Value.Names
  cases u with
  | string s => simp [mentions]
  | list items => simp [mentions, List.any_eq_true, hs]
  | _ => simp [mentions]

theorem ofProperty_of_object (property : String) (o : Object) (w : σ) :
    (ofProperty host property).holds (.object o) name w =
      ((o.read host .alone property w).1.toOption.any (mentions name),
        (o.read host .alone property w).2) := by
  have hb {α β : Type} (x : StateM σ α) (f : α → StateM σ β) :
      (x >>= f) w = f (x w).1 (x w).2 := rfl
  refine (hb (o.read host .alone property).run _).trans ?_
  rw [ExceptT.run]
  cases (o.read host .alone property w).1 with
  | ok u => rfl
  | error err => rfl

/-- A property checker says yes exactly if the subject is an object, of which the
property can be read and has the name. -/
theorem ofProperty_holds_iff {property : String} {v : Value} {w w' : σ} :
    (ofProperty host property).holds v name w = (true, w') ↔
      ∃ o u, v = .object o ∧ o.read host .alone property w = (.ok u, w') ∧
        u.Names name := by
  cases v with
  | object o =>
      rw [ofProperty_of_object]
      constructor
      · intro h
        rcases hr : o.read host .alone property w with ⟨err | u, w₁⟩
        · rw [hr] at h
          cases congrArg Prod.fst h
        · rw [hr] at h
          obtain ⟨hm, rfl⟩ := Prod.mk.inj h
          exact ⟨o, u, rfl, hr, mentions_iff.mp hm⟩
      · rintro ⟨_, u, ⟨⟩, hr, hn⟩
        rw [hr]
        exact Prod.ext (mentions_iff.mpr hn) rfl
  | _ =>
      constructor
      · exact fun h => nomatch congrArg Prod.fst h
      · exact fun ⟨_, _, h, _⟩ => nomatch h

/-- A property checker, or a chain of such checkers nested to any depth, and the
properties that are looked at, in order. -/
inductive Looks (host : Host σ) : Checker σ → List String → Prop where
  | property (property : String) : Looks host (ofProperty host property) [property]
  | empty : Looks host (chain []) []
  | member {c cs properties rest} (h : Looks host c properties)
      (hr : Looks host (chain cs) rest) :
      Looks host (chain (c :: cs)) (properties ++ rest)

theorem chain_singleton (c : Checker σ) : chain [c] = c := by
  have h (subject : Value) (name : String) :
      anyHolds subject name [c] = c.holds subject name := by
    rw [anyHolds, anyHolds]
    funext w
    show (if (c.holds subject name w).1 then pure true else pure false : StateM σ Bool)
      (c.holds subject name w).2 = _
    rcases c.holds subject name w with ⟨_ | _, w₁⟩
    · rfl
    · rfl
  show Checker.mk (fun subject name => anyHolds subject name [c]) = c
  simp only [h]

theorem chain_append_congr {xs ys zs : List (Checker σ)} (h : chain ys = chain zs) :
    chain (xs ++ ys) = chain (xs ++ zs) := by
  have hs (us : List (Checker σ)) : chain (xs ++ [chain us]) = chain (xs ++ us) := by
    rw [chain_splice, List.append_nil]
  rw [← hs ys, ← hs zs, h]

/-- However they are nested, the checkers are asked one after the other. -/
theorem Looks.eq_chain {properties : List String} (h : Looks host c properties) :
    c = chain (properties.map (ofProperty host)) := by
  induction h with
  | property property => exact (chain_singleton _).symm
  | empty => rfl
  | @member c cs properties rest _ _ ih ihr =>
      rw [List.map_append, ← chain_append_congr ihr, ih]
      exact chain_splice [] _ cs

end Checker

/-! ## One search -/

/-- Whether a subject has the name in a property. -/
def inquire (host : Host σ) (name : String) (q : Value × String) : StateM σ Bool :=
  (Checker.ofProperty host q.2).holds q.1 name

/-- All that may be looked at: of each subject each property, in order. -/
def inquiries (subjects : List Value)
    (properties : List String) : List (Value × String) :=
  subjects.flatMap fun v => properties.map (v, ·)

theorem mem_inquiries {vs : List Value} {properties : List String}
    {q : Value × String} :
    q ∈ inquiries vs properties ↔ q.1 ∈ vs ∧ q.2 ∈ properties := by
  obtain ⟨v, property⟩ := q
  simp [inquiries]

section Looks

variable {host : Host σ} {c : Checker σ} {properties : List String} {name : String}

theorem Checker.Looks.holds_eq (h : c.Looks host properties) (v : Value)
    (name : String) :
    c.holds v name =
      (·.getD false) <$> search (inquire host name) id (properties.map (v, ·)) := by
  rw [h.eq_chain, search_map]
  show anyHolds v name (properties.map (ofProperty host)) = _
  rw [anyHolds_eq_search, search_map]
  rfl

/-- The subjects and the properties are gone through in one search. -/
theorem Checker.Looks.searches (h : c.Looks host properties) (name : String)
    (vs : List Value) :
    Searches (inquire host name) (· = true) false (inquiries vs properties)
      (Engine.anySubject c name vs) := by
  rw [Engine.anySubject_eq_search, search_flatMap rfl fun v => h.holds_eq v name]
  exact searches_search false _

end Looks

/-! ## Worlds that do not matter -/

section Calm

variable {α : Type} {ask : α → StateM σ Bool} {calm : σ → Prop} {w w₀ : σ}

theorem mapM_of_calm {β : Type} {ask : α → StateM σ β}
    (h : ∀ a, Lockstep (BothCalm calm) (ask a) (ask a)) (hw : calm w) (hw₀ : calm w₀)
    (as : List α) :
    (as.mapM ask w).1 = as.map (fun a => (ask a w₀).1) ∧ calm (as.mapM ask w).2 := by
  induction as generalizing w with
  | nil => exact ⟨rfl, hw⟩
  | cons a as ih =>
      obtain ⟨ha, hc⟩ := h a w w₀ ⟨hw, hw₀⟩
      obtain ⟨hm, hc⟩ := ih hc.1
      rw [mapM_cons_apply, List.map_cons]
      exact ⟨congrArg₂ List.cons ha hm, hc⟩

/-- If nobody's answers depend on the world, a search comes to yes exactly if one of
them is yes. -/
theorem Searches.iff_exists {members : List α} {done : StateM σ Bool}
    (hs : Searches ask (· = true) false members done)
    (h : ∀ a, Lockstep (BothCalm calm) (ask a) (ask a)) (hw : calm w) (hw₀ : calm w₀) :
    (done w).1 = true ↔ ∃ a ∈ members, (ask a w₀).1 = true := by
  rcases (hs w _ _).mp rfl with hset | ⟨hf, answers, hm, hn⟩
  · obtain ⟨before, a, after, answers, w₁, rfl, hb, _, ha, ht⟩ := hset
    have hc := (mapM_of_calm h hw hw₀ before).2
    rw [hb] at hc
    refine iff_of_true ht ⟨a, by simp, ?_⟩
    rw [← (h a w₁ w₀ ⟨hc, hw₀⟩).1, ha]
    exact ht
  · refine iff_of_false (by simp [hf]) ?_
    rintro ⟨a, ha, ht⟩
    have he := (mapM_of_calm h hw hw₀ members).1
    rw [hm] at he
    obtain rfl : answers = members.map fun a => (ask a w₀).1 := he
    exact hn true (List.mem_map.mpr ⟨a, ha, ht⟩) rfl

end Calm

/-! ## What a subject has -/

section Has

variable {host : Host σ} {properties properties' : List String} {name : String} {w : σ}

/-- In a world the subject is an object, of which one of the properties can be read and
has the name. -/
def Value.Has (host : Host σ) (properties : List String) (name : String) (w : σ)
    (v : Value) : Prop :=
  ∃ o, v = .object o ∧ ∃ property ∈ properties, ∃ u,
    (o.read host .alone property w).1 = .ok u ∧ u.Names name

theorem inquire_iff {q : Value × String} :
    (inquire host name q w).1 = true ↔ q.1.Has host [q.2] name w := by
  constructor
  · intro ht
    obtain ⟨o, u, ho, hr, hn⟩ := Checker.ofProperty_holds_iff.mp (Prod.ext ht rfl)
    exact ⟨o, ho, q.2, .head _, u, congrArg Prod.fst hr, hn⟩
  · rintro ⟨o, ho, property, hp, u, hr, hn⟩
    obtain rfl := List.mem_singleton.mp hp
    exact congrArg Prod.fst
      (Checker.ofProperty_holds_iff.mpr ⟨o, u, ho, Prod.ext hr rfl, hn⟩)

/-- Somebody has the name exactly if one of the inquiries comes to yes. -/
theorem exists_inquiry_iff {vs : List Value} :
    (∃ q ∈ inquiries vs properties, (inquire host name q w).1 = true) ↔
      ∃ v ∈ vs, v.Has host properties name w := by
  constructor
  · rintro ⟨q, hq, ht⟩
    obtain ⟨hv, hp⟩ := mem_inquiries.mp hq
    obtain ⟨o, ho, property, hm, hr⟩ := inquire_iff.mp ht
    obtain rfl := List.mem_singleton.mp hm
    exact ⟨q.1, hv, o, ho, q.2, hp, hr⟩
  · rintro ⟨v, hv, o, ho, property, hp, hr⟩
    exact ⟨(v, property), mem_inquiries.mpr ⟨hv, hp⟩,
      inquire_iff.mpr ⟨o, ho, property, .head _, hr⟩⟩

/-- Of two subjects the same can be read, but for the order in which a list has
its items. -/
def ReadsAlike (host : Host σ) (properties : List String) (w : σ)
    (v v' : Value) : Prop :=
  v = v' ∨ ∃ o o', v = .object o ∧ v' = .object o' ∧ ∀ property ∈ properties,
    (o.read host .alone property w).1 = (o'.read host .alone property w).1 ∨
      ∃ items items', items.Perm items' ∧
        (o.read host .alone property w).1 = .ok (.list items) ∧
        (o'.read host .alone property w).1 = .ok (.list items')

theorem Value.Names.of_perm {items items' : List Value}
    (h : Value.Names (.list items) name) (hp : items.Perm items') :
    Value.Names (.list items') name := by
  rcases h with h | ⟨us, h, hm⟩
  · cases h
  · cases h
    exact .inr ⟨items', rfl, hp.mem_iff.mp hm⟩

theorem Value.Has.of_readsAlike {v v' : Value} (h : v.Has host properties name w)
    (ha : ReadsAlike host properties w v v') : v'.Has host properties name w := by
  rcases ha with rfl | ⟨o, o', rfl, rfl, hr⟩
  · exact h
  · obtain ⟨_, ⟨⟩, property, hp, u, hu, hn⟩ := h
    rcases hr property hp with he | ⟨items, items', hperm, hi, hi'⟩
    · exact ⟨o', rfl, property, hp, u, he ▸ hu, hn⟩
    · rw [hi] at hu
      cases hu
      exact ⟨o', rfl, property, hp, _, hi', hn.of_perm hperm⟩

theorem Value.Has.mono {v : Value} (h : v.Has host properties name w)
    (hp : properties ⊆ properties') : v.Has host properties' name w := by
  obtain ⟨o, ho, property, hm, hr⟩ := h
  exact ⟨o, ho, property, hp hm, hr⟩

end Has

/-! ## Policies that ask for a name -/

namespace Engine

/-- The policy asks this checker for a name. -/
inductive AsksFor (e : Engine σ) (c : Checker σ) (name : String) : Policy → Prop where
  | role (h : e.roles = some c) : AsksFor e c name (.role name)
  | permission (h : e.permissions = some c) : AsksFor e c name (.permission name)

variable {e : Engine σ} {c : Checker σ} {properties : List String} {name : String}
  {p : Policy} {ctx : Context} {chain : List String} {v : Value} {vs : List Value}
  {s s₁ : Evaluation σ}

theorem AsksFor.consult_eq (hp : e.AsksFor c name p)
    (hl : e.currentSubjects ctx s = (.ok vs, s₁)) :
    e.consult ctx p v s = Step.ofWorld (anySubject c name vs) s₁ := by
  cases hp with
  | role h | permission h =>
      rw [consult, h]
      exact Step.bind_ok hl

/-- Whatever the checker does, its answer is that of the policy. -/
theorem AsksFor.answer_eq (hp : e.AsksFor c name p)
    (hl : e.currentSubjects ctx s = (.ok vs, s₁)) :
    e.answer ctx chain p v s =
      some (.ok (anySubject c name vs s₁.world).1,
        { s₁ with world := (anySubject c name vs s₁.world).2 }) := by
  have hc := hp.consult_eq (v := v) hl
  obtain ⟨hr, hd⟩ := asked_of_consult hc
  have hh : e.handle ctx chain p v s =
      some (.ok (anySubject c name vs s₁.world).1,
        { s₁ with world := (anySubject c name vs s₁.world).2 }) :=
    (handle_of_consult hd).trans (congrArg some hc)
  rw [answer_of_handle hh, hr]
  rfl

/-- If the host answers by what it is asked alone, the answer is whether some subject
has the name in some property. -/
theorem AsksFor.iff_has (hp : e.AsksFor c name p) (hc : c.Looks e.host properties)
    (hl : e.currentSubjects ctx s = (.ok vs, s₁)) {calm : σ → Prop}
    (h : e.host.IsPure calm) (hs : calm s₁.world) {w : σ} (hw : calm w) {b : Bool}
    {t : Evaluation σ} (ha : e.answer ctx chain p v s = some (.ok b, t)) :
    b = true ↔ ∃ v ∈ vs, v.Has e.host properties name w := by
  rw [hp.answer_eq hl] at ha
  obtain ⟨hb, _⟩ := Prod.mk.inj (Option.some.inj ha)
  rw [← Except.ok.inj hb, ← exists_inquiry_iff]
  exact (hc.searches name vs).iff_exists (fun q => h.ofProperty q.2 q.1 name) hs hw

end Engine

/-- A policy that asks property checkers for a role or a permission never fails. They
are asked about one subject and one property after the other until one says yes, and
the answer is whether one does; to say yes is to read the name, or a list in which it
stands. So whatever else a subject can be or a property can hold, and whatever goes
wrong in reading it, is passed by. If the host answers by what it is asked alone, it
also makes no difference that it is passed by: the answer is whether some subject has
the name in one of the properties, and any engine with the same host answers alike
whose checkers look at the same properties, in any order, of subjects of which the same
can be read. -/
theorem names_decided {e : Engine σ} {c : Checker σ} {properties : List String}
    {name : String} {p : Policy} (hp : e.AsksFor c name p)
    (hc : c.Looks e.host properties) (ctx : Context) (chain : List String) (v : Value)
    (s : Evaluation σ) :
    ∃ vs s₁ b w',
      e.currentSubjects ctx s = (.ok vs, s₁) ∧
      e.answer ctx chain p v s = some (.ok b, { s₁ with world := w' }) ∧
      (b = true ∧
          Settled (inquire e.host name) (· = true) (inquiries vs properties) s₁.world
            true w' ∨
        b = false ∧
          Unsettled (inquire e.host name) (· = true) (inquiries vs properties)
            s₁.world w') ∧
      (∀ q w w', inquire e.host name q w = (true, w') ↔
        ∃ o u, q.1 = .object o ∧ o.read e.host .alone q.2 w = (.ok u, w') ∧
          u.Names name) ∧
      ∀ calm w, e.host.IsPure calm → calm s₁.world → calm w →
        (b = true ↔ ∃ v ∈ vs, v.Has e.host properties name w) ∧
        ∀ (e' : Engine σ) c' properties' p' ctx' chain' v' s' vs' s₁' b' t',
          e'.host = e.host → e'.AsksFor c' name p' → c'.Looks e'.host properties' →
          e'.currentSubjects ctx' s' = (.ok vs', s₁') → calm s₁'.world →
          (∀ property, property ∈ properties' ↔ property ∈ properties) →
          (∀ v ∈ vs, ∃ v' ∈ vs', ReadsAlike e.host properties w v v') →
          (∀ v' ∈ vs', ∃ v ∈ vs, ReadsAlike e.host properties w v' v) →
          e'.answer ctx' chain' p' v' s' = some (.ok b', t') → b' = b := by
  obtain ⟨vs, s₁, hl⟩ := e.currentSubjects_ok ctx s
  have ha : e.answer ctx chain p v s = _ := hp.answer_eq hl
  refine ⟨vs, s₁, _, _, hl, ha, ?_, fun q w w' => Checker.ofProperty_holds_iff,
    fun calm w h hs hw => ?_⟩
  · rcases (hc.searches name vs s₁.world _ _).mp rfl with hset | ⟨hf, hun⟩
    · have ht : (Engine.anySubject c name vs s₁.world).1 = true :=
        let ⟨_, _, _, _, _, _, _, _, _, ht⟩ := hset
        ht
      exact .inl ⟨ht, ht ▸ hset⟩
    · exact .inr ⟨hf, hun⟩
  · have hb := hp.iff_has hc hl h hs hw ha
    refine ⟨hb, ?_⟩
    intro e' c' properties' p' ctx' chain' v' s' vs' s₁' b' t' he hp' hc' hl' hs' hps
      hvs hvs' ha'
    have hb' := hp'.iff_has hc' hl' (he ▸ h) hs' hw ha'
    rw [he] at hb'
    rw [Bool.eq_iff_iff, hb, hb']
    constructor
    · rintro ⟨v', hv', hn⟩
      obtain ⟨v, hv, hr⟩ := hvs' v' hv'
      exact ⟨v, hv, (hn.mono fun _ hm => (hps _).mp hm).of_readsAlike hr⟩
    · rintro ⟨v, hv, hn⟩
      obtain ⟨v', hv', hr⟩ := hvs v hv
      exact ⟨v', hv', (hn.of_readsAlike hr).mono fun _ hm => (hps _).mpr hm⟩

/-- A host with an object whose roles cannot be read, one whose role stands too deep,
and one that has the role in another property. -/
def motley : Host Unit where
  typeName := Handle.name
  property h property :=
    if h.name = "nested" ∧ property = "roles" then
      some (.list [.list [.string "admin"]])
    else if h.name = "clerk" ∧ property = "groups" then
      some (.list [.string "staff", .string "admin"])
    else none
  method h name := if h.name = "broken" ∧ name = "roles" then some ⟨[]⟩ else none
  call _ _ _ := throw (.runtime (.reported "broken"))

theorem motley_isPure : motley.IsPure fun _ => True where
  directory := rfl
  call _ _ _ _ _ _ := .throw_act _

/-- An engine that asks a checker for the roles of the subjects. -/
def gatekeeper (c : Checker Unit) (subjects : List Value) : Engine Unit where
  host := motley
  loader := .none
  subjects := .fixed subjects
  roles := some c

/-- Subjects of all sorts, the last of which has the role. -/
def crowd : List Value :=
  [.string "admin", .object (.host ⟨"broken"⟩), .object (.host ⟨"nested"⟩), .null,
    .object (.host ⟨"clerk"⟩)]

/-- Roles are looked for in one property by a chain in a chain, and in
another property. -/
def Checker.nested : Checker Unit :=
  .chain [.chain [.ofProperty motley "roles"], .ofProperty motley "groups"]

/-- Roles are looked for in the same properties. -/
def Checker.flat : Checker Unit :=
  .chain [.ofProperty motley "groups", .ofProperty motley "roles"]

/-- The role is found, and it is found again if all is turned round. -/
theorem crowd_decided :
    (motley.IsPure (fun _ => True) ∧
      Checker.nested.Looks motley (["roles"] ++ [] ++ (["groups"] ++ []))) ∧
    (∃ t, (gatekeeper .nested crowd).answer {} [] (.role "admin") .null
      (.start ⟨(), .empty⟩) = some (.ok true, t)) ∧
    ∃ t, (gatekeeper .flat crowd.reverse).answer {} [] (.role "admin") .null
      (.start ⟨(), .empty⟩) = some (.ok true, t) := by
  have hp : (gatekeeper .nested crowd).AsksFor .nested "admin" (.role "admin") :=
    .role rfl
  have hp' : (gatekeeper .flat crowd.reverse).AsksFor .flat "admin" (.role "admin") :=
    .role rfl
  have hc : Checker.nested.Looks motley (["roles"] ++ [] ++ (["groups"] ++ [])) :=
    .member (.member (.property "roles") .empty) (.member (.property "groups") .empty)
  have hc' : Checker.flat.Looks motley (["groups"] ++ (["roles"] ++ [])) :=
    .member (.property "groups") (.member (.property "roles") .empty)
  obtain ⟨vs, s₁, b, w', hl, ha, _, _, h⟩ :=
    names_decided hp hc {} [] .null (.start ⟨(), .empty⟩)
  obtain ⟨vs', s₁', b', w'', hl', ha', _⟩ :=
    names_decided hp' hc' {} [] .null (.start ⟨(), .empty⟩)
  obtain ⟨hb, h⟩ := h (fun _ => True) () motley_isPure trivial trivial
  obtain rfl : crowd = vs := Except.ok.inj (congrArg Prod.fst hl)
  obtain rfl : crowd.reverse = vs' := Except.ok.inj (congrArg Prod.fst hl')
  obtain rfl : b = true :=
    hb.mpr ⟨.object (.host ⟨"clerk"⟩), by simp [crowd], .host ⟨"clerk"⟩, rfl,
      "groups", by simp, .list [.string "staff", .string "admin"], rfl,
      .inr ⟨_, rfl, by simp⟩⟩
  obtain rfl : b' = true :=
    h (gatekeeper .flat crowd.reverse) _ _ _ _ _ _ _ _ _ b' _ rfl hp' hc' hl' trivial
      (by simp [or_comm])
      (fun v hv => ⟨v, List.mem_reverse.mpr hv, .inl rfl⟩)
      (fun v hv => ⟨v, List.mem_reverse.mp hv, .inl rfl⟩) ha'
  exact ⟨⟨motley_isPure, hc⟩, ⟨_, ha⟩, _, ha'⟩

end Clearance
