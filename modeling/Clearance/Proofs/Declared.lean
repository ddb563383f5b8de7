import Clearance.Collaborator.Loader

/-!
# Which declarations are accepted, and what is served of them

Declarations can be wrong in two ways: a list has more than one `Resource` policy,
or a type delegates to itself. They are accepted if nothing is wrong with them, and
else it is the first thing wrong that is reported. First means in the order of the
names, the types before the functions, and of one type its own list before its
methods. To say so, `Precedes` orders all that can be wrong, and `violations` lists
what is wrong in this order. The checks are the walk through this list that stops at
its head.

What is accepted is served as it is declared: under each heading the list that
stands there, and nothing under any other.
-/

namespace Clearance

/-- What a list of policies can be declared for. -/
inductive Heading where
  | type (name : String)
  | method (type name : String)
  | function (name : String)

/-- The name of a heading in messages. -/
def Heading.text : Heading → String
  | .type name => name
  | .method owner name => owner ++ "::" ++ name
  | .function name => name

/-- A list stands in the declarations, under a heading. -/
inductive Declarations.Declares (d : Declarations) : Heading → List Policy → Prop where
  | type {name t} (h : (name, t) ∈ d.types.entries) :
      Declares d (.type name) t.policies
  | method {type t name ps} (h : (type, t) ∈ d.types.entries)
      (hm : (name, ps) ∈ t.methods.entries) : Declares d (.method type name) ps
  | function {name ps} (h : (name, ps) ∈ d.functions.entries) :
      Declares d (.function name) ps

/-- What can be wrong with declarations. -/
inductive Violation where
  /-- More than one `Resource` policy in the list under a heading. -/
  | duplicate (heading : Heading)
  | selfDelegation (type : String)

namespace Violation

def fault : Violation → DeclarationFault
  | .duplicate heading => .duplicateResource heading.text
  | .selfDelegation type => .selfDelegation type

/-- The type whose declaration is wrong, if it is that of a type. -/
def type? : Violation → Option String
  | .duplicate (.type name) => some name
  | .duplicate (.method type _) => some type
  | .duplicate (.function _) => none
  | .selfDelegation type => some type

/-- The order in which declarations are checked. -/
inductive Precedes : Violation → Violation → Prop where
  | types {v v' type type'} (h : v.type? = some type) (h' : v'.type? = some type')
      (hlt : type < type') : Precedes v v'
  | ownDelegation {type} : Precedes (.duplicate (.type type)) (.selfDelegation type)
  | ownMethod {type name} :
      Precedes (.duplicate (.type type)) (.duplicate (.method type name))
  | delegationMethod {type name} :
      Precedes (.selfDelegation type) (.duplicate (.method type name))
  | methods {type name name'} (hlt : name < name') :
      Precedes (.duplicate (.method type name)) (.duplicate (.method type name'))
  | function {v type name} (h : v.type? = some type) :
      Precedes v (.duplicate (.function name))
  | functions {name name'} (hlt : name < name') :
      Precedes (.duplicate (.function name)) (.duplicate (.function name'))

theorem Precedes.asymm {v v' : Violation} (h : v.Precedes v') : ¬ v'.Precedes v := by
  intro h'
  cases h with
  | types h₁ h₂ hlt =>
      cases h' with
      | types h₁' h₂' hlt' =>
          rw [h₁] at h₂'
          rw [h₂] at h₁'
          cases h₁'
          cases h₂'
          exact String.lt_asymm hlt hlt'
      | function | functions => cases h₁
      | _ =>
          cases h₁
          cases h₂
          exact String.lt_irrefl _ hlt
  | methods hlt =>
      cases h' with
      | types h₁ h₂ hlt' =>
          cases h₁
          cases h₂
          exact String.lt_irrefl _ hlt'
      | methods hlt' => exact String.lt_asymm hlt hlt'
  | functions hlt =>
      cases h' with
      | types h₁ => cases h₁
      | function h => cases h
      | functions hlt' => exact String.lt_asymm hlt hlt'
  | function h =>
      cases h' with
      | types h₁ => cases h₁
      | function h₁ => cases h₁
      | functions => cases h
  | _ =>
      cases h' with
      | types h₁ h₂ hlt =>
          cases h₁
          cases h₂
          exact String.lt_irrefl _ hlt

end Violation

namespace Declarations

variable {d : Declarations}

/-- Something is wrong with declarations. -/
def Violates (d : Declarations) : Violation → Prop
  | .duplicate heading => ∃ ps, d.Declares heading ps ∧ 1 < ps.countP Policy.isResource
  | .selfDelegation type => ∃ ps, d.Declares (.type type) ps ∧ .delegate type ∈ ps

end Declarations

/-! ## What is wrong, in order -/

def duplicates (heading : Heading) (ps : List Policy) : List Violation :=
  if 1 < ps.countP Policy.isResource then [.duplicate heading] else []

def selfDelegations (type : String) (ps : List Policy) : List Violation :=
  if .delegate type ∈ ps then [.selfDelegation type] else []

def TypePolicies.violations (type : String) (t : TypePolicies) : List Violation :=
  duplicates (.type type) t.policies ++ (selfDelegations type t.policies ++
    t.methods.entries.flatMap fun m => duplicates (.method type m.1) m.2)

def Declarations.violations (d : Declarations) : List Violation :=
  (d.types.entries.flatMap fun t => t.2.violations t.1) ++
    d.functions.entries.flatMap fun f => duplicates (.function f.1) f.2

theorem mem_duplicates {heading : Heading} {ps : List Policy} {v : Violation} :
    v ∈ duplicates heading ps ↔ 1 < ps.countP Policy.isResource ∧
      v = .duplicate heading := by
  unfold duplicates
  split
  · next h => simp [h]
  · next h => simp [h]

theorem mem_selfDelegations {type : String} {ps : List Policy} {v : Violation} :
    v ∈ selfDelegations type ps ↔ .delegate type ∈ ps ∧ v = .selfDelegation type := by
  unfold selfDelegations
  split
  · next h => simp [h]
  · next h => simp [h]

theorem TypePolicies.mem_violations {type : String} {t : TypePolicies}
    {v : Violation} :
    v ∈ t.violations type ↔
      (1 < t.policies.countP Policy.isResource ∧ v = .duplicate (.type type)) ∨
      (.delegate type ∈ t.policies ∧ v = .selfDelegation type) ∨
      ∃ m ∈ t.methods.entries, 1 < m.2.countP Policy.isResource ∧
        v = .duplicate (.method type m.1) := by
  unfold violations
  simp only [List.mem_append, List.mem_flatMap, mem_duplicates, mem_selfDelegations]

/-- The list has all that is wrong and nothing else. -/
theorem Declarations.mem_violations {d : Declarations} {v : Violation} :
    v ∈ d.violations ↔ d.Violates v := by
  unfold violations
  simp only [List.mem_append, List.mem_flatMap, mem_duplicates,
    TypePolicies.mem_violations]
  constructor
  · rintro (⟨⟨type, t⟩, ht, ⟨h, rfl⟩ | ⟨h, rfl⟩ | ⟨⟨name, ps⟩, hm, h, rfl⟩⟩ |
      ⟨⟨name, ps⟩, hf, h, rfl⟩)
    · exact ⟨_, .type ht, h⟩
    · exact ⟨_, .type ht, h⟩
    · exact ⟨_, .method ht hm, h⟩
    · exact ⟨_, .function hf, h⟩
  · intro h
    cases v with
    | selfDelegation type =>
        obtain ⟨_, ⟨ht⟩, h⟩ := h
        exact .inl ⟨_, ht, .inr (.inl ⟨h, rfl⟩)⟩
    | duplicate heading =>
        obtain ⟨ps, hd, h⟩ := h
        cases hd with
        | type ht => exact .inl ⟨_, ht, .inl ⟨h, rfl⟩⟩
        | method ht hm => exact .inl ⟨_, ht, .inr (.inr ⟨_, hm, h, rfl⟩)⟩
        | function hf => exact .inr ⟨_, hf, h, rfl⟩

theorem TypePolicies.type?_of_mem {type : String} {t : TypePolicies} {v : Violation}
    (h : v ∈ t.violations type) : v.type? = some type := by
  rcases mem_violations.mp h with ⟨_, rfl⟩ | ⟨_, rfl⟩ | ⟨_, _, _, rfl⟩ <;> rfl

theorem pairwise_duplicates {R : Violation → Violation → Prop} (heading : Heading)
    (ps : List Policy) : (duplicates heading ps).Pairwise R := by
  unfold duplicates
  split
  · exact List.pairwise_singleton _ _
  · exact .nil

theorem TypePolicies.pairwise_violations (type : String) (t : TypePolicies) :
    (t.violations type).Pairwise Violation.Precedes := by
  have hself : (selfDelegations type t.policies).Pairwise Violation.Precedes := by
    unfold selfDelegations
    split
    · exact List.pairwise_singleton _ _
    · exact .nil
  have hmethods : (t.methods.entries.flatMap fun m =>
      duplicates (.method type m.1) m.2).Pairwise Violation.Precedes := by
    refine List.pairwise_flatMap.mpr ⟨fun m _ => pairwise_duplicates _ _, ?_⟩
    refine t.methods.ordered.imp fun hlt v hv v' hv' => ?_
    obtain ⟨_, rfl⟩ := mem_duplicates.mp hv
    obtain ⟨_, rfl⟩ := mem_duplicates.mp hv'
    exact .methods hlt
  refine List.pairwise_append.mpr ⟨pairwise_duplicates _ _,
    List.pairwise_append.mpr ⟨hself, hmethods, fun v hv v' hv' => ?_⟩,
      fun v hv v' hv' => ?_⟩
  · obtain ⟨_, rfl⟩ := mem_selfDelegations.mp hv
    obtain ⟨m, _, hv'⟩ := List.mem_flatMap.mp hv'
    obtain ⟨_, rfl⟩ := mem_duplicates.mp hv'
    exact .delegationMethod
  · obtain ⟨_, rfl⟩ := mem_duplicates.mp hv
    rcases List.mem_append.mp hv' with hv' | hv'
    · obtain ⟨_, rfl⟩ := mem_selfDelegations.mp hv'
      exact .ownDelegation
    · obtain ⟨m, _, hv'⟩ := List.mem_flatMap.mp hv'
      obtain ⟨_, rfl⟩ := mem_duplicates.mp hv'
      exact .ownMethod

/-- The list has everything in its order. -/
theorem Declarations.pairwise_violations (d : Declarations) :
    d.violations.Pairwise Violation.Precedes := by
  refine List.pairwise_append.mpr ⟨?_, ?_, fun v hv v' hv' => ?_⟩
  · refine List.pairwise_flatMap.mpr ⟨fun t _ => t.2.pairwise_violations t.1, ?_⟩
    refine d.types.ordered.imp fun hlt v hv v' hv' => ?_
    exact .types (TypePolicies.type?_of_mem hv) (TypePolicies.type?_of_mem hv') hlt
  · refine List.pairwise_flatMap.mpr ⟨fun f _ => pairwise_duplicates _ _, ?_⟩
    refine d.functions.ordered.imp fun hlt v hv v' hv' => ?_
    obtain ⟨_, rfl⟩ := mem_duplicates.mp hv
    obtain ⟨_, rfl⟩ := mem_duplicates.mp hv'
    exact .functions hlt
  · obtain ⟨t, _, hv⟩ := List.mem_flatMap.mp hv
    obtain ⟨f, _, hv'⟩ := List.mem_flatMap.mp hv'
    obtain ⟨_, rfl⟩ := mem_duplicates.mp hv'
    exact .function (TypePolicies.type?_of_mem hv)

/-! ## Checks stop at what is wrong first -/

/-- A check that fails with the first of some violations, or else has this answer. -/
def Reports {α : Type} (r : Except DeclarationFault α) (a : α)
    (vs : List Violation) : Prop :=
  r = match vs with
    | [] => .ok a
    | v :: _ => .error v.fault

namespace Reports

variable {α β : Type}

theorem bind {r : Except DeclarationFault α} {f : α → Except DeclarationFault β}
    {a : α} {b : β} {vs vs' : List Violation} (h : Reports r a vs)
    (h' : Reports (f a) b vs') :
    Reports (r >>= f) b (vs ++ vs') := by
  cases vs with
  | nil =>
      obtain rfl : r = .ok a := h
      exact h'
  | cons v vs =>
      obtain rfl : r = .error v.fault := h
      rfl

/-- With nothing more to check. -/
theorem answer {r : Except DeclarationFault α} {f : α → Except DeclarationFault β}
    {a : α} {b : β} {vs : List Violation} (h : Reports r a vs)
    (h' : f a = .ok b) : Reports (r >>= f) b vs := by
  have hb := h.bind (show Reports (f a) b [] from h')
  rw [List.append_nil] at hb
  exact hb

theorem forM {f : α → Except DeclarationFault Unit} {g : α → List Violation}
    (h : ∀ a, Reports (f a) () (g a)) (l : List α) :
    Reports (l.forM f) () (l.flatMap g) := by
  induction l with
  | nil => rfl
  | cons a l ih => exact (h a).bind ih

theorem checkResources (heading : Heading) (ps : List Policy) :
    Reports (checkResources heading.text ps) () (duplicates heading ps) := by
  unfold Clearance.checkResources duplicates
  split
  · rfl
  · rfl

theorem selfDelegation (type : String) (ps : List Policy) :
    Reports (if .delegate type ∈ ps then throw (.selfDelegation type) else pure ()) ()
      (selfDelegations type ps) := by
  unfold selfDelegations
  split
  · rfl
  · rfl

theorem checkType (type : String) (t : TypePolicies) :
    Reports (t.check type) () (t.violations type) := by
  have hmethods : Reports
      (t.methods.entries.forM fun m =>
        Clearance.checkResources (type ++ "::" ++ m.1) m.2) ()
      (t.methods.entries.flatMap fun m => duplicates (.method type m.1) m.2) :=
    forM (fun m : String × List Policy => checkResources (.method type m.1) m.2) _
  have hrest := (selfDelegation type t.policies).bind (f := fun _ => _) hmethods
  have h := (checkResources (.type type) t.policies).bind (f := fun _ => _) hrest
  unfold TypePolicies.check
  by_cases hm : .delegate type ∈ t.policies
  · simp only [if_pos hm] at h ⊢
    exact h
  · simp only [if_neg hm] at h ⊢
    exact h

theorem check (d : Declarations) : Reports d.check () d.violations := by
  have htypes : Reports (d.types.entries.forM fun t => t.2.check t.1) ()
      (d.types.entries.flatMap fun t => t.2.violations t.1) :=
    forM (fun t : String × TypePolicies => checkType t.1 t.2) _
  have hfunctions : Reports
      (d.functions.entries.forM fun f => Clearance.checkResources f.1 f.2) ()
      (d.functions.entries.flatMap fun f => duplicates (.function f.1) f.2) :=
    forM (fun f : String × List Policy => checkResources (.function f.1) f.2) _
  exact htypes.bind (f := fun _ => _) hfunctions

theorem ofDeclarations (d : Declarations) :
    Reports (PolicyIndex.ofDeclarations d) ⟨d⟩ d.violations := (check d).answer rfl

end Reports

namespace PolicyIndex

variable {d : Declarations} {x : PolicyIndex} {fault : DeclarationFault}

theorem ofDeclarations_eq (d : Declarations) :
    ofDeclarations d =
      match d.violations with
      | [] => .ok ⟨d⟩
      | v :: _ => .error v.fault := Reports.ofDeclarations d

theorem ofDeclarations_eq_ok :
    ofDeclarations d = .ok x ↔ x = ⟨d⟩ ∧ ∀ v, ¬ d.Violates v := by
  simp only [← Declarations.mem_violations]
  rw [ofDeclarations_eq]
  cases d.violations with
  | nil =>
      constructor
      · intro h
        cases h
        exact ⟨rfl, fun v hv => by cases hv⟩
      · rintro ⟨rfl, _⟩
        rfl
  | cons v vs =>
      constructor
      · intro h
        cases h
      · rintro ⟨_, hv⟩
        exact absurd (List.mem_cons_self ..) (hv v)

theorem ofDeclarations_eq_error :
    ofDeclarations d = .error fault ↔ ∃ v, d.Violates v ∧ v.fault = fault ∧
      ∀ v', d.Violates v' → v' = v ∨ v.Precedes v' := by
  simp only [← Declarations.mem_violations]
  have hp := d.pairwise_violations
  rw [ofDeclarations_eq]
  cases hvs : d.violations with
  | nil =>
      constructor
      · intro h
        cases h
      · rintro ⟨v, hv, _⟩
        cases hv
  | cons v vs =>
      rw [hvs] at hp
      have hfirst := (List.pairwise_cons.mp hp).1
      constructor
      · intro h
        cases h
        refine ⟨v, List.mem_cons_self .., rfl, fun v' hv' => ?_⟩
        rcases List.mem_cons.mp hv' with rfl | hv'
        · exact .inl rfl
        · exact .inr (hfirst v' hv')
      · rintro ⟨v', hv', rfl, hall⟩
        rcases List.mem_cons.mp hv' with rfl | hv'
        · rfl
        · -- The head precedes all others, so no other can.
          rcases hall v (List.mem_cons_self ..) with rfl | hlt
          · rfl
          · exact absurd (hfirst v' hv') hlt.asymm

end PolicyIndex

/-! ## What is served -/

namespace PolicyLoader

variable {σ : Type}

/-- The list that a loader has for a heading. -/
def serve (l : PolicyLoader σ) : Heading → Act σ (List Policy)
  | .type name => l.loadType name
  | .method type name => l.loadMethod type name
  | .function name => l.loadFunction name

end PolicyLoader

/-- The list that is declared under a heading, if there is one. -/
def Declarations.list? (d : Declarations) : Heading → Option (List Policy)
  | .type name => (d.types.get? name).map (·.policies)
  | .method type name => (d.types.get? type).bind (·.methods.get? name)
  | .function name => d.functions.get? name

theorem Table.get?_eq_some_iff {α : Type} (t : Table α) {name : String} {a : α} :
    t.get? name = some a ↔ (name, a) ∈ t.entries :=
  Entries.get?_eq_some_iff t.distinct

theorem Declarations.list?_eq_some_iff {d : Declarations} {heading : Heading}
    {ps : List Policy} : d.list? heading = some ps ↔ d.Declares heading ps := by
  constructor
  · intro h
    cases heading with
    | type name =>
        obtain ⟨t, ht, rfl⟩ := Option.map_eq_some_iff.mp h
        exact .type (d.types.get?_eq_some_iff.mp ht)
    | method type name =>
        obtain ⟨t, ht, hm⟩ := Option.bind_eq_some_iff.mp h
        exact .method (d.types.get?_eq_some_iff.mp ht)
          (t.methods.get?_eq_some_iff.mp hm)
    | function name => exact .function (d.functions.get?_eq_some_iff.mp h)
  · intro h
    cases h with
    | type h =>
        exact Option.map_eq_some_iff.mpr ⟨_, d.types.get?_eq_some_iff.mpr h, rfl⟩
    | @method type t name ps h hm =>
        exact Option.bind_eq_some_iff.mpr
          ⟨t, d.types.get?_eq_some_iff.mpr h, t.methods.get?_eq_some_iff.mpr hm⟩
    | function h => exact d.functions.get?_eq_some_iff.mpr h

theorem PolicyLoader.serve_ofIndex {σ : Type} (d : Declarations) (heading : Heading)
    (w : σ) :
    (ofIndex ⟨d⟩).serve heading w = (.ok ((d.list? heading).getD []), w) := by
  cases heading with
  | type | method | function => rfl

theorem Declarations.contains_types {d : Declarations} {type : String} :
    d.types.contains type = true ↔ ∃ ps, d.Declares (.type type) ps := by
  simp only [← list?_eq_some_iff, list?, Option.map_eq_some_iff]
  unfold Table.contains
  rw [Option.isSome_iff_exists]
  constructor
  · rintro ⟨t, ht⟩
    exact ⟨_, t, ht, rfl⟩
  · rintro ⟨_, t, ht, _⟩
    exact ⟨t, ht⟩

end Clearance
