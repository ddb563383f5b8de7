import Clearance.Proofs.Declared
import Mathlib.Data.List.Forall2

/-!
# Three indexes, filled in one walk

The declarations need not be kept to be served. The walk that checks them can move each
list, once it has been checked, into one of three indexes: of types, of methods by type
and name, and of functions. At the first thing wrong it drops them all. What it comes
to is said by `Reports` again, which now has an answer: the indexes with all lists put
into them, one after the other. Since there is one list under each heading, none of
them is overwritten, and it does not matter that a type comes after its methods.

So the lists are served as they are declared, whether from the declarations or from
the indexes.
-/

namespace Clearance

/-- The lists by what they are looked up by. -/
structure Indexes where
  types : Std.HashMap String (List Policy) := {}
  methods : Std.HashMap (String × String) (List Policy) := {}
  functions : Std.HashMap String (List Policy) := {}

namespace Indexes

def insert (ix : Indexes) : Heading → List Policy → Indexes
  | .type name, ps => { ix with types := ix.types.insert name ps }
  | .method type name, ps => { ix with methods := ix.methods.insert (type, name) ps }
  | .function name, ps => { ix with functions := ix.functions.insert name ps }

/-- Checks a list and moves it under its heading. -/
def add (ix : Indexes) (heading : Heading) (ps : List Policy) :
    Except DeclarationFault Indexes := do
  checkResources heading.text ps
  pure (ix.insert heading ps)

/-- Checks what is declared for a type, and moves first the lists of its methods and
then its own. -/
def addType (ix : Indexes) (type : String) (t : TypePolicies) :
    Except DeclarationFault Indexes := do
  checkResources type t.policies
  if .delegate type ∈ t.policies then throw (.selfDelegation type)
  let ix ← t.methods.entries.foldlM (fun ix m => ix.add (.method type m.1) m.2) ix
  pure (ix.insert (.type type) t.policies)

def ofDeclarations (d : Declarations) : Except DeclarationFault Indexes := do
  let ix ← d.types.entries.foldlM (fun ix t => ix.addType t.1 t.2) {}
  d.functions.entries.foldlM (fun ix f => ix.add (.function f.1) f.2) ix

end Indexes

/-- The loader of the indexes. -/
def PolicyLoader.ofIndexes {σ : Type} (ix : Indexes) : PolicyLoader σ where
  loadType type := pure (ix.types[type]?.getD [])
  loadMethod type method := pure (ix.methods[(type, method)]?.getD [])
  loadFunction function := pure (ix.functions[function]?.getD [])
  typeExists type := pure (ix.types.contains type)

/-! ## What is put into them -/

/-- The lists that are declared, as the walk comes to them. -/
def TypePolicies.lists (type : String) (t : TypePolicies) :
    List (Heading × List Policy) :=
  (t.methods.entries.map fun m => (.method type m.1, m.2)) ++
    [(.type type, t.policies)]

def Declarations.lists (d : Declarations) : List (Heading × List Policy) :=
  (d.types.entries.flatMap fun t => t.2.lists t.1) ++
    d.functions.entries.map fun f => (.function f.1, f.2)

theorem Declarations.mem_lists {d : Declarations} {heading : Heading}
    {ps : List Policy} :
    (heading, ps) ∈ d.lists ↔ d.Declares heading ps := by
  unfold lists TypePolicies.lists
  simp only [List.mem_append, List.mem_flatMap, List.mem_map, List.mem_singleton]
  constructor
  · rintro (⟨⟨type, t⟩, ht, ⟨⟨name, ps⟩, hm, h⟩ | h⟩ | ⟨⟨name, ps⟩, hf, h⟩)
    · cases h
      exact .method ht hm
    · cases h
      exact .type ht
    · cases h
      exact .function hf
  · intro h
    cases h with
    | type ht => exact .inl ⟨_, ht, .inr rfl⟩
    | method ht hm => exact .inl ⟨_, ht, .inl ⟨_, hm, rfl⟩⟩
    | function hf => exact .inr ⟨_, hf, rfl⟩

namespace Indexes

variable {ix : Indexes} {heading : Heading} {ps : List Policy}
  {lists : List (Heading × List Policy)}

def insertAll (ix : Indexes) (lists : List (Heading × List Policy)) : Indexes :=
  lists.foldl (fun ix l => ix.insert l.1 l.2) ix

theorem insertAll_append (ix : Indexes) (lists lists' : List (Heading × List Policy)) :
    ix.insertAll (lists ++ lists') = (ix.insertAll lists).insertAll lists' :=
  List.foldl_append

/-- The list under a heading, if there is one. -/
def list? (ix : Indexes) : Heading → Option (List Policy)
  | .type name => ix.types[name]?
  | .method type name => ix.methods[(type, name)]?
  | .function name => ix.functions[name]?

theorem list?_insert_self (ix : Indexes) (heading : Heading) (ps : List Policy) :
    (ix.insert heading ps).list? heading = some ps := by
  cases heading with
  | type | method | function => exact Std.HashMap.getElem?_insert_self

theorem list?_insert_of_ne (ps : List Policy) {heading' : Heading}
    (h : heading' ≠ heading) :
    (ix.insert heading' ps).list? heading = ix.list? heading := by
  cases heading' with
  | type name =>
      cases heading with
      | type name' =>
          refine Std.HashMap.getElem?_insert.trans (if_neg fun hn => h ?_)
          rw [eq_of_beq hn]
      | method | function => rfl
  | method type name =>
      cases heading with
      | method type' name' =>
          refine Std.HashMap.getElem?_insert.trans (if_neg fun hn => h ?_)
          cases eq_of_beq hn
          rfl
      | type | function => rfl
  | function name =>
      cases heading with
      | function name' =>
          refine Std.HashMap.getElem?_insert.trans (if_neg fun hn => h ?_)
          rw [eq_of_beq hn]
      | type | method => rfl

theorem list?_insertAll_of_forall_ne (h : ∀ ps, (heading, ps) ∉ lists) :
    (ix.insertAll lists).list? heading = ix.list? heading := by
  induction lists generalizing ix with
  | nil => rfl
  | cons l lists ih =>
      have hne : l.1 ≠ heading := by
        rintro rfl
        exact h l.2 (List.mem_cons_self ..)
      exact (ih fun ps hm => h ps (List.mem_cons_of_mem _ hm)).trans
        (list?_insert_of_ne l.2 hne)

/-- A list is not overwritten if it is the only one under its heading. -/
theorem list?_insertAll (h : ∀ ps', (heading, ps') ∈ lists → ps' = ps)
    (hm : (heading, ps) ∈ lists ∨ ix.list? heading = some ps) :
    (ix.insertAll lists).list? heading = some ps := by
  induction lists generalizing ix with
  | nil =>
      rcases hm with hm | hm
      · cases hm
      · exact hm
  | cons l lists ih =>
      refine ih (fun ps' hp => h ps' (List.mem_cons_of_mem _ hp)) ?_
      by_cases hl : l.1 = heading
      · obtain rfl := hl
        rw [← h l.2 (List.mem_cons_self ..)]
        exact .inr (list?_insert_self ix l.1 l.2)
      · rcases hm with hm | hm
        · rcases List.mem_cons.mp hm with rfl | hm
          · exact absurd rfl hl
          · exact .inl hm
        · exact .inr ((list?_insert_of_ne l.2 hl).trans hm)

/-- All declarations are in the indexes that are filled with them, and nothing else. -/
theorem list?_lists (d : Declarations) (heading : Heading) :
    (insertAll {} d.lists).list? heading = d.list? heading := by
  cases h : d.list? heading with
  | none =>
      have hn : ∀ ps, (heading, ps) ∉ d.lists := by
        intro ps hm
        have hs := Declarations.list?_eq_some_iff.mpr (Declarations.mem_lists.mp hm)
        cases h.symm.trans hs
      rw [list?_insertAll_of_forall_ne hn]
      cases heading with
      | type | method | function => exact Std.HashMap.getElem?_empty
  | some ps =>
      refine list?_insertAll (fun ps' hm => ?_) (.inl ?_)
      · have hs := Declarations.list?_eq_some_iff.mpr (Declarations.mem_lists.mp hm)
        exact Option.some.inj (hs.symm.trans h)
      · exact Declarations.mem_lists.mpr (Declarations.list?_eq_some_iff.mp h)

end Indexes

/-! ## The walk -/

namespace Reports

/-- In a walk each step checks its entry and moves its lists. -/
theorem foldlM {α : Type} {f : Indexes → α → Except DeclarationFault Indexes}
    {g : α → List Violation} {lists : α → List (Heading × List Policy)}
    (h : ∀ ix a, Reports (f ix a) (ix.insertAll (lists a)) (g a)) (l : List α)
    (ix : Indexes) :
    Reports (l.foldlM f ix) (ix.insertAll (l.flatMap lists)) (l.flatMap g) := by
  induction l generalizing ix with
  | nil => rfl
  | cons a l ih =>
      rw [List.foldlM_cons, List.flatMap_cons, Indexes.insertAll_append]
      exact (h ix a).bind (ih _)

theorem add (ix : Indexes) (heading : Heading) (ps : List Policy) :
    Reports (ix.add heading ps) (ix.insertAll [(heading, ps)])
      (duplicates heading ps) :=
  (checkResources heading ps).answer rfl

theorem addType (ix : Indexes) (type : String) (t : TypePolicies) :
    Reports (ix.addType type t) (ix.insertAll (t.lists type)) (t.violations type) := by
  have hmethods :=
    foldlM (fun ix (m : String × List Policy) => add ix (.method type m.1) m.2)
    t.methods.entries ix
  rw [← List.map_eq_flatMap] at hmethods
  have hown :=
    hmethods.answer (f := fun ix => pure (ix.insert (.type type) t.policies)) rfl
  have hrest := (selfDelegation type t.policies).bind (f := fun _ => _) hown
  have h := (checkResources (.type type) t.policies).bind (f := fun _ => _) hrest
  unfold TypePolicies.lists Indexes.addType
  rw [Indexes.insertAll_append]
  by_cases hm : .delegate type ∈ t.policies
  · simp only [if_pos hm] at h ⊢
    exact h
  · simp only [if_neg hm] at h ⊢
    exact h

theorem indexes (d : Declarations) :
    Reports (Indexes.ofDeclarations d) (.insertAll {} d.lists) d.violations := by
  have htypes := foldlM (fun ix (t : String × TypePolicies) => addType ix t.1 t.2)
    d.types.entries {}
  have hfunctions (ix : Indexes) := foldlM
    (fun ix (f : String × List Policy) => add ix (.function f.1) f.2)
      d.functions.entries ix
  simp only [← List.map_eq_flatMap] at hfunctions
  unfold Declarations.lists
  rw [Indexes.insertAll_append]
  exact htypes.bind (hfunctions _)

end Reports

theorem PolicyLoader.ofIndexes_eq {σ : Type} {ix : Indexes} {d : Declarations}
    (h : ∀ heading, ix.list? heading = d.list? heading) :
    (ofIndexes ix : PolicyLoader σ) = ofIndex ⟨d⟩ := by
  have ht (type : String) : ix.types[type]? = (d.types.get? type).map (·.policies) :=
    h (.type type)
  have hm (type method : String) :
      ix.methods[(type, method)]? = (d.types.get? type).bind (·.methods.get? method) :=
    h (.method type method)
  have hf (function : String) : ix.functions[function]? = d.functions.get? function :=
    h (.function function)
  unfold ofIndexes ofIndex
  simp only [ht, hm, hf, Std.HashMap.contains_eq_isSome_getElem?, Option.isSome_map]
  rfl

namespace PolicyIndex

/-- The loader is the same whether the declarations are kept or moved into indexes, and
so is the fault if there is no loader. -/
theorem map_ofIndexes {σ : Type} (d : Declarations) :
    (Indexes.ofDeclarations d).map (PolicyLoader.ofIndexes (σ := σ)) =
      (ofDeclarations d).map PolicyLoader.ofIndex := by
  have hx : ofDeclarations d = _ := Reports.ofDeclarations d
  have hix : Indexes.ofDeclarations d = _ := Reports.indexes d
  rw [hx, hix]
  cases d.violations with
  | nil => exact congrArg Except.ok (PolicyLoader.ofIndexes_eq (Indexes.list?_lists d))
  | cons v vs => rfl

/-- Declarations are accepted just if no list has two `Resource` policies and no type
delegates to itself, and otherwise refused for what is wrong first. Once they are
accepted, the list that is served under a heading is the one that stands there, or is
empty if none does, and the types that exist are those declared. All this is so as well
when the lists are moved into indexes while they are checked. -/
theorem checked_and_served {σ : Type} (d : Declarations) :
    ((∃ x, ofDeclarations d = .ok x) ↔
      (∀ heading ps, d.Declares heading ps → ps.countP Policy.isResource ≤ 1) ∧
        ∀ type ps, d.Declares (.type type) ps → .delegate type ∉ ps) ∧
    (∀ fault, ofDeclarations d = .error fault ↔ ∃ v, d.Violates v ∧ v.fault = fault ∧
      ∀ v', d.Violates v' → v' = v ∨ (v.Precedes v' ∧ ¬ v'.Precedes v)) ∧
    (∀ x, ofDeclarations d = .ok x → ∀ w : σ,
      (∀ heading ps, d.Declares heading ps →
        (PolicyLoader.ofIndex x).serve heading w = (.ok ps, w)) ∧
      (∀ heading, (∀ ps, ¬ d.Declares heading ps) →
        (PolicyLoader.ofIndex x).serve heading w = (.ok [], w)) ∧
      ∀ type, ∃ b, (PolicyLoader.ofIndex x).typeExists type w = (b, w) ∧
        (b = true ↔ ∃ ps, d.Declares (.type type) ps)) ∧
    (Indexes.ofDeclarations d).map (PolicyLoader.ofIndexes (σ := σ)) =
      (ofDeclarations d).map PolicyLoader.ofIndex := by
  refine ⟨?_, fun fault => ?_, fun x hx w => ?_, map_ofIndexes d⟩
  · constructor
    · rintro ⟨x, hx⟩
      have hv := (ofDeclarations_eq_ok.mp hx).2
      refine ⟨fun heading ps hd => ?_, fun type ps hd hm => ?_⟩
      · exact Nat.le_of_not_lt fun h => hv (.duplicate heading) ⟨ps, hd, h⟩
      · exact hv (.selfDelegation type) ⟨ps, hd, hm⟩
    · rintro ⟨hres, hself⟩
      refine ⟨⟨d⟩, ofDeclarations_eq_ok.mpr ⟨rfl, fun v hv => ?_⟩⟩
      cases v with
      | duplicate heading =>
          obtain ⟨ps, hd, h⟩ := hv
          exact Nat.not_lt_of_le (hres heading ps hd) h
      | selfDelegation type =>
          obtain ⟨ps, hd, hm⟩ := hv
          exact hself type ps hd hm
  · have hasymm : ∀ v v' : Violation, v' = v ∨ v.Precedes v' ↔
        v' = v ∨ (v.Precedes v' ∧ ¬ v'.Precedes v) := fun v v' =>
      or_congr_right ⟨fun h => ⟨h, h.asymm⟩, fun h => h.1⟩
    simp only [ofDeclarations_eq_error, hasymm]
  · obtain ⟨rfl, _⟩ := ofDeclarations_eq_ok.mp hx
    refine ⟨fun heading ps hd => ?_, fun heading hn => ?_, fun type =>
      ⟨d.types.contains type, rfl, Declarations.contains_types⟩⟩
    · rw [PolicyLoader.serve_ofIndex, Declarations.list?_eq_some_iff.mpr hd]
      rfl
    · have hl : d.list? heading = none :=
        Option.eq_none_iff_forall_ne_some.mpr fun ps h =>
          hn ps (Declarations.list?_eq_some_iff.mp h)
      rw [PolicyLoader.serve_ofIndex, hl]
      rfl

/-- Declarations with something wrong in a method, in a type after it, and in a
function. -/
def muddled : Declarations :=
  { types := .ofPairs
      [("A",
        { methods := .ofPairs [("m", [.resource "r" "id", .resource "s" "id"])] }),
        ("B", { policies := [.delegate "B"] })]
    functions := .ofPairs [("a", [.resource "r" "id", .resource "s" "id"])] }

/-- Declarations with two methods that go by the same name in messages. -/
def lookalikes : Declarations :=
  { types := .ofPairs
      [("A", { methods := .ofPairs [("b::c", [.deny none])] }),
        ("A::b", { policies := [.delegate "A"]
                   methods := .ofPairs [("c", [.allow none])] })] }

theorem lookalikes_served :
    (ofDeclarations muddled = .error (.duplicateResource "A::m") ∧
      ∃ v, muddled.Violates v ∧ v.fault = .duplicateResource "A::m" ∧
        ∀ v', muddled.Violates v' → v' = v ∨ (v.Precedes v' ∧ ¬ v'.Precedes v)) ∧
    ofDeclarations lookalikes = .ok ⟨lookalikes⟩ ∧
    (Heading.method "A" "b::c").text = (Heading.method "A::b" "c").text ∧
    ∃ ix, Indexes.ofDeclarations lookalikes = .ok ix ∧
      (PolicyLoader.ofIndexes ix).serve (.method "A" "b::c") () =
        (.ok [.deny none], ()) ∧
      (PolicyLoader.ofIndexes ix).serve (.method "A::b" "c") () =
        (.ok [.allow none], ()) := by
  have hm : ofDeclarations muddled = .error (.duplicateResource "A::m") := by rfl
  have hl : ofDeclarations lookalikes = .ok ⟨lookalikes⟩ := by rfl
  obtain ⟨_, _, hserved, hloader⟩ := checked_and_served (σ := Unit) lookalikes
  have hs := (hserved _ hl ()).1
  obtain ⟨ix, hix, hserve⟩ : ∃ ix, Indexes.ofDeclarations lookalikes = .ok ix ∧
      (PolicyLoader.ofIndexes ix : PolicyLoader Unit) = .ofIndex ⟨lookalikes⟩ := by
    rw [hl] at hloader
    rcases hix : Indexes.ofDeclarations lookalikes with fault | ix
    · rw [hix] at hloader
      cases hloader
    · rw [hix] at hloader
      exact ⟨ix, rfl, Except.ok.inj hloader⟩
  rw [← hserve] at hs
  refine ⟨⟨hm, ((checked_and_served (σ := Unit) muddled).2.1 _).mp hm⟩, hl, by decide,
    ix, hix, ?_, ?_⟩
  · exact hs _ _ (Declarations.list?_eq_some_iff.mp rfl)
  · exact hs _ _ (Declarations.list?_eq_some_iff.mp rfl)

end PolicyIndex

end Clearance
