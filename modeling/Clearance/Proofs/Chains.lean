import Clearance.Proofs.InTurn
import Clearance.Proofs.Search

/-!
# Chains

A chain is no more than the list of its members. A member that is itself a chain may be
replaced by its members, to any depth, and a member that does nothing may be left out,
so chains of one kind are a monoid: `Flattens` says it for whatever can be put
together. The two chains are then the same, for members that may write down what they
are asked, so the members are asked the same in the same order.

What a chain does with its members is one of two things. It searches, so what settles
the matter for one member does so for the chain. Or it gathers: all members are asked,
and the answer is all that they have answered. For a search this works since a chain
answers what does not settle the matter only if no member does better; a chain of
subject locators, which drops nulls, loses nothing if they have been dropped before.
-/

namespace Clearance

variable {σ α β : Type}

/-! ## Chains of chains -/

/-- Members that are put together, to any depth. -/
inductive Assembly (α : Type) where
  | member (a : α)
  /-- The member that does nothing. -/
  | null
  | chain (parts : List (Assembly α))

namespace Assembly

/-- The member that has been put together. -/
def build (chain : List α → α) (null : α) : Assembly α → α
  | .member a => a
  | .null => null
  | .chain parts => chain (parts.map (build chain null))

/-- The members in it that do something, in order. -/
def members : Assembly α → List α
  | .member a => [a]
  | .null => []
  | .chain parts => parts.flatMap members

variable {chain : List α → α} {null : α}

theorem chain_map_build {parts : List (Assembly α)}
    (h : ∀ p ∈ parts, ∀ xs zs, chain (xs ++ p.build chain null :: zs) =
      chain (xs ++ (p.members ++ zs)))
    (xs zs : List α) :
    chain (xs ++ (parts.map (build chain null) ++ zs)) =
      chain (xs ++ (parts.flatMap members ++ zs)) := by
  induction parts generalizing xs with
  | nil => rfl
  | cons p parts ih =>
      obtain ⟨hp, hparts⟩ := List.forall_mem_cons.mp h
      rw [List.map_cons, List.cons_append, hp, ← List.append_assoc, ih hparts,
        List.flatMap_cons, List.append_assoc, List.append_assoc]

/-- If a chain in a chain may be replaced by its members, so may all that is
put together. -/
theorem chain_build
    (splice : ∀ xs ys zs : List α, chain (xs ++ chain ys :: zs) =
      chain (xs ++ (ys ++ zs)))
    (hnull : null = chain []) :
    (p : Assembly α) → ∀ xs zs,
      chain (xs ++ p.build chain null :: zs) = chain (xs ++ (p.members ++ zs))
  | .member a => fun xs zs => by rw [build, members, List.singleton_append]
  | .null => fun xs zs => by rw [build, members, hnull, splice]
  | .chain parts => fun xs zs => by
      rw [build, members, splice]
      exact chain_map_build (fun p _ => chain_build splice hnull p) xs zs

end Assembly

/-- A chain of whatever has been put together is the chain of the members in it. -/
def Flattens (chain : List α → α) (null : α) : Prop :=
  ∀ parts : List (Assembly α),
    chain (parts.map (Assembly.build chain null)) =
      chain (parts.flatMap Assembly.members)

theorem Flattens.of_splice {chain : List α → α} {null : α}
    (splice : ∀ xs ys zs : List α, chain (xs ++ chain ys :: zs) =
      chain (xs ++ (ys ++ zs)))
    (hnull : null = chain []) : Flattens chain null := by
  intro parts
  have h := Assembly.chain_map_build
    (fun p (_ : p ∈ parts) => p.chain_build splice hnull) [] []
  rwa [List.nil_append, List.nil_append, List.append_nil, List.append_nil] at h

/-! ## Gathering -/

/-- What is done is to ask members in turn and to answer all that they answer, or to
fail as the first that does, behind which no one is asked. -/
def Gathers (ask : α → Act σ (List β)) (members : List α)
    (done : Act σ (List β)) : Prop :=
  (∀ w bs w', done w = (.ok bs, w') ↔
    ∃ answers, members.mapM ask w = (.ok answers, w') ∧ answers.flatten = bs) ∧
  ∀ w err w', done w = (.error err, w') ↔
    ∃ before a after answers w₁, members = before ++ a :: after ∧
      before.mapM ask w = (.ok answers, w₁) ∧ ask a w₁ = (.error err, w')

section Gather

variable {m : Type → Type} [Monad m] [LawfulMonad m] {ask : α → m (List β)} {c : α}
  {ys : List α}

theorem flatMapM_eq (ask : α → m (List β)) (as : List α) :
    as.flatMapM ask = List.flatten <$> as.mapM ask := by
  induction as with
  | nil => rw [List.flatMapM_nil, List.mapM_nil, map_pure, List.flatten_nil]
  | cons a as ih =>
      rw [List.flatMapM_cons, List.mapM_cons, ih]
      simp only [map_bind, bind_map_left, map_pure, List.flatten_cons]

theorem flatMapM_append (ask : α → m (List β)) (xs ys : List α) :
    (xs ++ ys).flatMapM ask =
      (do
        let bs ← xs.flatMapM ask
        let cs ← ys.flatMapM ask
        pure (bs ++ cs)) := by
  induction xs with
  | nil => simp only [List.nil_append, List.flatMapM_nil, pure_bind, bind_pure]
  | cons x xs ih =>
      simp only [List.cons_append, List.flatMapM_cons, ih, bind_assoc, pure_bind,
        List.append_assoc]

/-- A member that gathers itself may be replaced by those from whom it does, whatever
it leaves out, if this is left out of the whole as well. -/
theorem flatMapM_splice (keep : β → Bool)
    (hc : ask c = List.filter keep <$> ys.flatMapM ask) (xs zs : List α) :
    List.filter keep <$> (xs ++ c :: zs).flatMapM ask =
      List.filter keep <$> (xs ++ (ys ++ zs)).flatMapM ask := by
  simp only [flatMapM_append, List.flatMapM_cons, hc, map_bind, bind_map_left,
    bind_assoc, map_pure, pure_bind, List.filter_append, List.filter_filter,
    Bool.and_self]

theorem gathers_flatMapM (ask : α → Act σ (List β)) (as : List α) :
    Gathers ask as (as.flatMapM ask) := by
  rw [flatMapM_eq]
  exact ⟨fun w bs w' => Act.map_eq_ok,
    fun w err w' => Act.map_eq_error.trans Act.mapM_eq_error⟩

end Gather

/-! ## The chains -/

namespace PolicyLoader

theorem concat_eq_flatMapM (load : PolicyLoader σ → Act σ (List Policy))
    (ls : List (PolicyLoader σ)) : concat load ls = ls.flatMapM load := by
  induction ls with
  | nil => rfl
  | cons l ls ih => rw [concat, ih, List.flatMapM_cons]

theorem concat_splice {load : PolicyLoader σ → Act σ (List Policy)}
    {c : PolicyLoader σ} {ys : List (PolicyLoader σ)} (hc : load c = concat load ys)
    (xs zs : List (PolicyLoader σ)) :
    concat load (xs ++ c :: zs) = concat load (xs ++ (ys ++ zs)) := by
  have hall : (List.filter fun _ : Policy => true) = id :=
    funext fun _ => List.filter_eq_self.mpr fun _ _ => rfl
  have hload : load c = (List.filter fun _ => true) <$> ys.flatMapM load := by
    rw [hall, id_map, hc, concat_eq_flatMapM]
  have h := flatMapM_splice _ hload xs zs
  rwa [hall, id_map, id_map, ← concat_eq_flatMapM, ← concat_eq_flatMapM] at h

theorem gathers_concat (load : PolicyLoader σ → Act σ (List Policy))
    (ls : List (PolicyLoader σ)) : Gathers load ls (concat load ls) := by
  rw [concat_eq_flatMapM]
  exact gathers_flatMapM load ls

theorem chain_splice (xs ys zs : List (PolicyLoader σ)) :
    chain (xs ++ chain ys :: zs) = chain (xs ++ (ys ++ zs)) := by
  unfold chain
  congr 1
  · funext type
    exact concat_splice rfl xs zs
  · funext type method
    exact concat_splice rfl xs zs
  · funext function
    exact concat_splice rfl xs zs
  · funext type
    rw [anyExists_eq_search, anyExists_eq_search,
      search_splice rfl (anyExists_eq_search type ys) xs zs]

end PolicyLoader

namespace SubjectLocator

theorem findAll_eq_flatMapM (ls : List (SubjectLocator σ)) :
    findAll ls = ls.flatMapM (·.find) := by
  induction ls with
  | nil => rfl
  | cons l ls ih => rw [findAll, ih, List.flatMapM_cons]

theorem chain_find (ls : List (SubjectLocator σ)) :
    (chain ls).find = (List.filter fun v => !v.isNull) <$> ls.flatMapM (·.find) := by
  rw [← findAll_eq_flatMapM]
  rfl

theorem chain_find_eq_iff {ls : List (SubjectLocator σ)} {vs : List Value} {w w' : σ} :
    (chain ls).find w = (vs, w') ↔
      ∃ answers, ls.mapM (·.find) w = (answers, w') ∧
        answers.flatten.filter (fun v => !v.isNull) = vs := by
  rw [chain_find, flatMapM_eq]
  show ((ls.mapM (·.find) w).1.flatten.filter (fun v => !v.isNull),
    (ls.mapM (·.find) w).2) = (vs, w') ↔ _
  constructor
  · intro h
    obtain ⟨rfl, rfl⟩ := Prod.mk.inj h
    exact ⟨_, rfl, rfl⟩
  · rintro ⟨answers, h, rfl⟩
    rw [h]

theorem chain_splice (xs ys zs : List (SubjectLocator σ)) :
    chain (xs ++ chain ys :: zs) = chain (xs ++ (ys ++ zs)) := by
  have h : (chain (xs ++ chain ys :: zs)).find = (chain (xs ++ (ys ++ zs))).find := by
    rw [chain_find, chain_find, flatMapM_splice _ (chain_find ys) xs zs]
  exact congrArg SubjectLocator.mk h

end SubjectLocator

namespace ResourceLocator

theorem chain_splice (xs ys zs : List (ResourceLocator σ)) :
    chain (xs ++ chain ys :: zs) = chain (xs ++ (ys ++ zs)) := by
  unfold chain
  congr 1
  funext type id
  rw [firstFound_eq_search, firstFound_eq_search,
    search_splice rfl (firstFound_eq_search type id ys) xs zs]

end ResourceLocator

namespace ServiceLocator

theorem chain_splice (xs ys zs : List (ServiceLocator σ)) :
    chain (xs ++ chain ys :: zs) = chain (xs ++ (ys ++ zs)) := by
  unfold chain
  congr 1
  funext method service
  rw [firstFound_eq_search, firstFound_eq_search,
    search_splice rfl (firstFound_eq_search method service ys) xs zs]

end ServiceLocator

namespace Checker

theorem chain_splice (xs ys zs : List (Checker σ)) :
    chain (xs ++ chain ys :: zs) = chain (xs ++ (ys ++ zs)) := by
  unfold chain
  congr 1
  funext subject name
  rw [anyHolds_eq_search, anyHolds_eq_search,
    search_splice rfl (anyHolds_eq_search subject name ys) xs zs]

end Checker

/-- Chains of one kind may be put together in whatever way, with members that do
nothing among them, which are the empty chains. What a chain answers is told by its
members alone. Loaders and subject locators gather, and the subjects are without nulls;
in all else a chain is a search, for a type that exists, for a resource that is neither
null nor false, for a method, or for a yes. -/
theorem chains_compose (σ : Type) :
    (Flattens PolicyLoader.chain (.none : PolicyLoader σ) ∧
      Flattens SubjectLocator.chain (.none : SubjectLocator σ) ∧
      Flattens ResourceLocator.chain (.none : ResourceLocator σ) ∧
      Flattens ServiceLocator.chain (.none : ServiceLocator σ) ∧
      Flattens Checker.chain (.chain [] : Checker σ)) ∧
    (∀ ls : List (PolicyLoader σ),
      (∀ type, Gathers (·.loadType type) ls ((PolicyLoader.chain ls).loadType type)) ∧
      (∀ type method,
        Gathers (·.loadMethod type method) ls
          ((PolicyLoader.chain ls).loadMethod type method)) ∧
      (∀ function,
        Gathers (·.loadFunction function) ls
          ((PolicyLoader.chain ls).loadFunction function)) ∧
      ∀ type, Searches (·.typeExists type) (· = true) false ls
        ((PolicyLoader.chain ls).typeExists type)) ∧
    (∀ (ls : List (SubjectLocator σ)) w vs w',
      (SubjectLocator.chain ls).find w = (vs, w') ↔
      ∃ answers, ls.mapM (·.find) w = (answers, w') ∧
        answers.flatten.filter (fun v => !v.isNull) = vs) ∧
    (∀ (ls : List (ResourceLocator σ)) type id,
      Searches (·.load type id) (fun r => ∃ v, r = some v ∧ v ≠ .null ∧
        v ≠ .bool false) none ls ((ResourceLocator.chain ls).load type id)) ∧
    (∀ (ls : List (ServiceLocator σ)) method service,
      Searches (·.find method service) (fun r => r.isSome = true) none ls
        ((ServiceLocator.chain ls).find method service)) ∧
    ∀ (cs : List (Checker σ)) subject name,
      Searches (·.holds subject name) (· = true) false cs
        ((Checker.chain cs).holds subject name) := by
  refine ⟨⟨?_, ?_, ?_, ?_, ?_⟩, fun ls => ⟨?_, ?_, ?_, ?_⟩, ?_, ?_, ?_, ?_⟩
  · exact .of_splice PolicyLoader.chain_splice rfl
  · exact .of_splice SubjectLocator.chain_splice rfl
  · exact .of_splice ResourceLocator.chain_splice rfl
  · exact .of_splice ServiceLocator.chain_splice rfl
  · exact .of_splice Checker.chain_splice rfl
  · exact fun type => PolicyLoader.gathers_concat (·.loadType type) ls
  · exact fun type method => PolicyLoader.gathers_concat (·.loadMethod type method) ls
  · exact fun function => PolicyLoader.gathers_concat (·.loadFunction function) ls
  · exact fun type => PolicyLoader.searches_anyExists type ls
  · exact fun ls w vs w' => SubjectLocator.chain_find_eq_iff
  · exact fun ls type id => ResourceLocator.searches_firstFound type id ls
  · exact fun ls method service => ServiceLocator.searches_firstFound method service ls
  · exact fun cs subject name => Checker.searches_anyHolds subject name cs

end Clearance
