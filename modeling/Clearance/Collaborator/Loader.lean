import Clearance.Arguments.Binding
import Clearance.Policy.Declarations

/-!
# Policy loaders

A loader knows the policies of targets. It also says which types exist; only those can
be delegated to. A loader that finds only types of a fixed list knows those: a loader
of declarations is one of them, and so is a chain of such loaders.
-/

namespace Clearance

/-- Where policies come from. -/
structure PolicyLoader (σ : Type) where
  loadType : String → Act σ (List Policy)
  loadMethod : String → String → Act σ (List Policy)
  loadFunction : String → Act σ (List Policy)
  typeExists : String → StateM σ Bool

namespace PolicyLoader

variable {σ : Type}

/-- No type exists, whatever the state of the world, that is not in the list. -/
def KnowsOnly (l : PolicyLoader σ) (known : List String) : Prop :=
  ∀ type w, (l.typeExists type w).1 = true → type ∈ known

/-- The loader that knows no target. -/
def none : PolicyLoader σ where
  loadType _ := pure []
  loadMethod _ _ := pure []
  loadFunction _ := pure []
  typeExists _ := pure false

theorem none_knowsOnly :
    (none : PolicyLoader σ).KnowsOnly [] := fun _ _ h => by cases h

/-- The loader of checked declarations. -/
def ofIndex (x : PolicyIndex) : PolicyLoader σ where
  loadType type := pure (x.typePolicies type)
  loadMethod type method := pure (x.methodPolicies type method)
  loadFunction function := pure (x.functionPolicies function)
  typeExists type := pure (x.typeExists type)

theorem ofIndex_knowsOnly (x : PolicyIndex) :
    (ofIndex x : PolicyLoader σ).KnowsOnly x.declarations.types.names := by
  intro type _ h
  have h' : (x.declarations.types.get? type).isSome = true := h
  exact Table.mem_names_of_get? h'

/-- The answers of all members, one after the other, up to the first failure. -/
def concat (load : PolicyLoader σ → Act σ (List Policy)) :
    List (PolicyLoader σ) → Act σ (List Policy)
  | [] => pure []
  | l :: ls => do
      let ps ← load l
      let rest ← concat load ls
      pure (ps ++ rest)

/-- Whether a type exists for any member; those after the first for which it does are
not asked. -/
def anyExists (type : String) : List (PolicyLoader σ) → StateM σ Bool
  | [] => pure false
  | l :: ls => do
      if (← l.typeExists type) then pure true else anyExists type ls

/-- The loader that asks several, in order. -/
def chain (ls : List (PolicyLoader σ)) : PolicyLoader σ where
  loadType type := concat (·.loadType type) ls
  loadMethod type method := concat (·.loadMethod type method) ls
  loadFunction function := concat (·.loadFunction function) ls
  typeExists type := anyExists type ls

theorem anyExists_cons (type : String) (l : PolicyLoader σ)
    (ls : List (PolicyLoader σ)) (w : σ) :
    anyExists type (l :: ls) w =
      if (l.typeExists type w).1 then (true, (l.typeExists type w).2)
      else anyExists type ls (l.typeExists type w).2 := by
  have h : anyExists type (l :: ls) w =
      (if (l.typeExists type w).1 then pure true else anyExists type ls :
        StateM σ Bool) (l.typeExists type w).2 := rfl
  rw [h]
  split <;> rfl

/-- A chain knows what its members know. -/
theorem chain_knowsOnly {ls : List (PolicyLoader σ)} {known : List String}
    (h : ∀ l ∈ ls, l.KnowsOnly known) : (chain ls).KnowsOnly known := by
  intro type
  show ∀ w, (anyExists type ls w).1 = true → type ∈ known
  induction ls with
  | nil => exact fun w hw => by cases hw
  | cons l ls ih =>
      intro w hw
      rw [anyExists_cons] at hw
      split at hw
      · next hl => exact h l (List.mem_cons_self ..) type w hl
      · exact ih (fun l' hl' => h l' (List.mem_cons_of_mem _ hl')) _ hw

end PolicyLoader

end Clearance
