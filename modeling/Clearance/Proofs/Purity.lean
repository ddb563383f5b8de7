import Clearance.Proofs.Parallel
import Clearance.Proofs.Subjects

/-!
# Collaborators that answer by what they are asked alone

A host or a collaborator is pure if its answers depend on nothing but the questions. It
may well keep a record of them, so that the world is another one afterwards; what
matters is that nobody's answers show it. So there are worlds that are called calm: in
each of them the same question gets the same answer, and the world stays calm.

An evaluation has a state of its own besides the world, the subjects that it has
located and the caches. What a dispatch does to that state does not show either:
whoever asks for the subjects is told the same ones before it and after it. Two
evaluations that have the same to tell answer a policy alike, whatever each of them has
done before, and this is all that a list of policies can learn of the order in which it
is gone through.
-/

namespace Clearance

variable {σ : Type}

/-- Two worlds that are both calm. -/
def BothCalm (calm : σ → Prop) (w w' : σ) : Prop := calm w ∧ calm w'

/-- In calm worlds the host answers by what it is asked alone, and leaves a
calm world. -/
def Host.IsPure (calm : σ → Prop) (host : Host σ) : Prop :=
  host.Matches (BothCalm calm) host

namespace Engine

/-- In calm worlds the host and all collaborators answer by what they are asked alone,
and leave a calm world. -/
def IsPure (calm : σ → Prop) (e : Engine σ) : Prop :=
  e.Matches (BothCalm calm) (fun _ => True) e

/-- The world is calm, and whoever asks for the subjects is told these. -/
structure Tells (e : Engine σ) (ctx : Context) (calm : σ → Prop) (vs : List Value)
    (s : Evaluation σ) : Prop where
  calm : calm s.world
  told : (e.currentSubjects ctx s).1 = .ok vs

variable {e : Engine σ} {ctx : Context} {calm : σ → Prop} {vs : List Value}
  {s t : Evaluation σ}

theorem exists_tells (e : Engine σ) (ctx : Context) (hs : calm s.world) :
    ∃ vs, e.Tells ctx calm vs s := by
  obtain ⟨vs, s₁, h⟩ := e.currentSubjects_ok ctx s
  exact ⟨vs, hs, by rw [h]⟩

theorem told_of_currentSubjects {s₁ : Evaluation σ}
    (h : e.currentSubjects ctx s = (.ok vs, s₁)) :
    (e.currentSubjects ctx s₁).1 = .ok vs := by
  obtain ⟨hl, _⟩ := currentSubjects_spec h
  unfold currentSubjects
  rw [hl]

namespace Tells

/-- What happens in calm worlds does not change what there is to tell. -/
theorem of_world (h : e.IsPure calm) (hs : e.Tells ctx calm vs s) {w : σ}
    (hw : calm w) :
    e.Tells ctx calm vs { s with world := w } := by
  refine ⟨hw, ?_⟩
  obtain ⟨ha, _⟩ :=
    h.currentSubjects ctx s { s with world := w } ⟨⟨hs.calm, hw⟩, rfl, rfl⟩
  exact ha.symm.trans hs.told

theorem currentSubjects (h : e.IsPure calm) (hs : e.Tells ctx calm vs s) :
    e.Tells ctx calm vs (e.currentSubjects ctx s).2 := by
  obtain ⟨_, hw, _, _⟩ := h.currentSubjects ctx s s ⟨⟨hs.calm, hs.calm⟩, rfl, rfl⟩
  exact ⟨hw.1, told_of_currentSubjects (Prod.ext hs.told rfl)⟩

end Tells

namespace IsPure

/-- A pure engine is parallel to itself, from any two evaluations that have the same to
tell. -/
theorem parallel (h : e.IsPure calm) (ctx : Context) (vs : List Value) :
    e.Parallel (BothCalm calm) (fun s t => e.Tells ctx calm vs s ∧
      e.Tells ctx calm vs t) (fun _ => True) ctx e ctx where
  world := fun hs => ⟨hs.1.calm, hs.2.calm⟩
  update := fun hs hw => ⟨hs.1.of_world h hw.1, hs.2.of_world h hw.2⟩
  engines := h
  subjects := fun _ _ hs =>
    ⟨hs.1.told.trans hs.2.told.symm, hs.1.currentSubjects h, hs.2.currentSubjects h⟩
  supplied := fun _ _ => rfl

/-- The resource of a list is the same wherever the same is to be told, and so is what
is to be told afterwards. -/
theorem resourceFor (h : e.IsPure calm) (hs : e.Tells ctx calm vs s) (ps : List Policy)
    (v : Value) : e.Tells ctx calm vs (e.resourceFor ps v s).2 :=
  ((h.parallel ctx vs).resourceFor ps v s s ⟨hs, hs⟩).2.1

/-- A policy that is answered is answered alike wherever the same is to be told. -/
theorem answer (h : e.IsPure calm) (hs : e.Tells ctx calm vs s)
    (ht : e.Tells ctx calm vs t) {chain : List String} {p : Policy} {v : Value}
    {s' : Evaluation σ} {r : Except AccessError Bool}
    (ha : e.answer ctx chain p v s = some (r, s')) :
    ∃ t', e.answer ctx chain p v t = some (r, t') ∧ e.Tells ctx calm vs t' := by
  obtain ⟨⟨r', t'⟩, ha', hr, _, ht'⟩ :=
    ((h.parallel ctx vs).exists_related (e.loader.closed_all _) (.eq _)).2.2.1
      _ _ _ _ _ ha chain t rfl (fun _ _ => trivial) ⟨hs, ht⟩
  obtain rfl := hr.eq
  exact ⟨t', ha', ht'⟩

end IsPure

end Engine

end Clearance
