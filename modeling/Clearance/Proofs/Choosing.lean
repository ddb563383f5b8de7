import Clearance.Proofs.Binding
import Mathlib.Data.Prod.Lex
import Mathlib.Order.Bounds.Basic

/-!
# Which candidate is chosen

Candidates are searched once for each type, and the first that is found is taken. What
the two searches come to is said by `pairs`: the places of a type and of a candidate
that is of this type, in lexicographic order, types first. The candidate of the least
pair is chosen, and if there is no pair there is nothing to choose.

So candidates compete in their order for one type only, the first that any of them is
of. Which type that is has nothing to do with the order of the candidates, nor with the
types that follow it.
-/

namespace Clearance.Supply

variable {t : Typing} {candidates others : List Value} {types : List String}
  {v : Value} {i j : ℕ} {err : AccessError}

/-- The places of a type and of a candidate that is of this type. -/
def pairs (t : Typing) (candidates : List Value)
    (types : List String) : Set (ℕ ×ₗ ℕ) :=
  {q | ∃ type v, types[(ofLex q).1]? = some type ∧ candidates[(ofLex q).2]? = some v ∧
    v.isInstanceOf t type = true}

theorem mem_pairs :
    toLex (i, j) ∈ pairs t candidates types ↔
      ∃ type v, types[i]? = some type ∧ candidates[j]? = some v ∧
        v.isInstanceOf t type = true := Iff.rfl

theorem pairs_eq_empty_iff :
    pairs t candidates types = ∅ ↔
      ∀ type ∈ types, ∀ c ∈ candidates, c.isInstanceOf t type = false := by
  rw [Set.eq_empty_iff_forall_notMem]
  constructor
  · intro h type ht c hc
    obtain ⟨i, hi⟩ := List.mem_iff_getElem?.mp ht
    obtain ⟨j, hj⟩ := List.mem_iff_getElem?.mp hc
    by_contra hf
    exact h (toLex (i, j)) ⟨type, c, hi, hj, by simpa using hf⟩
  · rintro h q ⟨type, c, hi, hj, hc⟩
    rw [h type (List.mem_of_getElem? hi) c (List.mem_of_getElem? hj)] at hc
    cases hc

/-- Every value is of the type `mixed`, so its place goes with that of
every candidate. -/
theorem mem_pairs_of_mixed (hi : types[i]? = some mixed) (hj : j < candidates.length) :
    toLex (i, j) ∈ pairs t candidates types :=
  ⟨mixed, candidates[j], hi, List.getElem?_eq_getElem hj, rfl⟩

/-! ## The least pair -/

theorem Preferred.exists_isLeast (h : Preferred t candidates types v) :
    ∃ i j, IsLeast (pairs t candidates types) (toLex (i, j)) ∧
      candidates[j]? = some v := by
  obtain ⟨earlier, type, later, passed, rest, rfl, rfl, hv, he, hp⟩ := h
  have hi : (earlier ++ type :: later)[earlier.length]? = some type := by simp
  have hj : (passed ++ v :: rest)[passed.length]? = some v := by simp
  refine ⟨earlier.length, passed.length, ⟨mem_pairs.mpr ⟨type, v, hi, hj, hv⟩, ?_⟩, hj⟩
  rintro ⟨i, j⟩ hq
  obtain ⟨type', c, hi', hj', hc⟩ := mem_pairs.mp hq
  refine Prod.Lex.toLex_le_toLex.mpr ?_
  rcases Nat.lt_trichotomy i earlier.length with hlt | rfl | hgt
  · -- no candidate is of a type before this one
    rw [List.getElem?_append_left hlt] at hi'
    rw [he type' (List.mem_of_getElem? hi') c (List.mem_of_getElem? hj')] at hc
    cases hc
  · refine .inr ⟨rfl, ?_⟩
    by_contra hlt
    rw [List.getElem?_append_left (Nat.lt_of_not_le hlt)] at hj'
    obtain rfl := Option.some.inj (hi.symm.trans hi')
    rw [hp c (List.mem_of_getElem? hj')] at hc
    cases hc
  · exact .inl hgt

theorem choose?_eq_some_iff_isLeast (hne : types ≠ []) :
    choose? t candidates types = some v ↔
      ∃ i j, IsLeast (pairs t candidates types) (toLex (i, j)) ∧
        candidates[j]? = some v := by
  constructor
  · intro h
    exact ((choose?_eq_some hne).mp h).exists_isLeast
  · rintro ⟨i, j, hl, hj⟩
    cases hc : choose? t candidates types with
    | none =>
        have he := pairs_eq_empty_iff.mpr ((choose?_eq_none hne).mp hc)
        exact absurd (he ▸ hl.1) (Set.notMem_empty _)
    | some w =>
        obtain ⟨i', j', hl', hj'⟩ := ((choose?_eq_some hne).mp hc).exists_isLeast
        obtain ⟨rfl, rfl⟩ := Prod.mk.inj (toLex_inj.mp (hl.unique hl'))
        rw [← hj, ← hj']

theorem choose_eq_error :
    choose t candidates types = .error err ↔
      err = .runtime (.noCandidate types) ∧ choose? t candidates types = none := by
  unfold choose
  cases choose? t candidates types with
  | none => simp [throw, throwThe, MonadExceptOf.throw, eq_comm]
  | some w => simp [pure, Except.pure]

/-! ## Types before candidates -/

theorem Preferred.append (h : Preferred t candidates types v) (more : List String) :
    Preferred t candidates (types ++ more) v := by
  obtain ⟨earlier, type, later, passed, rest, rfl, hc, hv⟩ := h
  exact ⟨earlier, type, later ++ more, passed, rest, by simp, hc, hv⟩

theorem exists_mem_pairs_of_perm (hp : candidates.Perm others)
    (h : toLex (i, j) ∈ pairs t candidates types) :
    ∃ j', toLex (i, j') ∈ pairs t others types := by
  obtain ⟨type, c, hi, hj, hc⟩ := h
  obtain ⟨j', hj'⟩ :=
    List.mem_iff_getElem?.mp (hp.mem_iff.mp (List.mem_of_getElem? hj))
  exact ⟨j', type, c, hi, hj', hc⟩

theorem exists_isLeast (h : toLex (i, j) ∈ pairs t candidates types) :
    ∃ i' j', IsLeast (pairs t candidates types) (toLex (i', j')) := by
  obtain ⟨type, c, hi, hj, hc⟩ := mem_pairs.mp h
  have ht : type ∈ types := List.mem_of_getElem? hi
  obtain ⟨w, hw⟩ := exists_choose? (List.mem_of_getElem? hj) ht hc
  obtain ⟨i', j', hl, _⟩ := (choose?_eq_some_iff_isLeast (List.ne_nil_of_mem ht)).mp hw
  exact ⟨i', j', hl⟩

theorem le_of_isLeast {i' j' : ℕ}
    (h : IsLeast (pairs t candidates types) (toLex (i, j)))
    (h' : toLex (i', j') ∈ pairs t candidates types) : i ≤ i' := by
  rcases Prod.Lex.toLex_le_toLex.mp (h.2 h') with hlt | ⟨heq, -⟩
  · exact Nat.le_of_lt hlt
  · exact Nat.le_of_eq heq

/-- The type that decides is the same in whatever order the candidates stand. -/
theorem exists_isLeast_of_perm (hp : candidates.Perm others)
    (h : IsLeast (pairs t candidates types) (toLex (i, j))) :
    ∃ j', IsLeast (pairs t others types) (toLex (i, j')) := by
  obtain ⟨k, hk⟩ := exists_mem_pairs_of_perm hp h.1
  obtain ⟨i', j', hl⟩ := exists_isLeast hk
  obtain ⟨k', hk'⟩ := exists_mem_pairs_of_perm hp.symm hl.1
  obtain rfl : i' = i := Nat.le_antisymm (le_of_isLeast hl hk) (le_of_isLeast h hk')
  exact ⟨j', hl⟩

/-- Without types the first candidate is chosen, and with types the candidate of the
least pair; there is an error, of one kind only, just if there is no candidate or no
pair. So it is always one of the candidates that is chosen, the type that decides does
not depend on their order, and what is chosen does not depend on types that follow. -/
theorem chosen_least (t : Typing) (candidates : List Value) (types : List String) :
    (types = [] →
      (∀ v, choose t candidates types = .ok v ↔ candidates.head? = some v) ∧
      ∀ err, choose t candidates types = .error err ↔
        err = .runtime (.noCandidate types) ∧ candidates = []) ∧
    (types ≠ [] →
      (∀ v, choose t candidates types = .ok v ↔
        ∃ i j, IsLeast (pairs t candidates types) (toLex (i, j)) ∧
          candidates[j]? = some v) ∧
      (∀ err, choose t candidates types = .error err ↔
        err = .runtime (.noCandidate types) ∧ pairs t candidates types = ∅) ∧
      ∀ v more, choose t candidates types = .ok v →
        choose t candidates (types ++ more) = .ok v) ∧
    (∀ i j, types[i]? = some mixed → j < candidates.length →
      toLex (i, j) ∈ pairs t candidates types) ∧
    (∀ v, choose t candidates types = .ok v → v ∈ candidates) ∧
    ∀ others i j, candidates.Perm others →
      IsLeast (pairs t candidates types) (toLex (i, j)) →
      ∃ j', IsLeast (pairs t others types) (toLex (i, j')) := by
  refine ⟨?_, fun hne => ⟨fun v => ?_, fun err => ?_, fun v more h => ?_⟩,
    fun i j => mem_pairs_of_mixed, fun v h => ?_,
    fun others i j => exists_isLeast_of_perm⟩
  · rintro rfl
    refine ⟨fun v => choose_eq_ok,
      fun err => choose_eq_error.trans (and_congr_right' ?_)⟩
    exact List.head?_eq_none_iff
  · exact choose_eq_ok.trans (choose?_eq_some_iff_isLeast hne)
  · rw [choose_eq_error, choose?_eq_none hne, pairs_eq_empty_iff]
  · have hp := (choose?_eq_some hne).mp (choose_eq_ok.mp h)
    exact choose_eq_ok.mpr
      ((choose?_eq_some (List.append_ne_nil_of_left_ne_nil hne more)).mpr
      (hp.append more))
  · exact mem_of_choose? (choose_eq_ok.mp h)

/-- A shelf mark, and in front of it a title. -/
def marked : List Value := [.string "annals", .int 12]

/-- For a number or else a text the mark is chosen, also if anything else would do in
the end. With the two the other way round it is again the number that decides. -/
theorem marked_chosen :
    ["int", "string"] ≠ [] ∧
      choose { typeName := Handle.name } marked ["int", "string"] = .ok (.int 12) ∧
      choose { typeName := Handle.name } marked (["int", "string"] ++ [mixed]) =
        .ok (.int 12) ∧
      ∃ j, IsLeast (pairs { typeName := Handle.name } marked.reverse ["int", "string"])
        (toLex (0, j)) := by
  have hne : ["int", "string"] ≠ [] := List.cons_ne_nil _ _
  have hl : IsLeast (pairs { typeName := Handle.name } marked ["int", "string"])
      (toLex (0, 1)) := by
    refine ⟨⟨"int", .int 12, rfl, rfl, rfl⟩, ?_⟩
    rintro ⟨i, j⟩ hq
    obtain ⟨type, c, hi, hj, hc⟩ := mem_pairs.mp hq
    refine Prod.Lex.toLex_le_toLex.mpr ?_
    rcases Nat.eq_zero_or_pos i with rfl | hi'
    · refine .inr ⟨rfl, Nat.pos_of_ne_zero ?_⟩
      rintro rfl
      cases hi
      cases hj
      cases hc
    · exact .inl hi'
  obtain ⟨-, h, -, -, hp⟩ :=
    chosen_least { typeName := Handle.name } marked ["int", "string"]
  obtain ⟨hc, -, hm⟩ := h hne
  have hk := (hc (.int 12)).mpr ⟨0, 1, hl, rfl⟩
  exact ⟨hne, hk, hm _ [mixed] hk, hp _ 0 1 (List.reverse_perm _).symm hl⟩

end Clearance.Supply
