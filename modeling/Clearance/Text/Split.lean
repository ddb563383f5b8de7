/-!
# Cutting a text at a character

`split` cuts at every occurrence of a separator, `splitFirst?` at the first one only.
Neither keeps the separator, and `join` puts it back: `join_split`.
-/

namespace Clearance.Text

/-- The pieces between the occurrences of `sep`; there is always at least one. -/
def split (sep : Char) : List Char → List (List Char)
  | [] => [[]]
  | c :: rest =>
      if c = sep then [] :: split sep rest
      else match split sep rest with
        | [] => [[c]]
        | piece :: pieces => (c :: piece) :: pieces

/-- What stands before and after the first `sep`; nothing if there is none. -/
def splitFirst? (sep : Char) : List Char → Option (List Char × List Char)
  | [] => none
  | c :: rest =>
      if c = sep then some ([], rest)
      else (splitFirst? sep rest).map fun p => (c :: p.1, p.2)

/-- The pieces with `sep` between them. -/
def join (sep : List Char) : List (List Char) → List Char
  | [] => []
  | [piece] => piece
  | piece :: pieces => piece ++ sep ++ join sep pieces

theorem split_ne_nil (sep : Char) (s : List Char) : split sep s ≠ [] := by
  cases s with
  | nil => simp [split]
  | cons c rest =>
      simp only [split]
      split
      · simp
      · split <;> simp

theorem join_split (sep : Char) (s : List Char) : join [sep] (split sep s) = s := by
  induction s with
  | nil => rfl
  | cons c rest ih =>
      obtain ⟨piece, pieces, hs⟩ := List.exists_cons_of_ne_nil (split_ne_nil sep rest)
      rw [hs] at ih
      simp only [split, hs]
      split
      · rename_i hc
        simp [join, ih, hc]
      · cases pieces with
        | nil => simpa [join] using ih
        | cons q qs => simpa [join] using ih

/-! ## Where a text is cut -/

theorem split_of_notMem {sep : Char} {s : List Char}
    (h : sep ∉ s) : split sep s = [s] := by
  induction s with
  | nil => rfl
  | cons c rest ih =>
      rw [List.mem_cons, not_or] at h
      rw [split, if_neg (Ne.symm h.1), ih h.2]

theorem split_append {sep : Char} {s : List Char} (h : sep ∉ s) (rest : List Char) :
    split sep (s ++ sep :: rest) = s :: split sep rest := by
  induction s with
  | nil => rw [List.nil_append, split, if_pos rfl]
  | cons c s ih =>
      rw [List.mem_cons, not_or] at h
      rw [List.cons_append, split, if_neg (Ne.symm h.1), ih h.2]

theorem join_cons_cons (sep p q : List Char) (ps : List (List Char)) :
    join sep (p :: q :: ps) = p ++ sep ++ join sep (q :: ps) := rfl

theorem exists_join_cons (sep p : List Char) (ps : List (List Char)) :
    ∃ t, join sep (p :: ps) = p ++ t := by
  cases ps with
  | nil => exact ⟨[], (List.append_nil p).symm⟩
  | cons q qs => exact ⟨sep ++ join sep (q :: qs), List.append_assoc ..⟩

/-- Pieces without the separator are found again. -/
theorem split_join {sep : Char} {pieces : List (List Char)} (hne : pieces ≠ [])
    (h : ∀ p ∈ pieces, sep ∉ p) : split sep (join [sep] pieces) = pieces := by
  induction pieces with
  | nil => exact absurd rfl hne
  | cons p ps ih =>
      have hp : sep ∉ p := h p (List.mem_cons_self ..)
      have hps : ∀ q ∈ ps, sep ∉ q := fun q hq => h q (List.mem_cons_of_mem _ hq)
      cases ps with
      | nil => exact split_of_notMem hp
      | cons q qs =>
          rw [join_cons_cons, List.append_assoc, List.singleton_append,
            split_append hp, ih (List.cons_ne_nil _ _) hps]

theorem splitFirst?_of_notMem {sep : Char} {s : List Char} (h : sep ∉ s) :
    splitFirst? sep s = none := by
  induction s with
  | nil => rfl
  | cons c rest ih =>
      rw [List.mem_cons, not_or] at h
      rw [splitFirst?, if_neg (Ne.symm h.1), ih h.2]
      rfl

theorem splitFirst?_append {sep : Char} {s : List Char} (h : sep ∉ s)
    (rest : List Char) :
    splitFirst? sep (s ++ sep :: rest) = some (s, rest) := by
  induction s with
  | nil => rw [List.nil_append, splitFirst?, if_pos rfl]
  | cons c s ih =>
      rw [List.mem_cons, not_or] at h
      rw [List.cons_append, splitFirst?, if_neg (Ne.symm h.1), ih h.2]
      rfl

/-- A text has no separator, or is cut at the first one. -/
theorem notMem_or_exists_append (sep : Char) (s : List Char) :
    sep ∉ s ∨ ∃ a b, s = a ++ sep :: b ∧ sep ∉ a := by
  by_cases h : sep ∈ s
  · exact .inr (List.eq_append_cons_of_mem h)
  · exact .inl h

/-- What stands around a text without being a separator stays around the parts. -/
theorem splitFirst?_pad {sep : Char} {l r : List Char} (hl : sep ∉ l) (hr : sep ∉ r)
    (s : List Char) :
    splitFirst? sep (l ++ s ++ r) = (splitFirst? sep s).map fun p =>
      (l ++ p.1, p.2 ++ r) := by
  rcases notMem_or_exists_append sep s with h | ⟨a, b, rfl, ha⟩
  · rw [splitFirst?_of_notMem h, splitFirst?_of_notMem (by simp [hl, h, hr])]
    rfl
  · have hla : sep ∉ l ++ a := by simp [hl, ha]
    rw [splitFirst?_append ha, ← List.append_assoc, List.append_assoc (l ++ a),
      List.cons_append, splitFirst?_append hla]
    rfl

end Clearance.Text
