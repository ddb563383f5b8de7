/-!
# Tables of named entries

A table holds at most one entry under each name. Its entries stand in the order of
their names, so two tables with the same answers are the same table, and whatever walks
through a table meets the names in order.

`Entries` are the bare lists, which a recursive type can hold; `Table` is a list
together with the proof that it is in order. What matters about either is its view
`get?`: `get?_insert` says that the last entry written under a name is the one that
is read.
-/

namespace Clearance

universe u v

/-- Named entries, in no promised order. Of two entries of one name the first
is read. -/
abbrev Entries (α : Type u) := List (String × α)

namespace Entries

variable {α : Type u} {β : Type v}

def get? : Entries α → String → Option α
  | [], _ => none
  | (k, a) :: rest, name => if k = name then some a else get? rest name

/-- Writes the entry under `name`: over the one that is there, or before the first
greater name. -/
def insert (name : String) (a : α) : Entries α → Entries α
  | [] => [(name, a)]
  | (k, b) :: rest =>
      if name = k then (name, a) :: rest
      else if name < k then (name, a) :: (k, b) :: rest
      else (k, b) :: insert name a rest

/-- The entries of `pairs`, of two with one name the later. -/
def ofPairs (pairs : List (String × α)) : Entries α :=
  pairs.foldl (fun t p => insert p.1 p.2 t) []

/-- Each name stands before the names after it. -/
abbrev Ordered (t : Entries α) : Prop := t.Pairwise fun p q => p.1 < q.1

@[simp] theorem get?_nil (name : String) : get? ([] : Entries α) name = none := rfl

theorem get?_cons (p : String × α) (rest : Entries α) (name : String) :
    get? (p :: rest) name = if p.1 = name then some p.2 else get? rest name := rfl

theorem get?_insert (name : String) (a : α) (t : Entries α) (other : String) :
    (insert name a t).get? other = if name = other then some a else t.get? other := by
  induction t with
  | nil => simp [insert, get?]
  | cons p rest ih =>
      simp only [insert]
      split
      · rename_i h
        subst h
        simp only [get?]
        split <;> rfl
      · split
        · simp only [get?]
        · simp only [get?, ih]
          split
          · rename_i hk
            subst hk
            rw [if_neg]
            assumption
          · rfl

theorem mem_of_get? {t : Entries α} {name : String} (h : (t.get? name).isSome = true) :
    name ∈ t.map Prod.fst := by
  induction t with
  | nil => simp at h
  | cons p rest ih =>
      rw [get?_cons] at h
      split at h
      · rename_i hk
        exact List.mem_cons.mpr (.inl hk.symm)
      · exact List.mem_cons_of_mem _ (ih h)

theorem get?_eq_none {t : Entries α} {name : String} (h : name ∉ t.map Prod.fst) :
    t.get? name = none := by
  cases hn : t.get? name with
  | none => rfl
  | some a => exact absurd (mem_of_get? (by rw [hn]; rfl)) h

theorem mem_insert {name : String} {a : α} {t : Entries α} {p : String × α}
    (h : p ∈ insert name a t) : p = (name, a) ∨ p ∈ t := by
  induction t with
  | nil => simpa [insert] using h
  | cons q rest ih =>
      simp only [insert] at h
      split at h
      · rcases List.mem_cons.mp h with h | h
        · exact .inl h
        · exact .inr (List.mem_cons_of_mem _ h)
      · split at h
        · rcases List.mem_cons.mp h with h | h
          · exact .inl h
          · exact .inr h
        · rcases List.mem_cons.mp h with h | h
          · exact .inr (h ▸ List.mem_cons_self)
          · exact (ih h).imp_right (List.mem_cons_of_mem _)

theorem Ordered.insert {t : Entries α} (h : Ordered t) (name : String) (a : α) :
    Ordered (insert name a t) := by
  induction t with
  | nil => simp [Entries.insert, Ordered]
  | cons p rest ih =>
      have hp := List.pairwise_cons.mp h
      simp only [Entries.insert]
      split
      · rename_i hk
        exact List.pairwise_cons.mpr ⟨fun q hq => hk ▸ hp.1 q hq, hp.2⟩
      · split
        · rename_i hlt
          refine List.pairwise_cons.mpr ⟨fun q hq => ?_, h⟩
          rcases List.mem_cons.mp hq with rfl | hq
          · exact hlt
          · exact String.lt_trans hlt (hp.1 q hq)
        · rename_i hne hnlt
          refine List.pairwise_cons.mpr ⟨fun q hq => ?_, ih hp.2⟩
          rcases mem_insert hq with rfl | hq
          · exact Std.lt_of_le_of_ne (String.not_lt.mp hnlt) (Ne.symm hne)
          · exact hp.1 q hq

/-- The first name of a table is none of those after it. -/
theorem Ordered.get?_tail {p : String × α} {rest : Entries α}
    (h : Ordered (p :: rest)) :
    get? rest p.1 = none := by
  refine get?_eq_none fun hm => ?_
  obtain ⟨q, hq, hp⟩ := List.mem_map.mp hm
  have hlt := (List.pairwise_cons.mp h).1 q hq
  rw [hp] at hlt
  exact String.lt_irrefl _ hlt

/-- The first name of a table is not greater than any name in it. -/
theorem Ordered.not_lt_head {p : String × α} {rest : Entries α}
    (h : Ordered (p :: rest)) {name : String}
    (hn : (get? (p :: rest) name).isSome = true) : ¬ name < p.1 := by
  intro hlt
  obtain ⟨q, hq, rfl⟩ := List.mem_map.mp (mem_of_get? hn)
  rcases List.mem_cons.mp hq with rfl | hq
  · exact String.lt_irrefl _ hlt
  · exact String.lt_asymm hlt ((List.pairwise_cons.mp h).1 q hq)

/-- Entries in order are told apart by their answers. -/
theorem Ordered.eq_of_get? {t u : Entries α} (ht : Ordered t) (hu : Ordered u)
    (h : ∀ name, t.get? name = u.get? name) : t = u := by
  induction t generalizing u with
  | nil =>
      cases u with
      | nil => rfl
      | cons q u =>
          have hq := h q.1
          rw [get?_cons, if_pos rfl] at hq
          cases hq
  | cons p t ih =>
      cases u with
      | nil =>
          have hp := h p.1
          rw [get?_cons, if_pos rfl] at hp
          cases hp
      | cons q u =>
          -- Each of the two first names is one of the other table's.
          have hpq : p.1 = q.1 := by
            have hp : (get? (p :: t) p.1).isSome = true := by
              rw [get?_cons, if_pos rfl]; rfl
            have hq : (get? (q :: u) q.1).isSome = true := by
              rw [get?_cons, if_pos rfl]; rfl
            rw [h] at hp
            rw [← h] at hq
            exact Std.le_antisymm (String.not_lt.mp (ht.not_lt_head hq))
              (String.not_lt.mp (hu.not_lt_head hp))
          obtain ⟨k, a⟩ := p
          obtain ⟨k', b⟩ := q
          obtain rfl : k = k' := hpq
          have hab := h k
          rw [get?_cons, get?_cons, if_pos rfl, if_pos rfl] at hab
          obtain rfl : a = b := Option.some.inj hab
          refine congrArg ((k, a) :: ·) (ih ht.tail hu.tail fun name => ?_)
          by_cases hk : k = name
          · rw [← hk, ht.get?_tail, hu.get?_tail]
          · have hn := h name
            rwa [get?_cons, get?_cons, if_neg hk, if_neg hk] at hn

/-- If every name is that of one entry only, the entries are found wherever
they stand. -/
theorem get?_eq_some_iff {t : Entries α} (ht : t.Pairwise fun p q => p.1 ≠ q.1)
    {name : String} {a : α} : t.get? name = some a ↔ (name, a) ∈ t := by
  induction t with
  | nil => simp
  | cons p rest ih =>
      obtain ⟨hp, hrest⟩ := List.pairwise_cons.mp ht
      rw [get?_cons]
      by_cases hk : p.1 = name
      · have hn : (name, a) ∉ rest := fun hm => hp _ hm hk
        rw [if_pos hk, Option.some.injEq, List.mem_cons, or_iff_left hn, ← hk]
        exact ⟨fun h => h ▸ rfl, fun h => h ▸ rfl⟩
      · have hn : (name, a) ≠ p := fun he => hk (he ▸ rfl)
        rw [if_neg hk, ih hrest, List.mem_cons, or_iff_right hn]

theorem get?_of_perm {t u : Entries α} (h : t.Perm u)
    (hu : u.Pairwise fun p q => p.1 ≠ q.1) (name : String) :
    t.get? name = u.get? name := by
  have ht : t.Pairwise fun p q => p.1 ≠ q.1 := (h.pairwise_iff Ne.symm).mpr hu
  refine Option.ext fun a => ?_
  rw [get?_eq_some_iff ht, get?_eq_some_iff hu, h.mem_iff]

theorem get?_foldl_insert {pairs : Entries α}
    (hd : pairs.Pairwise fun p q => p.1 ≠ q.1) (t : Entries α) (name : String) :
    get? (pairs.foldl (fun t p => insert p.1 p.2 t) t) name =
      (pairs.get? name).or (t.get? name) := by
  induction pairs generalizing t with
  | nil => rfl
  | cons p rest ih =>
      obtain ⟨hp, hrest⟩ := List.pairwise_cons.mp hd
      rw [List.foldl_cons, ih hrest, get?_insert, get?_cons]
      by_cases hk : p.1 = name
      · have hn : get? rest name = none := by
          refine get?_eq_none fun hm => ?_
          obtain ⟨q, hq, hqn⟩ := List.mem_map.mp hm
          exact hp q hq (hk.trans hqn.symm)
        rw [if_pos hk, if_pos hk, hn]
        rfl
      · rw [if_neg hk, if_neg hk]

/-- Of pairs of different names each one is found. -/
theorem get?_ofPairs {pairs : Entries α} (hd : pairs.Pairwise fun p q => p.1 ≠ q.1)
    (name : String) : get? (ofPairs pairs) name = pairs.get? name := by
  rw [ofPairs, get?_foldl_insert hd, get?_nil, Option.or_none]

theorem ordered_ofPairs (pairs : List (String × α)) : Ordered (ofPairs pairs) := by
  suffices h : ∀ (ps : List (String × α)) (t : Entries α), Ordered t →
      Ordered (ps.foldl (fun t p => insert p.1 p.2 t) t) from h pairs [] .nil
  intro ps
  induction ps with
  | nil => exact fun t ht => ht
  | cons p rest ih => exact fun t ht => ih _ (ht.insert p.1 p.2)

end Entries

/-- At most one entry a name, in the order of the names. -/
structure Table (α : Type u) where
  /-- The entries, in order. -/
  entries : Entries α
  /-- The names increase. -/
  ordered : entries.Ordered

namespace Table

variable {α : Type u} {β : Type v}

def empty : Table α := ⟨[], .nil⟩

instance : Inhabited (Table α) := ⟨empty⟩
instance : EmptyCollection (Table α) := ⟨empty⟩

def get? (t : Table α) (name : String) : Option α := t.entries.get? name

def contains (t : Table α) (name : String) : Bool := (t.get? name).isSome

/-- Writes the entry under `name`, over the one that may be there. -/
def insert (t : Table α) (name : String) (a : α) : Table α :=
  ⟨t.entries.insert name a, t.ordered.insert name a⟩

/-- Writes the entry under `name` unless there is one. -/
def insertIfAbsent (t : Table α) (name : String) (a : α) : Table α :=
  if t.contains name then t else t.insert name a

/-- The entries of `pairs`, of two with one name the later. -/
def ofPairs (pairs : List (String × α)) : Table α :=
  ⟨Entries.ofPairs pairs, Entries.ordered_ofPairs pairs⟩

def size (t : Table α) : Nat := t.entries.length

/-- The names that have an entry, in order. -/
def names (t : Table α) : List String := t.entries.map Prod.fst

@[simp] theorem get?_empty (name : String) : (empty : Table α).get? name = none := rfl

theorem get?_insert (t : Table α) (name : String) (a : α) (other : String) :
    (t.insert name a).get? other = if name = other then some a else t.get? other :=
  Entries.get?_insert name a t.entries other

@[simp] theorem get?_insert_self (t : Table α) (name : String) (a : α) :
    (t.insert name a).get? name = some a := by rw [get?_insert, if_pos rfl]

theorem get?_insert_of_ne (t : Table α) {name other : String} (a : α)
    (h : name ≠ other) :
    (t.insert name a).get? other = t.get? other := by rw [get?_insert, if_neg h]

theorem contains_insert (t : Table α) {name : String} (h : t.contains name = true)
    (other : String) (a : α) : (t.insert other a).contains name = true := by
  unfold contains at h ⊢
  rw [get?_insert]
  split
  · rfl
  · exact h

theorem mem_names_of_get? {t : Table α} {name : String}
    (h : (t.get? name).isSome = true) :
    name ∈ t.names :=
  Entries.mem_of_get? h

theorem get?_insertIfAbsent (t : Table α) (name : String) (a : α) (other : String) :
    (t.insertIfAbsent name a).get? other =
      if name = other then some ((t.get? name).getD a) else t.get? other := by
  unfold insertIfAbsent contains
  cases h : t.get? name with
  | none => simp [get?_insert]
  | some b =>
      simp only [Option.isSome_some, if_true, Option.getD_some]
      split
      · rename_i heq; rw [← heq, h]
      · rfl

/-- Tables with the same answers are the same table. -/
theorem eq_of_get? {t u : Table α}
    (h : ∀ name, t.get? name = u.get? name) : t = u := by
  obtain ⟨t, ht⟩ := t
  obtain ⟨u, hu⟩ := u
  obtain rfl : t = u := ht.eq_of_get? hu h
  rfl

/-- The order of pairs of different names makes no difference. -/
theorem ofPairs_of_perm {pairs pairs' : Entries α} (h : pairs.Perm pairs')
    (hd : pairs.Pairwise fun p q => p.1 ≠ q.1) : ofPairs pairs = ofPairs pairs' := by
  have hd' : pairs'.Pairwise fun p q => p.1 ≠ q.1 := (h.pairwise_iff Ne.symm).mp hd
  refine eq_of_get? fun name => ?_
  show (Entries.ofPairs pairs).get? name = (Entries.ofPairs pairs').get? name
  rw [Entries.get?_ofPairs hd, Entries.get?_ofPairs hd',
    Entries.get?_of_perm h hd' name]

theorem distinct (t : Table α) : t.entries.Pairwise fun p q => p.1 ≠ q.1 := by
  refine t.ordered.imp ?_
  intro p q hlt he
  rw [he] at hlt
  exact String.lt_irrefl _ hlt

/-- Entries that are written one after the other, none over another: each name has the
first that is written under it, unless it has had one before. -/
theorem get?_foldl_insertIfAbsent (f : β → α) (pairs : Entries β) (t : Table α)
    (name : String) :
    (pairs.foldl (fun t p => t.insertIfAbsent p.1 (f p.2)) t).get? name =
      (t.get? name).or ((pairs.get? name).map f) := by
  induction pairs generalizing t with
  | nil => simp
  | cons p rest ih =>
      rw [List.foldl_cons, ih, get?_insertIfAbsent, Entries.get?_cons]
      by_cases hk : p.1 = name
      · rw [if_pos hk, if_pos hk, hk]
        cases t.get? name <;> rfl
      · rw [if_neg hk, if_neg hk]

end Table

end Clearance
