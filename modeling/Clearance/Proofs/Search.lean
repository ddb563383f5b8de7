import Clearance.Decision.Dispatch

/-!
# Searches

To search is to ask members in turn up to the first whose answer settles the matter.
`search` does this for any members and any answers, and `Searches` says what comes of
it with nothing left to be followed: the members in front of the one that settles the
matter have been asked, and none behind it.

Five functions of an evaluation go through a list in this way. Loaders are asked
whether a type exists, resource locators for a resource, service locators for a method,
the members of a chain of checkers about a subject, and one checker about all subjects.
-/

namespace Clearance

variable {σ α β : Type}

/-! ## Asking in turn -/

/-- Asks members in turn, up to the first whose answer settles the matter. -/
def search (ask : α → StateM σ β) (settles : β → Bool) : List α → StateM σ (Option β)
  | [] => pure none
  | a :: as => do
      let b ← ask a
      if settles b then pure (some b) else search ask settles as

/-- Members are asked in turn, and the answer of one settles the matter. Those in front
of it have been asked, and none behind it. -/
def Settled (ask : α → StateM σ β) (settles : β → Prop) (members : List α) (w : σ)
    (b : β) (w' : σ) : Prop :=
  ∃ before a after answers w₁, members = before ++ a :: after ∧
    before.mapM ask w = (answers, w₁) ∧ (∀ c ∈ answers, ¬ settles c) ∧
    ask a w₁ = (b, w') ∧ settles b

/-- Members are asked in turn, and no answer settles the matter. -/
def Unsettled (ask : α → StateM σ β) (settles : β → Prop) (members : List α)
    (w w' : σ) : Prop :=
  ∃ answers, members.mapM ask w = (answers, w') ∧ ∀ c ∈ answers, ¬ settles c

/-- What is done is to ask members in turn and to answer what settles the matter, or
else what stands for nothing. -/
def Searches (ask : α → StateM σ β) (settles : β → Prop) (nothing : β)
    (members : List α) (done : StateM σ β) : Prop :=
  ∀ w b w', done w = (b, w') ↔
    Settled ask settles members w b w' ∨ b = nothing ∧
      Unsettled ask settles members w w'

section Search

variable {ask : α → StateM σ β} {settles : β → Bool} {a c : α} {as xs ys zs : List α}
  {b nothing : β} {w w' : σ}

theorem search_cons (a : α) (as : List α) (w : σ) :
    search ask settles (a :: as) w =
      if settles (ask a w).1 then (some (ask a w).1, (ask a w).2)
      else search ask settles as (ask a w).2 := by
  show (if settles (ask a w).1 then pure (some (ask a w).1)
    else search ask settles as :
    StateM σ (Option β)) (ask a w).2 = _
  split
  · rfl
  · rfl

/-- What goes through members like a search is one. -/
theorem eq_search {f : List α → StateM σ β} (nil : f [] = pure nothing)
    (cons : ∀ a as, f (a :: as) = do
      let b ← ask a
      if settles b then pure b else f as) (as : List α) :
    f as = (·.getD nothing) <$> search ask settles as := by
  induction as with
  | nil => exact nil
  | cons a as ih =>
      rw [cons, ih, search, map_bind]
      refine bind_congr fun b => ?_
      cases settles b with
      | true => rfl
      | false => rfl

/-- Whoever asks for a yes searches for one. -/
theorem eq_search_id {ask : α → StateM σ Bool} {f : List α → StateM σ Bool}
    (nil : f [] = pure false)
    (cons : ∀ a as, f (a :: as) = do if (← ask a) then pure true else f as)
    (as : List α) : f as = (·.getD false) <$> search ask id as := by
  refine eq_search nil (fun a as => (cons a as).trans (bind_congr fun b => ?_)) as
  cases b with
  | true => rfl
  | false => rfl

theorem search_append (xs ys : List α) (w : σ) :
    search ask settles (xs ++ ys) w =
      if (search ask settles xs w).1.isSome then search ask settles xs w
      else search ask settles ys (search ask settles xs w).2 := by
  induction xs generalizing w with
  | nil => rfl
  | cons x xs ih =>
      rw [List.cons_append, search_cons, search_cons]
      split
      · rfl
      · exact ih _

theorem settles_of_search
    (h : (search ask settles as w).1 = some b) : settles b = true := by
  induction as generalizing w with
  | nil => cases h
  | cons a as ih =>
      rw [search_cons] at h
      split at h
      · next hs => exact Option.some.inj h ▸ hs
      · exact ih h

theorem search_map {γ : Type} (f : γ → α) (cs : List γ) :
    search ask settles (cs.map f) = search (fun c => ask (f c)) settles cs := by
  induction cs with
  | nil => rfl
  | cons c cs ih => rw [List.map_cons, search, search, ih]

/-- What the first member answers, if it searches itself, is what the members answer
among whom it does. -/
theorem search_cons_of_search {γ : Type} {outer : γ → StateM σ β} {c : γ} {cs : List γ}
    (hn : settles nothing = false)
    (hc : outer c = (·.getD nothing) <$> search ask settles ys)
    (hcs : search outer settles cs = search ask settles zs) :
    search outer settles (c :: cs) = search ask settles (ys ++ zs) := by
  funext w
  have hw : outer c w =
      ((search ask settles ys w).1.getD nothing, (search ask settles ys w).2) := by
    rw [hc]
    rfl
  rw [search_cons, search_append, hw, hcs]
  -- What the member answers settles the matter exactly if its own search has come to
  -- something.
  cases hy : (search ask settles ys w).1 with
  | none =>
      simp only [Option.getD_none, hn, Option.isSome_none, Bool.false_eq_true,
        if_false]
  | some b =>
      simp only [Option.getD_some, settles_of_search hy, Option.isSome_some, if_true]
      exact Prod.ext hy.symm rfl

/-- A member that searches itself may be replaced by those among whom it does. -/
theorem search_splice (hn : settles nothing = false)
    (hc : ask c = (·.getD nothing) <$> search ask settles ys) (xs zs : List α) :
    search ask settles (xs ++ c :: zs) = search ask settles (xs ++ (ys ++ zs)) := by
  funext w
  rw [search_append, search_append, search_cons_of_search hn hc rfl]

/-- A search among searches is a search. -/
theorem search_flatMap {γ : Type} {outer : γ → StateM σ β} {inner : γ → List α}
    (hn : settles nothing = false)
    (ho : ∀ c, outer c = (·.getD nothing) <$> search ask settles (inner c))
    (cs : List γ) :
    search outer settles cs = search ask settles (cs.flatMap inner) := by
  induction cs with
  | nil => rfl
  | cons c cs ih =>
      rw [List.flatMap_cons]
      exact search_cons_of_search hn (ho c) ih

theorem mapM_cons_apply (ask : α → StateM σ β) (a : α) (as : List α) (w : σ) :
    (a :: as).mapM ask w =
      ((ask a w).1 :: (as.mapM ask (ask a w).2).1, (as.mapM ask (ask a w).2).2) := by
  rw [List.mapM_cons]
  rfl

theorem settled_cons {settles : β → Prop} :
    Settled ask settles (a :: as) w b w' ↔
      ask a w = (b, w') ∧ settles b ∨
        ¬ settles (ask a w).1 ∧ Settled ask settles as (ask a w).2 b w' := by
  constructor
  · rintro ⟨before, a', after, answers, w₁, h, ha, hn, hb, hs⟩
    cases before with
    | nil =>
        obtain ⟨rfl, rfl⟩ := List.cons.inj h
        obtain ⟨rfl, rfl⟩ := Prod.mk.inj ha
        exact .inl ⟨hb, hs⟩
    | cons b' before =>
        obtain ⟨rfl, rfl⟩ := List.cons.inj h
        rw [mapM_cons_apply] at ha
        obtain ⟨rfl, rfl⟩ := Prod.mk.inj ha
        obtain ⟨hna, hn⟩ := List.forall_mem_cons.mp hn
        exact .inr ⟨hna, before, a', after, _, _, rfl, rfl, hn, hb, hs⟩
  · rintro (⟨hb, hs⟩ | ⟨hna, before, a', after, answers, w₁, rfl, ha, hn, hb, hs⟩)
    · exact ⟨[], a, as, [], w, rfl, rfl, fun _ h => (nomatch h), hb, hs⟩
    · refine ⟨a :: before, a', after, (ask a w).1 :: answers, w₁, rfl, ?_,
        List.forall_mem_cons.mpr ⟨hna, hn⟩, hb, hs⟩
      rw [mapM_cons_apply, ha]

theorem unsettled_cons {settles : β → Prop} :
    Unsettled ask settles (a :: as) w w' ↔
      ¬ settles (ask a w).1 ∧ Unsettled ask settles as (ask a w).2 w' := by
  unfold Unsettled
  rw [mapM_cons_apply]
  constructor
  · rintro ⟨answers, h, hn⟩
    obtain ⟨rfl, rfl⟩ := Prod.mk.inj h
    obtain ⟨hna, hn⟩ := List.forall_mem_cons.mp hn
    exact ⟨hna, _, rfl, hn⟩
  · rintro ⟨hna, answers, h, hn⟩
    exact ⟨_, by rw [h], List.forall_mem_cons.mpr ⟨hna, hn⟩⟩

theorem searches_search (nothing : β) (as : List α) :
    Searches ask (settles · = true) nothing as
      ((·.getD nothing) <$> search ask settles as) := by
  intro w b w'
  show ((search ask settles as w).1.getD nothing, (search ask settles as w).2) =
    (b, w') ↔ _
  induction as generalizing w with
  | nil =>
      constructor
      · intro h
        obtain ⟨rfl, rfl⟩ := Prod.mk.inj h
        exact .inr ⟨rfl, [], rfl, fun _ h => (nomatch h)⟩
      · rintro (⟨before, _, _, _, _, h, _⟩ | ⟨rfl, answers, h, _⟩)
        · simp at h
        · obtain ⟨_, rfl⟩ := Prod.mk.inj h
          rfl
  | cons a as ih =>
      rw [search_cons, settled_cons, unsettled_cons]
      cases hs : settles (ask a w).1 with
      | true =>
          simp only [if_true, Option.getD_some, not_true, false_and, or_false,
            and_false]
          exact ⟨fun h => ⟨h, by rw [← hs, congrArg Prod.fst h]⟩, fun h => h.1⟩
      | false =>
          have hne : ¬ (ask a w = (b, w') ∧ settles b = true) := by
            rintro ⟨h, hb⟩
            rw [congrArg Prod.fst h, hb] at hs
            cases hs
          simp only [Bool.false_eq_true, if_false, not_false_eq_true, true_and, hne,
            false_or]
          exact ih _

end Search

/-! ## What is searched in an evaluation -/

namespace PolicyLoader

theorem anyExists_eq_search (type : String) (ls : List (PolicyLoader σ)) :
    anyExists type ls = (·.getD false) <$> search (·.typeExists type) id ls :=
  eq_search_id rfl (fun _ _ => rfl) ls

theorem searches_anyExists (type : String) (ls : List (PolicyLoader σ)) :
    Searches (·.typeExists type) (· = true) false ls (anyExists type ls) := by
  rw [anyExists_eq_search]
  exact searches_search false ls

end PolicyLoader

namespace ResourceLocator

/-- An answer stands for something found. -/
def found (r : Option Value) : Bool := r.any fun v => !v.isNotFound

theorem found_iff {r : Option Value} :
    found r = true ↔ ∃ v, r = some v ∧ v ≠ .null ∧ v ≠ .bool false := by
  cases r with
  | none => simp [found]
  | some v => cases v with
    | bool b => cases b <;> simp [found, Value.isNotFound]
    | _ => simp [found, Value.isNotFound]

theorem firstFound_eq_search (type : String) (id : Value)
    (ls : List (ResourceLocator σ)) :
    firstFound type id ls = (·.getD .none) <$> search (·.load type id) found ls := by
  refine eq_search (f := firstFound type id) rfl
    (fun l ls => bind_congr fun r => ?_) ls
  cases r with
  | none => rfl
  | some v =>
      unfold found
      rw [Option.filter_some, Option.any_some]
      cases v.isNotFound with
      | true => rfl
      | false => rfl

theorem searches_firstFound (type : String) (id : Value)
    (ls : List (ResourceLocator σ)) :
    Searches (·.load type id) (fun r => ∃ v, r = some v ∧ v ≠ .null ∧ v ≠ .bool false)
      .none ls (firstFound type id ls) := by
  rw [firstFound_eq_search, ← funext fun r => propext (found_iff (r := r))]
  exact searches_search _ ls

end ResourceLocator

namespace ServiceLocator

theorem firstFound_eq_search (method : String) (service : Option String)
    (ls : List (ServiceLocator σ)) :
    firstFound method service ls =
      (·.getD .none) <$> search (·.find method service) Option.isSome ls := by
  refine eq_search (f := firstFound method service) rfl
    (fun l ls => bind_congr fun r => ?_) ls
  cases r with
  | none => rfl
  | some m => rfl

theorem searches_firstFound (method : String) (service : Option String)
    (ls : List (ServiceLocator σ)) :
    Searches (·.find method service) (fun r => r.isSome = true) .none ls
      (firstFound method service ls) := by
  rw [firstFound_eq_search]
  exact searches_search _ ls

end ServiceLocator

namespace Checker

theorem anyHolds_eq_search (subject : Value) (name : String) (cs : List (Checker σ)) :
    anyHolds subject name cs = (·.getD false) <$>
      search (·.holds subject name) id cs :=
  eq_search_id rfl (fun _ _ => rfl) cs

theorem searches_anyHolds (subject : Value) (name : String) (cs : List (Checker σ)) :
    Searches (·.holds subject name) (· = true) false cs
      (anyHolds subject name cs) := by
  rw [anyHolds_eq_search]
  exact searches_search false cs

end Checker

namespace Engine

theorem anySubject_eq_search (c : Checker σ) (name : String) (vs : List Value) :
    anySubject c name vs = (·.getD false) <$> search (c.holds · name) id vs :=
  eq_search_id rfl (fun _ _ => rfl) vs

theorem searches_anySubject (c : Checker σ) (name : String) (vs : List Value) :
    Searches (c.holds · name) (· = true) false vs (anySubject c name vs) := by
  rw [anySubject_eq_search]
  exact searches_search false vs

end Engine

end Clearance
