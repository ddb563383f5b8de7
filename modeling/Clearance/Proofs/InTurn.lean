import Clearance.Host
import Mathlib.Data.List.Forall2

/-!
# One after the other

What is done one after the other ends with the first that fails. This is so for results
that have no world, and for acts, which do: what comes after the one that fails is not
done, so the world it leaves is the one in which they end.
-/

namespace Clearance

/-! ## Results -/

section Except

variable {α β : Type} {x : Except AccessError α} {f : α → Except AccessError β} {a : α}
  {b : β} {err : AccessError}

theorem bind_eq_ok : (x >>= f) = .ok b ↔ ∃ a, x = .ok a ∧ f a = .ok b := by
  cases x with
  | error err => simp [bind, Except.bind]
  | ok a => simp [bind, Except.bind]

theorem bind_eq_error :
    (x >>= f) = .error err ↔ x = .error err ∨ ∃ a, x = .ok a ∧ f a = .error err := by
  cases x with
  | error err => simp [bind, Except.bind]
  | ok a => simp [bind, Except.bind]

theorem map_eq_ok {g : α → β} : g <$> x = .ok b ↔ ∃ a, x = .ok a ∧ g a = b := by
  cases x with
  | error err => simp [Functor.map, Except.map]
  | ok a => simp [Functor.map, Except.map]

theorem map_eq_error {g : α → β} : g <$> x = .error err ↔ x = .error err := by
  cases x with
  | error err => simp [Functor.map, Except.map]
  | ok a => simp [Functor.map, Except.map]

theorem mapM_eq_ok {xs : List α} {ys : List β} :
    xs.mapM f = .ok ys ↔ List.Forall₂ (fun x y => f x = .ok y) xs ys := by
  induction xs generalizing ys with
  | nil => simp [pure, Except.pure, eq_comm]
  | cons x xs ih =>
      rw [List.mapM_cons, bind_eq_ok, List.forall₂_cons_left_iff]
      simp only [← map_eq_pure_bind, map_eq_ok, ih]
      constructor
      · rintro ⟨y, hy, ys, hys, rfl⟩
        exact ⟨y, ys, hy, hys, rfl⟩
      · rintro ⟨y, ys, hy, hys, rfl⟩
        exact ⟨y, hy, ys, hys, rfl⟩

end Except

/-! ## Acts -/

namespace Act

variable {σ α β : Type} {x : Act σ α} {f : α → Act σ β} {a : α} {as : List α} {b : β}
  {bs : List β} {err : AccessError} {w w' : σ}

theorem bind_eq_ok :
    (x >>= f) w = (.ok b, w') ↔ ∃ a w₁, x w = (.ok a, w₁) ∧ f a w₁ = (.ok b, w') := by
  constructor
  · intro h
    rcases hx : x w with ⟨err | a, w₁⟩
    · rw [Act.bind_error hx] at h
      cases h
    · exact ⟨a, w₁, rfl, (Act.bind_ok hx).symm.trans h⟩
  · rintro ⟨a, w₁, hx, h⟩
    rw [Act.bind_ok hx, h]

theorem bind_eq_error :
    (x >>= f) w = (.error err, w') ↔
      x w = (.error err, w') ∨ ∃ a w₁, x w = (.ok a, w₁) ∧
        f a w₁ = (.error err, w') := by
  constructor
  · intro h
    rcases hx : x w with ⟨err' | a, w₁⟩
    · rw [Act.bind_error hx] at h
      cases h
      exact .inl rfl
    · exact .inr ⟨a, w₁, rfl, (Act.bind_ok hx).symm.trans h⟩
  · rintro (hx | ⟨a, w₁, hx, h⟩)
    · rw [Act.bind_error hx]
    · rw [Act.bind_ok hx, h]

theorem map_apply (g : α → β) (x : Act σ α) (w : σ) :
    (g <$> x) w = ((x w).1.map g, (x w).2) := by
  rw [map_eq_pure_bind]
  rcases hx : x w with ⟨err | a, w₁⟩
  · exact Act.bind_error hx
  · exact Act.bind_ok hx

theorem map_eq_ok {g : α → β} :
    (g <$> x) w = (.ok b, w') ↔ ∃ a, x w = (.ok a, w') ∧ g a = b := by
  rw [map_eq_pure_bind, bind_eq_ok]
  constructor
  · rintro ⟨a, w₁, hx, h⟩
    obtain ⟨hb, rfl⟩ := Prod.mk.inj h
    exact ⟨a, hx, Except.ok.inj hb⟩
  · rintro ⟨a, hx, rfl⟩
    exact ⟨a, w', hx, rfl⟩

theorem map_eq_error {g : α → β} :
    (g <$> x) w = (.error err, w') ↔ x w = (.error err, w') := by
  rw [map_eq_pure_bind, bind_eq_error]
  exact ⟨fun h => h.resolve_right fun ⟨_, _, _, h⟩ => (nomatch h), .inl⟩

theorem mapM_cons_eq_ok :
    (a :: as).mapM f w = (.ok bs, w') ↔
      ∃ b rest w₁, f a w = (.ok b, w₁) ∧ as.mapM f w₁ = (.ok rest, w') ∧
        b :: rest = bs := by
  rw [List.mapM_cons, bind_eq_ok]
  simp only [← map_eq_pure_bind, map_eq_ok]
  exact ⟨fun ⟨b, w₁, hb, rest, hr, h⟩ => ⟨b, rest, w₁, hb, hr, h⟩,
    fun ⟨b, rest, w₁, hb, hr, h⟩ => ⟨b, w₁, hb, rest, hr, h⟩⟩

theorem mapM_cons_eq_error :
    (a :: as).mapM f w = (.error err, w') ↔
      f a w = (.error err, w') ∨
        ∃ b w₁, f a w = (.ok b, w₁) ∧ as.mapM f w₁ = (.error err, w') := by
  rw [List.mapM_cons, bind_eq_error]
  simp only [← map_eq_pure_bind, map_eq_error]

/-- The error is that of the first member that fails, after those in front of it. -/
theorem mapM_eq_error :
    as.mapM f w = (.error err, w') ↔
      ∃ before a after bs w₁, as = before ++ a :: after ∧
        before.mapM f w = (.ok bs, w₁) ∧ f a w₁ = (.error err, w') := by
  induction as generalizing w with
  | nil => exact ⟨fun h => (nomatch h), fun ⟨before, _, _, _, _, h, _⟩ => by simp at h⟩
  | cons a as ih =>
      rw [mapM_cons_eq_error]
      constructor
      · rintro (h | ⟨b, w₁, hb, h⟩)
        · exact ⟨[], a, as, [], w, rfl, rfl, h⟩
        · obtain ⟨before, a', after, bs, w₂, rfl, hbs, h⟩ := ih.mp h
          exact ⟨a :: before, a', after, b :: bs, w₂, rfl,
            mapM_cons_eq_ok.mpr ⟨b, bs, w₁, hb, hbs, rfl⟩, h⟩
      · rintro ⟨before, a', after, bs, w₁, h, hbs, he⟩
        cases before with
        | nil =>
            obtain ⟨rfl, rfl⟩ := List.cons.inj h
            obtain ⟨_, rfl⟩ := Prod.mk.inj hbs
            exact .inl he
        | cons b' before =>
            obtain ⟨rfl, rfl⟩ := List.cons.inj h
            obtain ⟨b, rest, w₂, hb, hr, _⟩ := mapM_cons_eq_ok.mp hbs
            exact .inr ⟨b, w₂, hb, ih.mpr ⟨before, a', after, rest, w₁, rfl, hr, he⟩⟩

end Act

end Clearance
