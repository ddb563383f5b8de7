import Clearance.Proofs.Fitting

/-!
# Candidates and plain values

A parameter that is supplied with one value asks whether it accepts it, and one that is
supplied with candidates looks for the first of them that is of one of its types. The
two questions are the same but for null, which a nullable parameter accepts whatever
its types are: as a candidate null is passed over even then. So binding candidates
succeeds just if one of them is accepted by its type, and it is only where a nullable
parameter has null among the candidates, and nothing else for its types, that this
differs from asking whether one of them is accepted as it is.
-/

namespace Clearance

variable {t : Typing}

theorem Supply.choose_eq_ok {candidates : List Value} {types : List String}
    {v : Value} :
    Supply.choose t candidates types = .ok v ↔
      Supply.choose? t candidates types = some v := by
  unfold Supply.choose
  cases Supply.choose? t candidates types with
  | none => simp [throw, throwThe, MonadExceptOf.throw]
  | some w => simp [pure, Except.pure]

theorem Supply.mem_of_choose? {candidates : List Value} {types : List String}
    {v : Value} (h : Supply.choose? t candidates types = some v) : v ∈ candidates := by
  unfold Supply.choose? at h
  split at h
  · exact List.mem_of_mem_head? h
  · obtain ⟨type, _, hf⟩ := List.exists_of_findSome?_eq_some h
    exact List.mem_of_find?_eq_some hf

theorem Supply.exists_choose? {candidates : List Value} {types : List String}
    {type : String} {v : Value} (hv : v ∈ candidates) (ht : type ∈ types)
    (h : v.isInstanceOf t type = true) :
    ∃ w, Supply.choose? t candidates types = some w := by
  unfold Supply.choose?
  rw [if_neg (by simpa using List.ne_nil_of_mem ht), ← Option.isSome_iff_exists,
    List.findSome?_isSome_iff]
  exact ⟨type, ht, List.find?_isSome.mpr ⟨v, hv, h⟩⟩

namespace Parameter

/-- Whether a value is of a type that the parameter accepts. -/
def acceptsByType (t : Typing) (p : Parameter) (v : Value) : Bool :=
  p.acceptsAnything || p.types.any (v.isInstanceOf t)

variable {p : Parameter} {callee : String} {position : Nat} {candidates : List Value}
  {v w : Value}

theorem accepts_eq_true :
    p.accepts t v = true ↔
      v.isNull = true ∧ p.nullable = true ∨ p.acceptsByType t v = true := by
  simp only [accepts, acceptsByType, Bool.or_eq_true, Bool.and_eq_true, or_assoc]

theorem bind_plain_eq_ok :
    p.bind t callee position (some (.plain v)) = .ok w ↔
      w = v ∧ p.accepts t v = true := by
  unfold Parameter.bind
  by_cases ha : p.accepts t v = true
  · simp [ha, pure, Except.pure, eq_comm]
  · simp [ha, throw, throwThe, MonadExceptOf.throw]

theorem bind_choices (h : candidates ≠ []) :
    p.bind t callee position (some (.choices candidates)) =
      Supply.choose t candidates (if p.acceptsAnything then [] else p.types) := by
  cases candidates with
  | nil => exact absurd rfl h
  | cons first others => rfl

theorem mem_of_bind_choices (hne : candidates ≠ [])
    (h : p.bind t callee position (some (.choices candidates)) = .ok v) :
    v ∈ candidates ∧ p.acceptsByType t v = true := by
  rw [bind_choices hne] at h
  refine ⟨Supply.mem_of_choose? (Supply.choose_eq_ok.mp h), ?_⟩
  cases ha : p.acceptsAnything with
  | true => simp [acceptsByType, ha]
  | false =>
      rw [ha, if_neg Bool.false_ne_true] at h
      simp only [acceptsAnything, Bool.or_eq_false_iff] at ha
      obtain ⟨type, ht, hv⟩ := Supply.isInstanceOf_of_choose ha.1 h
      have hany : p.types.any (v.isInstanceOf t) = true :=
        List.any_eq_true.mpr ⟨type, ht, hv⟩
      simp [acceptsByType, hany]

theorem exists_bind_choices (hv : v ∈ candidates) (h : p.acceptsByType t v = true) :
    ∃ w, p.bind t callee position (some (.choices candidates)) = .ok w := by
  have hne := List.ne_nil_of_mem hv
  simp only [bind_choices hne, Supply.choose_eq_ok]
  cases ha : p.acceptsAnything with
  | true => exact ⟨candidates.head hne, List.head?_eq_some_head hne⟩
  | false =>
      simp only [acceptsByType, ha, Bool.false_or, List.any_eq_true] at h
      obtain ⟨type, ht, hi⟩ := h
      exact Supply.exists_choose? hv ht hi

theorem bind_choices_singleton :
    p.bind t callee position (some (.choices [v])) = .ok w ↔
      w = v ∧ p.acceptsByType t v = true := by
  constructor
  · intro h
    obtain ⟨hw, ha⟩ := mem_of_bind_choices (List.cons_ne_nil v []) h
    obtain rfl := List.mem_singleton.mp hw
    exact ⟨rfl, ha⟩
  · rintro ⟨rfl, ha⟩
    obtain ⟨x, hx⟩ : ∃ x, p.bind t callee position (some (.choices [w])) = .ok x :=
      exists_bind_choices (List.mem_singleton.mpr rfl) ha
    obtain rfl :=
      List.mem_singleton.mp (mem_of_bind_choices (List.cons_ne_nil w []) hx).1
    exact hx

/-- Candidates are bound just if one of them is of a type that the parameter accepts,
and then to such a candidate. This is whether one of them would be bound as a plain
value, unless the parameter is nullable, null is among them and none is accepted by
its type. -/
theorem candidates_bound (t : Typing) (p : Parameter) (callee : String)
    (position : Nat) (candidates : List Value) (hne : candidates ≠ []) :
    ((∃ w, p.bind t callee position (some (.choices candidates)) = .ok w) ↔
      ∃ v ∈ candidates, p.acceptsByType t v = true) ∧
    (∀ w, p.bind t callee position (some (.choices candidates)) = .ok w →
      w ∈ candidates ∧ p.acceptsByType t w = true) ∧
    (∀ v w, p.bind t callee position (some (.choices [v])) = .ok w ↔
      w = v ∧ p.acceptsByType t v = true) ∧
    (∀ v w, p.bind t callee position (some (.plain v)) = .ok w ↔
      w = v ∧ p.accepts t v = true) ∧
    (((∃ w, p.bind t callee position (some (.choices candidates)) = .ok w) ↔
        ∃ v ∈ candidates, p.accepts t v = true) ↔
      ¬ (p.nullable = true ∧ (∃ v ∈ candidates, v.isNull = true) ∧
        ∀ v ∈ candidates, p.acceptsByType t v ≠ true)) := by
  have hb : (∃ w, p.bind t callee position (some (.choices candidates)) = .ok w) ↔
      ∃ v ∈ candidates, p.acceptsByType t v = true := by
    constructor
    · rintro ⟨w, h⟩
      exact ⟨w, mem_of_bind_choices hne h⟩
    · rintro ⟨v, hv, ha⟩
      exact exists_bind_choices hv ha
  refine ⟨hb, fun w => mem_of_bind_choices hne, fun v w => bind_choices_singleton,
    fun v w => bind_plain_eq_ok, ?_⟩
  rw [hb]
  constructor
  · rintro h ⟨hn, ⟨v, hv, hnull⟩, hnone⟩
    obtain ⟨w, hw, ha⟩ := h.mpr ⟨v, hv, accepts_eq_true.mpr (.inl ⟨hnull, hn⟩)⟩
    exact hnone w hw ha
  · intro h
    constructor
    · rintro ⟨v, hv, ha⟩
      exact ⟨v, hv, accepts_eq_true.mpr (.inr ha)⟩
    · rintro ⟨v, hv, ha⟩
      by_contra hnone
      rcases accepts_eq_true.mp ha with ⟨hnull, hn⟩ | ha
      · exact h ⟨hn, ⟨v, hv, hnull⟩, fun w hw ha => hnone ⟨w, hw, ha⟩⟩
      · exact hnone ⟨v, hv, ha⟩

/-- A parameter for a text, or null. -/
def optionalText : Parameter :=
  { name := "title", types := ["string"], nullable := true }

/-- It is bound where there is a text among the candidates. -/
theorem optionalText_bound :
    [Value.null, .string "minutes"] ≠ [] ∧
      ∃ w, optionalText.bind { typeName := Handle.name } "archive" 1
        (some (.choices [.null, .string "minutes"])) = .ok w := by
  have hne : [Value.null, .string "minutes"] ≠ [] := List.cons_ne_nil _ _
  refine ⟨hne, (candidates_bound _ optionalText "archive" 1 _ hne).1.mpr ?_⟩
  exact ⟨.string "minutes", by simp, by decide⟩

/-- It is not bound to null as the only candidate, which it accepts as a
plain value. -/
theorem optionalText_null :
    ¬ ∀ (t : Typing) (p : Parameter) (callee : String) (position : Nat)
        (candidates : List Value),
      candidates ≠ [] →
      ((∃ w, p.bind t callee position (some (.choices candidates)) = .ok w) ↔
        ∃ v ∈ candidates, p.accepts t v = true) := by
  intro h
  obtain ⟨w, hw⟩ := (h { typeName := Handle.name } optionalText "archive" 1 [.null]
    (List.cons_ne_nil _ _)).mpr ⟨.null, List.mem_singleton.mpr rfl, by decide⟩
  cases hw

end Parameter

end Clearance
