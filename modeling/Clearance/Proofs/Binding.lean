import Clearance.Proofs.Candidates

/-!
# What a signature is bound to

Binding goes through the parameters in order, but what one of them is bound to has
nothing to do with the others. `Parameter.Binds` says it from the parameter and from
what is supplied under its name, and a signature is bound to the values that its
parameters are bound to one by one.

The order shows only where this fails. A parameter that is bound to nothing is rejected
for a reason, `Parameter.Rejects`, which names its place, and the first parameter that
is rejected gives the error. What would be passed if nothing were supplied plays no
part as soon as something is.
-/

namespace Clearance

variable {t : Typing}

/-! ## Among candidates -/

namespace Supply

/-- Nothing is supplied, or no candidate at all. -/
def IsMissing (supply : Option Supply) : Prop :=
  supply = none ∨ supply = some (.choices [])

/-- A candidate is of one of the types, no candidate is of a type before this one, and
none in front of it is of this one. -/
def Preferred (t : Typing) (candidates : List Value) (types : List String)
    (v : Value) : Prop :=
  ∃ earlier type later passed others,
    types = earlier ++ type :: later ∧ candidates = passed ++ v :: others ∧
      v.isInstanceOf t type = true ∧
      (∀ type' ∈ earlier, ∀ c ∈ candidates, c.isInstanceOf t type' = false) ∧
      ∀ c ∈ passed, c.isInstanceOf t type = false

variable {candidates : List Value} {types : List String} {v : Value}

theorem Preferred.mem (h : Preferred t candidates types v) : v ∈ candidates := by
  obtain ⟨_, _, _, passed, others, _, rfl, _⟩ := h
  exact List.mem_append_right _ (List.mem_cons_self ..)

theorem find?_instance_eq_none {type : String} :
    candidates.find? (·.isInstanceOf t type) = none ↔
      ∀ c ∈ candidates, c.isInstanceOf t type = false := by
  simp only [List.find?_eq_none, Bool.not_eq_true]

theorem choose?_eq_some (hne : types ≠ []) :
    choose? t candidates types = some v ↔ Preferred t candidates types v := by
  unfold choose?
  rw [if_neg (by simpa using hne), List.findSome?_eq_some_iff]
  constructor
  · rintro ⟨earlier, type, later, ht, hf, he⟩
    obtain ⟨hv, passed, others, hc, hp⟩ := List.find?_eq_some_iff_append.mp hf
    exact ⟨earlier, type, later, passed, others, ht, hc, hv,
      fun type' ht' => find?_instance_eq_none.mp (he type' ht'), fun c hc => by
        simpa using hp c hc⟩
  · rintro ⟨earlier, type, later, passed, others, ht, hc, hv, he, hp⟩
    have hf : candidates.find? (·.isInstanceOf t type) = some v :=
      List.find?_eq_some_iff_append.mpr
        ⟨hv, passed, others, hc, fun c hc => by simpa using hp c hc⟩
    exact ⟨earlier, type, later, ht, hf, fun type' ht' =>
      find?_instance_eq_none.mpr (he type' ht')⟩

theorem choose?_eq_none (hne : types ≠ []) :
    choose? t candidates types = none ↔
      ∀ type ∈ types, ∀ c ∈ candidates, c.isInstanceOf t type = false := by
  unfold choose?
  rw [if_neg (by simpa using hne), List.findSome?_eq_none_iff]
  exact forall₂_congr fun type _ => find?_instance_eq_none

end Supply

namespace Parameter

/-! ## One parameter -/

/-- What a parameter is bound to, by what is supplied under its name. -/
inductive Binds (t : Typing) (p : Parameter) : Option Supply → Value → Prop where
  | plain {v} (h : p.accepts t v = true) : Binds t p (some (.plain v)) v
  | first {v others} (h : p.types = [] ∨ mixed ∈ p.types) :
      Binds t p (some (.choices (v :: others))) v
  | preferred {candidates v} (h : p.types ≠ [] ∧ mixed ∉ p.types)
      (hv : Supply.Preferred t candidates p.types v) :
      Binds t p (some (.choices candidates)) v
  | fallback {supply v} (h : Supply.IsMissing supply) (hv : p.fallback = some v) :
      Binds t p supply v
  | null {supply} (h : Supply.IsMissing supply) (hf : p.fallback = none)
      (hn : p.nullable = true) : Binds t p supply .null

/-- Why a parameter at a position, counted from one, is bound to nothing. -/
inductive Rejects (t : Typing) (callee : String) (position : Nat) (p : Parameter) :
    Option Supply → RuntimeFault → Prop where
  | mismatch {v} (h : p.accepts t v = false) :
      Rejects t callee position p (some (.plain v))
        (.typeMismatch callee position p.name p.types (v.typeName t))
  | noCandidate {candidates} (hne : candidates ≠ [])
      (h : p.types ≠ [] ∧ mixed ∉ p.types)
      (hc : ∀ type ∈ p.types, ∀ c ∈ candidates, c.isInstanceOf t type = false) :
      Rejects t callee position p (some (.choices candidates)) (.noCandidate p.types)
  | missing {supply} (h : Supply.IsMissing supply) (hf : p.fallback = none)
      (hn : p.nullable = false) :
      Rejects t callee position p supply (.missingParameter callee position p.name)

variable {p : Parameter} {callee : String} {position : Nat} {supply : Option Supply}
  {v : Value} {fault : RuntimeFault}

theorem acceptsAnything_eq_true :
    p.acceptsAnything = true ↔ p.types = [] ∨ mixed ∈ p.types := by
  simp [acceptsAnything]

theorem acceptsAnything_eq_false :
    p.acceptsAnything = false ↔ p.types ≠ [] ∧ mixed ∉ p.types := by
  rw [← Bool.not_eq_true, acceptsAnything_eq_true, not_or]

theorem bind_missing (h : Supply.IsMissing supply) :
    p.bind t callee position supply = p.bind t callee position none := by
  rcases h with rfl | rfl
  · rfl
  · rfl

/-- Candidates of whom one is to fit the types. -/
theorem bind_choices_of_types {candidates : List Value} (hne : candidates ≠ [])
    (h : p.types ≠ [] ∧ mixed ∉ p.types) :
    p.bind t callee position (some (.choices candidates)) =
      Supply.choose t candidates p.types := by
  rw [bind_choices hne, acceptsAnything_eq_false.mpr h, if_neg Bool.false_ne_true]

theorem Binds.bind_eq (h : p.Binds t supply v) :
    p.bind t callee position supply = .ok v := by
  cases h with
  | plain h => exact bind_plain_eq_ok.mpr ⟨rfl, h⟩
  | first h =>
      rw [bind_choices (List.cons_ne_nil _ _), acceptsAnything_eq_true.mpr h,
        if_pos rfl]
      rfl
  | preferred h hv =>
      rw [bind_choices_of_types (List.ne_nil_of_mem hv.mem) h]
      exact Supply.choose_eq_ok.mpr ((Supply.choose?_eq_some h.1).mpr hv)
  | fallback h hv =>
      rw [bind_missing h]
      simp only [Parameter.bind, hv]
      rfl
  | null h hf hn =>
      rw [bind_missing h]
      simp only [Parameter.bind, hf, hn]
      rfl

theorem Rejects.bind_eq (h : p.Rejects t callee position supply fault) :
    p.bind t callee position supply = .error (.runtime fault) := by
  cases h with
  | mismatch h =>
      rw [Parameter.bind, h]
      rfl
  | noCandidate hne h hc =>
      rw [bind_choices_of_types hne h, Supply.choose,
        (Supply.choose?_eq_none h.1).mpr hc]
      rfl
  | missing h hf hn =>
      rw [bind_missing h]
      simp only [Parameter.bind, hf, hn]
      rfl

theorem binds_or_rejects_missing (h : Supply.IsMissing supply) :
    (∃ v, p.Binds t supply v) ∨ ∃ fault, p.Rejects t callee position supply fault := by
  cases hf : p.fallback with
  | some v => exact .inl ⟨v, .fallback h hf⟩
  | none =>
      cases hn : p.nullable with
      | true => exact .inl ⟨.null, .null h hf hn⟩
      | false => exact .inr ⟨_, .missing h hf hn⟩

/-- Every parameter is bound to something or rejected for some reason. -/
theorem binds_or_rejects (t : Typing) (callee : String) (position : Nat)
    (p : Parameter) (supply : Option Supply) :
    (∃ v, p.Binds t supply v) ∨ ∃ fault, p.Rejects t callee position supply fault := by
  rcases supply with _ | v | candidates
  · exact binds_or_rejects_missing (.inl rfl)
  · cases ha : p.accepts t v with
    | true => exact .inl ⟨v, .plain ha⟩
    | false => exact .inr ⟨_, .mismatch ha⟩
  · cases candidates with
    | nil => exact binds_or_rejects_missing (.inr rfl)
    | cons first others =>
        cases ha : p.acceptsAnything with
        | true => exact .inl ⟨first, .first (acceptsAnything_eq_true.mp ha)⟩
        | false =>
            have ht := acceptsAnything_eq_false.mp ha
            cases hc : Supply.choose? t (first :: others) p.types with
            | some v =>
                exact .inl ⟨v, .preferred ht ((Supply.choose?_eq_some ht.1).mp hc)⟩
            | none =>
                exact .inr ⟨_, .noCandidate (List.cons_ne_nil _ _) ht
                  ((Supply.choose?_eq_none ht.1).mp hc)⟩

theorem bind_eq_ok : p.bind t callee position supply = .ok v ↔ p.Binds t supply v := by
  refine ⟨fun h => ?_, Binds.bind_eq⟩
  rcases binds_or_rejects t callee position p supply with ⟨w, hw⟩ | ⟨fault, hr⟩
  · obtain rfl : v = w := Except.ok.inj (h.symm.trans hw.bind_eq)
    exact hw
  · cases h.symm.trans hr.bind_eq

theorem bind_eq_error {err : AccessError} :
    p.bind t callee position supply = .error err ↔
      ∃ fault, p.Rejects t callee position supply fault ∧ err = .runtime fault := by
  constructor
  · intro h
    rcases binds_or_rejects t callee position p supply with ⟨w, hw⟩ | ⟨fault, hr⟩
    · cases h.symm.trans hw.bind_eq
    · exact ⟨fault, hr, Except.error.inj (h.symm.trans hr.bind_eq)⟩
  · rintro ⟨fault, hr, rfl⟩
    exact hr.bind_eq

/-- It is bound to one value alone or rejected for one reason alone, and never both. -/
theorem binds_xor_rejects (t : Typing) (callee : String) (position : Nat)
    (p : Parameter) (supply : Option Supply) :
    (∃ v, (∀ w, p.Binds t supply w ↔ w = v) ∧
        ∀ fault, ¬ p.Rejects t callee position supply fault) ∨
      ∃ fault, (∀ fault', p.Rejects t callee position supply fault' ↔ fault' = fault) ∧
        ∀ v, ¬ p.Binds t supply v := by
  rcases binds_or_rejects t callee position p supply with ⟨v, hv⟩ | ⟨fault, hr⟩
  · have hb : p.bind t callee position supply = .ok v := hv.bind_eq
    refine .inl ⟨v, fun w => ⟨fun hw => ?_, fun hw => hw ▸ hv⟩, fun fault hr => ?_⟩
    · exact Except.ok.inj (hw.bind_eq.symm.trans hb)
    · cases hb.symm.trans hr.bind_eq
  · have hb : p.bind t callee position supply = .error (.runtime fault) := hr.bind_eq
    refine .inr ⟨fault, fun fault' => ⟨fun hr' => ?_, fun h => h ▸ hr⟩, fun v hv => ?_⟩
    · exact AccessError.runtime.inj (Except.error.inj (hr'.bind_eq.symm.trans hb))
    · cases hv.bind_eq.symm.trans hb

end Parameter

/-! ## One parameter after the other -/

variable {callee : String} {args args' : Arguments} {position : Nat} {p : Parameter}
  {ps : List Parameter} {vs : List Value} {err : AccessError}

theorem bindFrom_eq_ok :
    bindFrom t callee args position ps = .ok vs ↔
      List.Forall₂ (fun p v => p.Binds t (args.get? p.name) v) ps vs := by
  induction ps generalizing position vs with
  | nil =>
      rw [List.forall₂_nil_left_iff]
      exact ⟨fun h => (Except.ok.inj h).symm, fun h => h ▸ rfl⟩
  | cons p ps ih =>
      rw [bindFrom_cons_eq_ok, List.forall₂_cons_left_iff]
      simp only [Parameter.bind_eq_ok, ih]

theorem bindFrom_cons_eq_error :
    bindFrom t callee args position (p :: ps) = .error err ↔
      p.bind t callee position (args.get? p.name) = .error err ∨
        (∃ v, p.bind t callee position (args.get? p.name) = .ok v) ∧
          bindFrom t callee args (position + 1) ps = .error err := by
  rw [bindFrom, bind_eq_error]
  simp only [← map_eq_pure_bind, map_eq_error, exists_and_right]

/-- The error is that of the first parameter that is rejected. -/
theorem bindFrom_eq_error :
    bindFrom t callee args position ps = .error err ↔
      ∃ before p after fault, ps = before ++ p :: after ∧
        (∀ q ∈ before, ∃ v, q.Binds t (args.get? q.name) v) ∧
        p.Rejects t callee (position + before.length) (args.get? p.name) fault ∧
        err = .runtime fault := by
  induction ps generalizing position with
  | nil => exact ⟨fun h => (nomatch h), fun ⟨before, _, _, _, h, _⟩ => by simp at h⟩
  | cons p ps ih =>
      rw [bindFrom_cons_eq_error, ih, Parameter.bind_eq_error]
      simp only [Parameter.bind_eq_ok]
      constructor
      · rintro (⟨fault, hr, he⟩ | ⟨hv, before, q, after, fault, rfl, hb, hr, he⟩)
        · exact ⟨[], p, ps, fault, rfl, fun _ h => (nomatch h), hr, he⟩
        · refine ⟨p :: before, q, after, fault, rfl, ?_, ?_, he⟩
          · exact List.forall_mem_cons.mpr ⟨hv, hb⟩
          · rwa [List.length_cons, Nat.add_comm before.length, ← Nat.add_assoc]
      · rintro ⟨before, q, after, fault, h, hb, hr, he⟩
        cases before with
        | nil =>
            obtain ⟨rfl, rfl⟩ := List.cons.inj h
            exact .inl ⟨fault, hr, he⟩
        | cons p' before =>
            obtain ⟨rfl, rfl⟩ := List.cons.inj h
            obtain ⟨hv, hb⟩ := List.forall_mem_cons.mp hb
            rw [List.length_cons, Nat.add_comm before.length, ← Nat.add_assoc] at hr
            exact .inr ⟨hv, before, q, after, fault, rfl, hb, hr, he⟩

theorem bindFrom_congr (h : ∀ p ∈ ps, args.get? p.name = args'.get? p.name) :
    bindFrom t callee args position ps = bindFrom t callee args' position ps := by
  induction ps generalizing position with
  | nil => rfl
  | cons p ps ih =>
      obtain ⟨hp, hps⟩ := List.forall_mem_cons.mp h
      rw [bindFrom, bindFrom, hp, ih hps]

/-- A signature is bound to what its parameters are bound to one by one, and if one is
rejected the first such gives the error. Nothing else that is supplied makes a
difference, nor does the order in which it is. -/
theorem Signature.binding_exact (t : Typing) (callee : String) (s : Signature)
    (args : Arguments) :
    (∀ vs, s.bind t callee args = .ok vs ↔
      List.Forall₂ (fun p v => p.Binds t (args.get? p.name) v) s.parameters vs) ∧
    (∀ err, s.bind t callee args = .error err ↔
      ∃ before p after fault, s.parameters = before ++ p :: after ∧
        (∀ q ∈ before, ∃ v, q.Binds t (args.get? q.name) v) ∧
        p.Rejects t callee (before.length + 1) (args.get? p.name) fault ∧
        err = .runtime fault) ∧
    (∀ p ∈ s.parameters, ∀ position,
      (∃ v, (∀ w, p.Binds t (args.get? p.name) w ↔ w = v) ∧
          ∀ fault, ¬ p.Rejects t callee position (args.get? p.name) fault) ∨
        ∃ fault,
          (∀ fault', p.Rejects t callee position (args.get? p.name) fault' ↔
            fault' = fault) ∧
            ∀ v, ¬ p.Binds t (args.get? p.name) v) ∧
    (∀ args' : Arguments, (∀ p ∈ s.parameters, args.get? p.name = args'.get? p.name) →
      s.bind t callee args = s.bind t callee args') ∧
    ∀ pairs pairs' : Entries Supply, pairs.Perm pairs' →
      (pairs.Pairwise fun p q => p.1 ≠ q.1) →
      s.bind t callee (.ofPairs pairs) = s.bind t callee (.ofPairs pairs') := by
  refine ⟨fun vs => bindFrom_eq_ok, fun err => ?_, fun p _ position => ?_,
    fun args' h => bindFrom_congr h, fun pairs pairs' hp hd => ?_⟩
  · show bindFrom t callee args 1 s.parameters = .error err ↔ _
    simp only [bindFrom_eq_error, Nat.add_comm 1]
  · exact p.binds_xor_rejects t callee position (args.get? p.name)
  · rw [Table.ofPairs_of_perm hp hd]

/-- A loan has a reader, known by number or by name, and a term that need not
be given. -/
def loan : Signature :=
  ⟨[{ name := "reader", types := ["int", "string"] },
    { name := "days", types := ["int"], fallback := some (.int 14) }]⟩

/-- The number is taken for the reader, though the name stands in front of it. -/
def borrowed : Entries Supply :=
  [("reader", .choices [.null, .string "ann", .int 7]),
    ("remark", .plain (.string "soon"))]

/-- A term that is given but does not fit is not made up for by the usual one, in
whatever order and with whatever else it is given. -/
theorem loan_binding_exact :
    (borrowed.Perm borrowed.reverse ∧ (borrowed.Pairwise fun p q => p.1 ≠ q.1) ∧
      loan.bind { typeName := Handle.name } "lend" (.ofPairs borrowed.reverse) =
        .ok [.int 7, .int 14]) ∧
    loan.bind { typeName := Handle.name } "lend"
        ((Table.ofPairs borrowed).insert "days" (.plain (.string "long"))) =
      .error (.runtime (.typeMismatch "lend" 2 "days" ["int"] "string")) := by
  have hp : borrowed.Perm borrowed.reverse := (List.reverse_perm _).symm
  have hd : borrowed.Pairwise fun p q => p.1 ≠ q.1 := by simp [borrowed]
  have hr : Parameter.Binds { typeName := Handle.name }
      { name := "reader", types := ["int", "string"] }
      (some (.choices [.null, .string "ann", .int 7])) (.int 7) := by
    refine .preferred ⟨by simp, by simp [mixed]⟩
      ⟨[], "int", ["string"], [.null, .string "ann"], [],
      rfl, rfl, rfl, fun _ h => (nomatch h), ?_⟩
    intro c hc
    rcases List.mem_cons.mp hc with rfl | hc
    · rfl
    · rw [List.mem_singleton.mp hc]
      rfl
  refine ⟨⟨hp, hd, ?_⟩, ?_⟩
  · have h := loan.binding_exact { typeName := Handle.name } "lend" (.ofPairs borrowed)
    rw [← h.2.2.2.2 _ _ hp hd, h.1]
    exact .cons hr (.cons (.fallback (.inl rfl) rfl) .nil)
  · have h := loan.binding_exact { typeName := Handle.name } "lend"
      ((Table.ofPairs borrowed).insert "days" (.plain (.string "long")))
    refine (h.2.1 _).mpr ⟨[_], _, [], _, rfl, ?_, .mismatch rfl, rfl⟩
    exact List.forall_mem_singleton.mpr ⟨_, hr⟩

end Clearance
