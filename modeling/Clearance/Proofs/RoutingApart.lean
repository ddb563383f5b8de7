import Clearance.Proofs.Routing

/-!
# Arguments that keep apart

If no argument of a call is taken from what goes by the name of another, routing them
one after the other is the same as if each were routed alone. It finds under its names
what has been supplied, whatever those in front of it have written, so the outcome is a
table in which each name holds what its argument comes to in the table as supplied, and
the first argument that fails gives the error. This holds of any host, in whatever way
it changes when it is asked: the arguments do not meet in the table, only the world is
handed on from one to the next.

What an argument comes to alone is said by `CallArgument.Yields`, one rule for each
case. It takes for granted that the name of an argument is not taken where its key
is missing.
-/

namespace Clearance

variable {σ : Type} {host : Host σ} {args next out : Arguments} {w w' : σ}
  {err : AccessError}

/-! ## Candidates -/

namespace Supply

/-- The objects among candidates, with their numbers from `n` on. -/
def objects (n : Nat) (candidates : List Value) : List (Object × Nat) :=
  (candidates.zipIdx n).filterMap fun p => p.1.asObject?.map (·, p.2)

theorem objects_cons (n : Nat) (v : Value) (candidates : List Value) :
    objects n (v :: candidates) =
      (v.asObject?.map (·, n)).toList ++ objects (n + 1) candidates := by
  cases v with
  | object o => rfl
  | null | bool | int | float | string | list => rfl

end Supply

/-- Candidates that are no objects are dropped, and of the others the property is read
in turn. -/
theorem readCandidates_eq_mapM (host : Host σ) (name property : String) (n : Nat)
    (candidates : List Value) :
    readCandidates host name property n candidates =
      (Supply.objects n candidates).mapM fun p =>
        p.1.read host (.candidate name p.2) property := by
  induction candidates generalizing n with
  | nil => rfl
  | cons v candidates ih =>
      rw [Supply.objects_cons]
      cases v with
      | object o =>
          rw [Value.asObject?, Option.map_some, Option.toList_some,
            List.singleton_append, List.mapM_cons, ← ih, readCandidates]
      | null | bool | int | float | string | list => exact ih (n + 1)

namespace CallArgument

variable {a b : CallArgument}

/-! ## An argument alone -/

/-- The argument is taken from what goes by its key, but its name is taken as well. -/
def Overrides (a : CallArgument) (args : Arguments) : Prop :=
  ∃ key, a.key = some key ∧ args.contains key = true ∧ args.contains a.name = true

/-- What goes by the name of an argument is not taken for what is missing under
its key. -/
def Honest (a : CallArgument) (args : Arguments) : Prop :=
  ∀ key, a.key = some key → args.contains key = true ∨ args.contains a.name = false

/-- What an argument comes to, and the world in which it does. -/
inductive Yields (host : Host σ) (args : Arguments) (a : CallArgument) (w : σ) :
    Except AccessError (Option Supply) × σ → Prop where
  | overridden {key} (hk : a.key = some key) (hs : args.contains key = true)
      (hn : args.contains a.name = true) :
      Yields host args a w (.error (.runtime (.overriddenArgument a.name key)), w)
  | absent (hs : args.get? a.contextKey = none) : Yields host args a w (.ok none, w)
  | entire {s} (h : ¬ a.Overrides args) (hs : args.get? a.contextKey = some s)
      (hp : a.property = none) : Yields host args a w (.ok (some s), w)
  | value {o property r w'} (h : ¬ a.Overrides args)
      (hs : args.get? a.contextKey = some (.plain (.object o)))
      (hp : a.property = some property)
      (hr : o.read host (.argument a.name) property w = (r, w')) :
      Yields host args a w (r.map fun v => some (.plain v), w')
  | nonObject {v property} (h : ¬ a.Overrides args)
      (hs : args.get? a.contextKey = some (.plain v)) (hv : v.asObject? = none)
      (hp : a.property = some property) :
      Yields host args a w
        (.error (.runtime (.propertyOfNonObject a.name property)), w)
  | values {candidates property r w'} (h : ¬ a.Overrides args)
      (hs : args.get? a.contextKey = some (.choices candidates))
      (hp : a.property = some property)
      (hr : (Supply.objects 0 candidates).mapM
        (fun p => p.1.read host (.candidate a.name p.2) property) w = (r, w')) :
      Yields host args a w (r.map fun vs => some (.choices vs), w')

theorem source_of_overrides {key : String} (hk : a.key = some key)
    (hs : args.contains key = true) (hn : args.contains a.name = true) :
    a.source args = .error (.runtime (.overriddenArgument a.name key)) := by
  obtain ⟨s, hs⟩ := Option.isSome_iff_exists.mp hs
  unfold source
  rw [hk, Option.bind_some, hs]
  simp only [hn, contextKey, hk]
  rfl

theorem source_of_honest (h : ¬ a.Overrides args) (ha : a.Honest args) :
    a.source args = .ok (args.get? a.contextKey) := by
  unfold source contextKey
  cases hk : a.key with
  | none => rfl
  | some key =>
      rw [Option.bind_some, Option.getD_some]
      cases hs : args.get? key with
      | none =>
          have hc : ¬ args.contains key = true := by simp [Table.contains, hs]
          have hn : args.get? a.name = none := by
            simpa [Table.contains] using (ha key hk).resolve_left hc
          simp only [hn]
          rfl
      | some s =>
          have hc : args.contains key = true := by simp [Table.contains, hs]
          have hn : args.contains a.name = false :=
            Bool.eq_false_iff.mpr fun hn => h ⟨key, hk, hc, hn⟩
          simp only [hn, Bool.false_eq_true, if_false]
          rfl

theorem propertyOf_object {o : Object} {property : String}
    (hp : a.property = some property) :
    a.propertyOf host (some (.plain (.object o))) =
      (fun v => some (.plain v)) <$> o.read host (.argument a.name) property := by
  simp only [propertyOf, hp, Supply.property, bind_assoc, pure_bind, map_eq_pure_bind]

theorem propertyOf_choices {candidates : List Value} {property : String}
    (hp : a.property = some property) :
    a.propertyOf host (some (.choices candidates)) =
      (fun vs => some (.choices vs)) <$> (Supply.objects 0 candidates).mapM
        fun p => p.1.read host (.candidate a.name p.2) property := by
  simp only [propertyOf, hp, Supply.property, readCandidates_eq_mapM, bind_assoc,
    pure_bind, map_eq_pure_bind]

theorem propertyOf_nonObject {v : Value} {property : String} (hv : v.asObject? = none)
    (hp : a.property = some property) :
    a.propertyOf host (some (.plain v)) =
      throw (.runtime (.propertyOfNonObject a.name property)) := by
  cases v with
  | object o => cases hv
  | null | bool | int | float | string | list =>
      simp only [propertyOf, hp, Supply.property]
      rfl

theorem not_overrides_of_absent
    (hs : args.get? a.contextKey = none) : ¬ a.Overrides args := by
  rintro ⟨key, hk, hc, _⟩
  rw [contextKey, hk, Option.getD_some] at hs
  simp [Table.contains, hs] at hc

theorem Yields.entry_eq {r : Except AccessError (Option Supply) × σ}
    (ha : a.Honest args) (h : a.Yields host args w r) : a.entry host args w = r := by
  cases h with
  | overridden hk hs hn =>
      unfold entry
      rw [source_of_overrides hk hs hn]
      rfl
  | absent hs =>
      rw [entry_of_source (source_of_honest (not_overrides_of_absent hs) ha), hs]
      rfl
  | entire h hs hp =>
      rw [entry_of_source (source_of_honest h ha), hs]
      simp only [propertyOf, hp]
      rfl
  | value h hs hp hr =>
      rw [entry_of_source (source_of_honest h ha), hs, propertyOf_object hp,
        Act.map_apply, hr]
  | nonObject h hs hv hp =>
      rw [entry_of_source (source_of_honest h ha), hs, propertyOf_nonObject hv hp]
      rfl
  | values h hs hp hr =>
      rw [entry_of_source (source_of_honest h ha), hs, propertyOf_choices hp,
        Act.map_apply, hr]

/-- Some rule applies to every argument. -/
theorem exists_yields (host : Host σ) (args : Arguments) (a : CallArgument) (w : σ) :
    ∃ r, a.Yields host args w r := by
  by_cases h : a.Overrides args
  · obtain ⟨key, hk, hs, hn⟩ := h
    exact ⟨_, .overridden hk hs hn⟩
  · cases hs : args.get? a.contextKey with
    | none => exact ⟨_, .absent hs⟩
    | some s =>
        cases hp : a.property with
        | none => exact ⟨_, .entire h hs hp⟩
        | some property =>
            cases s with
            | choices candidates => exact ⟨_, .values h hs hp rfl⟩
            | plain v =>
                cases hv : v.asObject? with
                | none => exact ⟨_, .nonObject h hs hv hp⟩
                | some o =>
                    obtain rfl := Value.eq_object_of_asObject? hv
                    exact ⟨_, .value h hs hp rfl⟩

theorem entry_eq_iff {r : Except AccessError (Option Supply) × σ}
    (ha : a.Honest args) :
    a.entry host args w = r ↔ a.Yields host args w r := by
  refine ⟨fun h => ?_, Yields.entry_eq ha⟩
  obtain ⟨r', hr⟩ := exists_yields host args a w
  rw [← h, hr.entry_eq ha]
  exact hr

/-! ## Arguments in turn -/

/-- Neither of two arguments is taken from what goes by the name of the other. -/
def Apart (a b : CallArgument) : Prop :=
  a.name ≠ b.name ∧ a.key ≠ some b.name ∧ b.key ≠ some a.name

/-- Routing one of them leaves the other what it is taken from. -/
theorem Apart.entry_eq {w₁ : σ} (h : a.Apart b)
    (hr : a.route host args w = (.ok next, w₁)) :
    b.entry host next = b.entry host args := by
  refine entry_congr fun name hm => get?_of_route (fun hn => ?_) hr
  rcases hm with hb | hk
  · exact h.1 (hn.trans hb.symm)
  · exact h.2.2 (hn ▸ hk)

theorem route_eq_error :
    a.route host args w = (.error err, w') ↔
      a.entry host args w = (.error err, w') := by
  rw [entry_eq_route, Act.map_eq_error]

end CallArgument

namespace Call

variable {c : Call} {as : List CallArgument} {a : CallArgument}

theorem route_cons_eq_error :
    (c.upTo (a :: as)).route host args w = (.error err, w') ↔
      a.route host args w = (.error err, w') ∨
        ∃ next w₁, a.route host args w = (.ok next, w₁) ∧
          (c.upTo as).route host next w₁ = (.error err, w') := by
  simp only [route, upTo, List.foldlM_cons]
  exact Act.bind_eq_error

/-- After the first of them has been routed, the others still come to what they come to
as supplied. -/
theorem entry_eq_after {next' : Arguments} {w₁ : σ} (ha : ∀ b ∈ as, a.Apart b)
    (he : ∀ b ∈ as, b.entry host next = b.entry host args)
    (hr : a.route host next w = (.ok next', w₁)) :
    ∀ b ∈ as, b.entry host next' = b.entry host args :=
  fun b hb => ((ha b hb).entry_eq hr).trans (he b hb)

/-- In front of arguments that keep apart, the table may be any in which they come to
what they come to as supplied. -/
theorem route_eq_ok_of_apart (hd : as.Pairwise CallArgument.Apart)
    (he : ∀ a ∈ as, a.entry host next = a.entry host args) :
    (c.upTo as).route host next w = (.ok out, w') ↔
      as.mapM (·.entry host args) w = (.ok (as.map fun a => out.get? a.name), w') ∧
        ∀ name, (∀ a ∈ as, a.name ≠ name) → out.get? name = next.get? name := by
  induction as generalizing next w with
  | nil =>
      constructor
      · intro h
        cases h
        exact ⟨rfl, fun _ _ => rfl⟩
      · rintro ⟨h, hf⟩
        cases h
        obtain rfl : out = next :=
          Table.eq_of_get? fun name => hf name fun _ ha => nomatch ha
        rfl
  | cons a as ih =>
      obtain ⟨ha, has⟩ := List.pairwise_cons.mp hd
      obtain ⟨hea, heas⟩ := List.forall_mem_cons.mp he
      have hne : ∀ b ∈ as, b.name ≠ a.name := fun b hb => (ha b hb).1.symm
      rw [route_cons_eq_ok, List.map_cons, Act.mapM_cons_eq_ok]
      constructor
      -- The others go on from a table that `a` has written in, in which they come to
      -- the same.
      · rintro ⟨next', w₁, hr, h⟩
        obtain ⟨hm, hf⟩ := (ih has (entry_eq_after ha heas hr)).mp h
        obtain ⟨hs, hfa⟩ := CallArgument.route_eq_ok.mp hr
        rw [hea, ← hf a.name hne] at hs
        refine ⟨⟨_, _, w₁, hs, hm, rfl⟩, fun name hn => ?_⟩
        obtain ⟨hna, hnas⟩ := List.forall_mem_cons.mp hn
        rw [hf name hnas, hfa name hna]
      · rintro ⟨⟨s, found, w₁, hs, hm, hl⟩, hf⟩
        obtain ⟨rfl, rfl⟩ := List.cons.inj hl
        rw [← hea] at hs
        obtain ⟨next', hr, hn⟩ := CallArgument.exists_route_of_entry hs
        refine ⟨next', w₁, hr, (ih has (entry_eq_after ha heas hr)).mpr
          ⟨hm, fun name hnas => ?_⟩⟩
        by_cases hna : a.name = name
        · rw [← hna, hn]
        · rw [CallArgument.get?_of_route hna hr]
          exact hf name (List.forall_mem_cons.mpr ⟨hna, hnas⟩)

theorem route_eq_error_of_apart (hd : as.Pairwise CallArgument.Apart)
    (he : ∀ a ∈ as, a.entry host next = a.entry host args) :
    (c.upTo as).route host next w = (.error err, w') ↔
      as.mapM (·.entry host args) w = (.error err, w') := by
  induction as generalizing next w with
  | nil => exact ⟨fun h => (nomatch h), fun h => (nomatch h)⟩
  | cons a as ih =>
      obtain ⟨ha, has⟩ := List.pairwise_cons.mp hd
      obtain ⟨hea, heas⟩ := List.forall_mem_cons.mp he
      rw [route_cons_eq_error, Act.mapM_cons_eq_error,
        CallArgument.route_eq_error, hea]
      refine or_congr_right ⟨?_, ?_⟩
      · rintro ⟨next', w₁, hr, h⟩
        exact ⟨_, w₁, hea ▸ (CallArgument.route_eq_ok.mp hr).1,
          (ih has (entry_eq_after ha heas hr)).mp h⟩
      · rintro ⟨s, w₁, hs, h⟩
        rw [← hea] at hs
        obtain ⟨next', hr, _⟩ := CallArgument.exists_route_of_entry hs
        exact ⟨next', w₁, hr, (ih has (entry_eq_after ha heas hr)).mpr h⟩

/-- Of a call whose arguments keep apart, and none of which is taken from its name for
want of its key, each argument is routed as if it were alone. What all of them come to,
each after those in front of it, goes by their names, and other names are left as
supplied. The first argument that comes to nothing but an error gives the error. -/
theorem routing_exact (host : Host σ) (c : Call) (args : Arguments)
    (hd : c.arguments.Pairwise CallArgument.Apart)
    (hs : ∀ a ∈ c.arguments, a.Honest args) :
    (∀ w out w', c.route host args w = (.ok out, w') ↔
      c.arguments.mapM (·.entry host args) w =
          (.ok (c.arguments.map fun a => out.get? a.name), w') ∧
        ∀ name, (∀ a ∈ c.arguments, a.name ≠ name) → out.get? name = args.get? name) ∧
    (∀ w err w', c.route host args w = (.error err, w') ↔
      ∃ before a after found w₁, c.arguments = before ++ a :: after ∧
        before.mapM (·.entry host args) w = (.ok found, w₁) ∧
        a.entry host args w₁ = (.error err, w')) ∧
    ∀ a ∈ c.arguments, ∀ w r, a.entry host args w = r ↔ a.Yields host args w r := by
  refine ⟨fun w out w' => ?_, fun w err w' => ?_, fun a ha w r => ?_⟩
  · exact route_eq_ok_of_apart (c := c) hd fun _ _ => rfl
  · exact (route_eq_error_of_apart (c := c) hd fun _ _ => rfl).trans Act.mapM_eq_error
  · exact CallArgument.entry_eq_iff (hs a ha)

end Call

/-- A call that passes the identifier of a document, and those of the subjects that
have one. -/
def attributing : Call :=
  ⟨none, "check",
    [⟨"owner", some "doc", some "id"⟩, ⟨"readers", some "subject", some "id"⟩]⟩

/-- Supplies a document, and as subjects two documents with a text between them. -/
def attributed : Arguments :=
  (Table.empty.insert "doc" (.plain (document 0 "ann"))).insert "subject"
    (.choices [document 1 "bob", .string "guest", document 2 "eve"])

theorem attributing_apart : attributing.arguments.Pairwise CallArgument.Apart := by
  simp [attributing, CallArgument.Apart]

theorem attributing_honest {args : Arguments} (hd : args.contains "doc" = true)
    (hs : args.contains "subject" = true) :
    ∀ a ∈ attributing.arguments, a.Honest args := by
  simp [attributing, CallArgument.Honest, hd, hs]

/-- Each argument comes to what it comes to alone, and if one does not, because an
owner is given besides, this is the error. -/
theorem attributing_exact :
    (attributing.arguments.Pairwise CallArgument.Apart ∧
      (∀ a ∈ attributing.arguments, a.Honest attributed) ∧
      attributing.arguments.mapM (CallArgument.entry objectless · attributed) () =
        (.ok [some (.plain (.string "ann")),
          some (.choices [.string "bob", .string "eve"])], ())) ∧
    attributing.route objectless (attributed.insert "owner" (.plain .null)) () =
      (.error (.runtime (.overriddenArgument "owner" "doc")), ()) := by
  have hs : ∀ a ∈ attributing.arguments, a.Honest attributed :=
    attributing_honest rfl rfl
  have hs' : ∀ a ∈ attributing.arguments,
      a.Honest (attributed.insert "owner" (.plain .null)) :=
    attributing_honest rfl rfl
  have h := Call.routing_exact objectless attributing attributed attributing_apart hs
  have h' := Call.routing_exact objectless attributing _ attributing_apart hs'
  refine ⟨⟨attributing_apart, hs, ?_⟩,
    (h'.2.1 _ _ _).mpr ⟨[], _, _, [], (), rfl, rfl, ?_⟩⟩
  · exact ((h.1 () ((attributed.insert "owner" (.plain (.string "ann"))).insert
      "readers" (.choices [.string "bob", .string "eve"])) ()).mp rfl).1
  · exact (h'.2.2 _ (List.mem_cons_self ..) _ _).mpr (.overridden rfl rfl rfl)

end Clearance
