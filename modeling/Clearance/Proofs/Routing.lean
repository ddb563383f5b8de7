import Clearance.Proofs.InTurn
import Clearance.Proofs.Reserved

/-!
# What an argument comes to

Routing goes through the arguments of a call one after the other and rewrites the
table that it reads from. This file says what one of them does to it: it sets the
entry under its own name to what the argument comes to, `CallArgument.entry`, and
leaves all others alone.

An argument comes to what goes by its key, if anything does, and nothing may go by its
name then. If nothing goes by its key it is not passed over: it comes to what goes by
its name, whose property is read all the same. So a value that the context happens to
hold under the name of an argument does stand in for the one that the argument asks
for, though only for one that is missing.
-/

namespace Clearance

namespace CallArgument

/-- The argument is passed under this name or taken from it. -/
def Mentions (a : CallArgument) (name : String) : Prop :=
  a.name = name ∨ a.key = some name

/-- What an argument is taken from: what goes by its key, and if nothing does, what
goes by its name. -/
def source (a : CallArgument) (args : Arguments) :
    Except AccessError (Option Supply) :=
  match a.key.bind args.get? with
  | none => pure (args.get? a.name)
  | some s =>
      if args.contains a.name then
        throw (.runtime (.overriddenArgument a.name a.contextKey))
      else pure (some s)

variable {σ : Type}

/-- What an argument makes of what it is taken from. -/
def propertyOf (host : Host σ) (a : CallArgument) :
    Option Supply → Act σ (Option Supply)
  | none => pure none
  | some s =>
      match a.property with
      | none => pure (some s)
      | some property => do
          let s ← s.property host a.name property
          pure (some s)

/-- What an argument comes to. -/
def entry (host : Host σ) (a : CallArgument)
    (args : Arguments) : Act σ (Option Supply) := do
  let s ← Act.ofExcept (a.source args)
  a.propertyOf host s

variable {host : Host σ} {a : CallArgument} {args args' out : Arguments} {w w' : σ}

theorem source_congr (h : ∀ name, a.Mentions name → args.get? name = args'.get? name) :
    a.source args = a.source args' := by
  have hk : a.key.bind args.get? = a.key.bind args'.get? := by
    cases hk : a.key with
    | none => rfl
    | some key => exact h key (.inr hk)
  unfold source Table.contains
  rw [hk, h a.name (.inl rfl)]

theorem entry_congr (h : ∀ name, a.Mentions name → args.get? name = args'.get? name) :
    a.entry host args = a.entry host args' := by
  unfold entry
  rw [source_congr h]

theorem entry_of_source {found : Option Supply} (h : a.source args = .ok found) :
    a.entry host args = a.propertyOf host found := by
  unfold entry
  rw [h]
  rfl

theorem entry_of_absent {key : String} (hk : a.key = some key)
    (hs : args.get? key = none) :
    a.entry host args = a.propertyOf host (args.get? a.name) := by
  refine entry_of_source ?_
  unfold source
  rw [hk, Option.bind_some, hs]
  rfl

theorem entry_of_present {key : String} {s : Supply} (hk : a.key = some key)
    (hs : args.get? key = some s) (hn : args.get? a.name = none) :
    a.entry host args = a.propertyOf host (some s) := by
  refine entry_of_source ?_
  unfold source
  rw [hk, Option.bind_some, hs, Table.contains, hn]
  rfl

theorem name_free_of_entry {key : String} {r : Option Supply} (hk : a.key = some key)
    (hs : (args.get? key).isSome = true) (h : a.entry host args w = (.ok r, w')) :
    args.get? a.name = none := by
  obtain ⟨s, hs⟩ := Option.isSome_iff_exists.mp hs
  obtain ⟨found, w₁, hf, _⟩ := Act.bind_eq_ok.mp h
  have hf : a.source args = .ok found := congrArg Prod.fst hf
  unfold source at hf
  rw [hk, Option.bind_some, hs] at hf
  simp only [] at hf
  split at hf
  · cases hf
  · next hn => simpa [Table.contains] using hn

/-! ## Routing one argument -/

theorem source_eq_copyKey (a : CallArgument) (args : Arguments) :
    a.source args = (a.copyKey args).map (·.get? a.name) := by
  unfold source copyKey contextKey
  cases a.key with
  | none => rfl
  | some key =>
      rw [Option.bind_some]
      cases hs : args.get? key with
      | none =>
          simp only [hs]
          rfl
      | some s =>
          simp only [hs]
          split
          · rfl
          · exact congrArg Except.ok (args.get?_insert_self a.name s).symm

theorem propertyOf_eq_takeProperty (a : CallArgument) (args : Arguments) :
    a.propertyOf host (args.get? a.name) =
      (·.get? a.name) <$> a.takeProperty host args := by
  unfold propertyOf takeProperty
  cases hs : args.get? a.name with
  | none =>
      cases a.property with
      | none => rw [map_pure, hs]
      | some property => simp only [map_pure, hs]
  | some s =>
      cases a.property with
      | none => rw [map_pure, hs]
      | some property => simp only [map_bind, map_pure, Table.get?_insert_self]

/-- After an argument has been routed, what it comes to goes by its name. -/
theorem entry_eq_route (a : CallArgument) (args : Arguments) :
    a.entry host args = (·.get? a.name) <$> a.route host args := by
  unfold entry route
  rw [map_bind, source_eq_copyKey]
  cases a.copyKey args with
  | error err => rfl
  | ok args => exact propertyOf_eq_takeProperty a args

theorem get?_of_copyKey {name : String} (hn : a.name ≠ name)
    (h : a.copyKey args = .ok out) :
    out.get? name = args.get? name := by
  unfold copyKey at h
  split at h
  · cases h
    rfl
  · split at h
    · cases h
      rfl
    · split at h
      · cases h
      · cases h
        exact args.get?_insert_of_ne _ hn

theorem get?_of_takeProperty {name : String} (hn : a.name ≠ name)
    (h : a.takeProperty host args w = (.ok out, w')) :
    out.get? name = args.get? name := by
  unfold takeProperty at h
  cases hp : a.property with
  | none =>
      rw [hp] at h
      cases h
      rfl
  | some property =>
      rw [hp] at h
      simp only [] at h
      cases hs : args.get? a.name with
      | none =>
          rw [hs] at h
          cases h
          rfl
      | some s =>
          rw [hs] at h
          obtain ⟨s', w₁, _, h⟩ := Act.bind_eq_ok.mp h
          cases h
          exact args.get?_insert_of_ne _ hn

theorem get?_of_route {name : String} (hn : a.name ≠ name)
    (h : a.route host args w = (.ok out, w')) : out.get? name = args.get? name := by
  obtain ⟨args₁, w₁, hc, ht⟩ := Act.bind_eq_ok.mp h
  rw [get?_of_takeProperty hn ht, get?_of_copyKey hn (congrArg Prod.fst hc)]

theorem exists_route_of_entry {s : Option Supply}
    (h : a.entry host args w = (.ok s, w')) :
    ∃ out, a.route host args w = (.ok out, w') ∧ out.get? a.name = s := by
  rw [entry_eq_route, map_eq_pure_bind] at h
  obtain ⟨out, w₁, hr, he⟩ := Act.bind_eq_ok.mp h
  obtain ⟨hs, rfl⟩ := Prod.mk.inj he
  exact ⟨out, hr, Except.ok.inj hs⟩

/-- Routing an argument sets the entry under its name to what it comes to, and
no other. -/
theorem route_eq_ok :
    a.route host args w = (.ok out, w') ↔
      a.entry host args w = (.ok (out.get? a.name), w') ∧
        ∀ name, a.name ≠ name → out.get? name = args.get? name := by
  constructor
  · intro h
    rw [entry_eq_route, map_eq_pure_bind]
    exact ⟨Act.bind_ok h, fun name hn => get?_of_route hn h⟩
  · rintro ⟨he, hf⟩
    obtain ⟨out', h, hs⟩ := exists_route_of_entry he
    have ho : out' = out := by
      refine Table.eq_of_get? fun name => ?_
      by_cases hn : a.name = name
      · exact hn ▸ hs
      · rw [get?_of_route hn h, hf name hn]
    rw [h, ho]

end CallArgument

/-! ## Routing one argument after the other -/

namespace Call

variable {σ : Type} {host : Host σ} {c : Call} {as before after : List CallArgument}
  {a : CallArgument} {args args' out out' : Arguments} {w w₁ w₂ w' : σ}

theorem route_cons_eq_ok :
    (c.upTo (a :: as)).route host args w = (.ok out, w') ↔
      ∃ next w₁, a.route host args w = (.ok next, w₁) ∧
        (c.upTo as).route host next w₁ = (.ok out, w') := by
  simp only [route, upTo, List.foldlM_cons]
  exact Act.bind_eq_ok

theorem route_append_eq_ok :
    (c.upTo (before ++ after)).route host args w = (.ok out, w') ↔
      ∃ mid w₁, (c.upTo before).route host args w = (.ok mid, w₁) ∧
        (c.upTo after).route host mid w₁ = (.ok out, w') := by
  simp only [route, upTo, List.foldlM_append]
  exact Act.bind_eq_ok

theorem get?_of_route {name : String} (hn : ∀ a ∈ as, a.name ≠ name)
    (h : (c.upTo as).route host args w = (.ok out, w')) :
    out.get? name = args.get? name := by
  induction as generalizing args w with
  | nil =>
      cases h
      rfl
  | cons a as ih =>
      obtain ⟨next, w₁, ha, h⟩ := route_cons_eq_ok.mp h
      rw [ih (fun b hb => hn b (List.mem_cons_of_mem _ hb)) h,
        CallArgument.get?_of_route (hn a (List.mem_cons_self ..)) ha]

/-- What an argument comes to, after those in front of it, is what goes by its name in
the end. -/
theorem exists_entry_of_route (hc : c.arguments = before ++ a :: after)
    (ha : ∀ b ∈ after, b.name ≠ a.name) (h : c.route host args w = (.ok out, w')) :
    ∃ mid w₁ w₂, (c.upTo before).route host args w = (.ok mid, w₁) ∧
      a.entry host mid w₁ = (.ok (out.get? a.name), w₂) ∧
      ∀ name, (∀ b ∈ a :: after, b.name ≠ name) → out.get? name = mid.get? name := by
  have h : (c.upTo (before ++ a :: after)).route host args w = (.ok out, w') := hc ▸ h
  obtain ⟨mid, w₁, hb, h⟩ := route_append_eq_ok.mp h
  obtain ⟨next, w₂, hr, h'⟩ := route_cons_eq_ok.mp h
  obtain ⟨he, _⟩ := CallArgument.route_eq_ok.mp hr
  rw [← get?_of_route ha h'] at he
  exact ⟨mid, w₁, w₂, hb, he, fun name hn => get?_of_route hn h⟩

/-- What goes by a name that no argument mentions makes no difference to what goes
by others. -/
theorem route_agree {name : String} (hn : ∀ a ∈ as, ¬ a.Mentions name)
    (hag : ∀ n, n ≠ name → args.get? n = args'.get? n)
    (h : (c.upTo as).route host args w = (.ok out, w')) :
    ∃ out', (c.upTo as).route host args' w = (.ok out', w') ∧
      ∀ n, n ≠ name → out.get? n = out'.get? n := by
  induction as generalizing args args' w with
  | nil =>
      cases h
      exact ⟨args', rfl, hag⟩
  | cons a as ih =>
      obtain ⟨next, w₁, ha, h⟩ := route_cons_eq_ok.mp h
      obtain ⟨he, hf⟩ := CallArgument.route_eq_ok.mp ha
      have hm := hn a (List.mem_cons_self ..)
      -- The argument reads neither table where they differ, so it sets the same entry
      -- in both.
      rw [CallArgument.entry_congr fun n hn => hag n fun hs => hm (hs ▸ hn)] at he
      obtain ⟨next', ha', hs⟩ := CallArgument.exists_route_of_entry he
      have hag' : ∀ n, n ≠ name → next.get? n = next'.get? n := by
        intro n hne
        by_cases hna : a.name = n
        · exact hna ▸ hs.symm
        · rw [hf n hna, hag n hne, CallArgument.get?_of_route hna ha']
      obtain ⟨out', h', ho⟩ := ih (fun b hb => hn b (List.mem_cons_of_mem _ hb)) hag' h
      exact ⟨out', route_cons_eq_ok.mpr ⟨next', w₁, ha', h'⟩, ho⟩

/-- An argument that mentions no name of those in front of it comes to what it comes to
in the table as supplied. -/
theorem exists_entry_of_apart (hc : c.arguments = before ++ a :: after)
    (hb : ∀ b ∈ before, ¬ a.Mentions b.name) (ha : ∀ b ∈ after, b.name ≠ a.name)
    (h : c.route host args w = (.ok out, w')) :
    ∃ mid w₁ w₂, (c.upTo before).route host args w = (.ok mid, w₁) ∧
      a.entry host args w₁ = (.ok (out.get? a.name), w₂) := by
  obtain ⟨mid, w₁, w₂, hr, he, _⟩ := exists_entry_of_route hc ha h
  rw [CallArgument.entry_congr fun name hn =>
    get?_of_route (fun b hm hb' => hb b hm (hb' ▸ hn)) hr] at he
  exact ⟨mid, w₁, w₂, hr, he⟩

/-- Two tables are routed that differ under the name of an argument with a key only,
and no other argument mentions its name or its key. If something goes by the key, the
argument comes to this in both, and neither has anything under its name. If nothing
goes by the key, it comes to what each of them has under its name, whose property is
read if it asks for one. -/
theorem aliased_source (hc : c.arguments = before ++ a :: after) {key : String}
    (hk : a.key = some key) (hne : a.name ≠ key)
    (hm : ∀ b ∈ before ++ after, ¬ b.Mentions a.name ∧ ¬ b.Mentions key)
    (hag : ∀ n, n ≠ a.name → args.get? n = args'.get? n)
    (h : c.route host args w = (.ok out, w₁))
    (h' : c.route host args' w = (.ok out', w₂)) :
    ∃ mid w₀, (c.upTo before).route host args w = (.ok mid, w₀) ∧
      (∀ s, args.get? key = some s →
        args.get? a.name = none ∧ args'.get? a.name = none ∧
          (a.propertyOf host (some s) w₀).1 = .ok (out.get? a.name) ∧
          (a.propertyOf host (some s) w₀).1 = .ok (out'.get? a.name)) ∧
      (args.get? key = none →
        (a.propertyOf host (args.get? a.name) w₀).1 = .ok (out.get? a.name) ∧
        (a.propertyOf host (args'.get? a.name) w₀).1 = .ok (out'.get? a.name)) := by
  have hb : ∀ b ∈ before, ¬ a.Mentions b.name := by
    rintro b hb (hn | hn)
    · exact (hm b (List.mem_append_left _ hb)).1 (.inl hn.symm)
    · exact (hm b (List.mem_append_left _ hb)).2
        (.inl (Option.some.inj (hn.symm.trans hk)))
  have ha : ∀ b ∈ after, b.name ≠ a.name :=
    fun b hb hn => (hm b (List.mem_append_right _ hb)).1 (.inl hn)
  obtain ⟨mid, w₀, w₃, hr, he⟩ := exists_entry_of_apart hc hb ha h
  obtain ⟨mid', w₀', w₃', hr', he'⟩ := exists_entry_of_apart hc hb ha h'
  -- The arguments in front do the same to both tables, so the worlds are the same
  -- after them.
  obtain rfl : w₀ = w₀' := by
    obtain ⟨_, hr'', _⟩ :=
      route_agree (fun b hb => (hm b (List.mem_append_left _ hb)).1) hag hr
    exact congrArg Prod.snd (hr''.symm.trans hr')
  refine ⟨mid, w₀, hr, fun s hs => ?_, fun hs => ?_⟩
  · have hs' : args'.get? key = some s := (hag key hne.symm).symm.trans hs
    have hn := CallArgument.name_free_of_entry hk (by rw [hs]; rfl) he
    have hn' := CallArgument.name_free_of_entry hk (by rw [hs']; rfl) he'
    rw [CallArgument.entry_of_present hk hs hn] at he
    rw [CallArgument.entry_of_present hk hs' hn'] at he'
    exact ⟨hn, hn', congrArg Prod.fst he, congrArg Prod.fst he'⟩
  · have hs' : args'.get? key = none := (hag key hne.symm).symm.trans hs
    rw [CallArgument.entry_of_absent hk hs] at he
    rw [CallArgument.entry_of_absent hk hs'] at he'
    exact ⟨congrArg Prod.fst he, congrArg Prod.fst he'⟩

end Call

/-- A host without objects of its own. -/
def objectless : Host Unit where
  typeName := Handle.name
  call := fun _ _ _ => pure .null

/-- The `n`-th record that is handed in, with an identifier. -/
def document (n : Nat) (id : String) : Value :=
  .object (.record ⟨.given n, [("id", .string id)]⟩)

/-- A call that passes the identifier of what goes by one name under another. -/
def identifying : Call := ⟨none, "check", [⟨"owner", some "author", some "id"⟩]⟩

/-- Supplies a document, but not as the one that is asked for. -/
def misnamed (n : Nat) (id : String) : Arguments :=
  Table.empty.insert "owner" (.plain (document n id))

theorem misnamed_agree (n m : Nat) (id id' : String) (name : String)
    (hn : name ≠ "owner") :
    (misnamed n id).get? name = (misnamed m id').get? name := by
  rw [misnamed, misnamed, Table.get?_insert_of_ne _ _ hn.symm,
    Table.get?_insert_of_ne _ _ hn.symm]

theorem identifying_route (n : Nat) (id : String) :
    identifying.route objectless (misnamed n id) () =
      (.ok ((misnamed n id).insert "owner" (.plain (.string id))), ()) := rfl

/-- Of two documents that are supplied under the argument's own name, each is read. -/
theorem identifying_source :
    identifying.route objectless (misnamed 0 "ann") () =
        (.ok ((misnamed 0 "ann").insert "owner" (.plain (.string "ann"))), ()) ∧
      ∃ w₀, (CallArgument.propertyOf objectless ⟨"owner", some "author", some "id"⟩
        (some (.plain (document 0 "ann"))) w₀).1 =
          .ok (some (.plain (.string "ann"))) := by
  have hc : identifying.arguments = [] ++ [⟨"owner", some "author", some "id"⟩] := rfl
  obtain ⟨_, w₀, _, _, habsent⟩ :=
    Call.aliased_source hc rfl (by decide) (fun _ hb => nomatch hb)
    (misnamed_agree 0 1 "ann" "bob") (identifying_route 0 "ann")
      (identifying_route 1 "bob")
  exact ⟨identifying_route 0 "ann", w₀, (habsent rfl).1⟩

/-- What an argument with a key comes to is told by what goes by its own name. -/
theorem identifying_told_apart :
    ¬ ∀ (c : Call) (before after : List CallArgument) (a : CallArgument) (key : String)
      (args args' out out' : Arguments),
      c.arguments = before ++ a :: after →
        (c.arguments.Pairwise fun b b' => b.name ≠ b'.name) →
      a.key = some key → a.name ≠ key →
      (∀ b ∈ before ++ after, ¬ b.Mentions a.name ∧ ¬ b.Mentions key) →
      (∀ name, name ≠ a.name → args.get? name = args'.get? name) →
      (c.route objectless args ()).1 = .ok out →
        (c.route objectless args' ()).1 = .ok out' →
      out.get? a.name = out'.get? a.name := by
  intro h
  have he :=
    h identifying [] [] ⟨"owner", some "author", some "id"⟩ "author" _ _ _ _ rfl
    (by decide) rfl (by decide) (fun _ hb => nomatch hb)
      (misnamed_agree 0 1 "ann" "bob")
    (congrArg Prod.fst (identifying_route 0 "ann"))
      (congrArg Prod.fst (identifying_route 1 "bob"))
  rw [Table.get?_insert_self, Table.get?_insert_self] at he
  simp at he

end Clearance
