import Clearance.Proofs.Purity
import Clearance.Proofs.Routing

/-!
# The order of a call's arguments

Routing reads from the table that it writes to, so an argument may find under its key
what an argument in front of it has put there. Each argument reads the table as
supplied, except that the names of those in front of it already hold what they hold in
the end.

This is how the order shows, and there is no other way. If whatever goes by a key is
left as it is supplied, because no other argument has that name or the one that has it
changes nothing, then each argument comes to what it comes to in the table as supplied.
The outcome is a table in which this goes by its name, and with a host that answers by
what it is asked alone it is the same in every order.
-/

namespace Clearance

variable {σ : Type} {host : Host σ} {c : Call} {calm : σ → Prop}
  {as : List CallArgument} {a b : CallArgument} {args next out : Arguments}
  {w w' w₁ : σ}

/-- An argument whose name is the key of another leaves what goes by it as it is
supplied, if it comes to anything. -/
def Undisturbed (host : Host σ) (args : Arguments) (w : σ)
    (as : List CallArgument) : Prop :=
  ∀ a ∈ as, ∀ b ∈ as, a ≠ b → a.key = some b.name →
    ∀ s, (b.entry host args w).1 = .ok s → s = args.get? b.name

theorem Host.Matches.entry {τ : Type} {W : σ → τ → Prop} {host' : Host τ}
    (h : host.Matches W host') (a : CallArgument) (args : Arguments) :
    Lockstep W (a.entry host args) (a.entry host' args) := by
  rw [CallArgument.entry_eq_route, CallArgument.entry_eq_route, map_eq_pure_bind,
    map_eq_pure_bind]
  exact (h.routeArgument a args).bind_act fun _ => .pure_act _

namespace Host.IsPure

theorem entry_eq (h : host.IsPure calm) (hw : calm w) (hw' : calm w')
    (a : CallArgument) (args : Arguments) :
    (a.entry host args w).1 = (a.entry host args w').1 :=
  (Host.Matches.entry h a args w w' ⟨hw, hw'⟩).1

theorem calm_route (h : host.IsPure calm) (hw : calm w)
    (ha : a.route host args w = (.ok next, w₁)) : calm w₁ := by
  obtain ⟨_, hc, _⟩ := Host.Matches.routeArgument h a args w w ⟨hw, hw⟩
  rw [ha] at hc
  exact hc

/-- The first argument leaves to the others what they are taken from, so they come to
the same before it and after it. -/
theorem entry_after (h : host.IsPure calm) (hw : calm w)
    (hd : (a :: as).Pairwise fun b b' => b.name ≠ b'.name)
    (hu : Undisturbed host args w (a :: as))
    (ha : a.route host args w = (.ok next, w₁)) (hb : b ∈ as) :
    (b.entry host next w₁).1 = (b.entry host args w).1 ∧
      next.get? b.name = args.get? b.name := by
  obtain ⟨he, hf⟩ := CallArgument.route_eq_ok.mp ha
  have hn : a.name ≠ b.name := (List.pairwise_cons.mp hd).1 b hb
  have hsame : ∀ name, b.Mentions name → next.get? name = args.get? name := by
    intro name hm
    by_cases hna : a.name = name
    · -- The name is the key of `b`, and the first argument does not change what goes
      -- by it.
      have hk : b.key = some a.name :=
        hna ▸ hm.resolve_left fun hbn => hn (hna.trans hbn.symm)
      have hs := hu b (List.mem_cons_of_mem _ hb) a (List.mem_cons_self ..)
        (fun heq => hn (heq ▸ rfl)) hk _ (congrArg Prod.fst he)
      rw [← hna, hs]
    · exact hf name hna
  refine ⟨?_, hf b.name hn⟩
  rw [CallArgument.entry_congr hsame]
  exact h.entry_eq (h.calm_route hw ha) hw b args

theorem undisturbed_after (h : host.IsPure calm) (hw : calm w)
    (hd : (a :: as).Pairwise fun b b' => b.name ≠ b'.name)
    (hu : Undisturbed host args w (a :: as))
    (ha : a.route host args w = (.ok next, w₁)) :
    Undisturbed host next w₁ as := by
  intro b hb b' hb' hne hk s hs
  obtain ⟨he, hn⟩ := h.entry_after hw hd hu ha hb'
  rw [hn]
  exact hu b (List.mem_cons_of_mem _ hb) b' (List.mem_cons_of_mem _ hb') hne hk s
    (he ▸ hs)

/-- If nothing that goes by a key is disturbed, routing succeeds just if all arguments
come to something in the table as supplied. These are then the entries under their
names, and the others are as supplied. -/
theorem route_eq_ok (h : host.IsPure calm) (hw : calm w)
    (hd : as.Pairwise fun b b' => b.name ≠ b'.name) (hu : Undisturbed host args w as) :
    ((c.upTo as).route host args w).1 = .ok out ↔
      (∀ name, (∀ a ∈ as, a.name ≠ name) → out.get? name = args.get? name) ∧
        ∀ a ∈ as, (a.entry host args w).1 = .ok (out.get? a.name) := by
  induction as generalizing args w with
  | nil =>
      constructor
      · intro ho
        cases ho
        exact ⟨fun _ _ => rfl, fun _ ha => nomatch ha⟩
      · rintro ⟨hf, _⟩
        obtain rfl : out = args :=
          Table.eq_of_get? fun name => hf name fun _ ha => nomatch ha
        rfl
  | cons a as ih =>
      have hd' := (List.pairwise_cons.mp hd).2
      have hne : ∀ b ∈ as, b.name ≠ a.name :=
        fun b hb => ((List.pairwise_cons.mp hd).1 b hb).symm
      constructor
      · intro ho
        obtain ⟨next, w₁, ha, ho⟩ := Call.route_cons_eq_ok.mp (Prod.ext ho rfl)
        obtain ⟨he, hf⟩ := CallArgument.route_eq_ok.mp ha
        obtain ⟨hf', hes⟩ :=
          (ih (h.calm_route hw ha) hd' (h.undisturbed_after hw hd hu ha)).mp
          (congrArg Prod.fst ho)
        constructor
        · intro name hn
          rw [hf' name fun b hb => hn b (List.mem_cons_of_mem _ hb),
            hf name (hn a (List.mem_cons_self ..))]
        · intro b hb
          rcases List.mem_cons.mp hb with rfl | hb
          · -- What the first argument has set is not changed by the others.
            rw [hf' b.name hne, he]
          · rw [← (h.entry_after hw hd hu ha hb).1, hes b hb]
      · rintro ⟨hf, hes⟩
        obtain ⟨next, ha, hs⟩ := CallArgument.exists_route_of_entry
          (Prod.ext (hes a (List.mem_cons_self ..)) rfl)
        have hf' : ∀ name, (∀ b ∈ as, b.name ≠ name) →
            out.get? name = next.get? name := by
          intro name hn
          by_cases hna : a.name = name
          · rw [← hna, hs]
          · rw [CallArgument.get?_of_route hna ha]
            exact hf name fun b hb => (List.mem_cons.mp hb).elim
              (fun heq => heq ▸ hna) (hn b)
        have ho := (ih (h.calm_route hw ha) hd' (h.undisturbed_after hw hd hu ha)).mpr
          ⟨hf', fun b hb => (h.entry_after hw hd hu ha hb).1.trans
            (hes b (List.mem_cons_of_mem _ hb))⟩
        exact congrArg Prod.fst
          (Call.route_cons_eq_ok.mpr ⟨next, _, ha, Prod.ext ho rfl⟩)

end Host.IsPure

/-! ## What an argument reads -/

/-- The table that an argument is routed in: the names of those in front of it hold
what they hold in the end, and all others what is supplied. -/
theorem Call.exists_entry_between {before after : List CallArgument}
    (hd : c.arguments.Pairwise fun b b' => b.name ≠ b'.name)
    (hc : c.arguments = before ++ a :: after)
    (h : c.route host args w = (.ok out, w')) :
    ∃ mid w₁ w₂, (c.upTo before).route host args w = (.ok mid, w₁) ∧
      a.entry host mid w₁ = (.ok (out.get? a.name), w₂) ∧
      (∀ name, (∀ b ∈ before, b.name ≠ name) → mid.get? name = args.get? name) ∧
      ∀ b ∈ before, mid.get? b.name = out.get? b.name := by
  obtain ⟨_, hafter, hbetween⟩ := List.pairwise_append.mp (hc ▸ hd)
  obtain ⟨mid, w₁, w₂, hm, he, hf⟩ := exists_entry_of_route hc
    (fun b hb => ((List.pairwise_cons.mp hafter).1 b hb).symm) h
  refine ⟨mid, w₁, w₂, hm, he, fun name hn => get?_of_route hn hm, fun b hb => ?_⟩
  exact (hf b.name fun b' hb' => (hbetween b hb b' hb').symm).symm

/-! ## Any order -/

theorem Undisturbed.perm {bs : List CallArgument} (hu : Undisturbed host args w as)
    (hp : as.Perm bs) : Undisturbed host args w bs :=
  fun a ha b hb => hu a (hp.mem_iff.mpr ha) b (hp.mem_iff.mpr hb)

theorem Undisturbed.of_calm (h : host.IsPure calm) (hw : calm w) (hw' : calm w')
    (hu : Undisturbed host args w as) : Undisturbed host args w' as :=
  fun a ha b hb hne hk s hs =>
    hu a ha b hb hne hk s ((h.entry_eq hw hw' b args).trans hs)

theorem CallArgument.entry_of_bare (hk : a.key = none) (hp : a.property = none) :
    a.entry host args = pure (args.get? a.name) := by
  have hs : a.source args = .ok (args.get? a.name) := by
    unfold source
    rw [hk]
    rfl
  rw [entry_of_source hs]
  unfold propertyOf
  rw [hp]
  cases args.get? a.name with
  | none => rfl
  | some s => rfl

/-- No key leads to a name that another argument changes if it leads to none at all, or
to one that is passed as it is. -/
theorem undisturbed_of_bare
    (h : ∀ a ∈ as, ∀ b ∈ as, a ≠ b → a.key = some b.name →
      b.key = none ∧ b.property = none) :
    Undisturbed host args w as := by
  intro a ha b hb hne hk s hs
  obtain ⟨hk, hp⟩ := h a ha b hb hne hk
  rw [CallArgument.entry_of_bare hk hp] at hs
  exact (Except.ok.inj hs).symm

/-- The arguments of a call are routed as supplied except for what those in front have
put under their names. If no key leads to what another argument has put there, every
order comes to the same, which is what each argument comes to as supplied. -/
theorem Call.routing_order (hd : c.arguments.Pairwise fun b b' => b.name ≠ b'.name)
    (args : Arguments) :
    (∀ before a after w out w', c.arguments = before ++ a :: after →
      c.route host args w = (.ok out, w') →
        ∃ mid w₁ w₂, (c.upTo before).route host args w = (.ok mid, w₁) ∧
          a.entry host mid w₁ = (.ok (out.get? a.name), w₂) ∧
          (∀ name, (∀ b ∈ before, b.name ≠ name) → mid.get? name = args.get? name) ∧
          ∀ b ∈ before, mid.get? b.name = out.get? b.name) ∧
    (∀ (calm : σ → Prop) (c' : Call) w w', host.IsPure calm →
      c.arguments.Perm c'.arguments → calm w → calm w' →
      Undisturbed host args w c.arguments → ∀ out,
        ((c.route host args w).1 = .ok out ↔ (c'.route host args w').1 = .ok out) ∧
        ((c.route host args w).1 = .ok out ↔
          (∀ name, (∀ a ∈ c.arguments, a.name ≠ name) →
            out.get? name = args.get? name) ∧
            ∀ a ∈ c.arguments, (a.entry host args w).1 = .ok (out.get? a.name))) := by
  refine ⟨fun before a after w out w' hc h => exists_entry_between hd hc h, ?_⟩
  intro calm c' w w' h hp hw hw' hu out
  have hd' : c'.arguments.Pairwise fun b b' => b.name ≠ b'.name :=
    (hp.pairwise_iff Ne.symm).mp hd
  have hu' : Undisturbed host args w' c'.arguments := (hu.of_calm h hw hw').perm hp
  refine ⟨(h.route_eq_ok (c := c) hw hd hu).trans
    (Iff.trans ?_ (h.route_eq_ok (c := c') hw' hd' hu').symm),
      h.route_eq_ok (c := c) hw hd hu⟩
  simp only [hp.mem_iff, h.entry_eq hw hw']

theorem objectless_isPure : objectless.IsPure fun _ => True :=
  ⟨rfl, fun _ _ _ _ hm _ => by cases hm⟩

/-- A call that passes a document, its identifier, and the identifier of a
second document. -/
def referring : Call :=
  ⟨none, "check",
    [⟨"doc", none, none⟩, ⟨"owner", some "doc", some "id"⟩,
      ⟨"author", none, some "id"⟩]⟩

/-- Supplies the two documents. -/
def documents : Arguments :=
  (Table.empty.insert "doc" (.plain (document 0 "ann"))).insert "author"
    (.plain (document 1 "bob"))

/-- What the three arguments come to in any order, here in the opposite one. -/
theorem referring_reversed :
    (referring.route objectless documents ()).1 =
        .ok ((documents.insert "owner" (.plain (.string "ann"))).insert "author"
          (.plain (.string "bob"))) ∧
      (Call.route objectless
        { referring with arguments := referring.arguments.reverse } documents ()).1 =
        .ok ((documents.insert "owner" (.plain (.string "ann"))).insert "author"
          (.plain (.string "bob"))) := by
  obtain ⟨_, hp⟩ := Call.routing_order (c := referring) (by decide) documents
  obtain ⟨ho, _⟩ := hp (fun _ => True)
    { referring with arguments := referring.arguments.reverse } () () objectless_isPure
    (List.reverse_perm _).symm trivial trivial (undisturbed_of_bare (by decide))
    ((documents.insert "owner" (.plain (.string "ann"))).insert "author"
      (.plain (.string "bob")))
  exact ⟨rfl, ho.mp rfl⟩

/-- A call that passes the identifier of a document under its name, and under another
name the document. -/
def replacing : Call :=
  ⟨none, "check", [⟨"doc", none, some "id"⟩, ⟨"copy", some "doc", none⟩]⟩

/-- In the order in which it is written the copy is one of the identifier. -/
theorem replacing_reversed :
    ¬ ∀ (c c' : Call) (args : Arguments),
      (c.arguments.Pairwise fun b b' => b.name ≠ b'.name) →
      c.arguments.Perm c'.arguments → ∀ out,
        (c.route objectless args ()).1 = .ok out ↔
          (c'.route objectless args ()).1 = .ok out := by
  intro h
  have hw : (replacing.route objectless documents ()).1 =
      .ok ((documents.insert "doc" (.plain (.string "ann"))).insert "copy"
        (.plain (.string "ann"))) := rfl
  have hr :
      (Call.route objectless
        { replacing with arguments := replacing.arguments.reverse } documents ()).1 =
      .ok ((documents.insert "copy" (.plain (document 0 "ann"))).insert "doc"
        (.plain (.string "ann"))) := rfl
  have ho := Except.ok.inj (hr.symm.trans
    ((h replacing _ documents (by decide) (List.reverse_perm _).symm _).mp hw))
  have hcopy := congrArg (·.get? "copy") ho
  simp [Table.get?_insert, document] at hcopy

end Clearance
