import Clearance.Proofs.Grammar

/-!
# A call is read from its own text

`Call.text` writes a call in one of the many ways in which the grammar lets it be
written: with a blank after each comma and each colon, and with no other. So what
is read from it is the call again, as long as its names are such that they can be
written at all. A call that has been read from anything has such names, so reading
what it is written as once more changes nothing.

A blank after a comma belongs to the argument that follows, which is why the
arguments are put into pieces with the blank in front (`join_comma_blank`).
-/

namespace Clearance

open Text (Blanks)

/-- The names can be written in a call. -/
def CallArgument.WellFormed (a : CallArgument) : Prop :=
  Call.IsName a.name.toList ∧ (∀ key ∈ a.key, Call.IsName key.toList) ∧
    ∀ property ∈ a.property, Call.IsName property.toList

instance (a : CallArgument) : Decidable a.WellFormed :=
  inferInstanceAs (Decidable (_ ∧ _ ∧ _))

namespace Call

/-- The names can be written in a call, those of the arguments included. -/
def WellFormed (c : Call) : Prop :=
  (∀ service ∈ c.service, IsSegment service.toList) ∧
    IsSegment c.method.toList ∧ ∀ a ∈ c.arguments, a.WellFormed

instance (c : Call) : Decidable c.WellFormed :=
  inferInstanceAs (Decidable (_ ∧ _ ∧ _))

/-! ## What is read is well-formed -/

theorem SpellsName.isName {s : List Char} {n : String} (h : SpellsName s n) :
    IsName n.toList := by
  obtain ⟨_, hn, _⟩ := h
  rwa [String.toList_ofList]

theorem SpellsSource.isName {s : List Char} {n : String} {p : Option String}
    (h : SpellsSource s n p) :
    IsName n.toList ∧ ∀ property ∈ p, IsName property.toList := by
  cases h with
  | alone hn => exact ⟨hn.isName, fun _ h => by cases h⟩
  | ofProperty hn hp =>
      refine ⟨hn.isName, fun property h => ?_⟩
      cases h
      exact hp.isName

theorem SpellsArgument.wellFormed {s : List Char} {a : CallArgument}
    (h : SpellsArgument s a) :
    a.WellFormed := by
  cases h with
  | own h => exact ⟨h.isName.1, (fun _ h => by cases h), h.isName.2⟩
  | keyed hn h =>
      refine ⟨hn.isName, fun key hk => ?_, h.isName.2⟩
      cases hk
      exact h.isName.1

theorem SpellsArguments.wellFormed {s : List Char} {as : List CallArgument}
    (h : SpellsArguments s as) : ∀ a ∈ as, a.WellFormed := by
  rcases h with ⟨_, rfl⟩ | ⟨pieces, _, _, hp⟩
  · exact fun a ha => by cases ha
  · clear * - hp
    induction hp with
    | nil => exact fun a ha => by cases ha
    | cons hpa _ ih =>
        intro a ha
        rcases List.mem_cons.mp ha with rfl | ha
        · exact hpa.wellFormed
        · exact ih a ha

theorem Spells.wellFormed {s : List Char} {c : Call}
    (h : Spells s c) : c.WellFormed := by
  obtain ⟨_, hc, _, ha, _⟩ := h
  refine ⟨fun service hs => ?_, ?_, ha.wellFormed⟩
  · cases hc with
    | alone => cases hs
    | ofService h =>
        cases hs
        rwa [String.toList_ofList]
  · cases hc with
    | alone h | ofService _ h => rwa [String.toList_ofList]

/-! ## What is well-formed is written as the grammar has it -/

theorem spellsName_toList {n : String}
    (h : IsName n.toList) : SpellsName n.toList n := by
  have hn : SpellsName ([] ++ n.toList ++ []) (.ofList n.toList) :=
    .mk (by simp [Blanks]) h (by simp [Blanks])
  rwa [List.append_nil, List.nil_append, String.ofList_toList] at hn

theorem spellsSource_blank {s : List Char} {n : String} {p : Option String}
    (h : SpellsSource s n p) : SpellsSource (' ' :: s) n p := by
  have hp : nameAndProperty (' ' :: s) = nameAndProperty s := by
    simpa using nameAndProperty_pad (l := [' ']) (r := [])
      (by simp [Blanks, Text.isBlank]) (by simp [Blanks]) s
  exact nameAndProperty_eq_ok_iff.mp (hp.trans (nameAndProperty_eq_ok_iff.mpr h))

theorem spellsArgument_blank {s : List Char} {a : CallArgument}
    (h : SpellsArgument s a) :
    SpellsArgument (' ' :: s) a := by
  have hp : argument (' ' :: s) = argument s := by
    simpa using argument_pad (l := [' ']) (r := []) (by simp [Blanks, Text.isBlank])
      (by simp [Blanks]) s
  exact argument_eq_ok_iff.mp (hp.trans (argument_eq_ok_iff.mpr h))

theorem spellsArgument_text {a : CallArgument} (h : a.WellFormed) :
    SpellsArgument a.text.toList a := by
  obtain ⟨name, key, property⟩ := a
  obtain ⟨hn, hk, hp⟩ := h
  have hn := spellsName_toList hn
  cases key with
  | none =>
      cases property with
      | none => simpa [CallArgument.text] using SpellsArgument.own (.alone hn)
      | some p =>
          have hp := spellsName_toList (hp p rfl)
          simpa [CallArgument.text] using SpellsArgument.own (.ofProperty hn hp)
  | some key =>
      have hkey := spellsName_toList (hk key rfl)
      cases property with
      | none =>
          simpa [CallArgument.text] using SpellsArgument.keyed hn
            (spellsSource_blank (.alone hkey))
      | some p =>
          have hp := spellsName_toList (hp p rfl)
          simpa [CallArgument.text] using
            SpellsArgument.keyed hn (spellsSource_blank (.ofProperty hkey hp))

theorem join_cons_append (sep l p : List Char) (ps : List (List Char)) :
    Text.join sep ((l ++ p) :: ps) = l ++ Text.join sep (p :: ps) := by
  cases ps with
  | nil => rfl
  | cons q qs => simp [Text.join]

theorem join_comma_blank (p : List Char) (ps : List (List Char)) :
    List.intercalate [',', ' '] (p :: ps) =
      Text.join [','] (p :: ps.map (' ' :: ·)) := by
  induction ps generalizing p with
  | nil => simp [Text.join]
  | cons q qs ih =>
      have hq : Text.join [','] ((' ' :: q) :: qs.map (' ' :: ·)) =
          ' ' :: Text.join [','] (q :: qs.map (' ' :: ·)) :=
            join_cons_append _ [' '] q _
      rw [List.intercalate_cons_cons, ih, List.map_cons, Text.join_cons_cons, hq]
      simp

theorem spellsArguments_text {as : List CallArgument} (h : ∀ a ∈ as, a.WellFormed) :
    SpellsArguments
      (String.intercalate ", " (as.map CallArgument.text)).toList as := by
  cases as with
  | nil => exact .inl ⟨by simp [Blanks], rfl⟩
  | cons a as =>
      right
      have hrest : List.Forall₂ SpellsArgument
          (as.map fun a => ' ' :: a.text.toList) as := by
        rw [List.forall₂_map_left_iff, List.forall₂_same]
        exact fun a ha => spellsArgument_blank
          (spellsArgument_text (h a (by simp [ha])))
      refine ⟨_, List.cons_ne_nil _ _, ?_,
        .cons (spellsArgument_text (h a (List.mem_cons_self ..))) hrest⟩
      rw [String.toList_intercalate, List.map_cons, List.map_cons]
      refine (join_comma_blank _ _).trans ?_
      simp only [List.map_map]
      rfl

theorem spells_text {c : Call} (h : c.WellFormed) : Spells c.text.toList c := by
  obtain ⟨service, method, arguments⟩ := c
  obtain ⟨hs, hm, ha⟩ := h
  have spelled {callee : List Char} (hc : SpellsCallee callee service method) :
      Spells (callee ++ '(' ::
        ((String.intercalate ", " (arguments.map CallArgument.text)).toList ++ [')']))
        ⟨service, method, arguments⟩ := by
    simpa using Spells.mk (l := []) (m := []) (r := []) (by simp [Blanks]) hc
      (by simp [Blanks]) (spellsArguments_text ha) (by simp [Blanks])
  cases service with
  | none =>
      have hc : SpellsCallee method.toList none method := by
        simpa using SpellsCallee.alone hm
      simpa [Call.text] using spelled hc
  | some s =>
      have hc : SpellsCallee (s.toList ++ '.' :: method.toList) (some s) method := by
        simpa using SpellsCallee.ofService (hs s rfl) hm
      simpa [Call.text] using spelled hc

/-- A call is read from its own text just if its names can be written, as those of
any call are that has been read; so two such calls with one text are one. -/
theorem parse_text_inverse :
    (∀ c : Call, parse c.text = .ok c ↔ c.WellFormed) ∧
      (∀ s c, parse s = .ok c → c.WellFormed ∧ parse c.text = .ok c) ∧
      ∀ c c' : Call, c.WellFormed → c'.WellFormed → c.text = c'.text → c = c' := by
  have hiff (c : Call) : parse c.text = .ok c ↔ c.WellFormed :=
    ⟨fun h => (parseChars_eq_ok_iff.mp h).wellFormed,
      fun h => parseChars_eq_ok_iff.mpr (spells_text h)⟩
  refine ⟨hiff, fun s c h => ?_, fun c c' h h' ht => ?_⟩
  · have hw : c.WellFormed := (parseChars_eq_ok_iff.mp h).wellFormed
    exact ⟨hw, (hiff c).mpr hw⟩
  · have hp := (hiff c).mpr h
    rw [ht, (hiff c').mpr h'] at hp
    exact (Except.ok.inj hp).symm

/-- A call with an argument of each form. -/
def payment : Call where
  service := some "Billing"
  method := "canPay"
  arguments :=
    [{ name := "resource" }, { name := "user", key := some "subject" },
      { name := "owner", key := some "resource", property := some "ownerId" },
      { name := "subject", property := some "id" }]

theorem payment_inverse :
    payment.WellFormed ∧
      payment.text =
        "Billing.canPay(resource, user: subject, owner: resource.ownerId, subject.id)" ∧
      parse payment.text = .ok payment ∧
      (parse "  isOwner ( a ,b :  c . d )" = .ok ⟨none, "isOwner",
          [{ name := "a" }, { name := "b", key := some "c", property := some "d" }]⟩ ∧
        parse "isOwner(a, b: c.d)" = .ok ⟨none, "isOwner",
          [{ name := "a" },
            { name := "b", key := some "c", property := some "d" }]⟩) := by
  have hw : payment.WellFormed := by decide
  have hs : parse "  isOwner ( a ,b :  c . d )" = .ok ⟨none, "isOwner",
      [{ name := "a" },
        { name := "b", key := some "c", property := some "d" }]⟩ := by rfl
  exact ⟨hw, by rfl, (parse_text_inverse.1 payment).mpr hw, hs,
    (parse_text_inverse.2.1 _ _ hs).2⟩

end Call

end Clearance
