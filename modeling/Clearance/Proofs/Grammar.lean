import Clearance.Call
import Clearance.Proofs.InTurn

/-!
# What is written like a call

This file says which texts are calls, and of which call each is the text, as a
relation that nothing is read with. `Call.parse` reads a call from a text just if
the text is written like that call.

The grammar has blanks around the callee and around the names in an argument. The
reader takes them off over and over: off the whole text, off what the parentheses
hold, off each piece of that, and off each name. Only the first and the last of
these make a difference. What reads a part of an argument does not see blanks
around it (`name_pad`, `nameAndProperty_pad`), so the trimming in between is idle,
and the proofs are about cutting alone.
-/

namespace Clearance

namespace Call

open Text (Blanks)

/-! ## The grammar -/

/-- A name of a service or of a method. -/
def IsSegment (s : List Char) : Prop :=
  s ≠ [] ∧ ∀ c ∈ s, c ≠ '(' ∧ c ≠ ')' ∧ c ≠ '.' ∧ Text.isBlank c = false

/-- A name in an argument. -/
def IsName (s : List Char) : Prop :=
  s ≠ [] ∧ ∀ c ∈ s,
    ('A' ≤ c ∧ c ≤ 'Z') ∨ ('a' ≤ c ∧ c ≤ 'z') ∨ ('0' ≤ c ∧ c ≤ '9') ∨ c = '_'

-- By the characters of the text, since another instance goes through all there are.
instance (s : List Char) : Decidable (IsSegment s) :=
  @instDecidableAnd _ _ inferInstance (List.decidableBAll _ s)

instance (s : List Char) : Decidable (IsName s) :=
  @instDecidableAnd _ _ inferInstance (List.decidableBAll _ s)

/-- A method, or a service and its method. -/
inductive SpellsCallee : List Char → Option String → String → Prop where
  | alone {m} (hm : IsSegment m) : SpellsCallee m none (.ofList m)
  | ofService {s m} (hs : IsSegment s) (hm : IsSegment m) :
      SpellsCallee (s ++ '.' :: m) (some (.ofList s)) (.ofList m)

/-- A name, with blanks around it. -/
inductive SpellsName : List Char → String → Prop where
  | mk {l n r} (hl : Blanks l) (hn : IsName n) (hr : Blanks r) :
      SpellsName (l ++ n ++ r) (.ofList n)

/-- A name, and perhaps a property after a dot. -/
inductive SpellsSource : List Char → String → Option String → Prop where
  | alone {s n} (hn : SpellsName s n) : SpellsSource s n none
  | ofProperty {s n t p} (hn : SpellsName s n) (hp : SpellsName t p) :
      SpellsSource (s ++ '.' :: t) n (some p)

inductive SpellsArgument : List Char → CallArgument → Prop where
  | own {s n p} (h : SpellsSource s n p) :
      SpellsArgument s { name := n, property := p }
  | keyed {s n t k p} (hn : SpellsName s n) (h : SpellsSource t k p) :
      SpellsArgument (s ++ ':' :: t) { name := n, key := some k, property := p }

/-- Blanks alone, or one argument or more with commas between them. -/
def SpellsArguments (s : List Char) (as : List CallArgument) : Prop :=
  (Blanks s ∧ as = []) ∨ ∃ pieces, pieces ≠ [] ∧ s = Text.join [','] pieces ∧
    List.Forall₂ SpellsArgument pieces as

inductive Spells : List Char → Call → Prop where
  | mk {l callee m args r service method arguments} (hl : Blanks l)
      (hc : SpellsCallee callee service method) (hm : Blanks m)
      (ha : SpellsArguments args arguments) (hr : Blanks r) :
      Spells (l ++ callee ++ m ++ '(' :: args ++ ')' :: r) ⟨service, method, arguments⟩

/-! ## Characters -/

theorem isNameChar_iff {c : Char} :
    isNameChar c = true ↔
      ('A' ≤ c ∧ c ≤ 'Z') ∨ ('a' ≤ c ∧ c ≤ 'z') ∨ ('0' ≤ c ∧ c ≤ '9') ∨ c = '_' := by
  have within {a b : Char} :
      (decide (a.val ≤ c.val) && decide (c.val ≤ b.val)) = true ↔ a ≤ c ∧ c ≤ b := by
    rw [Bool.and_eq_true, decide_eq_true_eq, decide_eq_true_eq]
    exact Iff.rfl
  have hupper : c.isUpper = true ↔ 'A' ≤ c ∧ c ≤ 'Z' := decide_eq_true_iff
  have hlower : c.isLower = true ↔ 'a' ≤ c ∧ c ≤ 'z' := within
  have hdigit : c.isDigit = true ↔ '0' ≤ c ∧ c ≤ '9' := within
  have h : isNameChar c = (((c.isUpper || c.isLower) || c.isDigit) || c == '_') := rfl
  rw [h, Bool.or_eq_true, Bool.or_eq_true, Bool.or_eq_true, hupper, hlower, hdigit,
    beq_iff_eq, or_assoc, or_assoc]

theorem isBlank_of_isNameChar {c : Char}
    (h : isNameChar c = true) : Text.isBlank c = false := by
  have h' : (65 ≤ c.toNat ∧ c.toNat ≤ 90) ∨ (97 ≤ c.toNat ∧ c.toNat ≤ 122) ∨
      (48 ≤ c.toNat ∧ c.toNat ≤ 57) ∨ c.toNat = 95 := by
    rcases isNameChar_iff.mp h with h | h | h | rfl
    · exact .inl h
    · exact .inr (.inl h)
    · exact .inr (.inr (.inl h))
    · exact .inr (.inr (.inr rfl))
  simp [Text.isBlank]
  omega

theorem notMem_of_blanks {s : List Char} {sep : Char} (hb : Text.isBlank sep = false)
    (h : Blanks s) : sep ∉ s := by
  intro hm
  rw [h sep hm] at hb
  cases hb

/-! ## Names -/

theorem isName_iff {s : List Char} :
    IsName s ↔ s ≠ [] ∧ ∀ c ∈ s, isNameChar c = true := by
  simp only [IsName, isNameChar_iff]

theorem IsName.trim_eq {s : List Char} (h : IsName s) : Text.trim s = s := by
  obtain ⟨hne, hs⟩ := isName_iff.mp h
  obtain ⟨c, t, hc⟩ := List.exists_cons_of_ne_nil hne
  obtain ⟨u, d, hd⟩ := List.eq_nil_or_concat s |>.resolve_left hne
  refine Text.trim_eq_self (isBlank_of_isNameChar (hs c ?_))
    (isBlank_of_isNameChar (hs d ?_)) hc (by simpa using hd)
  · simp [hc]
  · simp [hd]

theorem name_pad {l r : List Char} (hl : Blanks l) (hr : Blanks r) (s : List Char) :
    name (l ++ s ++ r) = name s := by
  unfold name
  rw [Text.trim_pad hl hr]

theorem name_eq_ok_iff {s : List Char} {n : String} :
    name s = .ok n ↔ SpellsName s n := by
  constructor
  · intro h
    obtain ⟨l, r, hl, hr, hs⟩ := Text.exists_trim s
    simp only [name] at h
    split at h
    · cases h
    · next hne =>
        split at h
        · next ha =>
            cases h
            have hn : IsName (Text.trim s) :=
              isName_iff.mpr ⟨fun he => hne (List.isEmpty_iff.mpr he),
                List.all_eq_true.mp ha⟩
            have := SpellsName.mk hl hn hr
            rwa [← hs] at this
        · cases h
  · rintro ⟨hl, hn, hr⟩
    obtain ⟨hne, ha⟩ := isName_iff.mp hn
    rw [name_pad hl hr]
    unfold name
    rw [hn.trim_eq, if_neg (by simp [hne]), if_pos (List.all_eq_true.mpr ha)]
    rfl

theorem SpellsName.notMem {s : List Char} {n : String} (h : SpellsName s n)
    {sep : Char} (hb : Text.isBlank sep = false)
    (hs : isNameChar sep = false) : sep ∉ s := by
  obtain ⟨hl, hn, hr⟩ := h
  have hn' : sep ∉ _ := fun hm => by
    rw [(isName_iff.mp hn).2 sep hm] at hs
    cases hs
  simp [notMem_of_blanks hb hl, notMem_of_blanks hb hr, hn']

/-! ## Sources -/

theorem nameAndProperty_of_notMem {s : List Char} (h : '.' ∉ s) :
    nameAndProperty s = (name s).map fun key => (key, none) := by
  unfold nameAndProperty
  rw [Text.splitFirst?_of_notMem h]
  cases name s <;> rfl

theorem nameAndProperty_append {s : List Char} (h : '.' ∉ s) (t : List Char) :
    nameAndProperty (s ++ '.' :: t) =
      (do
        let key ← name s
        let property ← name t
        pure (key, some property)) := by
  unfold nameAndProperty
  rw [Text.splitFirst?_append h]

theorem nameAndProperty_pad {l r : List Char} (hl : Blanks l) (hr : Blanks r)
    (s : List Char) :
    nameAndProperty (l ++ s ++ r) = nameAndProperty s := by
  have hl' : '.' ∉ l := notMem_of_blanks (by decide) hl
  have hr' : '.' ∉ r := notMem_of_blanks (by decide) hr
  rcases Text.notMem_or_exists_append '.' s with h | ⟨a, b, rfl, ha⟩
  · rw [nameAndProperty_of_notMem h, nameAndProperty_of_notMem (by simp [hl', h, hr']),
      name_pad hl hr]
  · have hla : name (l ++ a) = name a := by
      simpa using name_pad hl (r := []) (by simp [Blanks]) a
    have hbr : name (b ++ r) = name b := name_pad (l := []) (by simp [Blanks]) hr b
    rw [nameAndProperty_append ha, ← List.append_assoc, List.append_assoc (l ++ a),
      List.cons_append, nameAndProperty_append (by simp [hl', ha]), hla, hbr]

theorem nameAndProperty_eq_ok_iff {s : List Char} {n : String} {p : Option String} :
    nameAndProperty s = .ok (n, p) ↔ SpellsSource s n p := by
  constructor
  · intro h
    rcases Text.notMem_or_exists_append '.' s with hs | ⟨a, b, rfl, ha⟩
    · rw [nameAndProperty_of_notMem hs] at h
      rcases hn : name s with err | key
      · rw [hn] at h
        cases h
      · rw [hn] at h
        cases h
        exact .alone (name_eq_ok_iff.mp hn)
    · rw [nameAndProperty_append ha] at h
      obtain ⟨key, hk, h⟩ := bind_eq_ok.mp h
      obtain ⟨property, hp, h⟩ := bind_eq_ok.mp h
      cases h
      exact .ofProperty (name_eq_ok_iff.mp hk) (name_eq_ok_iff.mp hp)
  · intro h
    cases h with
    | alone hn =>
        rw [nameAndProperty_of_notMem (hn.notMem (by decide) (by decide)),
          name_eq_ok_iff.mpr hn]
        rfl
    | ofProperty hn hp =>
        rw [nameAndProperty_append (hn.notMem (by decide) (by decide)),
          name_eq_ok_iff.mpr hn, name_eq_ok_iff.mpr hp]
        rfl

theorem SpellsSource.notMem {s : List Char} {n : String} {p : Option String}
    (h : SpellsSource s n p) {sep : Char} (hb : Text.isBlank sep = false)
    (hs : isNameChar sep = false) (hd : sep ≠ '.') : sep ∉ s := by
  cases h with
  | alone hn => exact hn.notMem hb hs
  | ofProperty hn hp => simp [hn.notMem hb hs, hp.notMem hb hs, hd]

/-! ## Arguments

An argument is trimmed before it is cut. The two lemmas on cutting say that this
makes no difference. -/

theorem nameAndProperty_trim (s : List Char) :
    nameAndProperty (Text.trim s) = nameAndProperty s := by
  obtain ⟨l, r, hl, hr, hs⟩ := Text.exists_trim s
  conv_rhs => rw [hs]
  exact (nameAndProperty_pad hl hr _).symm

theorem argument_of_notMem {s : List Char} (h : ':' ∉ s) :
    argument s = (nameAndProperty s).map fun p =>
      { name := p.1, property := p.2 } := by
  have ht : ':' ∉ Text.trim s := by
    obtain ⟨l, r, _, _, hs⟩ := Text.exists_trim s
    rw [hs] at h
    simp only [List.mem_append, not_or] at h
    exact h.1.2
  rw [← nameAndProperty_trim s]
  simp only [argument, Text.splitFirst?_of_notMem ht]
  split
  · next he =>
      rw [List.isEmpty_iff.mp he]
      rfl
  · cases nameAndProperty (Text.trim s) <;> rfl

/-- The first colon of a text is also the first of the trimmed text. -/
theorem exists_trim_append {own : List Char} (h : ':' ∉ own) (source : List Char) :
    ∃ a b, Text.trim (own ++ ':' :: source) = a ++ ':' :: b ∧ ':' ∉ a ∧
      name own = name a ∧
      nameAndProperty source = nameAndProperty b := by
  obtain ⟨l, r, hl, hr, hs⟩ := Text.exists_trim (own ++ ':' :: source)
  have hl' : ':' ∉ l := notMem_of_blanks (by decide) hl
  have hr' : ':' ∉ r := notMem_of_blanks (by decide) hr
  have hcut := Text.splitFirst?_pad hl' hr' (Text.trim (own ++ ':' :: source))
  rw [← hs, Text.splitFirst?_append h] at hcut
  rcases Text.notMem_or_exists_append ':' (Text.trim (own ++ ':' :: source)) with
    ht | ⟨a, b, ht, ha⟩
  · rw [Text.splitFirst?_of_notMem ht] at hcut
    cases hcut
  · rw [ht, Text.splitFirst?_append ha] at hcut
    cases hcut
    refine ⟨a, b, ht, ha, ?_, ?_⟩
    · simpa using name_pad hl (r := []) (by simp [Blanks]) a
    · exact nameAndProperty_pad (l := []) (by simp [Blanks]) hr b

theorem argument_append {own : List Char} (h : ':' ∉ own) (source : List Char) :
    argument (own ++ ':' :: source) =
      (do
        let own ← name own
        let (key, property) ← nameAndProperty source
        pure { name := own, key := some key, property }) := by
  obtain ⟨a, b, ht, ha, hown, hsource⟩ := exists_trim_append h source
  rw [hown, hsource]
  simp only [argument, ht, Text.splitFirst?_append ha]
  rw [if_neg (by simp)]

theorem argument_eq_ok_iff {s : List Char} {a : CallArgument} :
    argument s = .ok a ↔ SpellsArgument s a := by
  constructor
  · intro h
    rcases Text.notMem_or_exists_append ':' s with hs | ⟨own, source, rfl, ho⟩
    · rw [argument_of_notMem hs] at h
      rcases hn : nameAndProperty s with err | ⟨n, p⟩
      · rw [hn] at h
        cases h
      · rw [hn] at h
        cases h
        exact .own (nameAndProperty_eq_ok_iff.mp hn)
    · rw [argument_append ho] at h
      obtain ⟨n, hn, h⟩ := bind_eq_ok.mp h
      obtain ⟨⟨k, p⟩, hk, h⟩ := bind_eq_ok.mp h
      cases h
      exact .keyed (name_eq_ok_iff.mp hn) (nameAndProperty_eq_ok_iff.mp hk)
  · intro h
    cases h with
    | own hs =>
        rw [argument_of_notMem (hs.notMem (by decide) (by decide) (by decide)),
          nameAndProperty_eq_ok_iff.mpr hs]
        rfl
    | keyed hn hs =>
        rw [argument_append (hn.notMem (by decide) (by decide)), name_eq_ok_iff.mpr hn,
          nameAndProperty_eq_ok_iff.mpr hs]
        rfl

/-! ## Lists of arguments

What the parentheses hold is trimmed before it is cut as well, so the first piece
has lost the blanks before it and the last the blanks after it. -/

theorem argument_pad {l r : List Char} (hl : Blanks l) (hr : Blanks r)
    (s : List Char) :
    argument (l ++ s ++ r) = argument s := by
  unfold argument
  rw [Text.trim_pad hl hr]

theorem mapM_argument_pad {l r : List Char} (hl : Blanks l) (hr : Blanks r)
    (s : List Char) :
    (Text.split ',' (l ++ s ++ r)).mapM argument =
      (Text.split ',' s).mapM argument := by
  have hl' : ',' ∉ l := notMem_of_blanks (by decide) hl
  have hr' : ',' ∉ r := notMem_of_blanks (by decide) hr
  -- The induction goes from one comma to the next, not from character to character.
  induction hn : s.length using Nat.strongRecOn generalizing s l with
  | ind n ih =>
      rcases Text.notMem_or_exists_append ',' s with h | ⟨a, b, rfl, ha⟩
      · rw [Text.split_of_notMem h, Text.split_of_notMem (by simp [hl', h, hr'])]
        simp only [List.mapM_cons, List.mapM_nil, argument_pad hl hr]
      · have hb : b.length < n := by
          simp only [List.length_append, List.length_cons] at hn
          omega
        have hla : argument (l ++ a) = argument a := by
          simpa using argument_pad hl (r := []) (by simp [Blanks]) a
        have hrest : (Text.split ',' (b ++ r)).mapM argument =
            (Text.split ',' b).mapM argument :=
          ih _ hb (l := []) (by simp [Blanks]) b (by simp) rfl
        rw [← List.append_assoc, List.append_assoc (l ++ a), List.cons_append,
          Text.split_append (by simp [hl', ha]), Text.split_append ha, List.mapM_cons,
          List.mapM_cons, hla, hrest]

theorem arguments?_of_blanks {s : List Char}
    (h : Blanks s) : arguments? s = .ok [] := by
  simp only [arguments?, Text.trim_of_blanks h]
  rfl

theorem arguments?_of_not_blanks {s : List Char} (h : ¬ Blanks s) :
    arguments? s = (Text.split ',' s).mapM argument := by
  obtain ⟨l, r, hl, hr, hs⟩ := Text.exists_trim s
  have hne : Text.trim s ≠ [] := fun he => h (Text.trim_eq_nil_iff.mp he)
  simp only [arguments?]
  rw [if_neg (by simp [hne]), ← mapM_argument_pad hl hr, ← hs]

theorem SpellsSource.not_blanks {s : List Char} {n : String} {p : Option String}
    (h : SpellsSource s n p) : ¬ Blanks s := by
  have hname {s n} (h : SpellsName s n) : ∃ c ∈ s, Text.isBlank c = false := by
    obtain ⟨_, ⟨hne, hn⟩, _⟩ := h
    obtain ⟨c, t, rfl⟩ := List.exists_cons_of_ne_nil hne
    exact ⟨c, by simp, isBlank_of_isNameChar (isNameChar_iff.mpr (hn c (by simp)))⟩
  intro hb
  cases h with
  | alone hn =>
      obtain ⟨c, hc, hf⟩ := hname hn
      exact Bool.false_ne_true (hf.symm.trans (hb c hc))
  | ofProperty hn =>
      obtain ⟨c, hc, hf⟩ := hname hn
      exact Bool.false_ne_true (hf.symm.trans (hb c (List.mem_append_left _ hc)))

theorem SpellsArgument.notMem_comma {s : List Char} {a : CallArgument}
    (h : SpellsArgument s a) : ',' ∉ s := by
  cases h with
  | own h => exact h.notMem (by decide) (by decide) (by decide)
  | keyed hn h =>
      have hs : ',' ∉ _ := hn.notMem (by decide) (by decide)
      have ht : ',' ∉ _ := h.notMem (by decide) (by decide) (by decide)
      simp [hs, ht]

theorem SpellsArgument.not_blanks {s : List Char} {a : CallArgument}
    (h : SpellsArgument s a) : ¬ Blanks s := by
  intro hb
  cases h with
  | own h => exact h.not_blanks hb
  | keyed hn h => exact h.not_blanks fun c hc => hb c (by simp [hc])

theorem not_blanks_join {pieces : List (List Char)} {as : List CallArgument}
    (hne : pieces ≠ []) (h : List.Forall₂ SpellsArgument pieces as) :
    ¬ Blanks (Text.join [','] pieces) := by
  intro hb
  cases h with
  | nil => exact hne rfl
  | @cons p _ ps _ ha _ =>
      obtain ⟨t, ht⟩ := Text.exists_join_cons [','] p ps
      rw [ht] at hb
      exact ha.not_blanks fun c hc => hb c (List.mem_append_left _ hc)

theorem arguments?_eq_ok_iff {s : List Char} {as : List CallArgument} :
    arguments? s = .ok as ↔ SpellsArguments s as := by
  constructor
  · intro h
    by_cases hb : Blanks s
    · rw [arguments?_of_blanks hb] at h
      cases h
      exact .inl ⟨hb, rfl⟩
    · rw [arguments?_of_not_blanks hb] at h
      refine .inr ⟨Text.split ',' s, Text.split_ne_nil _ _,
        (Text.join_split _ _).symm, ?_⟩
      exact (mapM_eq_ok.mp h).imp fun _ _ ha => argument_eq_ok_iff.mp ha
  · rintro (⟨hb, rfl⟩ | ⟨pieces, hne, rfl, hp⟩)
    · exact arguments?_of_blanks hb
    · have hcomma : ∀ p ∈ pieces, ',' ∉ p :=
        ((List.forall₂_and_left _ _).mp (hp.imp fun _ _ ha => ⟨ha.notMem_comma, ha⟩)).1
      rw [arguments?_of_not_blanks (not_blanks_join hne hp),
        Text.split_join hne hcomma]
      exact mapM_eq_ok.mpr (hp.imp fun _ _ ha => argument_eq_ok_iff.mpr ha)

/-! ## The callee -/

theorem isSegment_iff {s : List Char} :
    IsSegment s ↔ s ≠ [] ∧ '.' ∉ s ∧ ∀ c ∈ s, isCalleeChar c = true := by
  have hc (c : Char) : isCalleeChar c = true ↔
      c ≠ '(' ∧ c ≠ ')' ∧ Text.isBlank c = false := by
    simp [isCalleeChar, and_assoc]
  constructor
  · rintro ⟨hne, h⟩
    refine ⟨hne, fun hm => (h '.' hm).2.2.1 rfl, fun c hm => ?_⟩
    obtain ⟨h₁, h₂, _, hb⟩ := h c hm
    exact (hc c).mpr ⟨h₁, h₂, hb⟩
  · rintro ⟨hne, hd, h⟩
    refine ⟨hne, fun c hm => ?_⟩
    obtain ⟨h₁, h₂, hb⟩ := (hc c).mp (h c hm)
    exact ⟨h₁, h₂, fun he => hd (he ▸ hm), hb⟩

theorem SpellsCallee.ne_nil {callee : List Char} {service : Option String}
    {method : String} (h : SpellsCallee callee service method) : callee ≠ [] := by
  cases h with
  | alone hm => exact hm.1
  | ofService hs hm => simp

theorem SpellsCallee.isCalleeChar {callee : List Char} {service : Option String}
    {method : String} (h : SpellsCallee callee service method) :
    ∀ c ∈ callee, isCalleeChar c = true := by
  cases h with
  | alone hm => exact (isSegment_iff.mp hm).2.2
  | ofService hs hm =>
      intro c hc
      rcases List.mem_append.mp hc with hc | hc
      · exact (isSegment_iff.mp hs).2.2 c hc
      · rcases List.mem_cons.mp hc with rfl | hc
        · decide
        · exact (isSegment_iff.mp hm).2.2 c hc

theorem splitCallee?_eq_some_iff {callee : List Char} {service : Option String}
    {method : String} (hc : ∀ c ∈ callee, Call.isCalleeChar c = true) :
    splitCallee? callee = some (service, method) ↔
      SpellsCallee callee service method := by
  constructor
  · intro h
    unfold splitCallee? at h
    rcases Text.notMem_or_exists_append '.' callee with hd | ⟨s, rest, rfl, hd⟩
    · rw [Text.split_of_notMem hd] at h
      simp only [Option.ite_none_left_eq_some, Bool.not_eq_true,
        List.isEmpty_eq_false_iff] at h
      obtain ⟨hne, h⟩ := h
      cases h
      exact .alone (isSegment_iff.mpr ⟨hne, hd, hc⟩)
    · rw [Text.split_append hd] at h
      rcases Text.notMem_or_exists_append '.' rest with hd' | ⟨m, rest', rfl, hd'⟩
      · rw [Text.split_of_notMem hd'] at h
        simp only [Option.ite_none_left_eq_some, Bool.not_eq_true,
          Bool.or_eq_false_iff, List.isEmpty_eq_false_iff] at h
        obtain ⟨⟨hs, hm⟩, h⟩ := h
        cases h
        refine .ofService (isSegment_iff.mpr ⟨hs, hd, fun c hm => hc c ?_⟩)
          (isSegment_iff.mpr ⟨hm, hd', fun c hm => hc c ?_⟩)
        · exact List.mem_append_left _ hm
        · exact List.mem_append_right _ (List.mem_cons_of_mem _ hm)
      · -- Three pieces at least.
        rw [Text.split_append hd'] at h
        obtain ⟨p, ps, hp⟩ := List.exists_cons_of_ne_nil (Text.split_ne_nil '.' rest')
        rw [hp] at h
        cases h
  · intro h
    unfold splitCallee?
    cases h with
    | alone hm =>
        obtain ⟨hne, hd, _⟩ := isSegment_iff.mp hm
        rw [Text.split_of_notMem hd]
        simp [hne]
    | ofService hs hm =>
        obtain ⟨hs, hd, _⟩ := isSegment_iff.mp hs
        obtain ⟨hm, hd', _⟩ := isSegment_iff.mp hm
        rw [Text.split_append hd, Text.split_of_notMem hd']
        simp [hs, hm]

/-! ## The whole -/

theorem span_isCalleeChar {callee m : List Char}
    (hc : ∀ c ∈ callee, Call.isCalleeChar c = true) (hm : Blanks m) (t : List Char) :
    (callee ++ (m ++ '(' :: t)).takeWhile Call.isCalleeChar = callee ∧
      (callee ++ (m ++ '(' :: t)).dropWhile Call.isCalleeChar = m ++ '(' :: t := by
  rw [List.takeWhile_append_of_pos hc, List.dropWhile_append_of_pos hc]
  cases m with
  | nil => simp [Call.isCalleeChar]
  | cons b m =>
      have hb : Text.isBlank b = true := hm b (by simp)
      simp [Call.isCalleeChar, hb]

/-- The callee is followed by the first parenthesis, and the text ends with
the last. -/
theorem outline?_eq_some_iff {s callee inner : List Char} :
    outline? s = some (callee, inner) ↔
      callee ≠ [] ∧ (∀ c ∈ callee, isCalleeChar c = true) ∧
        ∃ l m r, Blanks l ∧ Blanks m ∧ Blanks r ∧
          s = l ++ callee ++ m ++ '(' :: inner ++ ')' :: r := by
  constructor
  · intro h
    simp only [outline?] at h
    split at h
    · next rest hrest =>
        split at h
        · next hcond =>
            cases h
            simp only [Bool.and_eq_true, Bool.not_eq_true', List.isEmpty_eq_false_iff,
              beq_iff_eq] at hcond
            obtain ⟨hne, hlast⟩ := hcond
            obtain ⟨inner, rfl⟩ := List.getLast?_eq_some_iff.mp hlast
            obtain ⟨l, r, hl, hr, hs⟩ := Text.exists_trim s
            obtain ⟨m, hm, hd⟩ :=
              Text.exists_trimLeft ((Text.trim s).dropWhile Call.isCalleeChar)
            refine ⟨hne, List.all_eq_true.mp List.all_takeWhile, l, m, r, hl,
              hm, hr, ?_⟩
            rw [hrest] at hd
            have ht := List.takeWhile_append_dropWhile
              (p := Call.isCalleeChar) (l := Text.trim s)
            rw [hd] at ht
            conv_lhs => rw [hs, ← ht]
            simp
        · cases h
    · cases h
  · rintro ⟨hne, hc, l, m, r, hl, hm, hr, rfl⟩
    have hs : l ++ callee ++ m ++ '(' :: inner ++ ')' :: r =
        l ++ (callee ++ (m ++ '(' :: (inner ++ [')']))) ++ r := by simp
    have ht : Text.trim (l ++ (callee ++ (m ++ '(' :: (inner ++ [')']))) ++ r) =
        callee ++ (m ++ '(' :: (inner ++ [')'])) := by
      obtain ⟨c, t, rfl⟩ := List.exists_cons_of_ne_nil hne
      have hb : Text.isBlank c = false := by
        have := hc c (by simp)
        simp only [Call.isCalleeChar, Bool.not_eq_true', Bool.or_eq_false_iff] at this
        exact this.2
      have hlast : c :: t ++ (m ++ '(' :: (inner ++ [')'])) =
          c :: t ++ m ++ '(' :: inner ++ [')'] := by
        simp
      rw [Text.trim_pad hl hr]
      exact Text.trim_eq_self hb (by decide) List.cons_append hlast
    obtain ⟨htake, hdrop⟩ := span_isCalleeChar hc hm (inner ++ [')'])
    have hleft : Text.trimLeft (m ++ '(' :: (inner ++ [')'])) =
        '(' :: (inner ++ [')']) := by
      unfold Text.trimLeft
      rw [List.dropWhile_append_of_pos hm, List.dropWhile_cons_of_neg (by decide)]
    rw [hs]
    simp only [outline?, ht, htake, hdrop, hleft]
    simp [hne]

theorem parseChars_eq_ok_iff {s : List Char} {c : Call} :
    parseChars s = .ok c ↔ Spells s c := by
  constructor
  · intro h
    unfold parseChars at h
    split at h
    · cases h
    · next callee inner ho =>
        obtain ⟨_, hc, l, m, r, hl, hm, hr, rfl⟩ := outline?_eq_some_iff.mp ho
        split at h
        · cases h
        · next service method hcallee =>
            obtain ⟨as, ha, h⟩ := bind_eq_ok.mp h
            cases h
            exact .mk hl ((splitCallee?_eq_some_iff hc).mp hcallee) hm
              (arguments?_eq_ok_iff.mp ha) hr
  · rintro ⟨hl, hc, hm, ha, hr⟩
    unfold parseChars
    rw [outline?_eq_some_iff.mpr
      ⟨hc.ne_nil, hc.isCalleeChar, _, _, _, hl, hm, hr, rfl⟩]
    simp only [(splitCallee?_eq_some_iff hc.isCalleeChar).mpr hc,
      arguments?_eq_ok_iff.mpr ha]
    rfl

/-! ## What is no call -/

/-- If this fails, it is for a fault of the configuration. -/
def Misconfigures {α : Type} (r : Except AccessError α) : Prop :=
  ∀ err, r = .error err → ∃ fault, err = .configuration fault

theorem misconfigures_ok {α : Type} (a : α) : Misconfigures (.ok a) :=
  fun _ h => by cases h

theorem misconfigures_error {α : Type} (fault : ConfigurationFault) :
    Misconfigures (.error (.configuration fault) : Except AccessError α) := by
  intro err h
  cases h
  exact ⟨fault, rfl⟩

theorem Misconfigures.bind {α β : Type} {x : Except AccessError α}
    {f : α → Except AccessError β} (hx : Misconfigures x)
    (hf : ∀ a, Misconfigures (f a)) : Misconfigures (x >>= f) := by
  cases x with
  | error err => exact fun err' h => hx err' (by cases h; rfl)
  | ok a => exact hf a

theorem misconfigures_mapM {α β : Type} {f : α → Except AccessError β}
    (hf : ∀ a, Misconfigures (f a)) (xs : List α) : Misconfigures (xs.mapM f) := by
  induction xs with
  | nil => exact misconfigures_ok []
  | cons x xs ih =>
      rw [List.mapM_cons]
      exact (hf x).bind fun y => ih.bind fun ys => misconfigures_ok (y :: ys)

theorem misconfigures_name (s : List Char) : Misconfigures (name s) := by
  simp only [name]
  split
  · exact misconfigures_error _
  · split
    · exact misconfigures_ok _
    · exact misconfigures_error _

theorem misconfigures_nameAndProperty (s : List Char) :
    Misconfigures (nameAndProperty s) := by
  unfold nameAndProperty
  split
  · exact (misconfigures_name _).bind fun _ =>
      (misconfigures_name _).bind fun _ => misconfigures_ok _
  · exact (misconfigures_name _).bind fun _ => misconfigures_ok _

theorem misconfigures_argument (s : List Char) : Misconfigures (argument s) := by
  simp only [argument]
  split
  · exact misconfigures_error _
  · split
    · exact (misconfigures_name _).bind fun _ =>
        (misconfigures_nameAndProperty _).bind fun _ => misconfigures_ok _
    · exact (misconfigures_nameAndProperty _).bind fun _ => misconfigures_ok _

theorem misconfigures_parseChars (s : List Char) : Misconfigures (parseChars s) := by
  unfold parseChars
  split
  · exact misconfigures_error _
  · next callee inner _ =>
      split
      · exact misconfigures_error _
      · refine Misconfigures.bind ?_ fun _ => misconfigures_ok _
        by_cases hb : Blanks inner
        · rw [arguments?_of_blanks hb]
          exact misconfigures_ok _
        · rw [arguments?_of_not_blanks hb]
          exact misconfigures_mapM misconfigures_argument _

/-- A text is read as a call just if it is written like that call, which it is of
at most one; any other text is refused as a fault of the configuration. -/
theorem parse_accepts_grammar (text : String) :
    (∀ c, parse text = .ok c ↔ Spells text.toList c) ∧
      ((∃! c, Spells text.toList c) ∨
        (∀ c, ¬ Spells text.toList c) ∧
          ∃ fault, parse text = .error (.configuration fault)) := by
  have hiff (c : Call) : parse text = .ok c ↔ Spells text.toList c :=
    parseChars_eq_ok_iff
  refine ⟨hiff, ?_⟩
  rcases h : parse text with err | c
  · right
    obtain ⟨fault, rfl⟩ := misconfigures_parseChars text.toList err h
    refine ⟨fun c hc => ?_, fault, rfl⟩
    rw [(hiff c).mpr hc] at h
    cases h
  · left
    refine ⟨c, (hiff c).mp h, fun c' hc' => ?_⟩
    exact Except.ok.inj (((hiff c').mpr hc').symm.trans h)

end Call

end Clearance
