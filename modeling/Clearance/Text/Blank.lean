/-!
# Blank characters

The characters that separate words: Unicode's `White_Space` property, or of ASCII alone
the five that a keyboard has always had. `trim` takes blanks off both ends of a text.
-/

namespace Clearance.Text

/-- A character with Unicode's `White_Space` property. -/
def isBlank (c : Char) : Bool :=
  let n := c.toNat
  (9 ≤ n && n ≤ 13) || n == 32 || n == 0x85 || n == 0xA0 || n == 0x1680 ||
  (0x2000 ≤ n && n ≤ 0x200A) || n == 0x2028 || n == 0x2029 || n == 0x202F ||
    n == 0x205F ||
  n == 0x3000

/-- Space, tab, line feed, form feed or carriage return. -/
def isAsciiBlank (c : Char) : Bool :=
  c == ' ' || c == '\t' || c == '\n' || c == '\x0c' || c == '\r'

/-- The text after its leading blanks. -/
def trimLeft (s : List Char) : List Char := s.dropWhile isBlank

/-- The text without what satisfies `p` at either end. -/
def trimBy (p : Char → Bool) (s : List Char) : List Char :=
  ((s.dropWhile p).reverse.dropWhile p).reverse

/-- The text between its leading and its trailing blanks. -/
def trim (s : List Char) : List Char := trimBy isBlank s

/-- Nothing but blanks. -/
def Blanks (s : List Char) : Prop := ∀ c ∈ s, isBlank c = true

theorem Blanks.append {s t : List Char} (hs : Blanks s)
    (ht : Blanks t) : Blanks (s ++ t) := by
  intro c hc
  rcases List.mem_append.mp hc with hc | hc
  · exact hs c hc
  · exact ht c hc

theorem dropWhile_of_blanks {s : List Char} (h : Blanks s) :
    s.dropWhile isBlank = [] := by
  have h' : (s ++ []).dropWhile isBlank = [].dropWhile isBlank :=
    List.dropWhile_append_of_pos h
  rwa [List.append_nil] at h'

theorem exists_trimLeft (s : List Char) : ∃ l, Blanks l ∧ s = l ++ trimLeft s :=
  ⟨s.takeWhile isBlank, List.all_eq_true.mp List.all_takeWhile,
    List.takeWhile_append_dropWhile.symm⟩

/-- Trimming takes blanks off and nothing else. -/
theorem exists_trim (s : List Char) :
    ∃ l r, Blanks l ∧ Blanks r ∧ s = l ++ trim s ++ r := by
  obtain ⟨l, hl, hs⟩ := exists_trimLeft s
  obtain ⟨r, hr, ht⟩ := exists_trimLeft (trimLeft s).reverse
  refine ⟨l, r.reverse, hl, fun c hc => hr c (List.mem_reverse.mp hc), ?_⟩
  have ht' : trimLeft s = trim s ++ r.reverse := by
    have := congrArg List.reverse ht
    rwa [List.reverse_reverse, List.reverse_append] at this
  rw [List.append_assoc, ← ht', ← hs]

/-- Blanks around a text do not outlive trimming. -/
theorem trim_pad {l s r : List Char} (hl : Blanks l) (hr : Blanks r) :
    trim (l ++ s ++ r) = trim s := by
  have hr' : Blanks r.reverse := fun c hc => hr c (List.mem_reverse.mp hc)
  unfold trim trimBy
  rw [List.append_assoc, List.dropWhile_append_of_pos hl, List.dropWhile_append]
  split
  · next hs =>
      rw [dropWhile_of_blanks hr, List.isEmpty_iff.mp hs]
  · rw [List.reverse_append, List.dropWhile_append_of_pos hr']

theorem trim_of_blanks {s : List Char} (h : Blanks s) : trim s = [] := by
  unfold trim trimBy
  rw [dropWhile_of_blanks h]
  rfl

theorem trim_eq_nil_iff {s : List Char} : trim s = [] ↔ Blanks s := by
  constructor
  · intro h
    obtain ⟨l, r, hl, hr, hs⟩ := exists_trim s
    rw [h, List.append_nil] at hs
    exact hs ▸ hl.append hr
  · exact trim_of_blanks

/-- A text that begins and ends with other characters is left as it is. -/
theorem trim_eq_self {c d : Char} {s t u : List Char} (hc : isBlank c = false)
    (hd : isBlank d = false) (hs : s = c :: t) (hs' : s = u ++ [d]) : trim s = s := by
  have hl : s.dropWhile isBlank = s := by
    rw [hs, List.dropWhile_cons_of_neg (by simp [hc])]
  unfold trim trimBy
  rw [hl, hs', List.reverse_append, List.reverse_singleton, List.singleton_append,
    List.dropWhile_cons_of_neg (by simp [hd]), List.reverse_cons, List.reverse_reverse]

end Clearance.Text
