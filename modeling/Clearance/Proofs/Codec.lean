import Clearance.Json.Reader
import Clearance.Policy.Declarations

/-!
# Policies and declarations survive being written

What is written of a policy reads as this policy, and what is written of declarations
as these declarations, by whatever rules a document is read. In the other direction,
from a map to a policy, all depends on the members that the kind of the policy has a
use for. `DescribedBy` says what a policy expects of them, `HasFields` what its kind
does, and no other member is looked at.

The kinds that are known are those under which a policy can be written, except
`unrecognized`. This is a name like any other that has no meaning, which is why such a
policy survives as well.

A policy is refused if an integer of more than sixty-four bits stands anywhere in it.
No text in JSON has such an integer: `hasWordsOnly_of_parse` says this of the reader,
and so in JSON the other members of a policy are of no account at all.
-/

namespace Clearance

theorem Entries.mem_ofPairs {α : Type} {pairs : List (String × α)} {p : String × α}
    (h : p ∈ Entries.ofPairs pairs) : p ∈ pairs := by
  have from_fold : ∀ (qs : List (String × α)) (t : Entries α),
      p ∈ qs.foldl (fun t q => Entries.insert q.1 q.2 t) t → p ∈ qs ∨ p ∈ t := by
    intro qs
    induction qs with
    | nil => exact fun t ht => .inr ht
    | cons q qs ih =>
        intro t ht
        rcases ih _ ht with hq | hq
        · exact .inl (List.mem_cons_of_mem _ hq)
        · rcases Entries.mem_insert hq with rfl | hq
          · exact .inl (List.mem_cons_self ..)
          · exact .inr hq
  exact (from_fold pairs [] h).resolve_right fun h => nomatch h

/-! ## What is read from a text -/

namespace Json

variable {s rest : List Char} {j : Json}

theorem haveWordsOnly_iff {js : List Json} :
    haveWordsOnly js = true ↔ ∀ j ∈ js, j.hasWordsOnly = true := by
  induction js with
  | nil => simp [haveWordsOnly]
  | cons j js ih => rw [haveWordsOnly, Bool.and_eq_true, ih, List.forall_mem_cons]

theorem fieldsHaveWordsOnly_iff {fields : List (String × Json)} :
    fieldsHaveWordsOnly fields = true ↔ ∀ p ∈ fields, p.2.hasWordsOnly = true := by
  induction fields with
  | nil => simp [fieldsHaveWordsOnly]
  | cons p fields ih =>
      rw [fieldsHaveWordsOnly, Bool.and_eq_true, ih, List.forall_mem_cons]

theorem hasWordsOnly_of_ofDigits {negative : Bool} {ds : List Char}
    (h : ofDigits? negative ds = some j) : j.hasWordsOnly = true := by
  unfold ofDigits? at h
  extract_lets n at h
  split at h
  · next hn =>
      obtain rfl := Option.some.inj h
      exact hn.1
  · obtain ⟨d, _, rfl⟩ := Option.map_eq_some_iff.mp h
    rfl

theorem hasWordsOnly_of_number
    (h : number s = some (j, rest)) : j.hasWordsOnly = true := by
  unfold number at h
  split at h
  simp only [Option.bind_eq_bind, Option.ite_none_left_eq_some] at h
  obtain ⟨_, h⟩ := h
  obtain ⟨⟨fraction, _⟩, _, h⟩ := Option.bind_eq_some_iff.mp h
  obtain ⟨⟨exponent, _⟩, _, h⟩ := Option.bind_eq_some_iff.mp h
  split at h
  · obtain ⟨j', hj, h⟩ := Option.bind_eq_some_iff.mp h
    obtain ⟨rfl, _⟩ := Prod.mk.inj (Option.some.inj h)
    exact hasWordsOnly_of_ofDigits hj
  · obtain ⟨j', hj, h⟩ := Option.bind_eq_some_iff.mp h
    obtain ⟨rfl, _⟩ := Prod.mk.inj (Option.some.inj h)
    obtain ⟨d, _, rfl⟩ := Option.map_eq_some_iff.mp hj
    rfl

/-- A reader has either failed or read a document whose integers are words. -/
def ReadsWords (r : Option (Json × List Char)) : Prop :=
  ∀ j rest, r = some (j, rest) → j.hasWordsOnly = true

protected theorem ReadsWords.none : ReadsWords none := fun _ _ h => nomatch h

protected theorem ReadsWords.some (h : j.hasWordsOnly = true) :
    ReadsWords (some (j, rest)) := by
  rintro _ _ ⟨⟩
  exact h

protected theorem ReadsWords.bind {α : Type} {x : Option α}
    {f : α → Option (Json × List Char)}
    (h : ∀ a, x = some a → ReadsWords (f a)) : ReadsWords (x.bind f) := by
  intro j rest hx
  obtain ⟨a, ha, hf⟩ := Option.bind_eq_some_iff.mp hx
  exact h a ha j rest hf

/-- By induction on the fuel, which all three readers spend at every step. -/
theorem readsWords (fuel : Nat) :
    (∀ depth s, ReadsWords (value fuel depth s)) ∧
    (∀ depth acc s, (∀ j ∈ acc, j.hasWordsOnly = true) →
      ReadsWords (items fuel depth acc s)) ∧
    ∀ depth acc s, (∀ p ∈ acc, p.2.hasWordsOnly = true) →
      ReadsWords (members fuel depth acc s) := by
  induction fuel with
  | zero =>
      refine ⟨fun depth s => ?_, fun depth acc s _ => ?_, fun depth acc s _ => ?_⟩
      · rw [value.eq_def]
        exact .none
      · rw [items.eq_def]
        exact .none
      · rw [members.eq_def]
        exact .none
  | succ fuel ih =>
      obtain ⟨hvalue, hitems, hmembers⟩ := ih
      refine ⟨fun depth s => ?_, fun depth acc s hacc => ?_,
        fun depth acc s hacc => ?_⟩
      · rw [value.eq_def]
        simp only []
        split
        · exact .some rfl
        · exact .some rfl
        · exact .some rfl
        · exact .bind fun _ _ => .some rfl
        · split
          · exact .none
          · split
            · exact .some rfl
            · exact hitems _ _ _ fun _ h => nomatch h
        · split
          · exact .none
          · split
            · exact .some rfl
            · exact hmembers _ _ _ fun _ h => nomatch h
        · exact fun _ _ => hasWordsOnly_of_number
      · rw [items.eq_def]
        refine .bind ?_
        rintro ⟨item, rest⟩ hi
        have hall : ∀ j ∈ item :: acc, j.hasWordsOnly = true :=
          List.forall_mem_cons.mpr ⟨hvalue depth s item rest hi, hacc⟩
        simp only []
        split
        · exact hitems _ _ _ hall
        · exact .some (haveWordsOnly_iff.mpr fun j hj =>
            hall j (List.mem_reverse.mp hj))
        · exact .none
      · rw [members.eq_def]
        simp only []
        split
        · refine .bind ?_
          rintro ⟨name, rest⟩ _
          simp only []
          split
          · refine .bind ?_
            rintro ⟨item, rest⟩ hi
            have hall : ∀ q ∈ Entries.insert name item acc,
                q.2.hasWordsOnly = true := by
              intro q hq
              rcases Entries.mem_insert hq with rfl | hq
              · exact hvalue _ _ item rest hi
              · exact hacc q hq
            simp only []
            split
            · exact hmembers _ _ _ hall
            · exact .some (fieldsHaveWordsOnly_iff.mpr hall)
            · exact .none
          · exact .none
        · exact .none

/-- A text in JSON has no integer of more than sixty-four bits. -/
theorem hasWordsOnly_of_parse {text : String} (h : parse text = some j) :
    j.hasWordsOnly = true := by
  obtain ⟨⟨doc, rest⟩, hv, h⟩ := Option.bind_eq_some_iff.mp h
  simp only [Option.ite_none_right_eq_some, Option.some.injEq] at h
  obtain ⟨_, rfl⟩ := h
  exact (readsWords _).1 _ _ _ _ hv

end Json

/-! ## What a kind asks of the members of a map -/

namespace Policy

variable {field? : String → Option Json} {kind : String} {p : Policy}

/-- The members describe the policy: what it says of a field stands under the name of
the field, and for a field of which it says nothing there is no member, or null. -/
structure DescribedBy (p : Policy) (field? : String → Option Json) : Prop where
  said : ∀ q ∈ p.fields, field? q.1 = some q.2
  unsaid : ∀ name ∈ fieldNames p.kind, name ∉ p.fields.map Prod.fst →
    field? name = none ∨ field? name = some .null

/-- For every field of the kind there is a text, except that a reason may be null
or missing. -/
def HasFields (field? : String → Option Json) (kind : String) : Prop :=
  ∀ name ∈ fieldNames kind, (∃ s, field? name = some (.string s)) ∨
    name = "reason" ∧ (field? name = none ∨ field? name = some .null)

theorem textField?_eq_some {j : Json} {s : String} :
    textField? j = some s ↔ j = .string s := by
  cases j <;> simp [textField?]

theorem reasonField?_eq_none {j : Json} : reasonField? j = some none ↔ j = .null := by
  cases j <;> simp [reasonField?]

theorem reasonField?_eq_some {j : Json} {s : String} :
    reasonField? j = some (some s) ↔ j = .string s := by
  cases j <;> simp [reasonField?]

theorem textMember_eq_some {name s : String} :
    (field? name).bind textField? = some s ↔ field? name = some (.string s) := by
  simp only [Option.bind_eq_some_iff, textField?_eq_some, exists_eq_right]

/-- If every field of the kind is one of the policy's, the policy has something to say
of it. -/
theorem describedBy_iff_said (hn : fieldNames p.kind = p.fields.map Prod.fst) :
    p.DescribedBy field? ↔ ∀ q ∈ p.fields, field? q.1 = some q.2 :=
  ⟨fun h => h.said, fun h => ⟨h, fun _ hm hq => absurd (hn ▸ hm) hq⟩⟩

theorem describedBy_of_field {name : String} {j : Json} (hf : p.fields = [(name, j)])
    (hn : fieldNames p.kind = [name]) :
    p.DescribedBy field? ↔ field? name = some j := by
  rw [describedBy_iff_said (by rw [hn, hf]; rfl), hf, List.forall_mem_singleton]

theorem describedBy_of_no_field {name : String} (hf : p.fields = [])
    (hn : fieldNames p.kind = [name]) :
    p.DescribedBy field? ↔ field? name = none ∨ field? name = some .null := by
  refine ⟨fun h => h.unsaid name (by simp [hn]) (by simp [hf]),
    fun h => ⟨fun q hq => ?_, fun m hm _ => ?_⟩⟩
  · rw [hf] at hq
    cases hq
  · rw [hn] at hm
    rwa [List.mem_singleton.mp hm]

/-- A policy whose field is a text. -/
theorem ofText_eq_some {make : String → Policy} (hm : ∀ {s t}, make s = make t → s = t)
    {name s : String} :
    ((field? name).bind textField?).map make = some (make s) ↔
      field? name = some (.string s) := by
  rw [← textMember_eq_some, Option.map_eq_some_iff]
  exact ⟨fun ⟨_, h, he⟩ => hm he ▸ h, fun h => ⟨s, h, rfl⟩⟩

/-- A policy whose field is a reason, which it need not have. -/
theorem ofReason_eq_some {make : Option String → Policy}
    (hm : ∀ {r r'}, make r = make r' → r = r')
    (hf : ∀ r, (make r).fields = r.toList.map fun s => ("reason", .string s))
    (hn : ∀ r, fieldNames (make r).kind = ["reason"]) {r : Option String} :
    (match field? "reason" with
      | some j => reasonField? j
      | none => some none).map make = some (make r) ↔ (make r).DescribedBy field? := by
  rw [Option.map_eq_some_iff]
  refine Iff.trans ⟨fun ⟨_, h, he⟩ => hm he ▸ h, fun h => ⟨r, h, rfl⟩⟩ ?_
  cases r with
  | none =>
      rw [describedBy_of_no_field (hf none) (hn none)]
      cases field? "reason" with
      | none => simp
      | some j => simp [reasonField?_eq_none]
  | some s =>
      rw [describedBy_of_field (hf (some s)) (hn (some s))]
      cases field? "reason" with
      | none => simp
      | some j => simp [reasonField?_eq_some]

/-- A policy is read from what describes it, and from nothing else. -/
theorem ofFields_eq_some_self (hp : p ≠ .unrecognized) :
    ofFields field? p.kind = some p ↔ p.DescribedBy field? := by
  cases p with
  | allow reason => exact ofReason_eq_some allow.inj (fun _ => rfl) fun _ => rfl
  | deny reason => exact ofReason_eq_some deny.inj (fun _ => rfl) fun _ => rfl
  | role r => exact (ofText_eq_some role.inj).trans (describedBy_of_field rfl rfl).symm
  | permission n =>
      exact (ofText_eq_some permission.inj).trans (describedBy_of_field rfl rfl).symm
  | method call =>
      exact (ofText_eq_some method.inj).trans (describedBy_of_field rfl rfl).symm
  | service call =>
      exact (ofText_eq_some service.inj).trans (describedBy_of_field rfl rfl).symm
  | resource type accessor =>
      have hr : ofFields field? (resource type accessor).kind =
          (((field? "resource_type").bind textField?).bind fun type =>
            ((field? "id_accessor").bind textField?).bind fun accessor =>
              some (resource type accessor)) := rfl
      rw [hr, describedBy_iff_said rfl]
      simp [fields, Option.bind_eq_some_iff, textField?_eq_some]
  | delegate type =>
      exact (ofText_eq_some delegate.inj).trans (describedBy_of_field rfl rfl).symm
  | allOrNothing =>
      exact ⟨fun _ => (describedBy_iff_said rfl).mpr fun _ h => (nomatch h),
        fun _ => rfl⟩
  | unrecognized => exact absurd rfl hp

theorem ofFields_of_notMem (h : kind ∉ knownKinds) :
    ofFields field? kind = some .unrecognized := by
  unfold ofFields
  split
  all_goals simp_all [knownKinds]

theorem kind_of_ofFields (hk : kind ∈ knownKinds) (h : ofFields field? kind = some p) :
    p.kind = kind := by
  unfold ofFields at h
  extract_lets text reason at h
  split at h
  case h_7 =>
    obtain ⟨type, _, h⟩ := Option.bind_eq_some_iff.mp h
    obtain ⟨accessor, _, h⟩ := Option.bind_eq_some_iff.mp h
    obtain rfl := Option.some.inj h
    rfl
  case h_9 =>
    obtain rfl := Option.some.inj h
    rfl
  case h_10 => simp_all [knownKinds]
  all_goals
    obtain ⟨_, _, rfl⟩ := Option.map_eq_some_iff.mp h
    rfl

theorem ne_unrecognized_of_kind (hk : p.kind ∈ knownKinds) : p ≠ .unrecognized := by
  rintro rfl
  exact absurd hk (by decide)

theorem ofFields_eq_some_iff (hk : kind ∈ knownKinds) :
    ofFields field? kind = some p ↔ p.kind = kind ∧ p.DescribedBy field? := by
  constructor
  · intro h
    obtain rfl := kind_of_ofFields hk h
    exact ⟨rfl, (ofFields_eq_some_self (ne_unrecognized_of_kind hk)).mp h⟩
  · rintro ⟨rfl, h⟩
    exact (ofFields_eq_some_self (ne_unrecognized_of_kind hk)).mpr h

theorem exists_string_of_mem_fields {q : String × Json} (h : q ∈ p.fields) :
    ∃ s, q.2 = .string s := by
  cases p with
  | allow reason | deny reason =>
      obtain ⟨s, _, rfl⟩ := List.mem_map.mp h
      exact ⟨s, rfl⟩
  | allOrNothing | unrecognized => cases h
  | resource type accessor =>
      rcases List.mem_cons.mp h with rfl | h
      · exact ⟨type, rfl⟩
      · obtain rfl := List.mem_singleton.mp h
        exact ⟨accessor, rfl⟩
  | _ =>
      obtain rfl := List.mem_singleton.mp h
      exact ⟨_, rfl⟩

/-- A reason is all that a policy may keep to itself. -/
theorem eq_reason_of_unsaid {name : String} (hn : name ∈ fieldNames p.kind)
    (hq : name ∉ p.fields.map Prod.fst) : name = "reason" := by
  cases p with
  | allow reason | deny reason => exact List.mem_singleton.mp hn
  | _ => exact absurd hn hq

theorem DescribedBy.hasFields (h : p.DescribedBy field?) :
    HasFields field? p.kind := by
  intro name hn
  by_cases hq : name ∈ p.fields.map Prod.fst
  · obtain ⟨q, hm, rfl⟩ := List.mem_map.mp hq
    obtain ⟨s, hs⟩ := exists_string_of_mem_fields hm
    exact .inl ⟨s, hs ▸ h.said q hm⟩
  · exact .inr ⟨eq_reason_of_unsaid hn hq, h.unsaid name hn hq⟩

theorem HasFields.text (h : HasFields field? kind) (name : String)
    (hn : name ∈ fieldNames kind) (hr : name ≠ "reason") :
    ∃ s, field? name = some (.string s) :=
  (h name hn).resolve_right fun h => hr h.1

theorem HasFields.reason (h : HasFields field? kind)
    (hn : "reason" ∈ fieldNames kind) :
    ∃ r, (match field? "reason" with
      | some j => reasonField? j
      | none => some none) = some r := by
  rcases h _ hn with ⟨s, hs⟩ | ⟨_, hs | hs⟩
  · exact ⟨some s, by rw [hs]; rfl⟩
  · exact ⟨none, by rw [hs]⟩
  · exact ⟨none, by rw [hs]; rfl⟩

theorem HasFields.exists_ofFields (h : HasFields field? kind)
    (hk : kind ∈ knownKinds) :
    ∃ p, ofFields field? kind = some p := by
  have ofText {make : String → Policy} {name : String} (hn : name ∈ fieldNames kind)
      (hr : name ≠ "reason") : ∃ p, ((field? name).bind textField?).map make =
        some p := by
    obtain ⟨s, hs⟩ := h.text name hn hr
    exact ⟨make s, congrArg (Option.map make) (textMember_eq_some.mpr hs)⟩
  have ofReason {make : Option String → Policy} (hn : "reason" ∈ fieldNames kind) :
      ∃ p, (match field? "reason" with
        | some j => reasonField? j
        | none => some none).map make = some p := by
    obtain ⟨r, hr⟩ := h.reason hn
    exact ⟨make r, congrArg (Option.map make) hr⟩
  have hkinds := hk
  simp only [knownKinds, List.mem_cons, List.not_mem_nil, or_false] at hkinds
  rcases hkinds with rfl | rfl | rfl | rfl | rfl | rfl | rfl | rfl | rfl
  · exact ofReason (.head _)
  · exact ofReason (.head _)
  · exact ofText (.head _) (by decide)
  · exact ofText (.head _) (by decide)
  · exact ofText (.head _) (by decide)
  · exact ofText (.head _) (by decide)
  · obtain ⟨type, ht⟩ := h.text "resource_type" (.head _) (by decide)
    obtain ⟨accessor, ha⟩ := h.text "id_accessor" (.tail _ (.head _)) (by decide)
    have hd : (resource type accessor).DescribedBy field? := by
      rw [describedBy_iff_said rfl]
      simp [fields, ht, ha]
    exact ⟨_, (ofFields_eq_some_iff hk).mpr ⟨rfl, hd⟩⟩
  · exact ofText (.head _) (by decide)
  · exact ⟨_, rfl⟩

theorem mem_fieldNames_of_mem_fields {q : String × Json} (h : q ∈ p.fields) :
    q.1 ∈ fieldNames p.kind := by
  cases p with
  | allow reason | deny reason =>
      obtain ⟨s, _, rfl⟩ := List.mem_map.mp h
      exact .head _
  | _ => exact List.mem_map_of_mem h

theorem DescribedBy.of_agree {other? : String → Option Json} (h : p.DescribedBy field?)
    (ha : ∀ name ∈ fieldNames p.kind, other? name = field? name) :
    p.DescribedBy other? where
  said q hq := (ha _ (mem_fieldNames_of_mem_fields hq)).trans (h.said q hq)
  unsaid name hn hq := by
    rw [ha name hn]
    exact h.unsaid name hn hq

/-- Only the members that the kind has a use for are looked at. -/
theorem ofFields_congr {other? : String → Option Json}
    (ha : ∀ name ∈ fieldNames kind, other? name = field? name) :
    ofFields other? kind = ofFields field? kind := by
  by_cases hk : kind ∈ knownKinds
  · refine Option.ext fun p => ?_
    rw [ofFields_eq_some_iff hk, ofFields_eq_some_iff hk]
    refine and_congr_right fun hp => ?_
    subst hp
    exact ⟨fun h => h.of_agree fun name hn => (ha name hn).symm,
      fun h => h.of_agree ha⟩
  · rw [ofFields_of_notMem hk, ofFields_of_notMem hk]

/-! ## Policies -/

theorem ofJson?_eq_ofFields {rule : KindRule} {members : List (String × Json)}
    (hw : (Json.object members).hasWordsOnly = true)
    (hk : Entries.get? members "kind" = some (.string kind)) :
    ofJson? rule (.object members) = ofFields (Entries.get? members) kind := by
  rw [ofJson?, if_pos hw, ofWords?, hk]
  rfl

theorem distinct_members (p : Policy) :
    (("kind", Json.string p.kind) :: p.fields).Pairwise fun q r => q.1 ≠ r.1 := by
  cases p with
  | allow reason | deny reason => cases reason <;> simp [fields]
  | _ => simp [fields]

theorem get?_members (p : Policy) (name : String) :
    Entries.get? (Entries.ofPairs (("kind", Json.string p.kind) :: p.fields)) name =
      Entries.get? (("kind", Json.string p.kind) :: p.fields) name :=
  Entries.get?_ofPairs p.distinct_members name

theorem describedBy_members (p : Policy) :
    p.DescribedBy
      (Entries.get? (Entries.ofPairs (("kind", Json.string p.kind) :: p.fields))) where
  said q hq := by
    rw [get?_members, Entries.get?_eq_some_iff p.distinct_members]
    exact List.mem_cons_of_mem _ hq
  unsaid name hn hq := by
    obtain rfl := eq_reason_of_unsaid hn hq
    rw [get?_members, Entries.get?_cons, if_neg (by simp)]
    exact .inl (Entries.get?_eq_none hq)

theorem hasWordsOnly_toJson (p : Policy) : p.toJson.hasWordsOnly = true := by
  refine Json.fieldsHaveWordsOnly_iff.mpr fun q hq => ?_
  rcases List.mem_cons.mp (Entries.mem_ofPairs hq) with rfl | hq
  · rfl
  · obtain ⟨s, hs⟩ := exists_string_of_mem_fields hq
    rw [hs]
    rfl

/-- The kind is written under its name. -/
theorem member?_toJson (p : Policy) :
    p.toJson.member? "kind" = some (.string p.kind) := by
  refine (p.get?_members "kind").trans ?_
  rw [Entries.get?_cons, if_pos rfl]

/-- What is written of a policy reads as this policy. -/
theorem ofJson?_toJson (rule : KindRule) (p : Policy) :
    ofJson? rule p.toJson = some p := by
  refine (ofJson?_eq_ofFields p.hasWordsOnly_toJson p.member?_toJson).trans ?_
  by_cases hp : p = .unrecognized
  · rw [hp]
    exact ofFields_of_notMem (by decide)
  · exact (ofFields_eq_some_self hp).mpr p.describedBy_members

end Policy

/-! ## Declarations -/

/-- A list of what survives survives. -/
theorem readList_map {α : Type} {read : Json → Option α} {write : α → Json}
    (h : ∀ a, read (write a) = some a) (as : List α) :
    readList read (.array (as.map write)) = some as := by
  have hr : read ∘ write = fun a => pure a := funext h
  rw [readList, List.mapM_map, hr, List.mapM_pure]
  exact congrArg some (List.map_id' as)

/-- Two entries that are written in the wrong order stand in the right one. -/
theorem Entries.ofPairs_swap {α : Type} {a b : String} (h : b < a) (x y : α) :
    Entries.ofPairs [(a, x), (b, y)] = [(b, y), (a, x)] := by
  have hne : b ≠ a := fun he => String.lt_irrefl _ (he ▸ h)
  show Entries.insert b y [(a, x)] = _
  rw [Entries.insert, if_neg hne, if_pos h]

theorem Table.ofPairs_entries {α : Type} (t : Table α) : Table.ofPairs t.entries = t :=
  Table.eq_of_get? fun name => Entries.get?_ofPairs t.distinct name

/-- A table of what survives survives. -/
theorem readTable_map {α : Type} {read : Json → Option α} {write : α → Json}
    (h : ∀ a, read (write a) = some a) (t : Table α) :
    readTable read (.object (t.entries.map fun p => (p.1, write p.2))) = some t := by
  have hr : ((fun p : String × Json => (read p.2).map (p.1, ·)) ∘
      fun p : String × α => (p.1, write p.2)) = fun p => pure p := by
    funext p
    exact congrArg (Option.map (p.1, ·)) (h p.2)
  rw [readTable, List.mapM_map, hr, List.mapM_pure, List.map_id']
  exact congrArg some t.ofPairs_entries

namespace TypePolicies

theorem readList_listJson (rule : KindRule) (ps : List Policy) :
    readList (Policy.ofJson? rule) (listJson ps) = some ps :=
  readList_map (Policy.ofJson?_toJson rule) ps

theorem readTable_tableJson (rule : KindRule) (t : Table (List Policy)) :
    readTable (readList (Policy.ofJson? rule)) (tableJson t) = some t :=
  readTable_map (readList_listJson rule) t

theorem toJson_eq (t : TypePolicies) :
    t.toJson =
      .object [("methods", tableJson t.methods), ("policies", listJson t.policies)] :=
  congrArg Json.object (Entries.ofPairs_swap (by decide) _ _)

theorem ofJson?_toJson (rules : DocumentRules) (t : TypePolicies) :
    ofJson? rules t.toJson = some t := by
  rw [toJson_eq, ofJson?]
  simp [Entries.get?, readPart, readList_listJson, readTable_tableJson]

end TypePolicies

namespace Declarations

theorem toJson_eq (d : Declarations) :
    d.toJson =
      .object [("functions", TypePolicies.tableJson d.functions),
        ("types", .object (d.types.entries.map fun p => (p.1, p.2.toJson)))] :=
  congrArg Json.object (Entries.ofPairs_swap (by decide) _ _)

/-- What is written of declarations reads as these declarations. -/
theorem ofJson?_toJson (rules : DocumentRules) (d : Declarations) :
    ofJson? rules d.toJson = some d := by
  rw [toJson_eq, ofJson?]
  simp [Entries.get?, readPart, TypePolicies.readTable_tableJson,
    readTable_map (TypePolicies.ofJson?_toJson rules)]

end Declarations

/-- Policies and declarations are read from what is written of them, and the kind of a
policy is written with it. Of a map whose kind is a text, a policy is read exactly if
the kind has no meaning, and then it is unrecognized, or else if there are the fields
of the kind; then the policy is the one that they describe. Two maps that agree on the
kind and on these fields read alike, and in a text in JSON there is nothing that would
keep a map from being read. -/
theorem declarations_survive :
    (∀ rule (p : Policy), Policy.ofJson? rule p.toJson = some p ∧
      p.toJson.member? "kind" = some (.string p.kind)) ∧
    (∀ rules (d : Declarations), Declarations.ofJson? rules d.toJson = some d) ∧
    (∀ text j, Json.parse text = some j → j.hasWordsOnly = true) ∧
    ∀ rule members kind, (Json.object members).hasWordsOnly = true →
      Entries.get? members "kind" = some (.string kind) →
      (Policy.ofJson? rule (.object members) = some .unrecognized ↔
        kind ∉ Policy.knownKinds) ∧
      (kind ∈ Policy.knownKinds →
        ((∃ p, Policy.ofJson? rule (.object members) = some p) ↔
          Policy.HasFields (Entries.get? members) kind) ∧
        ∀ p, Policy.ofJson? rule (.object members) = some p ↔
          p.kind = kind ∧ p.DescribedBy (Entries.get? members)) ∧
      ∀ members', (Json.object members').hasWordsOnly = true →
        (∀ name ∈ "kind" :: Policy.fieldNames kind,
          Entries.get? members' name = Entries.get? members name) →
        Policy.ofJson? rule (.object members') =
          Policy.ofJson? rule (.object members) := by
  refine ⟨fun rule p => ⟨p.ofJson?_toJson rule, p.member?_toJson⟩,
    fun rules d => d.ofJson?_toJson rules, fun text j => Json.hasWordsOnly_of_parse,
    fun rule members kind hw hk => ?_⟩
  have known (hm : kind ∈ Policy.knownKinds) (p : Policy) :
      Policy.ofFields (Entries.get? members) kind = some p ↔
        p.kind = kind ∧ p.DescribedBy (Entries.get? members) :=
          Policy.ofFields_eq_some_iff hm
  rw [Policy.ofJson?_eq_ofFields hw hk]
  refine ⟨⟨fun h hm => ?_, Policy.ofFields_of_notMem⟩, fun hm => ⟨⟨?_, ?_⟩, known hm⟩,
    fun members' hw' ha => ?_⟩
  · obtain ⟨rfl, _⟩ := (known hm _).mp h
    exact Policy.ne_unrecognized_of_kind hm rfl
  · rintro ⟨p, h⟩
    obtain ⟨rfl, hd⟩ := (known hm p).mp h
    exact hd.hasFields
  · exact fun h => h.exists_ofFields hm
  · obtain ⟨ha, hn⟩ := List.forall_mem_cons.mp ha
    rw [Policy.ofJson?_eq_ofFields hw' (ha.trans hk), Policy.ofFields_congr hn]

/-- The members of a map that allows, with a reason that is null and a member that
means nothing. -/
def noted : List (String × Json) :=
  [("kind", .string "allow"), ("note", .integer 7), ("reason", .null)]

/-- The map reads as a policy without a reason, and so does the one without the member
that means nothing, whose members stand in another order. -/
theorem noted_survives :
    ((Json.object noted).hasWordsOnly = true ∧
      Entries.get? noted "kind" = some (.string "allow")) ∧
    Policy.ofJson? .named (.object noted) = some (.allow none) ∧
    Policy.ofJson? .named (.object [("reason", .null), ("kind", .string "allow")]) =
      some (.allow none) := by
  have hw : (Json.object noted).hasWordsOnly = true := rfl
  have h := declarations_survive.2.2.2 .named noted "allow" hw rfl
  have hp : Policy.ofJson? .named (.object noted) = some (.allow none) :=
    ((h.2.1 (.head _)).2 _).mpr ⟨rfl,
      (Policy.describedBy_of_no_field rfl rfl).mpr (.inr rfl)⟩
  refine ⟨⟨hw, rfl⟩, hp, (h.2.2 _ rfl fun name hn => ?_).trans hp⟩
  rcases List.mem_cons.mp hn with rfl | hn
  · rfl
  · obtain rfl := List.mem_singleton.mp hn
    rfl

end Clearance
