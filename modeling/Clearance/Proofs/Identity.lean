import Clearance.Signature
import Mathlib.Data.List.Forall2

/-!
# Values that are the same

Values are compared part by part, and objects by who they are, whatever they hold. So
what is compared is what is left of a value when its records are emptied: two values
are the same just if they are equal then, which is `same_iff`. That makes it an
equivalence. And whatever does not look into records answers alike for values that are
the same, as do their types, their texts and the parameters that accept them.

A record does hold something, and nothing above keeps two records from one origin from
holding different things. The documents do: each record that is made of them holds the
map that they have at its origin (`StemsFrom`), and so does each that is read from such
a record. Among these values to be the same is to be equal, so there is nothing at all
by which they could be told apart.
-/

namespace Clearance

/-- Who an object is: one of the host's, or the record from a certain origin. -/
def Object.identity : Object → Handle ⊕ Origin
  | .host h => .inl h
  | .record r => .inr r.origin

/-- An object without what it holds. -/
def Object.emptied : Object → Object
  | .host h => .host h
  | .record r => .record ⟨r.origin, []⟩

theorem Object.emptied_eq_iff {a b : Object} :
    a.emptied = b.emptied ↔ a.identity = b.identity := by
  cases a with
  | host h => cases b <;> simp [emptied, identity]
  | record r => cases b <;> simp [emptied, identity]

theorem Object.beq_iff {a b : Object} : (a == b) = true ↔ a.identity = b.identity := by
  show a.same b = true ↔ _
  cases a with
  | host h => cases b <;> simp [same, identity]
  | record r => cases b <;> simp [same, identity]

namespace Value

/-! ## What is compared -/

mutual

/-- A value with its records emptied. -/
def emptied : Value → Value
  | .list items => .list (emptiedItems items)
  | .object o => .object o.emptied
  | v => v

/-- The items of a list with their records emptied. -/
def emptiedItems : List Value → List Value
  | [] => []
  | v :: rest => v.emptied :: emptiedItems rest

end

mutual

/-- Values are the same just if they are equal when their records are emptied. -/
theorem same_iff : ∀ a b : Value, a.same b = true ↔ a.emptied = b.emptied
  | .null, b => by cases b <;> simp [same, emptied]
  | .bool x, b => by cases b <;> simp [same, emptied]
  | .int n, b => by cases b <;> simp [same, emptied]
  | .float d, b => by cases b <;> simp [same, emptied]
  | .string s, b => by cases b <;> simp [same, emptied]
  | .list as, b => by
      cases b with
      | list bs =>
          rw [same, emptied, emptied, Value.list.injEq]
          exact sameItems_iff as bs
      | _ => simp [same, emptied]
  | .object o, b => by
      cases b with
      | object p =>
          rw [same, emptied, emptied, Value.object.injEq, Object.emptied_eq_iff]
          exact Object.beq_iff
      | _ => simp [same, emptied]

theorem sameItems_iff : ∀ as bs : List Value,
    sameItems as bs = true ↔ emptiedItems as = emptiedItems bs
  | [], bs => by cases bs <;> simp [sameItems, emptiedItems]
  | a :: as, bs => by
      cases bs with
      | nil => simp [sameItems, emptiedItems]
      | cons b bs =>
          rw [sameItems, emptiedItems, emptiedItems, Bool.and_eq_true, List.cons.injEq]
          exact and_congr (same_iff a b) (sameItems_iff as bs)

end

theorem beq_iff {a b : Value} : (a == b) = true ↔ a.emptied = b.emptied := same_iff a b

theorem beq_equivalence : Equivalence fun a b : Value => (a == b) = true := by
  simp only [beq_iff]
  exact InvImage.equivalence Eq emptied eq_equivalence

theorem beq_float_iff {a b : Double} :
    (Value.float a == .float b) = true ↔ a.bits = b.bits := by
  simp only [beq_iff, emptied, Value.float.injEq, Double.ext_iff]

theorem beq_object_iff {a b : Object} :
    (Value.object a == .object b) = true ↔ a.identity = b.identity := by
  rw [beq_iff, emptied, emptied, Value.object.injEq, Object.emptied_eq_iff]

theorem beq_list_iff {as bs : List Value} :
    (Value.list as == .list bs) = true ↔
      List.Forall₂ (fun a b => (a == b) = true) as bs := by
  show same (.list as) (.list bs) = true ↔ _
  rw [same]
  induction as generalizing bs with
  | nil => cases bs <;> simp [sameItems]
  | cons a as ih =>
      cases bs with
      | nil => simp [sameItems]
      | cons b bs =>
          rw [sameItems, Bool.and_eq_true, List.forall₂_cons, ih]
          exact Iff.rfl

/-! ## What does not look into records -/

variable (t : Typing)

theorem typeName_emptied (v : Value) : v.emptied.typeName t = v.typeName t := by
  cases v with
  | object o => cases o <;> simp [emptied, typeName, Object.emptied, Object.typeName]
  | _ => simp [emptied, typeName]

theorem isInstanceOf_emptied (v : Value) :
    v.emptied.isInstanceOf t = v.isInstanceOf t := by
  funext name
  cases v with
  | object o =>
      cases o <;> simp [emptied, isInstanceOf, Object.emptied, Object.isInstanceOf]
  | _ => simp [emptied, isInstanceOf]

theorem isNull_emptied (v : Value) : v.emptied.isNull = v.isNull := by
  cases v <;> simp [emptied, isNull]

mutual

theorem text_emptied : ∀ v : Value, v.emptied.text t = v.text t
  | .list items => by rw [emptied, text, text, texts_emptied items]
  | .object (.host h) => by simp only [emptied, Object.emptied]
  | .object (.record r) => by
      simp only [emptied, Object.emptied, text, Object.typeName]
  | .null | .bool _ | .int _ | .float _ | .string _ => by simp only [emptied]

theorem texts_emptied :
    ∀ items : List Value, texts t (emptiedItems items) = texts t items
  | [] => by rw [emptiedItems]
  | v :: rest => by rw [emptiedItems, texts, texts, text_emptied v, texts_emptied rest]

end

theorem accepts_emptied (p : Parameter) (v : Value) :
    p.accepts t v.emptied = p.accepts t v := by
  rw [Parameter.accepts, Parameter.accepts, isNull_emptied, isInstanceOf_emptied]

end Value

/-! ## What records hold -/

/-- The item of an array at a position; nothing has items but an array. -/
def Json.item? : Json → Nat → Option Json
  | .array items, i => items[i]?
  | _, _ => none

/-- What documents have at an origin, if there is something. -/
def Origin.find? (documents : Nat → Json) : Origin → Option Json
  | .given n => some (documents n)
  | .member o _ name => (o.find? documents).bind (·.member? name)
  | .item o i => (o.find? documents).bind (·.item? i)

/-- A record holds what documents have at its origin. -/
def Record.StemsFrom (documents : Nat → Json) (r : Record) : Prop :=
  r.origin.find? documents = some (.object r.fields)

variable {documents : Nat → Json}

theorem Record.eq_of_origin_eq {r s : Record} (hr : r.StemsFrom documents)
    (hs : s.StemsFrom documents) (h : r.origin = s.origin) : r = s := by
  obtain ⟨o, fields⟩ := r
  obtain ⟨o', fields'⟩ := s
  obtain rfl : o = o' := h
  obtain rfl : fields = fields' := Json.object.inj (Option.some.inj (hr.symm.trans hs))
  rfl

namespace Value

mutual

/-- The records that a value is or has among its items. -/
def records : Value → List Record
  | .list items => recordsIn items
  | .object (.record r) => [r]
  | _ => []

/-- The records of the items of a list. -/
def recordsIn : List Value → List Record
  | [] => []
  | v :: rest => v.records ++ recordsIn rest

end

/-- Each record of a value holds what documents have at its origin. -/
def StemsFrom (documents : Nat → Json) (v : Value) : Prop :=
  ∀ r ∈ v.records, r.StemsFrom documents

theorem stemsFrom_record {r : Record} :
    StemsFrom documents (.object (.record r)) ↔ r.StemsFrom documents := by
  rw [StemsFrom, records, List.forall_mem_singleton]

theorem stemsFrom_list {items : List Value} :
    StemsFrom documents (.list items) ↔
      ∀ r ∈ recordsIn items, r.StemsFrom documents := by
  rw [StemsFrom, records]

mutual

/-- A document as a value stems from documents that have it at the origin of
the value. -/
theorem stemsFrom_ofJson (o : Origin) :
    ∀ d : Json, o.find? documents = some d → (ofJson o d).StemsFrom documents
  | .null, _ | .bool _, _ | .float _, _ | .string _, _ => by
      simp [ofJson, StemsFrom, records]
  | .integer n, _ => by
      rw [ofJson, ofInteger]
      split <;> simp [StemsFrom, records]
  | .array items, h => by
      rw [ofJson, stemsFrom_list]
      refine stemsFrom_ofItems o 0 items fun i item hi => ?_
      rw [Origin.find?, h, Nat.zero_add]
      exact hi
  | .object fields, h => by
      rw [ofJson, stemsFrom_record]
      exact h

theorem stemsFrom_ofItems (o : Origin) (n : Nat) : ∀ items : List Json,
    (∀ i item, items[i]? = some item →
      (Origin.item o (n + i)).find? documents = some item) →
    ∀ r ∈ recordsIn (ofItems o n items), r.StemsFrom documents
  | [], _ => by simp [ofItems, recordsIn]
  | item :: rest, h => by
      rw [ofItems, recordsIn, List.forall_mem_append]
      refine ⟨stemsFrom_ofJson (.item o n) item (h 0 item rfl), ?_⟩
      refine stemsFrom_ofItems o (n + 1) rest fun i other hi => ?_
      rw [Nat.add_right_comm]
      exact h (i + 1) other hi

end

/-- What is read from a record that stems from documents does so too. -/
theorem stemsFrom_member {r : Record} {place : Place} {name : String} {v : Value}
    (hr : r.StemsFrom documents) (hv : r.member? place name = some v) :
    v.StemsFrom documents := by
  obtain ⟨d, hd, rfl⟩ := Option.map_eq_some_iff.mp hv
  refine stemsFrom_ofJson _ d ?_
  rw [Origin.find?, hr]
  exact hd

mutual

/-- Nothing is lost by emptying records that hold what documents have at
their origins. -/
theorem eq_of_emptied_eq :
    ∀ a b : Value, a.StemsFrom documents → b.StemsFrom documents →
    a.emptied = b.emptied → a = b
  | .null, b, _, _, h | .bool _, b, _, _, h | .int _, b, _, _, h | .float _, b, _, _, h
  | .string _, b, _, _, h => by cases b <;> simp_all [emptied]
  | .list as, b, ha, hb, h => by
      cases b with
      | list bs =>
          rw [emptied, emptied, Value.list.injEq] at h
          rw [eq_of_emptiedItems_eq as bs (stemsFrom_list.mp ha)
            (stemsFrom_list.mp hb) h]
      | _ => simp [emptied] at h
  | .object (.host x), b, _, _, h => by
      cases b with
      | object p => cases p <;> simp_all [emptied, Object.emptied]
      | _ => simp [emptied] at h
  | .object (.record r), b, ha, hb, h => by
      cases b with
      | object p =>
          cases p with
          | host x => simp [emptied, Object.emptied] at h
          | record s =>
              have ho : r.origin = s.origin := by
                simpa [emptied, Object.emptied] using h
              rw [Record.eq_of_origin_eq (stemsFrom_record.mp ha)
                (stemsFrom_record.mp hb) ho]
      | _ => simp [emptied] at h

theorem eq_of_emptiedItems_eq : ∀ as bs : List Value,
    (∀ r ∈ recordsIn as, r.StemsFrom documents) →
      (∀ r ∈ recordsIn bs, r.StemsFrom documents) →
    emptiedItems as = emptiedItems bs → as = bs
  | [], bs, _, _, h => by cases bs <;> simp_all [emptiedItems]
  | a :: as, bs, ha, hb, h => by
      cases bs with
      | nil => simp [emptiedItems] at h
      | cons b bs =>
          rw [recordsIn, List.forall_mem_append] at ha hb
          rw [emptiedItems, emptiedItems, List.cons.injEq] at h
          rw [eq_of_emptied_eq a b ha.1 hb.1 h.1,
            eq_of_emptiedItems_eq as bs ha.2 hb.2 h.2]

end

/-- To be the same is an equivalence, for doubles to have the same bits, for objects to
be one and the same, and for lists to be of the same length and have the same items.
Values that are the same have the same type and the same text, and are used in the same
places and accepted by the same parameters. Values that are made of documents or read
from such are the same only if they are equal. -/
theorem equality_unseen (t : Typing) (documents : Nat → Json) :
    (Equivalence fun a b : Value => (a == b) = true) ∧
    (∀ a b : Double, (Value.float a == .float b) = true ↔ a.bits = b.bits) ∧
    (∀ a b : Object, (Value.object a == .object b) = true ↔ a.identity = b.identity) ∧
    (∀ as bs : List Value, (Value.list as == .list bs) = true ↔
      List.Forall₂ (fun a b => (a == b) = true) as bs) ∧
    (∀ a b : Value, (a == b) = true →
      a.typeName t = b.typeName t ∧ a.text t = b.text t ∧
        (∀ name, a.isInstanceOf t name = b.isInstanceOf t name) ∧
        ∀ p : Parameter, p.accepts t a = p.accepts t b) ∧
    (∀ n, (ofJson (.given n) (documents n)).StemsFrom documents) ∧
    (∀ (r : Record) place name v, r.StemsFrom documents →
      r.member? place name = some v →
      v.StemsFrom documents) ∧
    ∀ a b : Value, a.StemsFrom documents → b.StemsFrom documents →
      ((a == b) = true ↔ a = b) := by
  refine ⟨beq_equivalence, fun a b => beq_float_iff, fun a b => beq_object_iff,
    fun as bs => beq_list_iff, fun a b h => ?_, fun n => stemsFrom_ofJson _ _ rfl,
    fun r place name v => stemsFrom_member, fun a b ha hb => ⟨fun h => ?_, ?_⟩⟩
  · have he := beq_iff.mp h
    refine ⟨?_, ?_, fun name => ?_, fun p => ?_⟩
    · rw [← typeName_emptied, he, typeName_emptied]
    · rw [← text_emptied, he, text_emptied]
    · rw [← isInstanceOf_emptied, he, isInstanceOf_emptied]
    · rw [← accepts_emptied, he, accepts_emptied]
  · exact eq_of_emptied_eq a b ha hb (beq_iff.mp h)
  · rintro rfl
    exact beq_equivalence.refl a

/-- A slip with one entry, and with something on it that is no number. -/
def slip : Json := .array [.object [("id", .integer 7)], .float Double.nan]

/-- Values with records from one origin read the same, whatever these hold. The two
zeros are told apart, and so are two slips though there is the same on both. -/
theorem slips_told_apart :
    ((Value.list [.float .nan, .object (.record ⟨.given 0, []⟩)] ==
        .list [.float .nan, .object (.record ⟨.given 0, [("id", .integer 7)]⟩)]) =
          true ∧
      text { typeName := Handle.name }
        (.list [.float .nan, .object (.record ⟨.given 0, []⟩)]) =
        text { typeName := Handle.name }
          (.list [.float .nan, .object (.record ⟨.given 0, [("id", .integer 7)]⟩)])) ∧
    (Value.float (.zero true) == .float (.zero false)) = false ∧
    (ofJson (.given 0) slip).StemsFrom (fun _ => slip) ∧
    (ofJson (.given 1) slip).StemsFrom (fun _ => slip) ∧
    (ofJson (.given 0) slip == ofJson (.given 1) slip) = false := by
  obtain ⟨-, hf, -, -, hc, hd, -, he⟩ :=
    equality_unseen { typeName := Handle.name } (fun _ => slip)
  have hs : (Value.list [.float .nan, .object (.record ⟨.given 0, []⟩)] ==
      .list [.float .nan, .object (.record ⟨.given 0, [("id", .integer 7)]⟩)]) =
        true := rfl
  refine ⟨⟨hs, (hc _ _ hs).2.1⟩, ?_, hd 0, hd 1, ?_⟩
  · rw [← Bool.not_eq_true, hf]
    decide
  · rw [← Bool.not_eq_true, he _ _ (hd 0) (hd 1)]
    intro h
    have ho := congrArg (fun v => v.records.map Record.origin) h
    revert ho
    decide +kernel

end Value

end Clearance
