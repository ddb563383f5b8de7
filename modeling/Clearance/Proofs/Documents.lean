import Clearance.Host

/-!
# Records and their documents

A document becomes a value in two ways. Its arrays are lists as soon as it is handed
in; its maps stay documents, and a member becomes a value each time it is read, with a
new object for each map on the way. So no two reads of a member need give the same
value. What they have in common is `Alike`: two values look the same to whoever asks
for scalars, items and members. Objects of the host are known by their handle; a record
is known by its members alone, and not by where it came from.

That what is read agrees with the document is then one fact, `alike_ofJson`: how a
document looks does not depend on its origin. The rest is that a record answers every
read at once, with null for what it does not have, so that a path of names leads to a
value wherever it leads through maps.
-/

namespace Clearance

/-- What is under the given names in a document, each a member of what is under those
before it. -/
def Json.at? (d : Json) : List String → Option Json
  | [] => some d
  | name :: rest => (d.member? name).bind (·.at? rest)

namespace Value

/-! ## Values that look the same -/

/-- Two values look the same: they are the same scalar, lists of the same length of
values that look the same, the same object of the host, or records with members of the
same names that look the same, wherever they are read. -/
inductive Alike : Value → Value → Prop
  | null : Alike .null .null
  | bool (b : Bool) : Alike (.bool b) (.bool b)
  | int (n : Int64) : Alike (.int n) (.int n)
  | float (d : Double) : Alike (.float d) (.float d)
  | string (s : String) : Alike (.string s) (.string s)
  | list {vs us : List Value} : vs.length = us.length →
      (∀ (i : Nat) v u, vs[i]? = some v → us[i]? = some u → Alike v u) →
      Alike (.list vs) (.list us)
  | host (h : Handle) : Alike (.object (.host h)) (.object (.host h))
  | record {r s : Record} :
      (∀ place other name, (r.member? place name).isSome =
        (s.member? other name).isSome) →
      (∀ place other name v u, r.member? place name = some v →
        s.member? other name = some u →
        Alike v u) →
      Alike (.object (.record r)) (.object (.record s))

theorem length_ofItems (o : Origin) (n : Nat) (items : List Json) :
    (ofItems o n items).length = items.length := by
  induction items generalizing n with
  | nil => rw [ofItems]; rfl
  | cons item rest ih => rw [ofItems, List.length_cons, ih, List.length_cons]

mutual

/-- How a document looks does not depend on where it came from. -/
theorem alike_ofJson (o o' : Origin) : ∀ d : Json, Alike (ofJson o d) (ofJson o' d)
  | .null => by rw [ofJson, ofJson]; exact .null
  | .bool b => by rw [ofJson, ofJson]; exact .bool b
  | .integer n => by
      rw [ofJson, ofJson, ofInteger]
      split
      · exact .int _
      · exact .float _
  | .float d => by rw [ofJson, ofJson]; exact .float d
  | .string s => by rw [ofJson, ofJson]; exact .string s
  | .array items => by
      rw [ofJson, ofJson]
      refine .list ?_ fun i v u hv hu => alike_ofItems o o' 0 items hv hu
      rw [length_ofItems, length_ofItems]
  | .object fields => by
      rw [ofJson, ofJson]
      refine .record (fun place other name => ?_) fun place other name v u hv hu => ?_
      · rw [Record.member?, Record.member?, Option.isSome_map, Option.isSome_map]
      · obtain ⟨sub, hs, rfl⟩ := Option.map_eq_some_iff.mp hv
        obtain ⟨sub', hs', rfl⟩ := Option.map_eq_some_iff.mp hu
        obtain rfl : sub = sub' := Option.some.inj (hs.symm.trans hs')
        exact alike_fields _ _ fields hs

theorem alike_ofItems (o o' : Origin) (n : Nat) :
    ∀ (items : List Json) {i : Nat} {v u : Value},
    (ofItems o n items)[i]? = some v → (ofItems o' n items)[i]? = some u → Alike v u
  | [], i, v, u, hv, _ => by simp [ofItems] at hv
  | item :: _, 0, v, u, hv, hu => by
      simp only [ofItems, List.getElem?_cons_zero, Option.some.injEq] at hv hu
      exact hv ▸ hu ▸ alike_ofJson _ _ item
  | _ :: rest, i + 1, v, u, hv, hu => by
      simp only [ofItems, List.getElem?_cons_succ] at hv hu
      exact alike_ofItems o o' (n + 1) rest hv hu

theorem alike_fields (o o' : Origin) :
    ∀ (fields : List (String × Json)) {name : String} {sub : Json},
      Entries.get? fields name = some sub →
      Alike (ofJson o sub) (ofJson o' sub)
  | (k, d) :: rest, name, sub, hs => by
      rw [Entries.get?_cons] at hs
      split at hs
      · exact Option.some.inj hs ▸ alike_ofJson o o' d
      · exact alike_fields o o' rest hs

end

mutual

theorem Alike.refl : ∀ v : Value, Alike v v
  | .null => .null
  | .bool b => .bool b
  | .int n => .int n
  | .float d => .float d
  | .string s => .string s
  | .list items => .list rfl fun i _ _ hv hu =>
      Option.some.inj (hv.symm.trans hu) ▸ Alike.refl_items items hv
  | .object (.host h) => .host h
  | .object (.record r) => by
      have h := alike_ofJson r.origin r.origin (.object r.fields)
      rwa [ofJson] at h

theorem Alike.refl_items : ∀ (items : List Value) {i : Nat} {v : Value},
    items[i]? = some v → Alike v v
  | v :: _, 0, u, h => by
      rw [List.getElem?_cons_zero] at h
      exact Option.some.inj h ▸ Alike.refl v
  | _ :: rest, i + 1, _, h => Alike.refl_items rest (List.getElem?_cons_succ ▸ h)

end

theorem Alike.symm {v u : Value} (h : Alike v u) : Alike u v := by
  induction h with
  | null => exact .null
  | bool b => exact .bool b
  | int n => exact .int n
  | float d => exact .float d
  | string s => exact .string s
  | list hl _ ih => exact .list hl.symm fun i u v hu hv => ih i v u hv hu
  | host h => exact .host h
  | record hn _ ih =>
      exact .record (fun place other name => (hn other place name).symm)
        fun place other name u v hu hv => ih other place name v u hv hu

theorem Alike.trans {v u t : Value} (h : Alike v u) (h' : Alike u t) : Alike v t := by
  induction h generalizing t with
  | null => exact h'
  | bool b => exact h'
  | int n => exact h'
  | float d => exact h'
  | string s => exact h'
  | host h => exact h'
  | @list vs us hl _ ih =>
      cases h' with
      | @list _ ts hl' hi' =>
          refine .list (hl.trans hl') fun i v t hv ht => ?_
          have hi : i < us.length := hl ▸ (List.getElem?_eq_some_iff.mp hv).1
          exact ih i v _ hv (List.getElem?_eq_getElem hi)
            (hi' i _ t (List.getElem?_eq_getElem hi) ht)
  | @record r s hn _ ih =>
      cases h' with
      | @record _ q hn' hm' =>
          refine .record (fun place other name =>
            (hn place place name).trans (hn' place other name))
            fun place other name v t hv ht => ?_
          obtain ⟨u, hu⟩ := Option.isSome_iff_exists.mp
            ((hn place place name).symm.trans
              (hv ▸ rfl : (r.member? place name).isSome = true))
          exact ih place place name v u hv hu (hm' place other name u t hu ht)

/-- To look the same is an equivalence. -/
theorem alike_equivalence : Equivalence Alike := ⟨Alike.refl, Alike.symm, Alike.trans⟩

theorem texts_eq_map (t : Typing) (items : List Value) :
    texts t items = items.map (text t) := by
  induction items with
  | nil => rw [texts]; rfl
  | cons v rest ih => rw [texts, ih, List.map_cons]

/-- Values that look the same are of the same types and read the same in messages. -/
theorem Alike.text_eq {v u : Value} (h : Alike v u) (t : Typing) :
    v.isInstanceOf t = u.isInstanceOf t ∧ v.typeName t = u.typeName t ∧
      v.text t = u.text t := by
  refine ⟨by cases h <;> rfl, by cases h <;> rfl, ?_⟩
  induction h with
  | @list vs us hl _ ih =>
      rw [text, text, texts_eq_map, texts_eq_map]
      congr 3
      refine List.ext_getElem (by rw [List.length_map, List.length_map, hl])
        fun i hi hi' => ?_
      rw [List.getElem_map, List.getElem_map]
      exact ih i _ _ (List.getElem?_eq_getElem _) (List.getElem?_eq_getElem _)
  | record _ _ _ => rw [text, text]; rfl
  | _ => rfl

/-! ## Reading along a path -/

variable {σ : Type}

/-- Reads one name after the other, each from what was read before it. Nothing can be
read from what is no object. -/
def readAlong (host : Host σ) : Value → List (Place × String) → Act σ (Option Value)
  | v, [] => pure (some v)
  | .object o, (place, name) :: rest => do
      let v ← o.read host place name
      v.readAlong host rest
  | _, _ :: _ => pure none

theorem readAlong_nil (host : Host σ) (v : Value) :
    v.readAlong host [] = pure (some v) := by
  cases v <;> rfl

/-- A record answers a read at once. -/
theorem readAlong_record (host : Host σ) (r : Record) (place : Place) (name : String)
    (rest : List (Place × String)) :
    readAlong host (.object (.record r)) ((place, name) :: rest) =
      readAlong host ((r.member? place name).getD .null) rest := rfl

theorem ofJson_eq_null_iff (o : Origin) (d : Json) :
    ofJson o d = .null ↔ d = .null := by
  cases d with
  | integer n =>
      rw [ofJson, ofInteger]
      split <;> simp
  | _ => simp [ofJson]

end Value

/-- Of a property a record says whether it is there, and null is there. -/
theorem Record.property_eq_none_and_null_iff {o : Origin}
    {fields : List (String × Json)} (t : Directory) (place : Place) (name : String) :
    ((Object.record ⟨o, fields⟩).property t place name = none ↔
        Entries.get? fields name = none) ∧
      ((Object.record ⟨o, fields⟩).property t place name = some .null ↔
        Entries.get? fields name = some .null) := by
  refine ⟨Option.map_eq_none_iff, ?_⟩
  rw [Object.property, Record.member?, Option.map_eq_some_iff]
  constructor
  · rintro ⟨d, hd, h⟩
    rwa [(Value.ofJson_eq_null_iff _ d).mp h] at hd
  · exact fun h => ⟨.null, h, by rw [Value.ofJson]⟩

variable {σ : Type}

/-- What is read along a path of names is what the document has there. If the document
and all members before the last are maps, reading one name after the other from the
document as a value does not fail and does nothing else. It gives null if the last name
is absent, and otherwise what looks the same as the document at the end of the path, as
a value. If that is a map again, what is read is an object that tells the names that
are absent from those under which there is null. -/
theorem read_along_documents (host : Host σ) (path : List (Place × String))
    (o : Origin) (d : Json)
    (h : ∀ n < path.length, ∃ fields, d.at? ((path.map Prod.snd).take n) =
      some (.object fields))
    (w : σ) :
    ∃ v, (Value.ofJson o d).readAlong host path w = (.ok (some v), w) ∧
      (d.at? (path.map Prod.snd) = none → v = .null) ∧
      ∀ sub, d.at? (path.map Prod.snd) = some sub →
        (∀ o', v.Alike (.ofJson o' sub)) ∧
        ∀ fields, sub = .object fields → ∃ r : Object, v = .object r ∧ ∀ place name,
          (r.property host.toDirectory place name = none ↔
            Entries.get? fields name = none) ∧
          (r.property host.toDirectory place name = some .null ↔
            Entries.get? fields name = some .null) := by
  induction path generalizing o d with
  | nil =>
      refine ⟨.ofJson o d, by rw [Value.readAlong_nil]; rfl, (nomatch ·), ?_⟩
      rintro sub ⟨⟩
      refine ⟨fun o' => Value.alike_ofJson o o' d, ?_⟩
      rintro fields rfl
      exact ⟨.record ⟨o, fields⟩, by rw [Value.ofJson], fun place name =>
        Record.property_eq_none_and_null_iff host.toDirectory place name⟩
  | cons step rest ih =>
      obtain ⟨place, name⟩ := step
      obtain ⟨fields, hd⟩ := h 0 (Nat.zero_lt_succ _)
      obtain rfl : d = .object fields := Option.some.inj hd
      have ht (names : List String) : (Json.object fields).at? (name :: names) =
          (Entries.get? fields name).bind (·.at? names) := rfl
      rw [Value.ofJson, Value.readAlong_record, Record.member?, List.map_cons, ht]
      cases hm : Entries.get? fields name with
      | some sub =>
          refine ih _ sub fun n hn => ?_
          have := h (n + 1) (Nat.succ_lt_succ hn)
          rwa [List.map_cons, List.take_succ_cons, ht, hm] at this
      | none =>
          -- an absent name can only be the last
          cases rest with
          | nil => exact ⟨.null, rfl, fun _ => rfl, fun _ => (nomatch ·)⟩
          | cons next rest =>
              obtain ⟨_, hf⟩ := h 1 (by simp)
              rw [List.map_cons, List.take_succ_cons, ht, hm] at hf
              cases hf

/-- A host that has nothing. -/
def bare : Host Unit where
  typeName := Handle.name
  call _ _ _ := pure .null

/-- A map in a map, with null under one name and a list under another. -/
def purchase : Json :=
  .object [("buyer", .object [("age", .null),
    ("roles", .array [.string "clerk", .object [("of", .integer 7)]])])]

/-- From the buyer a list, null and nothing can be read. -/
theorem purchase_read :
    (∀ name, ∀ n < 2, ∃ fields, purchase.at? (["buyer", name].take n) =
      some (.object fields)) ∧
    (∃ v, (Value.ofJson (.given 0) purchase).readAlong bare
        [(.alone, "buyer"), (.alone, "roles")] () = (.ok (some v), ()) ∧
      v.Alike (.ofJson (.given 1)
        (.array [.string "clerk", .object [("of", .integer 7)]]))) ∧
    (Value.ofJson (.given 0) purchase).readAlong bare
      [(.alone, "buyer"), (.alone, "name")] () = (.ok (some .null), ()) ∧
    ∃ r : Object, (Value.ofJson (.given 0) purchase).readAlong bare
        [(.alone, "buyer")] () = (.ok (some (.object r)), ()) ∧
      r.property bare.toDirectory .alone "age" = some .null ∧
      r.property bare.toDirectory .alone "name" = none := by
  have maps : ∀ name, ∀ n < 2, ∃ fields,
      purchase.at? (["buyer", name].take n) = some (.object fields)
    | _, 0, _ => ⟨_, rfl⟩
    | _, 1, _ => ⟨_, rfl⟩
  refine ⟨maps, ?_, ?_, ?_⟩
  · obtain ⟨v, hv, _, hs⟩ :=
      read_along_documents bare [(.alone, "buyer"), (.alone, "roles")]
      (.given 0) purchase (maps "roles") ()
    exact ⟨v, hv, (hs _ rfl).1 _⟩
  · obtain ⟨v, hv, hn, _⟩ :=
      read_along_documents bare [(.alone, "buyer"), (.alone, "name")]
      (.given 0) purchase (maps "name") ()
    exact hn rfl ▸ hv
  · obtain ⟨v, hv, _, hs⟩ := read_along_documents bare [(.alone, "buyer")]
      (.given 0) purchase (fun | 0, _ => ⟨_, rfl⟩) ()
    obtain ⟨r, rfl, hr⟩ := (hs _ rfl).2 _ rfl
    exact ⟨r, hv, (hr .alone "age").2.mpr rfl, (hr .alone "name").1.mpr rfl⟩

end Clearance
