import Clearance.Table
import Clearance.Value.Basic

/-!
# Contexts

A context carries what the caller supplies for one decision: named values, and perhaps
a handle of a subject cache. Contexts are values: a copy shares nothing with what it
was copied from but the cache its handle names. The caches themselves live in a store,
where each is filled at most once.

That much is said of any place in a state that is empty at first and keeps what is put
there. `Slot.getOrInit` is the one way to use it: it answers what is there, and
computes it if nothing is.
-/

namespace Clearance

/-! ## Places filled once -/

/-- A place in states of type `σ`. -/
structure Slot (σ α : Type) where
  get : σ → Option α
  set : α → σ → σ
  get_set : ∀ a s, get (set a s) = some a

/-- What is in the slot, after computing it if the slot was empty. -/
def Slot.getOrInit {σ α : Type} (slot : Slot σ α)
    (compute : StateM σ α) : StateM σ α := fun s =>
  match slot.get s with
  | some a => (a, s)
  | none => let (a, s) := compute s; (a, slot.set a s)

/-! ## Subject caches -/

/-- The handle of a subject cache. -/
abbrev CacheId := Nat

/-- The subject caches there are, numbered in the order in which they were made. -/
structure SubjectCaches where
  /-- How many have been made. -/
  made : Nat
  /-- What each of them holds. -/
  held : CacheId → Option (List Value)

namespace SubjectCaches

def empty : SubjectCaches := ⟨0, fun _ => none⟩

/-- One more cache, empty. -/
def create (c : SubjectCaches) : CacheId × SubjectCaches :=
  (c.made, ⟨c.made + 1, fun id => if id = c.made then none else c.held id⟩)

def isInitialized (c : SubjectCaches) (id : CacheId) : Bool := (c.held id).isSome

/-- Puts subjects into a cache. -/
def fill (id : CacheId) (subjects : List Value) (c : SubjectCaches) : SubjectCaches :=
  { c with held := fun other => if other = id then some subjects else c.held other }

/-- The place of a cache in a state of which the caches are a part. -/
def slot {σ : Type} (id : CacheId) : Slot (σ × SubjectCaches) (List Value) where
  get s := s.2.held id
  set subjects s := (s.1, s.2.fill id subjects)
  get_set _ _ := if_pos rfl

end SubjectCaches

/-! ## What the caller supplies -/

/-- What the caller supplies for a decision. -/
structure Context where
  values : Table Value := .empty
  cache : Option CacheId := none

namespace Context

/-- The named values, of two with one name the later, and no cache. -/
def ofPairs (pairs : List (String × Value)) : Context :=
  { values := Table.ofPairs pairs }

def insert (c : Context) (name : String) (v : Value) : Context :=
  { c with values := c.values.insert name v }

def get? (c : Context) (name : String) : Option Value := c.values.get? name

def contains (c : Context) (name : String) : Bool := c.values.contains name

def size (c : Context) : Nat := c.values.size

def withCache (c : Context) (id : CacheId) : Context := { c with cache := some id }

end Context

end Clearance
