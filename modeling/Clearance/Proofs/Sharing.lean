import Clearance.Collaborator.Locators
import Clearance.Context

/-!
# Caches that are shared

Contexts are handed on, copied and changed, and a cache is known to whoever has a
handle of it: a context, its copies, or someone who kept the handle for himself. What a
cache is asked comes with a closure, which computes the list if nothing is there yet,
and a closure may do whatever the caller could: make and change contexts, and ask
caches in its turn. So a caller is a `Program`, and a closure is a program again. It
may not ask the cache for which it computes; `Abstains` says so of what it does and not
of how it is written, since a handle that it finds on its way may be any.

A run keeps a journal, and the law of a cache is about the journal: it is cut in two by
the one entry that the list has been computed. Before it stands one question, and
nobody has been told that there is something; after it everybody is given that list.
There is no third place for the time while the closure runs, since nobody asks then,
and nothing gets known (`respects_blank`).
-/

namespace Clearance

section Slots

variable {σ α : Type} {slot : Slot σ α} {compute : StateM σ α} {s : σ}

theorem Slot.getOrInit_of_some {a : α} (h : slot.get s = some a) :
    slot.getOrInit compute s = (a, s) := by
  simp only [getOrInit, h]

theorem Slot.getOrInit_of_none (h : slot.get s = none) :
    slot.getOrInit compute s =
      ((compute s).1, slot.set (compute s).1 (compute s).2) := by
  simp only [getOrInit, h]
  rfl

end Slots

namespace Sharing

/-! ## Journals -/

/-- What may be done to a context. -/
inductive Change where
  | value (name : String) (v : Value)
  | cache (id : CacheId)

def Change.apply (c : Context) : Change → Context
  | .value name v => c.insert name v
  | .cache id => c.withCache id

inductive Entry where
  /-- A cache was asked for its list. -/
  | asked (id : CacheId)
  /-- The closure that came with a question was run, and computed a list. -/
  | computed (id : CacheId) (subjects : List Value)
  /-- The question was answered. -/
  | gave (id : CacheId) (subjects : List Value)
  /-- Somebody was told whether there is a list in a cache. -/
  | told (id : CacheId) (initialized : Bool)
  /-- The context with a number was changed. -/
  | changed (context : Nat) (change : Change)

namespace Entry

def asks (id : CacheId) : Entry → Bool
  | .asked other => other == id
  | _ => false

/-- An entry fits the content of a cache: nothing is computed, and who asks learns
the content. -/
def Fits (id : CacheId) (content : Option (List Value)) : Entry → Prop
  | .computed other _ => other ≠ id
  | .gave other subjects => other = id → content = some subjects
  | .told other initialized => other = id → initialized = content.isSome
  | _ => True

end Entry

/-- How often a cache has been asked. -/
def questions (id : CacheId) (journal : List Entry) : Nat := journal.countP (·.asks id)

/-- The law of a cache that now has the given content. A cache without content has not
been asked. A cache with content has been asked, its list was computed then, and never
again; until then nobody was given anything or told that there is something, and since
then everybody is given the list and told that it is there. -/
def Law (id : CacheId) : Option (List Value) → List Entry → Prop
  | none, journal => (∀ e ∈ journal, e.Fits id none) ∧ questions id journal = 0
  | some subjects, journal => ∃ before after,
      journal = before ++ .computed id subjects :: after ∧
      (∀ e ∈ before, e.Fits id none) ∧ questions id before = 1 ∧
      ∀ e ∈ after, e.Fits id (some subjects)

/-- A context after the changes that a journal has of it. -/
def contextAfter (context : Nat) (c : Context) (journal : List Entry) : Context :=
  journal.foldl (fun c e =>
    match e with
    | .changed other change => if other = context then change.apply c else c
    | _ => c) c

/-! ## Programs -/

/-- The contexts there are, numbered in the order in which they were made, the world
outside, and what happened. -/
structure Desk (σ : Type) where
  world : σ
  contexts : List Context
  journal : List Entry

abbrev State (σ : Type) := Desk σ × SubjectCaches

variable {σ : Type}

namespace State

/-- Nothing has been made yet. -/
def start (w : σ) : State σ := (⟨w, [], []⟩, .empty)

def act (f : σ → σ) (s : State σ) : State σ := ({ s.1 with world := f s.1.world }, s.2)

def note (e : Entry) (s : State σ) : State σ :=
  ({ s.1 with journal := s.1.journal ++ [e] }, s.2)

/-- One more context. -/
def add (c : Context) (s : State σ) : State σ :=
  ({ s.1 with contexts := s.1.contexts ++ [c] }, s.2)

def change (context : Nat) (change : Change) (s : State σ) : State σ :=
  note (.changed context change)
    ({ s.1 with contexts := s.1.contexts.modify context change.apply }, s.2)

/-- The closure that came with a question has computed a list. -/
def fill (id : CacheId) (subjects : List Value) (s : State σ) : State σ :=
  (SubjectCaches.slot id).set subjects (s.note (.computed id subjects))

end State

/-- Through what a cache is reached: a handle of its own, or a context that has one. -/
inductive Holder where
  | handle (id : CacheId)
  | context (context : Nat)

/-- The cache that is reached, if there is one. -/
def Holder.cache? (s : State σ) : Holder → Option CacheId
  | .handle id => if id < s.2.made then some id else none
  | .context number => s.1.contexts[number]?.bind (·.cache)

/-- What can be done without asking a cache for its list. -/
inductive Operation where
  | create
  | copy (context : Nat)
  | look (context : Nat)
  | insert (context : Nat) (name : String) (v : Value)
  | createCache
  | attach (context : Nat) (cache : Holder)
  | isInitialized (cache : Holder)

/-- What is learned from an operation. -/
inductive Answer where
  | nothing
  | context (number : Nat)
  | looks (c : Context)
  | cache (id : CacheId)
  | flag (b : Bool)

/-- An operation on what is not there does nothing. -/
def Operation.step (s : State σ) : Operation → Answer × State σ
  | .create => (.context s.1.contexts.length, s.add {})
  | .copy context =>
      match s.1.contexts[context]? with
      | some c => (.context s.1.contexts.length, s.add c)
      | none => (.nothing, s)
  | .look context => ((s.1.contexts[context]?.map .looks).getD .nothing, s)
  | .insert context name v => (.nothing, s.change context (.value name v))
  | .createCache => (.cache s.2.create.1, (s.1, s.2.create.2))
  | .attach context cache =>
      match cache.cache? s with
      | some id => (.nothing, s.change context (.cache id))
      | none => (.nothing, s)
  | .isInitialized cache =>
      match cache.cache? s with
      | some id =>
          (.flag (s.2.isInitialized id), s.note (.told id (s.2.isInitialized id)))
      | none => (.nothing, s)

/-- Asks a cache for its list, with a closure that may compute it. -/
def ask (id : CacheId) (closure : StateM (State σ) (List Value)) :
    StateM (State σ) (List Value) := do
  modify (State.note (.asked id))
  let subjects ← (SubjectCaches.slot id).getOrInit do
    let subjects ← closure
    modify (State.note (.computed id subjects))
    pure subjects
  modify (State.note (.gave id subjects))
  pure subjects

section Asking

variable {id : CacheId} {closure : StateM (State σ) (List Value)} {s : State σ}

theorem ask_eq : ask id closure s =
    let (subjects, t) := (SubjectCaches.slot id).getOrInit
      (fun s => let (subjects, t) := closure s;
        (subjects, State.note (.computed id subjects) t))
      (s.note (.asked id))
    (subjects, State.note (.gave id subjects) t) := rfl

theorem ask_of_some {subjects : List Value} (h : s.2.held id = some subjects) :
    ask id closure s = (subjects, (s.note (.asked id)).note (.gave id subjects)) := by
  have hg : (SubjectCaches.slot id).get (s.note (.asked id)) = some subjects := h
  rw [ask_eq, Slot.getOrInit_of_some hg]

theorem ask_of_none (h : s.2.held id = none) :
    ask id closure s = ((closure (s.note (.asked id))).1,
      ((closure (s.note (.asked id))).2.fill id (closure (s.note (.asked id))).1).note
        (.gave id (closure (s.note (.asked id))).1)) := by
  have hg : (SubjectCaches.slot id).get (s.note (.asked id)) = none := h
  rw [ask_eq, Slot.getOrInit_of_none hg]
  rfl

end Asking

/-- A caller, step by step; what is done next may depend on all that was learned. -/
inductive Program (σ : Type) : Type where
  | done (subjects : List Value)
  | act (f : σ → σ) (next : σ → Program σ)
  | operate (op : Operation) (next : Answer → Program σ)
  | ask (cache : Holder) (closure : Program σ) (next : Option (List Value) → Program σ)

namespace Program

def run : Program σ → StateM (State σ) (List Value)
  | .done subjects => pure subjects
  | .act f next => fun s => run (next s.1.world) (s.act f)
  | .operate op next => fun s => run (next (op.step s).1) (op.step s).2
  | .ask cache closure next => fun s =>
      match cache.cache? s with
      | some id =>
          run (next (some (Sharing.ask id (run closure) s).1))
            (Sharing.ask id (run closure) s).2
      | none => run (next none) s

/-- In the run from a state no closure asks the cache for which it computes. -/
def Abstains : Program σ → State σ → Prop
  | .done _, _ => True
  | .act f next, s => (next s.1.world).Abstains (s.act f)
  | .operate op next, s => (next (op.step s).1).Abstains (op.step s).2
  | .ask cache closure next, s =>
      match cache.cache? s with
      | some id =>
          (s.2.held id = none → closure.Abstains (s.note (.asked id)) ∧
            questions id (closure.run (s.note (.asked id))).2.1.journal =
              questions id (s.note (.asked id)).1.journal) ∧
          (next (some (Sharing.ask id closure.run s).1)).Abstains
            (Sharing.ask id closure.run s).2
      | none => (next none).Abstains s

theorem run_ask_of_some {cache : Holder} {closure : Program σ}
    {next : Option (List Value) → Program σ} {s : State σ} {id : CacheId}
    (h : cache.cache? s = some id) :
    (ask cache closure next).run s =
      (next (some (Sharing.ask id closure.run s).1)).run
        (Sharing.ask id closure.run s).2 := by
  simp only [run, h]

theorem run_ask_of_none {cache : Holder} {closure : Program σ}
    {next : Option (List Value) → Program σ} {s : State σ}
    (h : cache.cache? s = none) :
    (ask cache closure next).run s = (next none).run s := by
  simp only [run, h]

theorem abstains_ask_of_some {cache : Holder} {closure : Program σ}
    {next : Option (List Value) → Program σ} {s : State σ} {id : CacheId}
    (h : cache.cache? s = some id) :
    (ask cache closure next).Abstains s ↔
      (s.2.held id = none → closure.Abstains (s.note (.asked id)) ∧
        questions id (closure.run (s.note (.asked id))).2.1.journal =
          questions id (s.note (.asked id)).1.journal) ∧
      (next (some (Sharing.ask id closure.run s).1)).Abstains
        (Sharing.ask id closure.run s).2 := by
  simp only [Abstains, h]

theorem abstains_ask_of_none {cache : Holder} {closure : Program σ}
    {next : Option (List Value) → Program σ} {s : State σ}
    (h : cache.cache? s = none) :
    (ask cache closure next).Abstains s ↔ (next none).Abstains s := by
  simp only [Abstains, h]

end Program

/-! ## What a run keeps -/

/-- What happens at one step, questions and what they compute apart. -/
inductive Moves (s : State σ) : State σ → Prop where
  | stays : Moves s s
  | acts (f : σ → σ) : Moves s (s.act f)
  | adds {c : Context} :
      (∀ id, c.cache = some id → ∃ cache, Holder.cache? s cache = some id) →
      Moves s (s.add c)
  | changes (context : Nat) {change : Change} :
      (∀ id, change = .cache id → ∃ cache, Holder.cache? s cache = some id) →
      Moves s (s.change context change)
  | makes : Moves s (s.1, s.2.create.2)
  | tells (id : CacheId) : Moves s (s.note (.told id (s.2.isInitialized id)))
  | gives {id : CacheId} {subjects : List Value} : s.2.held id = some subjects →
      Moves s (s.note (.gave id subjects))

theorem Operation.moves (op : Operation) (s : State σ) : Moves s (op.step s).2 := by
  cases op with
  | create => exact .adds fun _ h => nomatch h
  | copy context =>
      rw [step]
      split
      · rename_i c hc
        exact .adds fun id h =>
          ⟨.context context, Option.bind_eq_some_iff.mpr ⟨c, hc, h⟩⟩
      · exact .stays
  | look context => exact .stays
  | insert context name v => exact .changes context fun _ h => nomatch h
  | createCache => exact .makes
  | attach context cache =>
      rw [step]
      split
      · rename_i id hc
        refine .changes context fun _ h => ?_
        cases h
        exact ⟨cache, hc⟩
      · exact .stays
  | isInitialized cache =>
      rw [step]
      split
      · exact .tells _
      · exact .stays

/-- A relation between earlier and later states, if it does not get lost at any step.
Of a question that runs its closure it is enough to know it for the closure. -/
structure Respects (P : State σ → State σ → Prop) : Prop where
  refl : ∀ s, P s s
  trans : ∀ {s t u}, P s t → P t u → P s u
  moves : ∀ {s t}, Moves s t → P s t
  asks : ∀ id s, P s (s.note (.asked id))
  fills : ∀ {s t cache id} subjects, Holder.cache? s cache = some id →
    s.2.held id = none →
    P (s.note (.asked id)) t → P s (t.fill id subjects)

theorem State.held_fill (id : CacheId) (subjects : List Value) (s : State σ) :
    (s.fill id subjects).2.held id = some subjects := if_pos rfl

theorem Respects.run {P : State σ → State σ → Prop} (h : Respects P) (p : Program σ) :
    ∀ s, P s (p.run s).2 := by
  induction p with
  | done subjects => exact h.refl
  | act f next ih => exact fun s => h.trans (h.moves (.acts f)) (ih _ _)
  | operate op next ih => exact fun s => h.trans (h.moves (op.moves s)) (ih _ _)
  | ask cache closure next ihc ih =>
      intro s
      cases hc : cache.cache? s with
      | none => exact Program.run_ask_of_none hc ▸ ih _ _
      | some id =>
          rw [Program.run_ask_of_some hc]
          refine h.trans ?_ (ih _ _)
          cases hh : s.2.held id with
          | some subjects =>
              rw [ask_of_some hh]
              exact h.trans (h.asks id s) (h.moves (.gives hh))
          | none =>
              rw [ask_of_none hh]
              exact h.trans (h.fills _ hc hh (ihc _))
                (h.moves (.gives (State.held_fill ..)))

/-! ### Handles -/

/-- Handles are handles of caches that have been made, and a cache that has not been
made is empty. -/
structure Sound (s : State σ) : Prop where
  unmade : ∀ id, s.2.made ≤ id → s.2.held id = none
  attached : ∀ c ∈ s.1.contexts, ∀ id, c.cache = some id → id < s.2.made

theorem Sound.start (w : σ) : Sound (State.start w) :=
  ⟨fun _ _ => rfl, fun _ h => nomatch h⟩

theorem Sound.lt_made {s : State σ} (h : Sound s) {cache : Holder} {id : CacheId}
    (hc : cache.cache? s = some id) : id < s.2.made := by
  cases cache with
  | handle other =>
      simp only [Holder.cache?, Option.ite_none_right_eq_some, Option.some.injEq] at hc
      exact hc.2 ▸ hc.1
  | context number =>
      obtain ⟨c, hm, hc⟩ := Option.bind_eq_some_iff.mp hc
      exact h.attached c (List.mem_of_getElem? hm) id hc

theorem Moves.sound {s t : State σ} (hm : Moves s t) (h : Sound s) :
    s.2.made ≤ t.2.made ∧ Sound t := by
  cases hm with
  | stays => exact ⟨Nat.le_refl _, h⟩
  | acts f => exact ⟨Nat.le_refl _, h.unmade, h.attached⟩
  | @adds c hc =>
      refine ⟨Nat.le_refl _, h.unmade, fun other hm => ?_⟩
      rcases List.mem_append.mp hm with hm | hm
      · exact h.attached other hm
      · obtain rfl := List.mem_singleton.mp hm
        exact fun id hid => let ⟨_, hc⟩ := hc id hid; h.lt_made hc
  | @changes context change hc =>
      refine ⟨Nat.le_refl _, h.unmade, fun other hm id hid => ?_⟩
      obtain ⟨n, hn⟩ := List.mem_iff_getElem?.mp hm
      obtain ⟨c, hcn, rfl⟩ :=
        Option.map_eq_some_iff.mp ((List.getElem?_modify ..).symm.trans hn)
      have hold := h.attached c (List.mem_of_getElem? hcn) id
      split at hid
      · cases change with
        | value name v => exact hold hid
        | cache new =>
            obtain ⟨_, hc⟩ := hc new rfl
            exact Option.some.inj hid ▸ h.lt_made hc
      · exact hold hid
  | makes =>
      refine ⟨Nat.le_succ _, fun id hid => ?_, fun c hm id hc =>
        Nat.lt_succ_of_lt (h.attached c hm id hc)⟩
      exact (if_neg (Nat.ne_of_gt hid)).trans (h.unmade id (Nat.le_of_succ_le hid))
  | tells id => exact ⟨Nat.le_refl _, h.unmade, h.attached⟩
  | gives _ => exact ⟨Nat.le_refl _, h.unmade, h.attached⟩

theorem respects_sound :
    Respects fun s t : State σ => Sound s → s.2.made ≤ t.2.made ∧ Sound t where
  refl _ h := ⟨Nat.le_refl _, h⟩
  trans hst htu h := ⟨Nat.le_trans (hst h).1 (htu (hst h).2).1, (htu (hst h).2).2⟩
  moves := Moves.sound
  asks _ _ h := ⟨Nat.le_refl _, h.unmade, h.attached⟩
  fills _ hc _ ht h := by
    obtain ⟨hn, h'⟩ := ht ⟨h.unmade, h.attached⟩
    have hid := Nat.lt_of_lt_of_le (h.lt_made hc) hn
    refine ⟨hn, fun other ho => ?_, h'.attached⟩
    exact (if_neg (Nat.ne_of_gt (Nat.lt_of_lt_of_le hid ho))).trans
      (h'.unmade other ho)

/-! ### Contexts -/

theorem contextAfter_append (context : Nat) (c : Context)
    (journal added : List Entry) :
    contextAfter context c (journal ++ added) =
      contextAfter context (contextAfter context c journal) added := List.foldl_append

/-- The contexts that were there are changed by what the journal has of them, and by
nothing else. -/
def Follows (s t : State σ) : Prop :=
  ∃ added, t.1.journal = s.1.journal ++ added ∧
    s.1.contexts.length ≤ t.1.contexts.length ∧
    ∀ n < s.1.contexts.length,
      t.1.contexts[n]? = s.1.contexts[n]?.map (contextAfter n · added)

theorem Follows.of_append {s t : State σ} (more : List Context)
    (hj : t.1.journal = s.1.journal)
    (hc : t.1.contexts = s.1.contexts ++ more) : Follows s t := by
  refine ⟨[], by rw [hj, List.append_nil], ?_, fun n hn => ?_⟩
  · rw [hc, List.length_append]
    exact Nat.le_add_right ..
  · rw [hc, List.getElem?_append_left hn]
    exact Option.map_id'.symm

theorem Follows.of_changes {s t : State σ} {e : Entry}
    (hj : t.1.journal = s.1.journal ++ [e])
    (hl : s.1.contexts.length ≤ t.1.contexts.length)
    (hc : ∀ n : Nat, t.1.contexts[n]? = s.1.contexts[n]?.map (contextAfter n · [e])) :
    Follows s t := ⟨[e], hj, hl, fun n _ => hc n⟩

theorem Follows.note {s : State σ} {e : Entry} (he : ∀ n c, contextAfter n c [e] = c) :
    Follows s (s.note e) :=
  .of_changes rfl (Nat.le_refl _) fun n => by
    rw [funext (he n)]
    exact Option.map_id'.symm

theorem Follows.trans {s t u : State σ} (hst : Follows s t)
    (htu : Follows t u) : Follows s u := by
  obtain ⟨added, hj, hl, hc⟩ := hst
  obtain ⟨added', hj', hl', hc'⟩ := htu
  refine ⟨added ++ added', by rw [hj', hj, List.append_assoc], Nat.le_trans hl hl',
    fun n hn => ?_⟩
  rw [hc' n (Nat.lt_of_lt_of_le hn hl), hc n hn, Option.map_map]
  exact congrArg (Option.map · _)
    (funext fun c => (contextAfter_append n c added added').symm)

theorem Moves.follows {s t : State σ} (hm : Moves s t) : Follows s t := by
  cases hm with
  | stays => exact .of_append [] rfl (List.append_nil _).symm
  | acts f => exact .of_append [] rfl (List.append_nil _).symm
  | adds _ => exact .of_append _ rfl rfl
  | changes context _ =>
      refine .of_changes rfl (Nat.le_of_eq (List.length_modify ..).symm) fun n => ?_
      refine (List.getElem?_modify ..).trans
        (congrArg (Option.map · _) (funext fun c => ?_))
      rfl
  | makes => exact .of_append [] rfl (List.append_nil _).symm
  | tells id => exact .note fun _ _ => rfl
  | gives _ => exact .note fun _ _ => rfl

theorem respects_follows : Respects fun s t : State σ => Follows s t where
  refl _ := .of_append [] rfl (List.append_nil _).symm
  trans := Follows.trans
  moves := Moves.follows
  asks _ _ := .note fun _ _ => rfl
  fills _ _ _ ht :=
    (Follows.note fun _ _ => rfl).trans (ht.trans (.note fun _ _ => rfl))

/-! ### Caches -/

theorem questions_append (id : CacheId) (journal added : List Entry) :
    questions id (journal ++ added) = questions id journal + questions id added :=
  List.countP_append

theorem questions_asked (id other : CacheId) :
    questions id [.asked other] = if other = id then 1 else 0 := by
  simp [questions, Entry.asks, List.countP_singleton]

theorem questions_note_asked (id other : CacheId) (s : State σ) :
    questions id (s.note (.asked other)).1.journal =
      questions id s.1.journal + if other = id then 1 else 0 :=
  (questions_append ..).trans (congrArg _ (questions_asked id other))

/-- What a step writes down fits what the caches hold, which it leaves alone. -/
theorem Moves.fits {s t : State σ} (hm : Moves s t) (h : Sound s) :
    t.2.held = s.2.held ∧ ∃ added, t.1.journal = s.1.journal ++ added ∧
      ∀ id, (∀ e ∈ added, e.Fits id (s.2.held id)) ∧ questions id added = 0 := by
  have none : ∃ added, s.1.journal = s.1.journal ++ added ∧
      ∀ id, (∀ e ∈ added, e.Fits id (s.2.held id)) ∧ questions id added = 0 :=
    ⟨[], (List.append_nil _).symm, fun id => ⟨fun _ he => (nomatch he), rfl⟩⟩
  have one (e : Entry) (hf : ∀ id, e.Fits id (s.2.held id))
      (ha : ∀ id, e.asks id = false) :
      ∃ added, s.1.journal ++ [e] = s.1.journal ++ added ∧
        ∀ id, (∀ e ∈ added, e.Fits id (s.2.held id)) ∧ questions id added = 0 :=
    ⟨[e], rfl, fun id => ⟨fun _ he => List.mem_singleton.mp he ▸ hf id,
      by rw [questions, List.countP_singleton, ha]; rfl⟩⟩
  cases hm with
  | stays => exact ⟨rfl, none⟩
  | acts f => exact ⟨rfl, none⟩
  | adds _ => exact ⟨rfl, none⟩
  | changes context _ => exact ⟨rfl, one _ (fun _ => trivial) fun _ => rfl⟩
  | makes =>
      refine ⟨funext fun id => ?_, none⟩
      by_cases hid : id = s.2.made
      · exact (if_pos hid).trans (h.unmade id (Nat.le_of_eq hid.symm)).symm
      · exact if_neg hid
  | tells id => exact ⟨rfl, one _ (fun _ he => he ▸ rfl) fun _ => rfl⟩
  | gives hh => exact ⟨rfl, one _ (fun _ he => he ▸ hh) fun _ => rfl⟩

/-- Nothing is known of a cache yet. -/
def Blank (id : CacheId) (s : State σ) : Prop :=
  s.2.held id = none ∧ ∀ e ∈ s.1.journal, e.Fits id none

theorem Blank.note {id : CacheId} {s : State σ} {e : Entry} (h : Blank id s)
    (he : e.Fits id none) :
    Blank id (s.note e) :=
  ⟨h.1, fun e' hm => (List.mem_append.mp hm).elim (h.2 e')
    fun hm => List.mem_singleton.mp hm ▸ he⟩

/-- As long as a cache is not asked, nothing gets known of it. -/
theorem respects_blank (id : CacheId) : Respects fun s t : State σ =>
    (Sound s → s.2.made ≤ t.2.made ∧ Sound t) ∧
    (Sound s → questions id s.1.journal ≤ questions id t.1.journal ∧
      (questions id t.1.journal = questions id s.1.journal →
        Blank id s → Blank id t)) where
  refl s := ⟨respects_sound.refl s, fun _ => ⟨Nat.le_refl _, fun _ hb => hb⟩⟩
  trans hst htu := by
    refine ⟨respects_sound.trans hst.1 htu.1, fun h => ?_⟩
    obtain ⟨hst', hbst⟩ := hst.2 h
    obtain ⟨htu', hbtu⟩ := htu.2 (hst.1 h).2
    exact ⟨Nat.le_trans hst' htu', fun hq hb => hbtu (by omega) (hbst (by omega) hb)⟩
  moves hm := by
    refine ⟨respects_sound.moves hm, fun h => ?_⟩
    obtain ⟨hh, added, hj, hf⟩ := hm.fits h
    rw [hj, questions_append]
    refine ⟨Nat.le_add_right .., fun _ hb => ⟨hh ▸ hb.1, fun e he => ?_⟩⟩
    rcases List.mem_append.mp (hj ▸ he) with he | he
    · exact hb.2 e he
    · exact hb.1 ▸ (hf id).1 e he
  asks other s := by
    refine ⟨respects_sound.asks other s, fun _ => ⟨?_, fun _ hb => hb.note trivial⟩⟩
    exact questions_note_asked id other s ▸ Nat.le_add_right ..
  fills {s t _ other} subjects hc hn ht := by
    refine ⟨respects_sound.fills subjects hc hn ht.1, fun h => ?_⟩
    obtain ⟨hq, hb⟩ := ht.2 ⟨h.unmade, h.attached⟩
    have hs := questions_note_asked id other s
    have hu : questions id (t.fill other subjects).1.journal =
        questions id t.1.journal :=
      questions_append ..
    refine ⟨by omega, fun he hbs => ?_⟩
    have hne : other ≠ id := fun hid => by
      rw [if_pos hid] at hs
      omega
    rw [if_neg hne] at hs
    have hbt :=
      (hb (by omega) (hbs.note trivial)).note (e := .computed other subjects) hne
    exact ⟨(if_neg (Ne.symm hne)).trans hbt.1, hbt.2⟩

theorem Law.append {id : CacheId} {content : Option (List Value)}
    {journal added : List Entry} (h : Law id content journal)
    (hf : ∀ e ∈ added, e.Fits id content)
    (hq : content = none → questions id added = 0) :
    Law id content (journal ++ added) := by
  cases content with
  | none =>
      refine ⟨fun e he => (List.mem_append.mp he).elim (h.1 e) (hf e), ?_⟩
      rw [questions_append, h.2, hq rfl]
  | some subjects =>
      obtain ⟨before, after, rfl, hb, ho, ha⟩ := h
      refine ⟨before, after ++ added, by rw [List.append_assoc, List.cons_append], hb,
        ho, fun e he => (List.mem_append.mp he).elim (ha e) (hf e)⟩

theorem Moves.law {id : CacheId} {s t : State σ} (hm : Moves s t) (h : Sound s)
    (hl : Law id (s.2.held id) s.1.journal) : Law id (t.2.held id) t.1.journal := by
  obtain ⟨hh, added, hj, hf⟩ := hm.fits h
  rw [hh, hj]
  exact hl.append (hf id).1 fun _ => (hf id).2

/-- The law of a cache is kept by a question of another one, and once there is a list
also by its own. -/
theorem Law.asked {id other : CacheId} {content : Option (List Value)}
    {journal : List Entry} (h : Law id content journal)
    (ho : other = id → content ≠ none) :
    Law id content (journal ++ [.asked other]) := by
  refine h.append (fun e he => List.mem_singleton.mp he ▸ trivial) fun hn => ?_
  rw [questions_asked, if_neg fun he => ho he hn]

/-- The law holds of a cache once its list has been computed, if it was not
asked meanwhile. -/
theorem Law.fill {id : CacheId} {s t : State σ} (hl : Law id none s.1.journal)
    (hq : questions id t.1.journal = questions id (s.note (.asked id)).1.journal)
    (hb : Blank id t) (subjects : List Value) :
    Law id ((t.fill id subjects).2.held id) (t.fill id subjects).1.journal := by
  rw [State.held_fill]
  refine ⟨t.1.journal, [], rfl, hb.2, ?_, fun e he => nomatch he⟩
  rw [hq, questions_note_asked, hl.2, if_pos rfl]

theorem Law.fill_other {id other : CacheId} {t : State σ} (hne : other ≠ id)
    (hl : Law id (t.2.held id) t.1.journal) (subjects : List Value) :
    Law id ((t.fill other subjects).2.held id) (t.fill other subjects).1.journal := by
  have hh : (t.fill other subjects).2.held id = t.2.held id := if_neg (Ne.symm hne)
  rw [hh]
  exact hl.append (fun e he => List.mem_singleton.mp he ▸ hne) fun _ => rfl

/-- A run keeps the law of each cache, if no closure asks the cache for which
it computes. -/
theorem Program.run_law (id : CacheId) (p : Program σ) : ∀ s, Sound s → p.Abstains s →
    Law id (s.2.held id) s.1.journal →
      Law id ((p.run s).2.2.held id) (p.run s).2.1.journal := by
  induction p with
  | done subjects => exact fun s _ _ hl => hl
  | act f next ih => exact fun s h ha hl => ih _ _ ((Moves.acts f).sound h).2 ha hl
  | operate op next ih =>
      exact fun s h ha hl => ih _ _ ((op.moves s).sound h).2 ha ((op.moves s).law h hl)
  | ask cache closure next ihc ih =>
      intro s h ha hl
      cases hc : cache.cache? s with
      | none =>
          exact run_ask_of_none hc ▸ ih _ s h ((abstains_ask_of_none hc).mp ha) hl
      | some other =>
          replace ha := (abstains_ask_of_some hc).mp ha
          rw [run_ask_of_some hc]
          have hs : Sound (s.note (.asked other)) := ⟨h.unmade, h.attached⟩
          cases hh : s.2.held other with
          | some subjects =>
              have hm : Moves (s.note (.asked other)) _ := .gives hh
              rw [ask_of_some hh] at ha ⊢
              refine ih _ _ (hm.sound hs).2 ha.2 (hm.law hs (hl.asked fun he => ?_))
              rw [← he, hh]
              exact Option.some_ne_none _
          | none =>
              obtain ⟨hac, hq⟩ := ha.1 hh
              have ht := (respects_blank id).run closure (s.note (.asked other))
              have hu := respects_sound.fills
                (closure.run (s.note (.asked other))).1 hc hh ht.1 h
              have hm : Moves _ (State.note _ _) := .gives (State.held_fill other
                (closure.run (s.note (.asked other))).1
                  (closure.run (s.note (.asked other))).2)
              rw [ask_of_none hh] at ha ⊢
              refine ih _ _ (hm.sound hu.2).2 ha.2 (hm.law hu.2 ?_)
              by_cases hne : other = id
              · subst hne
                rw [hh] at hl
                exact hl.fill hq ((ht.2 hs).2 hq (Blank.note ⟨hh, hl.1⟩ trivial)) _
              · exact (ihc _ hs hac
                  (hl.asked fun he => absurd he hne)).fill_other hne _

/-- A change of one context leaves all others and the caches alone. -/
theorem State.change_apart (context : Nat) (change : Change) (s : State σ) :
    (s.change context change).2 = s.2 ∧
      ∀ other ≠ context, (s.change context change).1.contexts[other]? =
        s.1.contexts[other]? := by
  refine ⟨rfl, fun other hne => (List.getElem?_modify ..).trans ?_⟩
  rw [funext fun c => if_neg hne.symm]
  exact Option.map_id'

/-! ## A locator that remembers -/

/-- What happens to a locator: it is asked, or something else happens. -/
inductive Visit (σ : Type) where
  | find
  | other (f : σ → σ)

/-- How often the locator is asked. -/
def finds : List (Visit σ) → Nat
  | [] => 0
  | .find :: rest => finds rest + 1
  | .other _ :: rest => finds rest

/-- What happens besides. -/
def others : List (Visit σ) → σ → σ
  | [], s => s
  | .find :: rest, s => others rest s
  | .other f :: rest, s => others rest (f s)

/-- What a locator answers, each time it is asked. -/
def answers (l : SubjectLocator σ) : List (Visit σ) → StateM σ (List (List Value))
  | [] => pure []
  | .find :: rest => do
      let subjects ← l.find
      let more ← answers l rest
      pure (subjects :: more)
  | .other f :: rest => fun s => answers l rest (f s)

theorem answers_find (l : SubjectLocator σ) (rest : List (Visit σ)) (s : σ) :
    answers l (.find :: rest) s =
      let (subjects, t) := l.find s
      let (more, u) := answers l rest t
      (subjects :: more, u) := rfl

/-- Once a locator has an answer, to ask it is to do nothing. -/
theorem answers_of_some {slot : Slot σ (List Value)} {subjects : List Value}
    (l : SubjectLocator σ) (visits : List (Visit σ))
    (hv : ∀ f, .other f ∈ visits → ∀ s, slot.get (f s) = slot.get s) : ∀ s,
    slot.get s = some subjects →
      answers (l.remember slot) visits s =
        (List.replicate (finds visits) subjects, others visits s) := by
  induction visits with
  | nil => exact fun s _ => rfl
  | cons visit rest ih =>
      have hr := ih fun f hf => hv f (.tail _ hf)
      intro s hs
      cases visit with
      | find =>
          have hf : (l.remember slot).find s = (subjects, s) :=
            Slot.getOrInit_of_some hs
          rw [answers_find, hf]
          dsimp only
          rw [hr s hs]
          rfl
      | other f => exact hr (f s) ((hv f (.head _) s).trans hs)

/-- A locator without an answer asks the one behind it when it is first asked itself,
and never again. -/
theorem answers_of_none {slot : Slot σ (List Value)} (l : SubjectLocator σ)
    (before : List (σ → σ)) (after : List (Visit σ))
    (hb : ∀ f ∈ before, ∀ s, slot.get (f s) = slot.get s)
    (ha : ∀ f, .other f ∈ after → ∀ s, slot.get (f s) = slot.get s) :
    ∀ s, slot.get s = none →
    answers (l.remember slot) (before.map .other ++ .find :: after) s =
      let (subjects, t) := l.find (before.foldl (fun s f => f s) s)
      (List.replicate (finds after + 1) subjects,
        others after (slot.set subjects t)) := by
  induction before with
  | nil =>
      intro s hs
      have hf : (l.remember slot).find s = _ := Slot.getOrInit_of_none hs
      rw [List.map_nil, List.nil_append, answers_find, hf]
      dsimp only
      rw [answers_of_some l after ha _ (slot.get_set _ _)]
      rfl
  | cons f rest ih =>
      intro s hs
      exact ih (fun g hg => hb g (.tail _ hg)) (f s) ((hb f (.head _) s).trans hs)

end Sharing

open Sharing

/-- Whatever is done with contexts and caches, in whatever order and by whomever,
closures included: if no closure asks the cache for which it computes, the list of a
cache is computed at most once, when it is first asked through any handle or context,
and it is this list that whoever asks is given; nobody is told that it is there before,
and everybody afterwards. What a context holds is changed by the changes made to it
alone. Inserting a value and attaching a cache leave the other contexts as they are,
and all caches. A locator that remembers keeps the same law: the locator behind it is
asked when it is first asked itself, and later questions leave everything as it is. -/
theorem caches_computed_once {σ : Type} (p : Program σ) (w : σ)
    (h : p.Abstains (.start w)) :
    (∀ id, Law id ((p.run (.start w)).2.2.held id) (p.run (.start w)).2.1.journal) ∧
    (∀ (q : Program σ) (s : State σ), Follows s (q.run s).2) ∧
    (∀ (op : Operation) (s : State σ) (context : Nat),
      (∃ name v, op = .insert context name v) ∨ (∃ cache, op = .attach context cache) →
      (op.step s).2.2 = s.2 ∧
        ∀ other ≠ context, (op.step s).2.1.contexts[other]? = s.1.contexts[other]?) ∧
    ∀ (slot : Slot σ (List Value)) (l : SubjectLocator σ) (before : List (σ → σ))
      (after : List (Visit σ)) (s : σ),
      (∀ f ∈ before, ∀ s, slot.get (f s) = slot.get s) →
      (∀ f, .other f ∈ after → ∀ s, slot.get (f s) = slot.get s) → slot.get s = none →
      answers (l.remember slot) (before.map .other ++ .find :: after) s =
        let (subjects, t) := l.find (before.foldl (fun s f => f s) s)
        (List.replicate (finds after + 1) subjects,
          others after (slot.set subjects t)) := by
  refine ⟨fun id => ?_, respects_follows.run, fun op s context hop => ?_,
    fun slot l before after s hb ha => answers_of_none l before after hb ha s⟩
  · exact p.run_law id _ (.start w) h ⟨fun _ he => (nomatch he), rfl⟩
  · rcases hop with ⟨name, v, rfl⟩ | ⟨cache, rfl⟩
    · exact s.change_apart context _
    · rw [Operation.step]
      split
      · exact s.change_apart context _
      · exact ⟨rfl, fun _ _ => rfl⟩

/-- A context and its copy share a cache. The copy is asked first, with a closure that
asks another cache; then the copy is given that other cache, and the first is asked
through its handle, with another closure. -/
def couple : Program Unit :=
  .operate .create fun _ =>
  .operate .createCache fun _ => .operate .createCache fun _ =>
  .operate (.attach 0 (.handle 0)) fun _ => .operate (.copy 0) fun _ =>
  .ask (.context 1)
    (.ask (.handle 1) (.done [.string "bob"]) fun found =>
      .done (.string "alice" :: found.getD []))
    fun _ => .operate (.attach 1 (.handle 1)) fun _ =>
  .ask (.handle 0) (.done [.string "carol"]) fun found =>
    .operate (.isInitialized (.context 0)) fun _ => .done (found.getD [])

/-- The list of the copy's closure is what everybody is given. -/
theorem couple_computed_once :
    couple.Abstains (.start ()) ∧
    (couple.run (.start ())).1.map Value.asString? = [some "alice", some "bob"] ∧
    ∃ subjects before after, subjects.map Value.asString? =
      [some "alice", some "bob"] ∧
      (couple.run (.start ())).2.1.journal = before ++ .computed 0 subjects :: after ∧
      questions 0 before = 1 ∧ ∀ e ∈ after, e.Fits 0 (some subjects) := by
  have h : couple.Abstains (.start ()) := by
    refine (Program.abstains_ask_of_some rfl).mpr
      ⟨fun _ => ⟨⟨fun _ => ?_, trivial⟩, ?_⟩, ?_⟩
    · exact ⟨trivial, rfl⟩
    · decide +kernel
    · exact (Program.abstains_ask_of_some (show _ = some 0 by decide +kernel)).mpr
        ⟨fun _ => ⟨trivial, rfl⟩, trivial⟩
  have hl := (caches_computed_once couple () h).1 0
  have hh : ((couple.run (.start ())).2.2.held 0).map (List.map Value.asString?) =
      some [some "alice", some "bob"] := by decide +kernel
  obtain ⟨subjects, hs, ha⟩ := Option.map_eq_some_iff.mp hh
  rw [hs] at hl
  obtain ⟨before, after, hj, _, hq, hf⟩ := hl
  exact ⟨h, by decide +kernel, subjects, before, after, ha, hj, hq, hf⟩

end Clearance
