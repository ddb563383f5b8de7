import Clearance.Proofs.Reach
import Clearance.Proofs.Trace

/-!
# Names that a context cannot take

Calls find the current subjects under one name and the resource under another,
and these two names are the engine's own. What a context holds under them is
never looked at: the engine supplies its own two arguments first, and the values
of the context are written nowhere that is taken. So two contexts that differ
only there supply the same arguments, in whatever order they are gone through.

Two other things of a context matter, its values under all other names and what
its subject cache holds. Evaluations with contexts that have these in common are
parallel, so they cannot be told apart by anything the engine does: neither by
its answers and errors nor by what it asks of the world, of which a record is
kept here.

There is one more way to a name, the key of an argument in a call. It is closed
as well, since nothing is copied to a name that is taken.
-/

namespace Clearance

/-- The names of what the engine itself supplies. -/
def reserved : List String := ["subject", "resource"]

/-- Both contexts hold the same under every name that is not reserved. -/
def Context.AgreesUnreserved (ctx ctx' : Context) : Prop :=
  ∀ name, name ∉ reserved → ctx.get? name = ctx'.get? name

/-- What the cache of a context holds, if it has one. -/
def Context.cached (ctx : Context) (caches : SubjectCaches) :
    Option (Option (List Value)) :=
  ctx.cache.map caches.held

namespace Engine

variable {σ : Type} {e : Engine σ} {ctx ctx' : Context}

/-! ## What is supplied -/

/-- The engine's own two arguments, and then the entries of a context in some order. -/
def suppliedFrom (order : Entries Value) (v : Value) (vs : List Value) : Arguments :=
  order.foldl (fun args p => args.insertIfAbsent p.1 (.plain p.2))
    ((Table.empty.insert "subject" (.choices vs)).insert "resource" (.plain v))

theorem get?_suppliedFrom (order : Entries Value) (v : Value) (vs : List Value)
    (name : String) :
    (suppliedFrom order v vs).get? name =
      if name = "resource" then some (.plain v)
      else if name = "subject" then some (.choices vs)
      else (order.get? name).map .plain := by
  unfold suppliedFrom
  rw [Table.get?_foldl_insertIfAbsent, Table.get?_insert, Table.get?_insert]
  simp only [eq_comm (a := name)]
  split
  · rfl
  · split
    · rfl
    · rfl

theorem suppliedFrom_congr {order order' : Entries Value}
    (h : ∀ name, name ∉ reserved → order.get? name = order'.get? name) (v : Value)
    (vs : List Value) : suppliedFrom order v vs = suppliedFrom order' v vs := by
  refine Table.eq_of_get? fun name => ?_
  rw [get?_suppliedFrom, get?_suppliedFrom]
  split
  · rfl
  · next hr =>
      split
      · rfl
      · next hs => rw [h name (by simp [reserved, hr, hs])]

/-- The order in which a context is gone through makes no difference. -/
theorem suppliedFrom_of_perm {order : Entries Value}
    (h : order.Perm ctx.values.entries) (v : Value) (vs : List Value) :
    suppliedFrom order v vs = contextArguments ctx v vs :=
  suppliedFrom_congr
    (fun name _ => Entries.get?_of_perm h ctx.values.distinct name) v vs

theorem contextArguments_congr (h : ctx.AgreesUnreserved ctx') (v : Value)
    (vs : List Value) :
    contextArguments ctx v vs = contextArguments ctx' v vs :=
  suppliedFrom_congr h v vs

theorem contains_contextArguments {name : String}
    (h : ctx.contains name = true ∨ name ∈ reserved) (v : Value) (vs : List Value) :
    (contextArguments ctx v vs).contains name = true := by
  show ((suppliedFrom ctx.values.entries v vs).get? name).isSome = true
  rw [get?_suppliedFrom]
  split
  · rfl
  · next hr =>
      split
      · rfl
      · next hs =>
          have hn : name ∉ reserved := by simp [reserved, hr, hs]
          rw [Option.isSome_map]
          exact h.resolve_right hn

/-! ## The subjects -/

/-- What locating the subjects comes to depends on the world and on what the cache
of the context holds; and whatever has been located is in the cache afterwards. -/
theorem locate_eq (ctx : Context) (w : σ) (caches : SubjectCaches) :
    ((e.locate ctx (w, caches)).1, (e.locate ctx (w, caches)).2.1) =
        ((ctx.cached caches).join.map (·, w)).getD (e.subjects.find w) ∧
      ctx.cached (e.locate ctx (w, caches)).2.2 =
        (ctx.cached caches).map fun _ => some (e.locate ctx (w, caches)).1 := by
  unfold locate Context.cached
  cases ctx.cache with
  | none => exact ⟨rfl, rfl⟩
  | some id =>
      simp only [Slot.getOrInit, SubjectCaches.slot, Option.map_some]
      cases hc : caches.held id with
      | some vs => exact ⟨rfl, congrArg some hc⟩
      | none => exact ⟨rfl, congrArg some (if_pos rfl)⟩

/-- The two evaluations are in the same world and have located the same subjects, and
the caches of their contexts hold the same. -/
structure SharesCache (ctx ctx' : Context) (s t : Evaluation σ) : Prop where
  world : s.world = t.world
  cached : ctx.cached s.caches = ctx'.cached t.caches
  located : s.located = t.located

theorem lockstep_currentSubjects (e : Engine σ) (ctx ctx' : Context) :
    Lockstep (SharesCache ctx ctx') (e.currentSubjects ctx)
      (e.currentSubjects ctx') := by
  rintro ⟨w, caches, located⟩ ⟨_, caches', _⟩ ⟨rfl, hc, rfl⟩
  cases located with
  | some vs => exact ⟨rfl, rfl, hc, rfl⟩
  | none =>
      obtain ⟨ha, hf⟩ := e.locate_eq ctx w caches
      obtain ⟨ha', hf'⟩ := e.locate_eq ctx' w caches'
      have hc : ctx.cached caches = ctx'.cached caches' := hc
      rw [hc, ← ha'] at ha
      obtain ⟨hvs, hw⟩ := Prod.mk.inj ha
      rw [hc, hvs, ← hf'] at hf
      exact ⟨congrArg Except.ok hvs, hw, hf, congrArg some hvs⟩

theorem parallel_of_agreesUnreserved (e : Engine σ) (h : ctx.AgreesUnreserved ctx') :
    e.Parallel Eq (SharesCache ctx ctx') (fun _ => True) ctx e ctx' where
  world := fun hs => hs.world
  update := fun hs hw => ⟨hw, hs.cached, hs.located⟩
  engines := .refl e _
  subjects := e.lockstep_currentSubjects ctx ctx'
  supplied := contextArguments_congr h

/-- With the one context every check comes to the same as with the other, from the
same world and with the same in the subject cache; and it comes there by the same
way, also if it never ends. -/
def CannotTell (e : Engine σ) (ctx ctx' : Context) : Prop :=
  ∀ target (s t : Session σ), s.world = t.world →
    ctx.cached s.caches = ctx'.cached t.caches →
    Option.Rel
      (fun o o' => o.1 = o'.1 ∧ o.2.world = o'.2.world ∧
        ctx.cached o.2.caches = ctx'.cached o'.2.caches)
      (e.check target ctx s) (e.check target ctx' t) ∧
    ∀ evs pt, e.Visits ctx target s evs pt → ∃ evs' t',
      e.Visits ctx' target t evs' (pt.withState t') ∧ SharesCache ctx ctx' pt.state t'

theorem cannotTell (e : Engine σ)
    (h : ctx.AgreesUnreserved ctx') : e.CannotTell ctx ctx' := by
  intro target s t hw hc
  have hp := e.parallel_of_agreesUnreserved h
  have hs : SharesCache ctx ctx' (.start s) (.start t) := ⟨hw, hc, rfl⟩
  constructor
  · refine rel_mono (hp.check (.refl _) hs) fun ho => ?_
    obtain ⟨hr, s', t', hs', hs₁, ht₁⟩ := ho
    rw [hs₁, ht₁]
    exact ⟨hr, hs'.world, hs'.cached⟩
  · intro evs pt hv
    exact hp.symm.visits (Lockstep.refl _).symm hs hv

end Engine

/-! ## Keys

What is supplied under a name stays there while a call's arguments are brought to
their names. So a key that leads to a reserved name leads to one that is taken. -/

namespace CallArgument

variable {σ : Type} {host : Host σ}

theorem contains_of_copyKey {a : CallArgument} {args args' : Arguments} {name : String}
    (hn : args.contains name = true) (h : a.copyKey args = .ok args') :
    args'.contains name = true := by
  unfold CallArgument.copyKey at h
  split at h
  · cases h
    exact hn
  · split at h
    · cases h
      exact hn
    · split at h
      · cases h
      · cases h
        exact args.contains_insert hn _ _

theorem contains_of_takeProperty {a : CallArgument} {args args' : Arguments}
    {name : String} {w w' : σ} (hn : args.contains name = true)
    (h : a.takeProperty host args w = (.ok args', w')) :
    args'.contains name = true := by
  unfold CallArgument.takeProperty at h
  cases hp : a.property with
  | none =>
      rw [hp] at h
      cases h
      exact hn
  | some p =>
      rw [hp] at h
      simp only [] at h
      cases hs : args.get? a.name with
      | none =>
          rw [hs] at h
          cases h
          exact hn
      | some s =>
          rw [hs] at h
          simp only [] at h
          rcases hr : s.property host a.name p w with ⟨err | s', w₁⟩
          · rw [Act.bind_error hr] at h
            cases h
          · rw [Act.bind_ok hr] at h
            cases h
            exact args.contains_insert hn _ _

theorem contains_of_route {a : CallArgument} {args args' : Arguments} {name : String}
    {w w' : σ} (hn : args.contains name = true)
    (h : a.route host args w = (.ok args', w')) :
    args'.contains name = true := by
  unfold CallArgument.route at h
  cases hc : a.copyKey args with
  | error err =>
      rw [hc] at h
      cases h
  | ok args₁ =>
      rw [hc] at h
      exact contains_of_takeProperty (contains_of_copyKey hn hc) h

theorem copyKey_of_contains {a : CallArgument} {key : String} {args : Arguments}
    (hk : a.key = some key) (hn : args.contains a.name = true)
    (hp : args.contains key = true) :
    a.copyKey args = .error (.runtime (.overriddenArgument a.name key)) := by
  obtain ⟨s, hs⟩ := Option.isSome_iff_exists.mp hp
  unfold CallArgument.copyKey
  rw [hk]
  simp only [hs, hn, if_true]
  rfl

end CallArgument

/-- The call with no other arguments than these. -/
def Call.upTo (call : Call) (before : List CallArgument) : Call :=
  { call with arguments := before }

namespace Call

variable {σ : Type} {host : Host σ}

theorem contains_of_route {call : Call} {args args' : Arguments} {name : String}
    {w w' : σ} (hn : args.contains name = true)
    (h : call.route host args w = (.ok args', w')) :
    args'.contains name = true := by
  unfold Call.route at h
  generalize call.arguments = as at h
  induction as generalizing args w with
  | nil =>
      cases h
      exact hn
  | cons a rest ih =>
      rw [List.foldlM_cons] at h
      rcases ha : a.route host args w with ⟨err | args₁, w₁⟩
      · rw [Act.bind_error ha] at h
        cases h
      · rw [Act.bind_ok ha] at h
        exact ih (CallArgument.contains_of_route hn ha) h

theorem route_of_before {call : Call} {before after : List CallArgument}
    (hc : call.arguments = before ++ after) {args : Arguments} {err : AccessError}
    {w w' : σ} (hr : (call.upTo before).route host args w = (.error err, w')) :
    call.route host args w = (.error err, w') := by
  unfold Call.route at hr ⊢
  rw [hc, List.foldlM_append]
  exact Act.bind_error hr

theorem route_of_overridden {call : Call} {before after : List CallArgument}
    {a : CallArgument} {key : String} (hc : call.arguments = before ++ a :: after)
    (hk : a.key = some key) {args args' : Arguments} (hn : args.contains a.name = true)
    (hp : args.contains key = true) {w w' : σ}
    (hr : (call.upTo before).route host args w = (.ok args', w')) :
    call.route host args w =
      (.error (.runtime (.overriddenArgument a.name key)), w') := by
  have hcopy := CallArgument.copyKey_of_contains hk (contains_of_route hn hr)
    (contains_of_route hp hr)
  have ha : a.route host args' w' =
      (.error (.runtime (.overriddenArgument a.name key)), w') := by
    unfold CallArgument.route
    rw [hcopy]
    rfl
  have hb :
      before.foldlM (fun args a => a.route host args) args w = (.ok args', w') := hr
  unfold Call.route
  rw [hc, List.foldlM_append, Act.bind_ok hb, List.foldlM_cons]
  exact Act.bind_error ha

/-- After some of its arguments a call passes something under a reserved name, by a
key under which something is supplied. -/
structure Overrides (ctx : Context) (call : Call) (before : List CallArgument)
    (name key : String) : Prop where
  argument : ∃ a after, call.arguments = before ++ a :: after ∧ a.name = name ∧
    a.key = some key
  name : name ∈ reserved
  supplied : ctx.contains key = true ∨ key ∈ reserved

end Call

namespace Engine

variable {σ : Type} {e : Engine σ} {ctx : Context} {call : Call}
  {before : List CallArgument} {name key : String}

theorem arguments_eq (e : Engine σ) (ctx : Context) (v : Value) (s : Evaluation σ) :
    ∃ vs s₁, ∀ call, e.arguments ctx call v s =
      Step.ofAct (call.route e.host (contextArguments ctx v vs)) s₁ := by
  obtain ⟨vs, s₁, hs⟩ := e.currentSubjects_ok ctx s
  exact ⟨vs, s₁, fun _ => Step.bind_ok hs⟩

theorem arguments_of_before (h : call.Overrides ctx before name key) {v : Value}
    {s s' : Evaluation σ} {err : AccessError}
    (hr : e.arguments ctx (call.upTo before) v s = (.error err, s')) :
    e.arguments ctx call v s = (.error err, s') := by
  obtain ⟨a, after, hc, _, _⟩ := h.argument
  obtain ⟨vs, s₁, hs⟩ := e.arguments_eq ctx v s
  rw [hs] at hr ⊢
  obtain ⟨w, hb, rfl⟩ := Step.ofAct_eq_iff.mp hr
  exact Step.ofAct_eq_iff.mpr ⟨w, Call.route_of_before hc hb, rfl⟩

theorem arguments_of_overridden (h : call.Overrides ctx before name key) {v : Value}
    {s s' : Evaluation σ} {args : Arguments}
    (hr : e.arguments ctx (call.upTo before) v s = (.ok args, s')) :
    e.arguments ctx call v s =
      (.error (.runtime (.overriddenArgument name key)), s') := by
  obtain ⟨a, after, hc, rfl, hk⟩ := h.argument
  obtain ⟨vs, s₁, hs⟩ := e.arguments_eq ctx v s
  rw [hs] at hr ⊢
  obtain ⟨w, hb, rfl⟩ := Step.ofAct_eq_iff.mp hr
  have hw :=
    Call.route_of_overridden hc hk (contains_contextArguments (.inr h.name) v vs)
    (contains_contextArguments h.supplied v vs) hb
  exact Step.ofAct_eq_iff.mpr ⟨w, hw, rfl⟩

/-- A policy comes to a call, when it has found what is to be called. -/
inductive ComesTo (e : Engine σ) :
    Policy → Value → Evaluation σ → Call → Evaluation σ → Prop where
  | method {text o s call} (h : Call.parse text = .ok call)
      (hs : call.service.isSome = false) :
      ComesTo e (.method text) (.object o) s call s
  | service {text v s call l m s₁} (hl : e.services = some l)
      (h : Call.parse text = .ok call)
      (hf : Step.ofWorld (l.find call.method call.service) s = (.ok (some m), s₁)) :
      ComesTo e (.service text) v s call s₁

theorem ComesTo.faults {p : Policy} {v : Value} {s s₁ s' : Evaluation σ}
    {err : AccessError} {chain : List String} (h : e.ComesTo p v s call s₁)
    (ha : e.arguments ctx call v s₁ = (.error err, s')) :
    e.Faults ctx chain p v s err s' := by
  cases h with
  | method h hs => exact .method h hs (.arguments ha)
  | service hl h hf => exact .service hl h hf (.arguments ha)

theorem Visits.check_of_runtime {target : Target} {s : Session σ} {evs : List Event}
    {chain : List String} {p : Policy} {v : Value} {s₁ s₂ : Evaluation σ}
    {fault : RuntimeFault} (hv : e.Visits ctx target s evs ⟨chain, .policy p, v, s₁⟩)
    (hf : e.Faults ctx chain p v s₁ (.runtime fault) s₂) :
    e.check target ctx s = some (.error (.runtime fault), s₂.session) :=
  check_eq_some_iff.mpr ⟨_, hv.error (.faulted hf) (.inr rfl)⟩

/-! ## What a context cannot do -/

/-- A context has no say in what goes by the reserved names: contexts that agree under
all other names cannot be told apart, neither by the engine nor by what it asks of the
world, in whatever order they are gone through. And a call that passes what is there
under a key by a reserved name fails, and with it the check. -/
theorem context_cannot_forge (e : Engine σ) {ctx ctx' : Context}
    (h : ctx.AgreesUnreserved ctx') :
    e.CannotTell ctx ctx' ∧
    (∀ roles permissions, (e.traced roles permissions).CannotTell ctx ctx' ∧
      ∀ target (s : Session σ) trace,
        Option.Rel
          (fun o o' => o.1 = o'.1 ∧ Traces o.2.world o'.2.world ∧
            o.2.caches = o'.2.caches)
          ((e.checkedBy roles permissions).check target ctx s)
          ((e.traced roles permissions).check target ctx
            ⟨(s.world, trace), s.caches⟩)) ∧
    (∀ order order', order.Perm ctx.values.entries → order'.Perm ctx'.values.entries →
      ∀ v vs, suppliedFrom order v vs = contextArguments ctx v vs ∧
        suppliedFrom order' v vs = contextArguments ctx v vs) ∧
    ∀ call before name key, call.Overrides ctx before name key →
      (∀ v s err s', e.arguments ctx (call.upTo before) v s = (.error err, s') →
        e.arguments ctx call v s = (.error err, s')) ∧
      ∀ v s args s', e.arguments ctx (call.upTo before) v s = (.ok args, s') →
        e.arguments ctx call v s =
          (.error (.runtime (.overriddenArgument name key)), s') ∧
        ∀ target sess evs chain p s₀,
          e.Visits ctx target sess evs ⟨chain, .policy p, v, s₀⟩ →
            e.ComesTo p v s₀ call s →
          e.check target ctx sess =
            some (.error (.runtime (.overriddenArgument name key)), s'.session) := by
  refine ⟨e.cannotTell h, fun roles permissions =>
    ⟨cannotTell _ h, fun target s trace => ?_⟩, fun order order' ho ho' v vs =>
      ⟨suppliedFrom_of_perm ho v vs, ?_⟩,
    fun call before name key hk => ⟨fun v s err s' hr => arguments_of_before hk hr,
      fun v s args s' hr => ⟨arguments_of_overridden hk hr, ?_⟩⟩⟩
  · exact (e.matches_traced roles permissions).check
      (e.lockstep_policiesOf_traced roles permissions target) rfl rfl
  · rw [contextArguments_congr h]
    exact suppliedFrom_of_perm ho' v vs
  · intro target sess evs chain p s₀ hv hc
    exact hv.check_of_runtime (hc.faults (arguments_of_overridden hk hr))

/-- An engine that asks a document whether it may be read, and would have it asked for
somebody else than the subject. -/
def reading : Engine Unit :=
  { ofLists [("doc", [.method "may(subject: who)"])] [] {} with
    host :=
      { typeName := Handle.name
        method := fun _ name =>
          if name = "may" then some ⟨[{ name := "subject" }]⟩ else none
        call := fun _ _ _ => pure (.bool true) } }

def readingCall : Call := ⟨none, "may", [{ name := "subject", key := some "who" }]⟩

def honest : Context := ({} : Context).insert "who" (.string "eve")

def forging : Context :=
  (honest.insert "subject" (.string "eve")).insert "resource" .null

theorem honest_agreesUnreserved : honest.AgreesUnreserved forging := by
  intro name hn
  have hs : "subject" ≠ name := fun h => hn (by simp [reserved, ← h])
  have hr : "resource" ≠ name := fun h => hn (by simp [reserved, ← h])
  show honest.values.get? name = ((honest.values.insert
    "subject" (.string "eve")).insert "resource" .null).get? name
  rw [Table.get?_insert_of_ne _ _ hr, Table.get?_insert_of_ne _ _ hs]

theorem readingCall_overrides : readingCall.Overrides honest [] "subject" "who" where
  argument := ⟨_, [], rfl, rfl, rfl⟩
  name := by decide
  supplied := .inl (by decide)

theorem reading_cannot_forge :
    honest.AgreesUnreserved forging ∧ readingCall.Overrides honest [] "subject" "who" ∧
      reading.CannotTell honest forging ∧
      reading.check (.instance (.host ⟨"doc"⟩)) honest ⟨(), .empty⟩ =
        some (.error (.runtime (.overriddenArgument "subject" "who")),
          ⟨(), .empty⟩) := by
  obtain ⟨hc, _, _, ho⟩ := context_cannot_forge reading honest_agreesUnreserved
  have hv : reading.Visits honest (.instance (.host ⟨"doc"⟩)) ⟨(), .empty⟩ []
      ⟨["doc"], .policy (.method "may(subject: who)"), .object (.host ⟨"doc"⟩),
        .start ⟨(), .empty⟩⟩ :=
    ⟨_, _, rfl, .step (.opens rfl (.given rfl)) (.step .first .refl)⟩
  have ht : reading.ComesTo (.method "may(subject: who)") (.object (.host ⟨"doc"⟩))
      (.start ⟨(), .empty⟩) readingCall (.start ⟨(), .empty⟩) := .method rfl rfl
  have he :=
    ((ho readingCall [] "subject" "who" readingCall_overrides).2 _ _ _ _ rfl).2
    _ _ _ _ _ _ hv ht
  exact ⟨honest_agreesUnreserved, readingCall_overrides, hc, he⟩

end Engine

end Clearance
