import Clearance.Proofs.Run

/-!
# Where errors come from

The relations `CallFaults`, `Faults`, `Locates` and `Opens` of `Proofs.Run` name
the places where an error can arise. This file matches each of them with the
function it retells: the function fails exactly where the relation has a rule
for it. So the lists of rules are complete, and a theorem about what arises at
a place is one about the evaluator.
-/

namespace Clearance

namespace Engine

variable {σ : Type} {e : Engine σ} {ctx : Context}

/-! ## What is contained

Debug mode contains nothing, and no mode contains a runtime fault. -/

@[simp] theorem contained_ok {α : Type} (answer a : α) :
    e.contained answer (.ok a) = .ok a := rfl

@[simp] theorem contained_runtime {α : Type} (answer : α) (fault : RuntimeFault) :
    e.contained answer (.error (.runtime fault)) = .error (.runtime fault) := rfl

theorem contained_configuration {α : Type} (hq : e.settings.debug = false) (answer : α)
    (fault : ConfigurationFault) :
    e.contained answer (.error (.configuration fault)) = .ok answer := by
  simp only [contained, hq, Bool.false_eq_true, if_false]

theorem contained_of_debug {α : Type} (hd : e.settings.debug = true) (answer : α)
    (r : Except AccessError α) : e.contained answer r = r := by
  rcases r with (fault | fault) | a
  · simp only [contained, hd, if_true]
  · rfl
  · rfl

theorem contained_of_ne_configuration {α : Type} {answer : α}
    {r : Except AccessError α} (hr : ∀ fault, r ≠ .error (.configuration fault)) :
    e.contained answer r = r := by
  rcases r with (fault | fault) | a
  · exact absurd rfl (hr fault)
  · rfl
  · rfl

/-! ## Where errors come from -/

/-- A callee that is not there fails, and so do arguments that cannot be bound;
otherwise the callee itself is invoked. -/
theorem ofAct_callWith (t : Typing) (c : Callee σ) (args : Arguments)
    (s : Evaluation σ) :
    Step.ofAct (c.callWith t args) s =
      match c.signature with
      | none => (.error (.configuration (.missingMethod c.name)), s)
      | some sig =>
          match sig.bind t c.name args with
          | .error err => (.error err, s)
          | .ok vs => Step.ofAct (c.invoke vs) s := by
  unfold Callee.callWith
  cases c.signature with
  | none => rfl
  | some sig =>
      simp only []
      cases sig.bind t c.name args <;> rfl

theorem expectDecision_eq_error {call : Call} {v : Value} {s s' : Evaluation σ}
    {err : AccessError} :
    e.expectDecision call v s = (.error err, s') ↔
      v.asBool? = none ∧ .runtime (.notBoolean call.text (v.typeName e.typing)) = err ∧
        s = s' := by
  unfold expectDecision
  cases v.asBool? with
  | none =>
      simp only [Step.throw_apply, Prod.mk.injEq, Except.error.injEq, true_and]
  | some b => simp only [Step.pure_apply, Prod.mk.injEq, reduceCtorEq, false_and]

/-- A call fails where `CallFaults` has a rule for it, and nowhere else. -/
theorem decideCall_eq_error {call : Call} {v : Value} {callee : Callee σ}
    {s s' : Evaluation σ} {err : AccessError} :
    e.decideCall ctx call v callee s = (.error err, s') ↔
      e.CallFaults ctx call v callee s err s' := by
  unfold decideCall
  constructor
  · intro h
    rcases Step.bind_eq_error.mp h with h | ⟨args, s₁, hargs, h⟩
    · exact .arguments h
    · rcases Step.bind_eq_error.mp h with h | ⟨w, s₂, hw, h⟩
      · rw [ofAct_callWith] at h
        split at h
        · next hc =>
            cases h
            exact .missing hargs hc
        · next sig hc =>
            split at h
            · next hb =>
                cases h
                exact .binding hargs hc hb
            · next vs hb => exact .invocation hargs hc hb h
      · obtain ⟨hv, rfl, rfl⟩ := expectDecision_eq_error.mp h
        rw [ofAct_callWith] at hw
        split at hw
        · cases hw
        · next sig hc =>
            split at hw
            · cases hw
            · next vs hb => exact .answer hargs hc hb hw hv
  · intro h
    refine Step.bind_eq_error.mpr ?_
    cases h with
    | arguments h => exact .inl h
    | missing h hc =>
        refine .inr ⟨_, _, h, Step.bind_error ?_⟩
        rw [ofAct_callWith, hc]
    | binding h hc hb =>
        refine .inr ⟨_, _, h, Step.bind_error ?_⟩
        simp only [ofAct_callWith, hc, hb]
    | invocation h hc hb hi =>
        refine .inr ⟨_, _, h, Step.bind_error ?_⟩
        simp only [ofAct_callWith, hc, hb, hi]
    | @answer s₁ _ args sig vs w h hc hb hi hv =>
        have hw : Step.ofAct (callee.callWith e.typing args) s₁ = (.ok w, s') := by
          simp only [ofAct_callWith, hc, hb, hi]
        exact .inr ⟨args, s₁, h, Step.bind_eq_error.mpr
          (.inr ⟨w, s', hw, expectDecision_eq_error.mpr ⟨hv, rfl, rfl⟩⟩)⟩

theorem currentSubjects_ok (ctx : Context) (s : Evaluation σ) :
    ∃ vs s', e.currentSubjects ctx s = (.ok vs, s') := by
  unfold currentSubjects
  cases s.located with
  | some vs => exact ⟨vs, s, rfl⟩
  | none => exact ⟨_, _, rfl⟩

/-- A check of the subjects fails only for want of a checker. -/
theorem answerChecked_eq_error {checker : Option (Checker σ)}
    {missing : ConfigurationFault} {name : String} {s s' : Evaluation σ}
    {err : AccessError} :
    e.answerChecked ctx checker missing name s = (.error err, s') ↔
      checker = none ∧ .configuration missing = err ∧ s = s' := by
  unfold answerChecked
  cases checker with
  | none => simp only [Step.throw_apply, Prod.mk.injEq, Except.error.injEq, true_and]
  | some c =>
      obtain ⟨vs, s₁, hs⟩ := e.currentSubjects_ok ctx s
      simp only [Step.bind_ok hs, reduceCtorEq, false_and, iff_false]
      intro h
      cases h

theorem answerMethod_of_nonObject {text : String} {v : Value} {s : Evaluation σ}
    (h : v.asObject? = none) :
    e.answerMethod ctx text v s =
      (.error (.runtime (.methodOnNonObject (v.typeName e.typing))), s) := by
  cases v with
  | object o => cases h
  | _ => rfl

theorem answerMethod_of_object {text : String} {o : Object} {s : Evaluation σ} :
    e.answerMethod ctx text (.object o) s =
      match Call.parse text with
      | .error err => (.error err, s)
      | .ok call =>
          if call.service.isSome then
            (.error (.configuration .serviceInMethodPolicy), s)
          else e.decideCall ctx call (.object o) (o.callee e.host call.method) s := by
  unfold answerMethod
  simp only [Step.ofExcept_bind]
  cases Call.parse text with
  | error err => rfl
  | ok call =>
      simp only []
      split <;> rfl

theorem answerMethod_eq_error {chain : List String} {text : String} {v : Value}
    {s s' : Evaluation σ} {err : AccessError} :
    e.answerMethod ctx text v s = (.error err, s') ↔
      e.Faults ctx chain (.method text) v s err s' := by
  constructor
  · intro h
    cases ho : v.asObject? with
    | none =>
        rw [answerMethod_of_nonObject ho] at h
        cases h
        exact .methodOnNonObject ho
    | some o =>
        obtain rfl := Value.eq_object_of_asObject? ho
        rw [answerMethod_of_object] at h
        split at h
        · next hc =>
            cases h
            exact .methodText hc
        · next call hc =>
            split at h
            · next hs =>
                cases h
                exact .methodOfService hc hs
            · next hs =>
                exact .method hc (Bool.eq_false_iff.mpr hs) (decideCall_eq_error.mp h)
  · intro h
    cases h with
    | methodOnNonObject h => exact answerMethod_of_nonObject h
    | methodText h => simp only [answerMethod_of_object, h]
    | methodOfService h hs => simp only [answerMethod_of_object, h, hs, if_true]
    | method h hs hf =>
        simp only [answerMethod_of_object, h, hs, Bool.false_eq_true, if_false]
        exact decideCall_eq_error.mpr hf

theorem answerService_eq_error {chain : List String} {text : String} {v : Value}
    {s s' : Evaluation σ} {err : AccessError} :
    e.answerService ctx text v s = (.error err, s') ↔
      e.Faults ctx chain (.service text) v s err s' := by
  unfold answerService
  constructor
  · intro h
    cases hl : e.services with
    | none =>
        rw [hl] at h
        cases h
        exact .noServiceLocator hl
    | some l =>
        rw [hl] at h
        simp only [Step.ofExcept_bind] at h
        split at h
        · next call hc =>
            rcases Step.bind_eq_error.mp h with h | ⟨m, s₁, hm, h⟩
            · cases h
            · cases m with
              | none =>
                  cases h
                  exact .unknownService hl hc hm
              | some m => exact .service hl hc hm (decideCall_eq_error.mp h)
        · next err hc =>
            cases h
            exact .serviceText hl hc
  · intro h
    cases h with
    | noServiceLocator h =>
        rw [h]
        rfl
    | serviceText hl h =>
        rw [hl]
        simp only [Step.ofExcept_bind, h]
    | unknownService hl h hf =>
        rw [hl]
        simp only [Step.ofExcept_bind, h]
        exact Step.bind_ok hf
    | service hl h hf hc =>
        rw [hl]
        simp only [Step.ofExcept_bind, h]
        exact (Step.bind_ok hf).trans (decideCall_eq_error.mpr hc)

/-- A delegation comes to no list where `Faults` has a rule for it. -/
theorem delegated_eq_error {chain : List String} {type : String} {v : Value}
    {s s' : Evaluation σ} {err : AccessError} :
    e.delegated chain type s = (.error err, s') ↔
      e.Faults ctx chain (.delegate type) v s err s' := by
  unfold delegated
  constructor
  · intro h
    rcases Step.bind_eq_error.mp h with h | ⟨b, s₁, hb, h⟩
    · cases h
    · cases b with
      | false =>
          cases h
          exact .unknownType hb
      | true =>
          simp only [if_true] at h
          split at h
          · next hc =>
              cases h
              exact .circular hb hc
          · next hc => exact .load hb hc h
  · intro h
    cases h with
    | unknownType h => exact Step.bind_ok h
    | circular h hc =>
        rw [Step.bind_ok h, if_pos rfl, if_pos hc]
        rfl
    | load h hc hl =>
        rw [Step.bind_ok h, if_pos rfl, if_neg hc]
        exact hl

/-- A delegation comes to a list if the type exists, is not on the chain and can be
loaded. -/
theorem delegated_eq_ok {chain : List String} {type : String} {s s' : Evaluation σ}
    {ps : List Policy} :
    e.delegated chain type s = (.ok ps, s') ↔
      ∃ s₁, Step.ofWorld (e.loader.typeExists type) s = (.ok true, s₁) ∧ type ∉ chain ∧
        Step.ofAct (e.loader.loadType type) s₁ = (.ok ps, s') := by
  unfold delegated
  obtain ⟨b, s₁, hb⟩ :
      ∃ b s₁, Step.ofWorld (e.loader.typeExists type) s = (.ok b, s₁) :=
    ⟨_, _, rfl⟩
  rw [Step.bind_ok hb, hb]
  constructor
  · intro h
    cases b with
    | false => cases h
    | true =>
        rw [if_pos rfl] at h
        split at h
        · cases h
        · next hc => exact ⟨s₁, rfl, hc, h⟩
  · rintro ⟨s₂, he, hc, hl⟩
    cases he
    rw [if_pos rfl, if_neg hc]
    exact hl

/-- A policy that is asked for its own answer fails where `Faults` has a rule
for it. -/
theorem consult_eq_error {chain : List String} {p : Policy} {v : Value}
    {s s' : Evaluation σ} {err : AccessError} (hp : p.isRefused = false)
    (hd : ∀ type, p ≠ .delegate type) :
    e.consult ctx p v s = (.error err, s') ↔ e.Faults ctx chain p v s err s' := by
  cases p with
  | allow | deny =>
      constructor
      · intro h
        cases h
      · intro h
        cases h
  | role r =>
      refine answerChecked_eq_error.trans ⟨?_, ?_⟩
      · rintro ⟨h, rfl, rfl⟩
        exact .noRoleChecker h
      · intro h
        cases h with
        | noRoleChecker h => exact ⟨h, rfl, rfl⟩
  | permission n =>
      refine answerChecked_eq_error.trans ⟨?_, ?_⟩
      · rintro ⟨h, rfl, rfl⟩
        exact .noPermissionChecker h
      · intro h
        cases h with
        | noPermissionChecker h => exact ⟨h, rfl, rfl⟩
  | method text => exact answerMethod_eq_error
  | service text => exact answerService_eq_error
  | delegate type => exact absurd rfl (hd type)
  | resource | allOrNothing | unrecognized => cases hp

/-! ## Resources -/

theorem tryLocate_of_nonObject {type accessor : String} {v : Value} {s : Evaluation σ}
    {l : ResourceLocator σ} (hl : e.resources = some l) (h : v.asObject? = none) :
    e.tryLocate type accessor v s =
      (.error (.configuration (.identifierOnNonObject (v.typeName e.typing))), s) := by
  unfold tryLocate
  rw [hl]
  cases v with
  | object o => cases h
  | _ => rfl

theorem filter_found_eq_none {a : Option Value} :
    a.filter (fun v => !v.isNotFound) = none ↔
      ∀ v, a = some v → v.isNotFound = true := by
  simp only [Option.filter_eq_none_iff, Bool.not_eq_true', Bool.not_eq_false]

theorem tryLocate_of_unread {type accessor : String} {o : Object} {s s' : Evaluation σ}
    {l : ResourceLocator σ} {err : AccessError} (hl : e.resources = some l)
    (hr : Step.ofAct (o.read e.host .alone accessor) s = (.error err, s')) :
    e.tryLocate type accessor (.object o) s = (.error err, s') := by
  unfold tryLocate
  rw [hl]
  exact Step.bind_error hr

theorem tryLocate_of_null {type accessor : String} {o : Object} {s s' : Evaluation σ}
    {l : ResourceLocator σ} {id : Value} (hl : e.resources = some l)
    (hr : Step.ofAct (o.read e.host .alone accessor) s = (.ok id, s'))
    (hi : id.isNull = true) :
    e.tryLocate type accessor (.object o) s =
      (.error (.configuration (.missingIdentifier (o.typeName e.typing) accessor)),
        s') := by
  unfold tryLocate
  rw [hl]
  refine (Step.bind_ok hr).trans ?_
  rw [if_pos hi]
  rfl

/-- Once there is an identifier, the answer of the locator decides. -/
theorem tryLocate_of_identifier {type accessor : String} {o : Object}
    {s s₁ s' : Evaluation σ} {l : ResourceLocator σ} {id : Value} {a : Option Value}
    (hl : e.resources = some l)
    (hr : Step.ofAct (o.read e.host .alone accessor) s = (.ok id, s₁))
    (hi : id.isNull = false) (ha : Step.ofWorld (l.load type id) s₁ = (.ok a, s')) :
    e.tryLocate type accessor (.object o) s =
      match a.filter (fun v => !v.isNotFound) with
      | some v => (.ok (some v), s')
      | none =>
          if e.settings.debug then
            (.error (.runtime (.resourceNotFound type (id.text e.typing))), s')
          else (.ok none, s') := by
  unfold tryLocate
  rw [hl]
  refine (Step.bind_ok hr).trans ?_
  rw [if_neg (by simp [hi])]
  refine (Step.bind_ok ha).trans ?_
  cases a.filter (fun v => !v.isNotFound) with
  | some v => rfl
  | none =>
      simp only []
      split <;> rfl

/-- A resource is located as `Locates` says. -/
theorem tryLocate_eq_iff {type accessor : String} {v : Value} {s s' : Evaluation σ}
    {r : Except AccessError (Option Value)} :
    e.tryLocate type accessor v s = (r, s') ↔
      ∃ evs, e.Locates type accessor v s evs r s' := by
  constructor
  · intro h
    cases hl : e.resources with
    | none =>
        unfold tryLocate at h
        rw [hl] at h
        cases h
        exact ⟨_, .noLocator hl⟩
    | some l =>
        cases ho : v.asObject? with
        | none =>
            rw [tryLocate_of_nonObject hl ho] at h
            cases h
            exact ⟨_, .nonObject hl ho⟩
        | some o =>
            obtain rfl := Value.eq_object_of_asObject? ho
            rcases hr : Step.ofAct (o.read e.host .alone accessor) s with
              ⟨err | id, s₁⟩
            · rw [tryLocate_of_unread hl hr] at h
              cases h
              exact ⟨_, .accessor hl hr⟩
            · cases hi : id.isNull with
              | true =>
                  rw [tryLocate_of_null hl hr hi] at h
                  cases h
                  exact ⟨_, .nullIdentifier hl hr hi⟩
              | false =>
                  obtain ⟨a, s₂, ha⟩ :
                      ∃ a s₂, Step.ofWorld (l.load type id) s₁ = (.ok a, s₂) :=
                        ⟨_, _, rfl⟩
                  rw [tryLocate_of_identifier hl hr hi ha] at h
                  split at h
                  · next w hw =>
                      obtain ⟨rfl, hn⟩ := Option.filter_eq_some_iff.mp hw
                      cases h
                      exact ⟨_, .found hl hr hi ha (by simpa using hn)⟩
                  · next hw =>
                      have hw := filter_found_eq_none.mp hw
                      split at h
                      · next hd =>
                          cases h
                          exact ⟨_, .notFoundInDebug hl hr hi ha hw hd⟩
                      · next hd =>
                          cases h
                          exact ⟨_, .notFound hl hr hi ha hw
                            (Bool.eq_false_iff.mpr hd)⟩
  · rintro ⟨evs, h⟩
    cases h with
    | noLocator h =>
        unfold tryLocate
        rw [h]
        rfl
    | nonObject h hv => exact tryLocate_of_nonObject h hv
    | accessor h hr => exact tryLocate_of_unread h hr
    | nullIdentifier h hr hi => exact tryLocate_of_null h hr hi
    | found h hr hi hl hv =>
        rw [tryLocate_of_identifier h hr hi hl]
        simp only [Option.filter, hv, Bool.not_false, if_true]
    | notFound h hr hi hl hv hd =>
        rw [tryLocate_of_identifier h hr hi hl, filter_found_eq_none.mpr hv]
        simp only [hd, Bool.false_eq_true, if_false]
    | notFoundInDebug h hr hi hl hv hd =>
        rw [tryLocate_of_identifier h hr hi hl, filter_found_eq_none.mpr hv]
        simp only [hd, if_true]

/-- A list comes to its resource as `Opens` says. -/
theorem resourceFor_eq_iff {ps : List Policy} {v : Value} {s s' : Evaluation σ}
    {r : Except AccessError (Option Value)} :
    e.resourceFor ps v s = (r, s') ↔ ∃ evs, e.Opens ps v s evs r s' := by
  unfold resourceFor
  constructor
  · intro h
    cases hf : ps.find? Policy.isResource with
    | none =>
        rw [hf] at h
        cases h
        exact ⟨[], .given hf⟩
    | some p =>
        rw [hf] at h
        have hp := List.find?_some hf
        cases p with
        | resource type accessor =>
            rcases ht : e.tryLocate type accessor v s with ⟨r₀, s₁⟩
            obtain ⟨evs, hl⟩ := tryLocate_eq_iff.mp ht
            simp only [contain, ht] at h
            cases h
            exact ⟨evs, .located hf hl⟩
        | _ => cases hp
  · rintro ⟨evs, h⟩
    cases h with
    | given h =>
        rw [h]
        rfl
    | located h hl =>
        have ht := tryLocate_eq_iff.mpr ⟨_, hl⟩
        simp only [h, contain, ht]

end Engine

end Clearance
