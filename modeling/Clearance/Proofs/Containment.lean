import Clearance.Proofs.Reach

/-!
# Errors outside debug mode

Outside debug mode the two kinds of errors part ways. A configuration fault is
contained next to where it arises: a policy that meets one says no, a list whose
resource cannot be located for one is denied before any of its policies is
dispatched, a target whose policies cannot be loaded is denied. The only one to
come out of a check is the refusal of an unrecognized policy. A runtime fault
is contained nowhere: it is the result of the check, and the last thing that
happens in it.
-/

namespace Clearance

namespace Engine

variable {σ : Type} (e : Engine σ) (ctx : Context)

/-- An error arises at a point, past events: while the resource of a list is
located, or in the answer of a policy. -/
inductive Raises : Point σ → List Event → AccessError → Evaluation σ → Prop where
  | locating {chain ps v s type accessor evs err s'}
      (h : ps.all Policy.isModifier = false)
      (hf : ps.find? Policy.isResource = some (.resource type accessor))
      (hl : e.Locates type accessor v s evs (.error err) s') :
      Raises ⟨chain, .list ps, v, s⟩ evs err s'
  | answering {chain p v s err s'} (h : e.Faults ctx chain p v s err s') :
      Raises ⟨chain, .policy p, v, s⟩ [.dispatched chain p v, .raised err] err s'

variable {e ctx}

/-! ## Runtime faults

A runtime fault passes everything that contains errors, and an error ends every
enclosing level. So there is at most one in a run, and it comes last. -/

theorem contained_eq_runtime {α : Type} {answer : α} {r : Except AccessError α}
    {fault : RuntimeFault} :
    e.contained answer r = .error (.runtime fault) ↔ r = .error (.runtime fault) := by
  rcases r with (f | f) | a
  · cases hd : e.settings.debug with
    | true => rw [contained_of_debug hd]
    | false => simp [contained_configuration hd]
  · rfl
  · rfl

theorem uncontained_runtime (fault : RuntimeFault) : e.Uncontained (.runtime fault) :=
  rfl

/-- How runtime faults show in a run: there is none, or there is one, which is
the last event and the result. -/
def RuntimeLast {α : Type} (evs : List Event) (r : Except AccessError α) : Prop :=
  ((∀ fault, .raised (.runtime fault) ∉ evs) ∧ ∀ fault, r ≠ .error (.runtime fault)) ∨
    ∃ evs₀ fault, evs = evs₀ ++ [.raised (.runtime fault)] ∧
      r = .error (.runtime fault) ∧ ∀ fault', .raised (.runtime fault') ∉ evs₀

namespace RuntimeLast

variable {α β : Type}

theorem of_iff {evs : List Event} {r : Except AccessError α}
    {r' : Except AccessError β} (h : RuntimeLast evs r)
    (hr : ∀ fault, r' = .error (.runtime fault) ↔ r = .error (.runtime fault)) :
    RuntimeLast evs r' := by
  rcases h with ⟨h, hn⟩ | ⟨evs₀, fault, he, hf, h⟩
  · exact .inl ⟨h, fun fault hf => hn fault ((hr fault).mp hf)⟩
  · exact .inr ⟨evs₀, fault, he, (hr fault).mpr hf, h⟩

theorem contained {evs : List Event} {answer : α} {r : Except AccessError α}
    (h : RuntimeLast evs r) : RuntimeLast evs (e.contained answer r) :=
  h.of_iff fun _ => contained_eq_runtime

theorem notMem_of_ok {evs : List Event} {a : α} (h : RuntimeLast evs (.ok a)) (fault) :
    .raised (.runtime fault) ∉ evs := by
  rcases h with ⟨h, _⟩ | ⟨_, _, _, hr, _⟩
  · exact h fault
  · cases hr

theorem append {evs evs' : List Event} {r : Except AccessError α}
    (h' : RuntimeLast evs' r) (h : ∀ fault, .raised (.runtime fault) ∉ evs) :
    RuntimeLast (evs ++ evs') r := by
  have hmem : ∀ {l}, (∀ fault, .raised (.runtime fault) ∉ l) →
      ∀ fault, Event.raised (.runtime fault) ∉ evs ++ l := fun hl fault hm =>
    (List.mem_append.mp hm).elim (h fault) (hl fault)
  rcases h' with ⟨h', hr⟩ | ⟨evs₀, fault, rfl, hr, h'⟩
  · exact .inl ⟨hmem h', hr⟩
  · exact .inr ⟨evs ++ evs₀, fault, by rw [List.append_assoc], hr, hmem h'⟩

theorem nil_ok (a : α) : RuntimeLast [] (.ok a) :=
  .inl ⟨fun _ hm => (by cases hm), fun _ hr => (by cases hr)⟩

theorem cons {ev : Event} {evs : List Event} {r : Except AccessError α}
    (hev : ∀ err, ev ≠ .raised err)
    (h : RuntimeLast evs r) : RuntimeLast (ev :: evs) r :=
  h.append (fun _ hm => hev _ (List.mem_singleton.mp hm).symm)

theorem raised (err : AccessError) :
    RuntimeLast [.raised err] (.error err : Except _ α) := by
  cases err with
  | runtime fault => exact .inr ⟨[], fault, rfl, rfl, fun _ hm => by cases hm⟩
  | configuration fault =>
      refine .inl ⟨fun f hm => ?_, fun f hr => ?_⟩
      · cases List.mem_singleton.mp hm
      · cases hr

end RuntimeLast

theorem Locates.runtimeLast {type accessor : String} {v : Value} {s s' : Evaluation σ}
    {evs : List Event} {r : Except AccessError (Option Value)}
    (h : e.Locates type accessor v s evs r s') : RuntimeLast evs r := by
  cases h with
  | noLocator | nonObject | accessor | nullIdentifier => exact .raised _
  | found | notFound => exact .cons (fun _ h => by cases h) (.nil_ok _)
  | notFoundInDebug => exact .cons (fun _ h => by cases h) (.raised _)

theorem Opens.runtimeLast {ps : List Policy} {v : Value} {s s' : Evaluation σ}
    {evs : List Event} {r : Except AccessError (Option Value)}
    (h : e.Opens ps v s evs r s') : RuntimeLast evs r := by
  cases h with
  | given => exact .nil_ok _
  | located h hl => exact hl.runtimeLast.contained

theorem Runs.runtimeLast {pt : Point σ} {evs : List Event}
    {r : Except AccessError Bool} {s' : Evaluation σ}
    (h : e.Runs ctx pt evs r s') : RuntimeLast evs r := by
  induction h with
  | unconditional | done => exact .nil_ok _
  | opened h ho _ ih => exact ih.append ho.runtimeLast.notMem_of_ok
  | unlocated h ho => exact ho.runtimeLast.of_iff fun _ => by simp
  | unopened h ho => exact ho.runtimeLast.of_iff fun _ => by simp
  | settled _ ih | failed _ ih => exact ih
  | next _ _ ihp ihr => exact ihr.append ihp.notMem_of_ok
  | refused => exact .cons (fun _ h => by cases h) (.raised _)
  | consulted => exact .cons (fun _ h => by cases h) (.nil_ok _)
  | faulted => exact .cons (fun _ h => by cases h) (RuntimeLast.raised _).contained
  | delegated _ _ ih => exact .cons (fun _ h => by cases h) ih.contained

theorem Checks.runtimeLast {target : Target} {s s' : Session σ} {evs : List Event}
    {r : Except AccessError Bool}
    (h : e.Checks ctx target s evs r s') : RuntimeLast evs r := by
  cases h with
  | unloaded => exact (RuntimeLast.raised _).contained
  | loaded _ hr => exact hr.runtimeLast

/-- A runtime fault that arises at a point is what the point comes to. -/
theorem Raises.runs {pt : Point σ} {evs : List Event} {fault : RuntimeFault}
    {s' : Evaluation σ} (h : e.Raises ctx pt evs (.runtime fault) s') :
    e.Runs ctx pt evs (.error (.runtime fault)) s' := by
  cases h with
  | locating h hf hl => exact .unopened h (.located hf hl)
  | answering h => exact .faulted h

/-! ## Configuration faults -/

/-- A list whose resource cannot be located for a configuration fault is denied,
and none of its policies is dispatched. -/
theorem runs_of_tryLocate {chain : List String} {ps : List Policy}
    {type accessor : String} {v : Value} {s s' : Evaluation σ}
    {fault : ConfigurationFault} (hq : e.settings.debug = false)
    (h : ps.all Policy.isModifier = false)
    (hf : ps.find? Policy.isResource = some (.resource type accessor))
    (hl : e.tryLocate type accessor v s = (.error (.configuration fault), s')) :
    e.Runs ctx ⟨chain, .list ps, v, s⟩ [.raised (.configuration fault)] (.ok false)
      s' := by
  obtain ⟨evs, hl⟩ := tryLocate_eq_iff.mp hl
  obtain rfl : evs = [.raised (.configuration fault)] := by cases hl <;> rfl
  have ho := Opens.located hf hl
  rw [contained_configuration hq] at ho
  exact .unlocated h ho

/-- A policy that is not refused says no to its configuration faults. -/
theorem answer_of_configuration {chain : List String} {p : Policy} {v : Value}
    {s s' : Evaluation σ} {fault : ConfigurationFault} (hq : e.settings.debug = false)
    (hp : p.isRefused = false)
    (h : e.handle ctx chain p v s = some (.error (.configuration fault), s')) :
    e.answer ctx chain p v s = some (.ok false, s') := by
  rw [answer_of_handle h, contained_configuration hq]
  simp only [hp, Bool.false_eq_true, if_false]

/-- Which errors come out of a check outside debug mode, and what becomes of the
others. Of the configuration faults it is the refusal of an unrecognized policy
in the target's own list; any other is met by a denial right where it arises.
Every runtime fault comes out, and nothing happens after it. -/
theorem errors_outside_debug (e : Engine σ) (hq : e.settings.debug = false)
    (ctx : Context) (target : Target) (s : Session σ) :
    ((∀ fault s', e.check target ctx s = some (.error (.configuration fault), s') →
        (AccessError.configuration fault).message = "Unhandled policy: Unrecognized" ∧
          ∃ evs v s₁, e.Visits ctx target s evs
            ⟨target.origin e.typing, .policy .unrecognized, v, s₁⟩) ∧
      (∀ fault s',
        Step.ofAct (e.policiesOf target) (.start s) =
          (.error (.configuration fault), s') →
          e.check target ctx s = some (.ok false, s'.session)) ∧
      (∀ chain ps type accessor v s₁ fault s', ps.all Policy.isModifier = false →
        ps.find? Policy.isResource = some (.resource type accessor) →
        e.tryLocate type accessor v s₁ = (.error (.configuration fault), s') →
          e.decideList ctx chain ps v s₁ = some (.ok false, s') ∧
            e.Runs ctx ⟨chain, .list ps, v, s₁⟩ [.raised (.configuration fault)]
              (.ok false) s') ∧
      (∀ chain p v s₁ fault s', p.isRefused = false →
        e.handle ctx chain p v s₁ = some (.error (.configuration fault), s') →
          e.answer ctx chain p v s₁ = some (.ok false, s') ∧
            ∀ ps, e.combine ctx chain .any (p :: ps) v s₁ =
              e.combine ctx chain .any ps v s' ∧
              e.combine ctx chain .all (p :: ps) v s₁ = some (.ok false, s'))) ∧
    ((∀ fault s', Step.ofAct (e.policiesOf target) (.start s) =
        (.error (.runtime fault), s') →
        e.check target ctx s = some (.error (.runtime fault), s'.session)) ∧
      (∀ evs pt evs' fault s', e.Visits ctx target s evs pt →
        e.Raises ctx pt evs' (.runtime fault) s' →
          e.check target ctx s = some (.error (.runtime fault), s'.session) ∧
            e.Checks ctx target s (evs ++ evs') (.error (.runtime fault)) s'.session) ∧
      ∀ evs r s', e.Checks ctx target s evs r s' → RuntimeLast evs r) := by
  refine ⟨⟨fun fault s' h => ?_, fun fault s' h => ?_, ?_, ?_⟩,
    fun fault s' h => ?_, ?_, ?_⟩
  · obtain ⟨evs, h⟩ := check_eq_some_iff.mp h
    obtain ⟨hf, evs', v, s₁, _, hv⟩ := h.exists_unrecognized hq rfl
    exact ⟨hf ▸ unhandled_message, evs', v, s₁, hv⟩
  · have h : e.Checks ctx target s _ _ _ := .unloaded h
    rw [contained_configuration hq] at h
    exact check_eq_some_iff.mpr ⟨_, h⟩
  · intro chain ps type accessor v s₁ fault s' h hf hl
    have hr : e.Runs ctx ⟨chain, .list ps, v, s₁⟩ _ _ s' :=
      runs_of_tryLocate hq h hf hl
    exact ⟨hr.outcome, hr⟩
  · intro chain p v s₁ fault s' hp h
    have ha := answer_of_configuration hq hp h
    refine ⟨ha, fun ps => ⟨?_, ?_⟩⟩
    · rw [combine_of_answer ha, if_neg (by decide)]
    · rw [combine_of_answer ha, if_pos (show false = Mode.all.settling from rfl)]
  · exact check_eq_some_iff.mpr ⟨_, .unloaded h⟩
  · intro evs pt evs' fault s' hv hr
    have hc := hv.error hr.runs (.inr (uncontained_runtime fault))
    exact ⟨check_eq_some_iff.mpr ⟨_, hc⟩, hc⟩
  · exact fun evs r s' h => h.runtimeLast

/-- An engine without any checker, for a function that delegates to a type with
a role and a method to ask for. -/
def unchecked : Engine Unit :=
  ofLists [("B", [.role "r", .method "m()"])] [("f", [.delegate "B", .allow none])] {}

/-- The missing checker is contained, and the method that is asked for on a name
is not. -/
theorem unchecked_check :
    unchecked.check (.function "f") {} ⟨(), .empty⟩ =
      some (.error (.runtime (.methodOnNonObject "string")), ⟨(), .empty⟩) ∧
    unchecked.Checks {} (.function "f") ⟨(), .empty⟩
      [.dispatched [] (.delegate "B") (.string "f"),
        .dispatched ["B"] (.role "r") (.string "f"),
        .raised (.configuration .noRoleChecker),
        .dispatched ["B"] (.method "m()") (.string "f"),
        .raised (.runtime (.methodOnNonObject "string"))]
      (.error (.runtime (.methodOnNonObject "string"))) ⟨(), .empty⟩ := by
  have hno :
      unchecked.Runs {} ⟨["B"], .policy (.role "r"), .string "f", .start ⟨(), .empty⟩⟩
        [.dispatched ["B"] (.role "r") (.string "f"),
          .raised (.configuration .noRoleChecker)]
        (.ok (!Mode.any.settling)) (.start ⟨(), .empty⟩) :=
    .faulted (.noRoleChecker rfl)
  have hin : unchecked.Reaches {}
      ⟨["B"], .list [.role "r", .method "m()"], .string "f", .start ⟨(), .empty⟩⟩
      [.dispatched ["B"] (.role "r") (.string "f"),
        .raised (.configuration .noRoleChecker)]
      ⟨["B"], .policy (.method "m()"), .string "f", .start ⟨(), .empty⟩⟩ :=
    .step (.opens rfl (.given rfl)) (.step (.next hno) (.step .first .refl))
  have hv : unchecked.Visits {} (.function "f") ⟨(), .empty⟩
      [.dispatched [] (.delegate "B") (.string "f"),
        .dispatched ["B"] (.role "r") (.string "f"),
        .raised (.configuration .noRoleChecker)]
      ⟨["B"], .policy (.method "m()"), .string "f", .start ⟨(), .empty⟩⟩ :=
    ⟨_, _, rfl, .step (.opens rfl (.given rfl))
      (.step .first (.step (.delegates rfl) hin))⟩
  exact (errors_outside_debug unchecked rfl {} (.function "f") ⟨(), .empty⟩).2.2.1
    _ _ _ _ _ hv (.answering (.methodOnNonObject rfl))

end Engine

end Clearance
