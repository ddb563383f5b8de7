import Clearance.Proofs.Reach

/-!
# Debug mode only adds errors

The same engine in debug mode and outside it. What one of them does the other
does too, step by step, as long as no error arises that is contained outside
debug mode, and as long as the locator finds what it is asked for. A run in
debug mode that comes to an answer has met no error at all, since debug mode
contains none; so it is also a run outside debug mode, with the same events and
the same state. A runtime fault is as good as an answer here, but only the run
itself tells whether it is a missing resource that debug mode complains about,
so there the locator's answers are a condition.

Nothing is asked of the collaborators: the two runs meet the same world.
-/

namespace Clearance

namespace Engine

variable {σ : Type} {e : Engine σ} {ctx : Context}

/-- The same engine, in debug mode or outside it. -/
def withDebug (e : Engine σ) (debug : Bool) : Engine σ :=
  { e with settings := { e.settings with debug := debug } }

/-- The locator has found whatever it was asked for. -/
def AllFound (evs : List Event) : Prop :=
  ∀ type id a, .asked type id a ∈ evs → ∃ v, a = some v ∧ v.isNotFound = false

theorem allFound_append {evs evs' : List Event} :
    AllFound (evs ++ evs') ↔ AllFound evs ∧ AllFound evs' := by
  constructor
  · intro h
    exact ⟨fun type id a hm => h type id a (List.mem_append_left _ hm),
      fun type id a hm => h type id a (List.mem_append_right _ hm)⟩
  · rintro ⟨h, h'⟩ type id a hm
    exact (List.mem_append.mp hm).elim (h type id a) (h' type id a)

theorem allFound_nil : AllFound [] := fun _ _ _ hm => by cases hm

theorem allFound_dispatched {chain : List String} {p : Policy} {v : Value}
    {evs : List Event} : AllFound (.dispatched chain p v :: evs) ↔ AllFound evs := by
  constructor
  · exact fun h type id a hm => h type id a (List.mem_cons_of_mem _ hm)
  · intro h type id a hm
    rcases List.mem_cons.mp hm with hm | hm
    · cases hm
    · exact h type id a hm

/-! ## Answers in debug mode -/

theorem Locates.allFound (hd : e.settings.debug = true) {type accessor : String}
    {v : Value} {s s' : Evaluation σ} {evs : List Event} {a : Option Value}
    (h : e.Locates type accessor v s evs (.ok a) s') : AllFound evs := by
  cases h with
  | found h hr hi hl hv =>
      intro type id a hm
      cases List.mem_singleton.mp hm
      exact ⟨_, rfl, hv⟩
  | notFound h hr hi hl hv hq => simp [hd] at hq

theorem Opens.allFound (hd : e.settings.debug = true) {ps : List Policy} {v : Value}
    {s s' : Evaluation σ} {evs : List Event} {a : Option Value}
    (h : e.Opens ps v s evs (.ok a) s') : AllFound evs := by
  generalize hr : Except.ok a = r at h
  cases h with
  | given => exact allFound_nil
  | located h hl =>
      rw [contained_of_debug hd] at hr
      rw [← hr] at hl
      exact hl.allFound hd

/-- In debug mode there is an answer only if the locator has found everything. -/
theorem Runs.allFound (hd : e.settings.debug = true) {pt : Point σ} {evs : List Event}
    {r : Except AccessError Bool} {s' : Evaluation σ} (h : e.Runs ctx pt evs r s')
    {b : Bool} (hr : r = .ok b) : AllFound evs := by
  induction h generalizing b with
  | unconditional | done => exact allFound_nil
  | opened _ ho _ ih => exact allFound_append.mpr ⟨ho.allFound hd, ih hr⟩
  | unlocated _ ho => exact ho.allFound hd
  | unopened | failed | refused => cases hr
  | settled _ ih => exact ih rfl
  | next _ _ ihp ihr => exact allFound_append.mpr ⟨ihp rfl, ihr hr⟩
  | consulted => exact allFound_dispatched.mpr allFound_nil
  | faulted =>
      rw [contained_of_debug hd] at hr
      cases hr
  | delegated _ _ ih =>
      rw [contained_of_debug hd] at hr
      exact allFound_dispatched.mpr (ih hr)

/-! ## The same run outside debug mode

What a policy says does not depend on the mode, so the two engines differ only
in what they do about an error and about a resource that is not found. -/

/-- Where an error arises does not depend on the mode. -/
theorem Faults.withDebug {chain : List String} {p : Policy} {v : Value}
    {s s' : Evaluation σ} {err : AccessError} (h : e.Faults ctx chain p v s err s')
    (debug : Bool) : (e.withDebug debug).Faults ctx chain p v s err s' := by
  rcases eq_delegate_or p with ⟨type, rfl⟩ | hd
  · have hf : e.delegated chain type s = (.error err, s') := delegated_eq_error.mpr h
    have hq : (e.withDebug debug).delegated chain type s = (.error err, s') := hf
    exact delegated_eq_error.mp hq
  · have hf : e.consult ctx p v s = (.error err, s') :=
      (consult_eq_error h.isRefused hd).mpr h
    have hq : (e.withDebug debug).consult ctx p v s = (.error err, s') := hf
    exact (consult_eq_error h.isRefused hd).mp hq

/-- What is contained outside debug mode is a configuration fault. -/
theorem Locates.withDebug {type accessor : String} {v : Value} {s s' : Evaluation σ}
    {evs : List Event} {r : Except AccessError (Option Value)}
    (h : e.Locates type accessor v s evs r s')
    (hr : ∀ fault, r ≠ .error (.configuration fault)) (hf : AllFound evs)
    (debug : Bool) :
    (e.withDebug debug).Locates type accessor v s evs r s' := by
  cases h with
  | noLocator | nonObject | nullIdentifier => exact absurd rfl (hr _)
  | accessor h ha => exact .accessor h ha
  | found h ha hi hl hv => exact .found h ha hi hl hv
  | notFound _ _ _ _ hv | notFoundInDebug _ _ _ _ hv =>
      obtain ⟨w, rfl, hw⟩ := hf _ _ _ (List.mem_cons_self ..)
      simp [hv w rfl] at hw

theorem Opens.withDebug (hd : e.settings.debug = true) {ps : List Policy} {v : Value}
    {s s' : Evaluation σ} {evs : List Event} {r : Except AccessError (Option Value)}
    (h : e.Opens ps v s evs r s') (hr : ∀ fault, r ≠ .error (.configuration fault))
    (hf : AllFound evs) (debug : Bool) :
    (e.withDebug debug).Opens ps v s evs r s' := by
  cases h with
  | given h => exact .given h
  | @located _ _ _ r _ h hl =>
      rw [contained_of_debug hd] at hr ⊢
      have ho := Opens.located h (hl.withDebug hr hf debug)
      rwa [contained_of_ne_configuration hr] at ho

/-- A run in debug mode is one outside it, unless it ends in a configuration
fault or the locator has not found what it was asked for. -/
theorem Runs.withDebug (hd : e.settings.debug = true) {pt : Point σ}
    {evs : List Event} {r : Except AccessError Bool} {s' : Evaluation σ}
    (h : e.Runs ctx pt evs r s') (hr : ∀ fault, r ≠ .error (.configuration fault))
    (hf : AllFound evs) (debug : Bool) : (e.withDebug debug).Runs ctx pt evs r s' := by
  have hok : ∀ {α : Type} (a : α) fault,
      (Except.ok a : Except AccessError α) ≠ .error (.configuration fault) :=
    fun _ _ h => by cases h
  induction h with
  | unconditional h => exact .unconditional h
  | opened h ho _ ih =>
      obtain ⟨hfo, hfr⟩ := allFound_append.mp hf
      exact .opened h (ho.withDebug hd (hok _) hfo debug) (ih hr hfr)
  | unlocated h ho => exact .unlocated h (ho.withDebug hd (hok _) hf debug)
  | unopened h ho =>
      refine .unopened h (ho.withDebug hd (fun fault he => ?_) hf debug)
      cases he
      exact hr fault rfl
  | done => exact .done
  | settled _ ih => exact .settled (ih (hok _) hf)
  | next _ _ ihp ihr =>
      obtain ⟨hfp, hfr⟩ := allFound_append.mp hf
      exact .next (ihp (hok _) hfp) (ihr hr hfr)
  | failed _ ih => exact .failed (ih hr hf)
  | refused hp h => exact .refused hp h
  | consulted h => exact .consulted h
  | faulted h =>
      rw [contained_of_debug hd] at hr ⊢
      have ha := Runs.faulted (h.withDebug debug)
      rwa [contained_of_ne_configuration hr] at ha
  | delegated h _ ih =>
      rw [contained_of_debug hd] at hr ⊢
      have ha :=
        Runs.delegated (e := e.withDebug debug) h (ih hr (allFound_dispatched.mp hf))
      rwa [contained_of_ne_configuration hr] at ha

theorem Checks.withDebug (hd : e.settings.debug = true) {target : Target}
    {s s' : Session σ} {evs : List Event} {r : Except AccessError Bool}
    (h : e.Checks ctx target s evs r s')
    (hr : ∀ fault, r ≠ .error (.configuration fault)) (hf : AllFound evs)
    (debug : Bool) :
    (e.withDebug debug).Checks ctx target s evs r s' := by
  cases h with
  | unloaded h =>
      rw [contained_of_debug hd] at hr ⊢
      have hc : (e.withDebug debug).Checks ctx target s _ _ _ := .unloaded h
      rwa [contained_of_ne_configuration hr] at hc
  | loaded h hr' => exact .loaded h (hr'.withDebug hd hr hf debug)

theorem Checks.allFound (hd : e.settings.debug = true) {target : Target}
    {s s' : Session σ} {evs : List Event} {b : Bool}
    (h : e.Checks ctx target s evs (.ok b) s') :
    AllFound evs := by
  generalize hr : Except.ok b = r at h
  cases h with
  | unloaded =>
      rw [contained_of_debug hd] at hr
      cases hr
  | loaded _ h => exact h.allFound hd hr.symm

/-- An engine in debug mode grants and denies only what it grants and denies
outside debug mode; and what fails in debug mode with a runtime fault fails in
the same way outside it, if the locator has found whatever it was asked for. -/
theorem check_withDebug (e : Engine σ) (ctx : Context) (target : Target)
    (s s' : Session σ) :
    (∀ b, (e.withDebug true).check target ctx s = some (.ok b, s') →
      (e.withDebug false).check target ctx s = some (.ok b, s')) ∧
    ∀ evs fault,
      (e.withDebug true).Checks ctx target s evs (.error (.runtime fault)) s' →
      AllFound evs →
        (e.withDebug false).check target ctx s =
          some (.error (.runtime fault), s') := by
  refine ⟨fun b h => ?_, fun evs fault h hf => ?_⟩
  · obtain ⟨evs, h⟩ := check_eq_some_iff.mp h
    have hq := h.withDebug rfl (fun _ he => by cases he) (h.allFound rfl) false
    exact check_eq_some_iff.mpr ⟨evs, hq⟩
  · have hq := h.withDebug rfl (fun _ he => by cases he) hf false
    exact check_eq_some_iff.mpr ⟨evs, hq⟩

/-- An engine that grants a function to all, and that asks a method of whatever a
record identifies; the locator answers with the identifier itself. -/
def identifying : Engine Unit :=
  { ofLists [("json", [.resource "T" "id", .method "m()"])]
    [("f", [.allow none])] {} with
    resources := some ⟨fun _ id => pure (some id)⟩ }

def identified : Record := ⟨.given 0, [("id", .string "1")]⟩

/-- What is granted in debug mode is granted outside it, and a method that is
asked for on a string fails in both. -/
theorem identifying_withDebug :
    (identifying.withDebug false).check (.function "f") {} ⟨(), .empty⟩ =
      some (.ok true, ⟨(), .empty⟩) ∧
    (identifying.withDebug false).check (.instance (.record identified)) {}
      ⟨(), .empty⟩ =
      some (.error (.runtime (.methodOnNonObject "string")), ⟨(), .empty⟩) := by
  have hyes : (identifying.withDebug true).Runs {}
      ⟨[], .list [.allow none], .string "f", .start ⟨(), .empty⟩⟩
      [.dispatched [] (.allow none) (.string "f")] (.ok true)
      (.start ⟨(), .empty⟩) :=
    .opened rfl (.given rfl) (.settled (.consulted rfl))
  have hc : (identifying.withDebug true).Checks {} (.function "f") ⟨(), .empty⟩ _
      (.ok true) (Evaluation.start ⟨(), .empty⟩).session :=
    .loaded rfl hyes
  have hf : (identifying.withDebug true).Runs {} ⟨["json"],
      .list [.resource "T" "id", .method "m()"], .object (.record identified),
      .start ⟨(), .empty⟩⟩
      [.asked "T" (.string "1") (some (.string "1")),
        .dispatched ["json"] (.method "m()") (.string "1"),
        .raised (.runtime (.methodOnNonObject "string"))]
      (.error (.runtime (.methodOnNonObject "string"))) (.start ⟨(), .empty⟩) :=
    .opened rfl (.located rfl (.found rfl rfl rfl rfl rfl))
      (.failed (.faulted (.methodOnNonObject rfl)))
  have hcf : (identifying.withDebug true).Checks {} (.instance (.record identified))
      ⟨(), .empty⟩ _ _ (Evaluation.start ⟨(), .empty⟩).session :=
    .loaded rfl hf
  refine ⟨(check_withDebug identifying {} (.function "f") ⟨(), .empty⟩ _).1 true
    (check_eq_some_iff.mpr ⟨_, hc⟩), ?_⟩
  refine (check_withDebug identifying {} (.instance (.record identified))
    ⟨(), .empty⟩ _).2 _ _ hcf ?_
  intro type id a hm
  simp only [List.mem_cons, Event.asked.injEq, reduceCtorEq, List.not_mem_nil,
    or_false] at hm
  obtain ⟨rfl, rfl, rfl⟩ := hm
  exact ⟨_, rfl, rfl⟩

end Engine

end Clearance
