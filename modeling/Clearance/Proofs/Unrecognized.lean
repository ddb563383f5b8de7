import Clearance.Proofs.Reach

/-!
# What becomes of an unrecognized policy

A policy of an unknown kind is refused when it is dispatched, and the refusal
is not contained where it arises. In debug mode that is the end of the check,
however many delegations have led to the policy. Outside debug mode the refusal
ends the list in which the policy stands; if this is the target's own list the
check fails with it, and in no other case does a check fail with a
configuration fault. But the list of a type that was delegated to is answered
for by the delegation, and a delegation contains configuration faults like any
other policy: it says no, and the list with the delegation goes on.
-/

namespace Clearance

namespace Engine

variable {σ : Type} {e : Engine σ} {ctx : Context}

/-- An unrecognized policy in a list that is delegated to has been reached by
way of a delegation, which says no if it is left outside debug mode. -/
theorem exists_delegation {pt pt' : Point σ} {evs : List Event}
    (hq : e.settings.debug = false) (h : e.Reaches ctx pt evs pt')
    (ht : pt'.task = .policy .unrecognized) (hc : pt'.chain ≠ pt.chain) :
    ∃ evs₀ chain type v s, pt'.chain = chain ++ [type] ∧
      e.Reaches ctx pt evs₀ ⟨chain, .policy (.delegate type), v, s⟩ ∧
      e.answer ctx chain (.delegate type) v s = some (.ok false, pt'.state) := by
  induction h with
  | refl => exact absurd rfl hc
  | @step pt evs pt₁ evs' pt' hm hs ih =>
      by_cases hc₁ : pt'.chain = pt₁.chain
      · cases hm with
        | @delegates chain type v s ps s₁ hd =>
            -- The list that has just been entered: the refusal comes out of it.
            obtain ⟨chain', task, v', s'⟩ := pt'
            obtain rfl : chain' = chain ++ [type] := hc₁
            obtain rfl : task = .policy .unrecognized := ht
            have hr :=
              Runs.delegated hd (hs.error (runs_unrecognized _ v' s') (.inl rfl))
            rw [unhandled, contained_configuration hq] at hr
            exact ⟨[], chain, type, v, s, rfl, .refl, hr.outcome⟩
        | _ => exact absurd hc₁ hc
      · obtain ⟨evs₀, chain, type, v, s, he, hr, ha⟩ := ih ht hc₁
        exact ⟨_, chain, type, v, s, he, .step hm hr, ha⟩

/-- When a check that dispatches an unrecognized policy fails with it: always in
debug mode; outside debug mode just if the policy stands in the list of the
target itself, while elsewhere the delegation to its list says no. -/
theorem unrecognized_dispatched (e : Engine σ) (ctx : Context) (target : Target)
    (s : Session σ) :
    unhandled.message = "Unhandled policy: Unrecognized" ∧
    (e.settings.debug = true → ∀ evs chain v s₁,
      e.Visits ctx target s evs ⟨chain, .policy .unrecognized, v, s₁⟩ →
        e.check target ctx s = some (.error unhandled, s₁.session)) ∧
    (e.settings.debug = false →
      (∀ fault s', e.check target ctx s = some (.error (.configuration fault), s') ↔
        .configuration fault = unhandled ∧ ∃ evs v s₁, s' = s₁.session ∧
          e.Visits ctx target s evs
            ⟨target.origin e.typing, .policy .unrecognized, v, s₁⟩) ∧
      (∀ evs chain v s₁, e.Visits ctx target s evs
        ⟨chain, .policy .unrecognized, v, s₁⟩ →
        chain ≠ target.origin e.typing →
          ∃ evs₀ chain₀ type v₀ s₀, chain = chain₀ ++ [type] ∧
            e.Visits ctx target s evs₀ ⟨chain₀, .policy (.delegate type), v₀, s₀⟩ ∧
            e.answer ctx chain₀ (.delegate type) v₀ s₀ = some (.ok false, s₁))) := by
  refine ⟨unhandled_message, fun hd evs chain v s₁ h => ?_,
    fun hq => ⟨fun fault s' => ⟨fun h => ?_, ?_⟩, ?_⟩⟩
  · have hu : e.Uncontained unhandled := contained_of_debug hd _ _
    exact check_eq_some_iff.mpr ⟨_, h.error (runs_unrecognized chain v s₁) (.inr hu)⟩
  · obtain ⟨evs, h⟩ := check_eq_some_iff.mp h
    exact h.exists_unrecognized hq rfl
  · rintro ⟨hf, evs, v, s₁, rfl, h⟩
    rw [hf]
    exact check_eq_some_iff.mpr ⟨_, h.error (runs_unrecognized _ v s₁) (.inl rfl)⟩
  · rintro evs chain v s₁ ⟨ps, s₂, hl, h⟩ hc
    obtain ⟨evs₀, chain₀, type, v₀, s₀, he, hr, ha⟩ := exists_delegation hq h rfl hc
    exact ⟨evs₀, chain₀, type, v₀, s₀, he, ⟨ps, s₂, hl, hr⟩, ha⟩

/-- An engine for a function that is granted to all, but first delegates to a
type whose only policy is unrecognized. -/
def refusedBehind (debug : Bool) : Engine Unit :=
  ofLists [("B", [.unrecognized])] [("f", [.delegate "B", .allow none])]
    { debug := debug }

theorem refusedBehind_visits (debug : Bool) (s : Session Unit) :
    (refusedBehind debug).Visits {} (.function "f") s
      [.dispatched [] (.delegate "B") (.string "f")]
      ⟨["B"], .policy .unrecognized, .string "f", .start s⟩ :=
  ⟨_, _, rfl, .step (.opens rfl (.given rfl)) (.step .first (.step (.delegates rfl)
    (.step (.opens rfl (.given rfl)) (.step .first .refl))))⟩

/-- In debug mode the refusal is what the check comes to; outside it the
delegation says no. -/
theorem refusedBehind_dispatched :
    (refusedBehind true).check (.function "f") {} ⟨(), .empty⟩ =
      some (.error unhandled, ⟨(), .empty⟩) ∧
    ∃ evs₀ chain₀ type v₀ s₀, ["B"] = chain₀ ++ [type] ∧
      (refusedBehind false).Visits {} (.function "f") ⟨(), .empty⟩ evs₀
        ⟨chain₀, .policy (.delegate type), v₀, s₀⟩ ∧
      (refusedBehind false).answer {} chain₀ (.delegate type) v₀ s₀ =
        some (.ok false, .start ⟨(), .empty⟩) :=
  ⟨(unrecognized_dispatched (refusedBehind true) {} (.function "f") ⟨(), .empty⟩).2.1
      rfl _ _ _ _ (refusedBehind_visits true _),
    ((unrecognized_dispatched (refusedBehind false) {} (.function "f")
      ⟨(), .empty⟩).2.2 rfl).2 _ _ _ _ (refusedBehind_visits false _) (by decide)⟩

/-- Outside debug mode a check can grant after it has dispatched an unrecognized
policy. -/
theorem granted_after_unrecognized :
    ¬ ∀ (e : Engine Unit) (ctx : Context) (target : Target) (s : Session Unit)
        evs chain v s₁,
      e.Visits ctx target s evs ⟨chain, .policy .unrecognized, v, s₁⟩ →
        ∃ s', e.check target ctx s = some (.error unhandled, s') := by
  intro h
  obtain ⟨s', h⟩ := h (refusedBehind false) {} (.function "f") ⟨(), .empty⟩ _ _ _ _
    (refusedBehind_visits false _)
  have hin : (refusedBehind false).Runs {} ⟨["B"], .list [.unrecognized], .string "f",
      .start ⟨(), .empty⟩⟩ _ (.error unhandled) (.start ⟨(), .empty⟩) :=
    .opened rfl (.given rfl) (.failed (runs_unrecognized ..))
  have hno : (refusedBehind false).Runs {} ⟨[], .policy (.delegate "B"), .string "f",
      .start ⟨(), .empty⟩⟩ _ (.ok (!Mode.any.settling)) (.start ⟨(), .empty⟩) :=
    Runs.delegated (e := refusedBehind false) (r := .error unhandled) rfl hin
  have hyes : (refusedBehind false).Runs {}
      ⟨[], .list [.delegate "B", .allow none], .string "f", .start ⟨(), .empty⟩⟩ _
      (.ok true) (.start ⟨(), .empty⟩) :=
    .opened rfl (.given rfl) (.next hno (.settled (.consulted rfl)))
  have hc : (refusedBehind false).Checks {} (.function "f") ⟨(), .empty⟩ _
      (.ok true) _ :=
    .loaded rfl hyes
  rw [check_eq_some_iff.mpr ⟨_, hc⟩] at h
  cases h

end Engine

end Clearance
