import Clearance.Proofs.Binding
import Clearance.Proofs.Trace

/-!
# Reads and calls

A read puts the arguments of a method together by a rule of its own: for every
parameter what stands in for it. It asks for this only if all parameters are optional,
and then it is what binding makes of no arguments at all, so a read that comes to a
method is the call of this method without arguments. Before it comes there, a holder
answers, or else a property that is not null.

A read has no errors of its own. Whatever fails is the one method that is called.
-/

namespace Clearance

variable {σ : Type} {t : Typing} {host : Host σ} {place : Place} {o : Object}
  {name : String}

/-! ## Calls without arguments -/

theorem Parameter.binds_standIn {p : Parameter} (h : p.isOptional = true) :
    p.Binds t none p.standIn := by
  unfold standIn
  cases hf : p.fallback with
  | some v => exact .fallback (.inl rfl) hf
  | none =>
      have hn : p.nullable = true := by simpa [isOptional, hf] using h
      exact .null (.inl rfl) hf hn

/-- Binding makes of no arguments what stands in for the parameters. -/
theorem Signature.bind_empty {s : Signature} (h : s.isAllOptional = true)
    (callee : String) :
    s.bind t callee .empty = .ok (s.parameters.map Parameter.standIn) := by
  refine bindFrom_eq_ok.mpr
    (List.forall₂_map_right_iff.mpr (List.forall₂_same.mpr fun p hp => ?_))
  exact Parameter.binds_standIn (List.all_eq_true.mp h p hp)

namespace Object

theorem callWith_empty {sig : Signature}
    (hm : o.method host.toDirectory name = some sig) (h : sig.isAllOptional = true) :
    o.callWith host name .empty =
      o.call host name (sig.parameters.map Parameter.standIn) := by
  have hs : (o.callee host name).signature = some sig := hm
  unfold callWith Callee.callWith
  simp only [hs, Signature.bind_empty h]
  rfl

/-! ## What answers a read -/

/-- The rules by which a read is answered. Each applies where those in front of it
do not. -/
inductive Answers (host : Host σ) (place : Place) (o : Object) (name : String) :
    Act σ Value → Prop where
  | holder {answer} (h : o.holder host.toDirectory place = some answer) :
      Answers host place o name (pure (answer name))
  | property {v} (hh : o.holder host.toDirectory place = none)
      (hp : o.property host.toDirectory place name = some v) (hv : v.isNull = false) :
      Answers host place o name (pure v)
  | method {sig} (hh : o.holder host.toDirectory place = none)
      (hp : ∀ v, o.property host.toDirectory place name = some v → v.isNull = true)
      (hm : o.method host.toDirectory name = some sig)
      (ha : sig.isAllOptional = true) :
      Answers host place o name (o.callWith host name .empty)
  | nothing (hh : o.holder host.toDirectory place = none)
      (hp : ∀ v, o.property host.toDirectory place name = some v → v.isNull = true)
      (hm : ∀ sig, o.method host.toDirectory name = some sig →
        sig.isAllOptional = false) :
      Answers host place o name (pure .null)

theorem read_eq_byMethod (hh : o.holder host.toDirectory place = none)
    (hp : ∀ v, o.property host.toDirectory place name = some v → v.isNull = true) :
    o.read host place name = read.byMethod host o name := by
  cases hv : o.property host.toDirectory place name with
  | none => simp only [read, hh, hv]
  | some v => simp only [read, hh, hv, hp v hv, if_true]

theorem Answers.read_eq {act : Act σ Value} (h : o.Answers host place name act) :
    o.read host place name = act := by
  cases h with
  | holder h => simp only [read, h]
  | property hh hp hv => simp only [read, hh, hp, hv, Bool.false_eq_true, if_false]
  | method hh hp hm ha =>
      rw [read_eq_byMethod hh hp, callWith_empty hm ha]
      simp only [read.byMethod, hm, ha, if_true]
  | nothing hh hp hm =>
      rw [read_eq_byMethod hh hp]
      cases hs : o.method host.toDirectory name with
      | none => simp only [read.byMethod, hs]
      | some sig =>
          simp only [read.byMethod, hs, hm sig hs, Bool.false_eq_true, if_false]

/-- Some rule applies to every read. -/
theorem answers_read (host : Host σ) (place : Place) (o : Object) (name : String) :
    o.Answers host place name (o.read host place name) := by
  have answered {act : Act σ Value} (h : o.Answers host place name act) :
      o.Answers host place name (o.read host place name) := h.read_eq.symm ▸ h
  cases hh : o.holder host.toDirectory place with
  | some answer => exact answered (.holder hh)
  | none =>
      by_cases hp : ∀ v, o.property host.toDirectory place name = some v →
        v.isNull = true
      · cases hm : o.method host.toDirectory name with
        | none =>
            exact answered (.nothing hh hp fun sig hs => by cases hm.symm.trans hs)
        | some sig =>
            cases ha : sig.isAllOptional with
            | true => exact answered (.method hh hp hm ha)
            | false =>
                refine answered (.nothing hh hp fun sig' hs => ?_)
                obtain rfl : sig = sig' := Option.some.inj (hm.symm.trans hs)
                exact ha
      · obtain ⟨v, hn⟩ := not_forall.mp hp
        obtain ⟨hv, hn⟩ := Classical.not_imp.mp hn
        exact answered (.property hh hv (Bool.eq_false_iff.mpr hn))

/-! ## What a read calls -/

/-- A read is a value, or else the call of a method that needs no arguments, and the
host that records what it is asked makes no difference to this. -/
theorem read_eq_pure_or_call (host : Host σ) (place : Place) (o : Object)
    (name : String) :
    (∃ v, o.read host place name = pure v ∧ o.read host.traced place name = pure v) ∨
      ∃ sig, o.method host.toDirectory name = some sig ∧ sig.isAllOptional = true ∧
        o.read host place name = o.call host name
          (sig.parameters.map Parameter.standIn) ∧
        o.read host.traced place name =
          o.call host.traced name (sig.parameters.map Parameter.standIn) := by
  obtain ⟨act, h⟩ := Exists.intro _ (o.answers_read host place name)
  rw [h.read_eq]
  -- The host that records has the same directory, so the same rule applies to it.
  cases h with
  | @holder answer h =>
      have ht : o.Answers host.traced place name (pure (answer name)) := .holder h
      exact .inl ⟨_, rfl, ht.read_eq⟩
  | @property v hh hp hv =>
      have ht : o.Answers host.traced place name (pure v) := .property hh hp hv
      exact .inl ⟨_, rfl, ht.read_eq⟩
  | @method sig hh hp hm ha =>
      have ht :
          o.Answers host.traced place name (o.callWith host.traced name .empty) :=
        .method hh hp hm ha
      have hm' : o.method host.traced.toDirectory name = some sig := hm
      exact .inr ⟨sig, hm, ha, callWith_empty hm ha,
        ht.read_eq.trans (callWith_empty hm' ha)⟩
  | nothing hh hp hm =>
      have ht : o.Answers host.traced place name (pure .null) := .nothing hh hp hm
      exact .inl ⟨_, rfl, ht.read_eq⟩

/-- Only a host's own object has methods. -/
theorem exists_handle_of_method {d : Directory} {sig : Signature}
    (hm : o.method d name = some sig) : ∃ handle, o = .host handle := by
  cases o with
  | host handle => exact ⟨handle, rfl⟩
  | record r => cases hm

/-- A read is what the first rule says that applies to it. A holder answers whatever
else a host says of it, and a method is called as it is without arguments: bound to
what stands in for its parameters. The only errors of a read are those of this call,
and the only call it makes, if it makes one, is of a method with this name that needs
no arguments. -/
theorem reading_agrees (host : Host σ) (place : Place) (o : Object) (name : String) :
    (∀ act, o.Answers host place name act ↔ act = o.read host place name) ∧
    (∀ (host' : Host σ) answer, o.holder host.toDirectory place = some answer →
      o.holder host'.toDirectory place = some answer →
      o.read host' place name = o.read host place name) ∧
    (∀ sig callee, o.method host.toDirectory name = some sig →
      sig.isAllOptional = true →
      sig.bind host.toTyping callee .empty =
        .ok (sig.parameters.map Parameter.standIn) ∧
        o.callWith host name .empty =
          o.call host name (sig.parameters.map Parameter.standIn)) ∧
    (∀ w err w', o.read host place name w = (.error err, w') →
      ∃ sig, o.method host.toDirectory name = some sig ∧ sig.isAllOptional = true ∧
        o.call host name (sig.parameters.map Parameter.standIn) w = (.error err, w')) ∧
    ∀ w record, ∃ calls,
      o.read host.traced place name (w, record) =
        ((o.read host place name w).1, (o.read host place name w).2, record ++ calls) ∧
      calls.length ≤ 1 ∧
      ∀ r ∈ calls, ∃ handle sig, o = .host handle ∧
        host.method handle name = some sig ∧
        sig.isAllOptional = true ∧
        r = .call handle name (sig.parameters.map Parameter.standIn) := by
  refine ⟨fun act =>
    ⟨fun h => h.read_eq.symm, fun h => h ▸ o.answers_read host place name⟩,
    fun host' answer h h' => ?_, fun sig callee hm ha => ?_, fun w err w' hr => ?_,
    fun w record => ?_⟩
  · rw [(Answers.holder h).read_eq, (Answers.holder h').read_eq]
  · exact ⟨Signature.bind_empty ha callee, callWith_empty hm ha⟩
  · rcases o.read_eq_pure_or_call host place name with
      ⟨v, hv, _⟩ | ⟨sig, hm, ha, hc, _⟩
    · rw [hv] at hr
      cases hr
    · exact ⟨sig, hm, ha, hc ▸ hr⟩
  · rcases o.read_eq_pure_or_call host place name with
      ⟨v, hv, ht⟩ | ⟨sig, hm, ha, hc, ht⟩
    · rw [hv, ht]
      exact ⟨[], by rw [List.append_nil]; rfl, Nat.zero_le 1, fun _ h => (nomatch h)⟩
    · obtain ⟨handle, rfl⟩ := exists_handle_of_method hm
      rw [hc, ht]
      refine ⟨[.call handle name (sig.parameters.map Parameter.standIn)], rfl,
        Nat.le_refl 1, fun r h => ⟨handle, sig, rfl, hm, ha, List.mem_singleton.mp h⟩⟩

/-- A host whose objects have an owner that is null, so it is asked of a method, which
does not know it. -/
def forgetful : Host Unit where
  typeName := Handle.name
  property := fun _ name => if name = "owner" then some .null else none
  method := fun _ name =>
    if name = "owner" then
      some ⟨[{ name := "otherwise", fallback := some (.string "nobody") },
        { name := "note", types := ["string"], nullable := true }]⟩
    else none
  call := fun _ _ _ => throw (.runtime (.reported "forgotten"))

/-- The error is that of the method, which is called with its own value and null,
and once. -/
theorem forgetful_reading :
    ((Object.host ⟨"book"⟩).read forgetful .alone "owner" () =
        (.error (.runtime (.reported "forgotten")), ()) ∧
      ∃ sig, (Object.host ⟨"book"⟩).method forgetful.toDirectory "owner" = some sig ∧
        sig.isAllOptional = true ∧
        (Object.host ⟨"book"⟩).call forgetful "owner"
          (sig.parameters.map Parameter.standIn) () =
          (.error (.runtime (.reported "forgotten")), ())) ∧
    (Object.host ⟨"book"⟩).read forgetful .alone "owner" =
      (Object.host ⟨"book"⟩).callWith forgetful "owner" .empty := by
  have h := (Object.host ⟨"book"⟩).reading_agrees forgetful .alone "owner"
  refine ⟨⟨rfl, h.2.2.2.1 () _ () rfl⟩, ?_⟩
  refine ((h.1 _).mp (.method rfl (fun v hv => ?_) rfl rfl)).symm
  cases hv
  rfl

end Object

end Clearance
