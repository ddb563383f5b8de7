import Clearance.Call
import Clearance.Collaborator.Locators
import Clearance.Proofs.InTurn

/-!
# Arguments that fit

Argument lists are put together in two places. Calls bind what is supplied, and
reads make do with what the parameters themselves provide. Either way a callee
is only ever called with a list that fits its signature: a value for each
parameter, in order, that the parameter accepts or has declared as its own.

What is not called does not happen: if one parameter cannot be bound the call is
its error and nothing else, and if one parameter needs an argument a read is
null. Both are said here as equations between acts, so they hold whatever the
callee would have done.
-/

namespace Clearance

variable {t : Typing}

/-- A parameter takes the values it accepts, and its own. -/
def Parameter.Takes (t : Typing) (p : Parameter) (v : Value) : Prop :=
  p.accepts t v = true ∨ p.fallback = some v

/-- A list of values has one for each parameter, which the parameter takes. -/
def Signature.Fits (t : Typing) (s : Signature) (vs : List Value) : Prop :=
  List.Forall₂ (Parameter.Takes t) s.parameters vs

/-! ## What a parameter is bound to -/

theorem Parameter.takes_of_acceptsAnything {p : Parameter}
    (h : p.acceptsAnything = true) (v : Value) : p.Takes t v := by
  left
  simp [Parameter.accepts, h]

theorem Parameter.takes_of_isInstanceOf {p : Parameter} {v : Value} {type : String}
    (ht : type ∈ p.types) (hv : v.isInstanceOf t type = true) : p.Takes t v := by
  have ha : p.types.any (v.isInstanceOf t) = true :=
    List.any_eq_true.mpr ⟨type, ht, hv⟩
  left
  simp [Parameter.accepts, ha]

/-- A candidate is chosen for a type that it is an instance of, if there are
types to choose by. -/
theorem Supply.isInstanceOf_of_choose {candidates : List Value} {types : List String}
    {v : Value} (hne : types.isEmpty = false)
    (h : Supply.choose t candidates types = .ok v) :
    ∃ type ∈ types, v.isInstanceOf t type = true := by
  unfold Supply.choose Supply.choose? at h
  rw [if_neg (by simp [hne])] at h
  split at h
  · next w hw =>
      cases h
      obtain ⟨type, ht, hf⟩ := List.exists_of_findSome?_eq_some hw
      exact ⟨type, ht, by simpa using List.find?_some hf⟩
  · cases h

theorem Parameter.takes_of_bind {p : Parameter} {callee : String} {position : Nat}
    {supply : Option Supply} {v : Value}
    (h : p.bind t callee position supply = .ok v) : p.Takes t v := by
  unfold Parameter.bind at h
  split at h
  · next w =>
      -- One value is supplied.
      split at h
      · next ha =>
          cases h
          exact .inl ha
      · cases h
  · next first others =>
      -- There are candidates.
      cases ha : p.acceptsAnything with
      | true => exact takes_of_acceptsAnything ha v
      | false =>
          rw [ha, if_neg Bool.false_ne_true] at h
          have hne : p.types.isEmpty = false := by
            simp only [Parameter.acceptsAnything, Bool.or_eq_false_iff] at ha
            exact ha.1
          obtain ⟨type, ht, hv⟩ := Supply.isInstanceOf_of_choose hne h
          exact takes_of_isInstanceOf ht hv
  · -- Nothing is supplied.
    split at h
    · next w hw =>
        cases h
        exact .inr hw
    · split at h
      · next hn =>
          cases h
          left
          simp [Parameter.accepts, Value.isNull, hn]
      · cases h

/-- A parameter that needs no argument takes what stands in for it. -/
theorem Parameter.takes_standIn {p : Parameter} (h : p.isOptional = true) :
    p.Takes t p.standIn := by
  unfold Parameter.standIn
  cases hf : p.fallback with
  | some v => exact .inr hf
  | none =>
      have hn : p.nullable = true := by simpa [Parameter.isOptional, hf] using h
      left
      simp [Parameter.accepts, Value.isNull, hn]

/-! ## Argument lists -/

theorem bindFrom_cons_eq_ok {callee : String} {args : Arguments} {position : Nat}
    {p : Parameter} {ps : List Parameter} {vs : List Value} :
    bindFrom t callee args position (p :: ps) = .ok vs ↔
      ∃ v rest, p.bind t callee position (args.get? p.name) = .ok v ∧
        bindFrom t callee args (position + 1) ps = .ok rest ∧ vs = v :: rest := by
  rw [bindFrom, bind_eq_ok]
  simp only [← map_eq_pure_bind, map_eq_ok]
  constructor
  · rintro ⟨v, hv, rest, hr, rfl⟩
    exact ⟨v, rest, hv, hr, rfl⟩
  · rintro ⟨v, rest, hv, hr, rfl⟩
    exact ⟨v, hv, rest, hr, rfl⟩

theorem forall₂_of_bindFrom {callee : String} {args : Arguments} {position : Nat}
    {ps : List Parameter} {vs : List Value}
    (h : bindFrom t callee args position ps = .ok vs) :
    List.Forall₂ (Parameter.Takes t) ps vs := by
  induction ps generalizing position vs with
  | nil =>
      cases h
      exact .nil
  | cons p ps ih =>
      obtain ⟨v, rest, hv, hr, rfl⟩ := bindFrom_cons_eq_ok.mp h
      exact .cons (Parameter.takes_of_bind hv) (ih hr)

theorem Signature.fits_of_bind {s : Signature} {callee : String} {args : Arguments}
    {vs : List Value} (h : s.bind t callee args = .ok vs) : s.Fits t vs :=
  forall₂_of_bindFrom h

/-- If one parameter cannot be bound, nothing is. -/
theorem exists_bindFrom_eq_error {callee : String} {args : Arguments}
    {position i : Nat} {ps : List Parameter} {p : Parameter} {err : AccessError}
    (hp : ps[i]? = some p)
    (h : p.bind t callee (position + i) (args.get? p.name) = .error err) :
    ∃ err', bindFrom t callee args position ps = .error err' := by
  rcases hb : bindFrom t callee args position ps with err' | vs
  · exact ⟨err', rfl⟩
  · induction ps generalizing position i vs with
    | nil => cases hp
    | cons q ps ih =>
        obtain ⟨v, rest, hv, hr, _⟩ := bindFrom_cons_eq_ok.mp hb
        cases i with
        | zero =>
            cases hp
            cases h.symm.trans hv
        | succ i =>
            rw [Nat.add_comm i 1, ← Nat.add_assoc] at h
            obtain ⟨_, hc⟩ := ih hp h rest hr
            cases hc

theorem Signature.fits_standIn {s : Signature} (h : s.isAllOptional = true) :
    s.Fits t (s.parameters.map Parameter.standIn) := by
  refine List.forall₂_map_right_iff.mpr (List.forall₂_same.mpr fun p hp => ?_)
  exact Parameter.takes_standIn (List.all_eq_true.mp h p hp)

/-! ## Calls -/

variable {σ : Type}

theorem Callee.callWith_of_unbound {c : Callee σ} {sig : Signature} {args : Arguments}
    {i : Nat} {p : Parameter} {err : AccessError} (hs : c.signature = some sig)
    (hp : sig.parameters[i]? = some p)
    (h : p.bind t c.name (i + 1) (args.get? p.name) = .error err) :
    ∃ err', c.callWith t args = throw err' := by
  rw [Nat.add_comm] at h
  obtain ⟨err', hb⟩ := exists_bindFrom_eq_error hp h
  refine ⟨err', ?_⟩
  have hb' : sig.bind t c.name args = .error err' := hb
  unfold Callee.callWith
  simp only [hs, hb']
  rfl

/-! ## Reads

Whether a read calls anything, and with which arguments, is up to the directory
alone. So a read of one directory is the same for all hosts that have it, up to
what they do when they are called. -/

/-- Whatever host has the directory, an act is a value that does not depend on
the host, or else a call of the method with arguments that fit. -/
def Object.ReadsAs (d : Directory) (o : Object) (name : String)
    (act : ∀ {σ : Type}, Host σ → Act σ Value) : Prop :=
  (∃ v, ∀ {σ : Type} (host : Host σ), host.toDirectory = d → act host = pure v) ∨
    ∃ sig vs, o.method d name = some sig ∧ sig.Fits d.toTyping vs ∧
      ∀ {σ : Type} (host : Host σ), host.toDirectory = d →
        act host = o.call host name vs

theorem Object.ReadsAs.congr {d : Directory} {o : Object} {name : String}
    {act act' : ∀ {σ : Type}, Host σ → Act σ Value} (h : o.ReadsAs d name act)
    (he : ∀ {σ : Type} (host : Host σ), host.toDirectory = d → act' host = act host) :
    o.ReadsAs d name act' := by
  rcases h with ⟨v, hv⟩ | ⟨sig, vs, hs, hf, hv⟩
  · exact .inl ⟨v, fun host hd => (he host hd).trans (hv host hd)⟩
  · exact .inr ⟨sig, vs, hs, hf, fun host hd => (he host hd).trans (hv host hd)⟩

theorem Object.readsAs_byMethod (d : Directory) (o : Object) (name : String) :
    o.ReadsAs d name (fun host => read.byMethod host o name) := by
  cases hm : o.method d name with
  | none =>
      refine .inl ⟨.null, fun host hd => ?_⟩
      simp only [read.byMethod, hd, hm]
  | some sig =>
      cases ha : sig.isAllOptional with
      | true =>
          refine .inr ⟨sig, _, hm, Signature.fits_standIn ha, fun host hd => ?_⟩
          simp only [read.byMethod, hd, hm, ha, if_true]
      | false =>
          refine .inl ⟨.null, fun host hd => ?_⟩
          simp only [read.byMethod, hd, hm, ha, Bool.false_eq_true, if_false]

theorem Object.readsAs_read (d : Directory) (place : Place) (o : Object)
    (name : String) :
    o.ReadsAs d name (fun host => o.read host place name) := by
  cases hh : o.holder d place with
  | some answer =>
      refine .inl ⟨answer name, fun host hd => ?_⟩
      simp only [read, hd, hh]
  | none =>
      cases hp : o.property d place name with
      | none =>
          refine (readsAs_byMethod d o name).congr fun host hd => ?_
          simp only [read, hd, hh, hp]
      | some v =>
          -- A property that is null is passed over, like one that is not there.
          cases hn : v.isNull with
          | true =>
              refine (readsAs_byMethod d o name).congr fun host hd => ?_
              simp only [read, hd, hh, hp, hn, if_true]
          | false =>
              refine .inl ⟨v, fun host hd => ?_⟩
              simp only [read, hd, hh, hp, hn, Bool.false_eq_true, if_false]

/-- A read does not call a method that needs an argument. -/
theorem Object.exists_read_eq_pure {host : Host σ} {o : Object} {name : String}
    {sig : Signature} {p : Parameter} (hm : o.method host.toDirectory name = some sig)
    (hp : p ∈ sig.parameters) (hr : p.isOptional = false) (place : Place) :
    ∃ v, o.read host place name = pure v := by
  have ha : sig.isAllOptional = false := List.all_eq_false.mpr ⟨p, hp, by simp [hr]⟩
  have hb : read.byMethod host o name = pure .null := by
    simp only [read.byMethod, hm, ha, Bool.false_eq_true, if_false]
  unfold read
  rw [hb]
  split
  · exact ⟨_, rfl⟩
  · split
    · split <;> exact ⟨_, rfl⟩
    · exact ⟨_, rfl⟩

end Clearance
