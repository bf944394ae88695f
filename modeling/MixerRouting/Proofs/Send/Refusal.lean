import MixerRouting.Proofs.Routing.Recalculation
import MixerRouting.Proofs.Send.Rewiring

/-!
# Failed connections

A target is either admitted or refused, and the check that decides comes before
any change. Once a target is admitted nothing can go wrong on the control
thread until the wires lie and the switch is on; only the recalculation that
comes after that may fail, over wires of whomever. So a failed connection is
one that was not made, or one that was made in full and not published.
-/
namespace MixerRouting

namespace Send

/-- The pairs of ports that a connection joins, output by output. -/
def pairsTo (s : Send) (target : Bundle) : List (PortId × PortId) :=
  s.outputs.ports.zip target.ports

/-- The ports of all pairs in the order in which they are looked up. -/
def endsTo (s : Send) (target : Bundle) : List PortId :=
  (s.pairsTo target).flatMap fun pair => [pair.1, pair.2]

structure Admits (s : Send) (target : Bundle) (accepts : Option (PortId → PortId → Bool))
    (r : Registry) : Prop where
  signal : target.signal = s.signal
  accepted : ∀ f ∈ accepts, ∀ pair ∈ s.pairsTo target, f pair.1 pair.2 = true
  resolved : ∀ p ∈ s.endsTo target, r.flaw? p = none

/-- The first thing that is wrong with a target: its signal counts before the compatibility of any
pair, and that before the registration of any port. -/
inductive Refuses (s : Send) (target : Bundle) (accepts : Option (PortId → PortId → Bool))
    (r : Registry) : SendError → Prop where
  | mismatch (differs : target.signal ≠ s.signal) :
    Refuses s target accepts r (.mismatch s.signal target.signal)
  | rejected {f : PortId → PortId → Bool} {pair : PortId × PortId}
    (signal : target.signal = s.signal) (check : accepts = some f)
    (first : (s.pairsTo target).find? (fun pair => !f pair.1 pair.2) = some pair) :
    Refuses s target accepts r (.rejected pair.1 pair.2)
  | lookup {e : LookupError} (signal : target.signal = s.signal)
    (accepted : ∀ f ∈ accepts, ∀ pair ∈ s.pairsTo target, f pair.1 pair.2 = true)
    (first : (s.endsTo target).findSome? r.flaw? = some e) :
    Refuses s target accepts r (.lookup e)

/-- Asking for pairs one after the other finds the first that is not accepted. -/
theorem forM_accepts (f : PortId → PortId → Bool) (pairs : List (PortId × PortId)) :
    (pairs.forM fun (src, dest) =>
        if f src dest then pure () else throw (SendError.rejected src dest)) =
      match pairs.find? fun pair => !f pair.1 pair.2 with
      | some pair => Except.error (SendError.rejected pair.1 pair.2)
      | none => .ok () := by
  induction pairs with
  | nil => rfl
  | cons pair rest ih =>
    rw [List.forM, ih, List.find?_cons]
    cases hf : f pair.1 pair.2 <;> simp only [hf] <;> rfl

/-- The checks before a connection as three searches, each of which is made only if those before it
find nothing. -/
theorem checkTarget_eq (s : Send) (target : Bundle) (accepts : Option (PortId → PortId → Bool))
    (r : Registry) :
    s.checkTarget target accepts r =
      if target.signal ≠ s.signal then .error (.mismatch s.signal target.signal)
      else match accepts.bind fun f => (s.pairsTo target).find? fun pair => !f pair.1 pair.2 with
        | some pair => .error (.rejected pair.1 pair.2)
        | none => match (s.endsTo target).findSome? r.flaw? with
          | some e => .error (.lookup e)
          | none => .ok () := by
  have hlookup := r.forM_endpoint (s.pairsTo target) Prod.fst Prod.snd
  have hresolve : ((s.pairsTo target).forM fun (src, dest) => do
        let _ ← r.endpoint src
        let _ ← r.endpoint dest).mapError SendError.lookup =
      match (s.endsTo target).findSome? r.flaw? with
      | some e => .error (.lookup e)
      | none => .ok () := by
    unfold endsTo
    cases hf : ((s.pairsTo target).flatMap fun pair => [pair.1, pair.2]).findSome? r.flaw? with
    | none =>
      rw [hf] at hlookup
      exact congrArg (Except.mapError SendError.lookup) hlookup
    | some e =>
      rw [hf] at hlookup
      exact congrArg (Except.mapError SendError.lookup) hlookup
  unfold checkTarget
  by_cases hs : target.signal ≠ s.signal
  · rw [if_pos hs, if_pos hs]
    rfl
  · rw [if_neg hs, if_neg hs]
    cases accepts with
    | none => exact hresolve
    | some f =>
      have haccept := forM_accepts f (s.pairsTo target)
      unfold pairsTo at haccept hresolve ⊢
      simp only [Option.bind_some, haccept]
      cases (s.outputs.ports.zip target.ports).find? fun pair => !f pair.1 pair.2 with
      | none => exact hresolve
      | some pair => rfl

/-- What the checks before a connection come to. -/
theorem checkTarget_cases (s : Send) (target : Bundle) (accepts : Option (PortId → PortId → Bool))
    (r : Registry) :
    (s.checkTarget target accepts r = .ok () ∧ s.Admits target accepts r) ∨
      ∃ e, s.checkTarget target accepts r = .error e ∧ s.Refuses target accepts r e := by
  rw [checkTarget_eq]
  by_cases hs : target.signal = s.signal
  · rw [if_neg (not_not_intro hs)]
    cases hpair : accepts.bind fun f => (s.pairsTo target).find? fun pair => !f pair.1 pair.2 with
    | some pair =>
      obtain ⟨f, hf, hfirst⟩ := Option.bind_eq_some_iff.mp hpair
      exact .inr ⟨_, rfl, .rejected hs hf hfirst⟩
    | none =>
      have haccepted : ∀ f ∈ accepts, ∀ pair ∈ s.pairsTo target, f pair.1 pair.2 = true := by
        intro f hf pair hm
        have hnone := Option.bind_eq_none_iff.mp hpair f hf
        have hyes := List.find?_eq_none.mp hnone pair hm
        rwa [Bool.not_eq_true', Bool.not_eq_false] at hyes
      cases hflaw : (s.endsTo target).findSome? r.flaw? with
      | some e => exact .inr ⟨_, rfl, .lookup hs haccepted hflaw⟩
      | none => exact .inl ⟨rfl, hs, haccepted, List.findSome?_eq_none_iff.mp hflaw⟩
  · rw [if_pos hs]
    exact .inr ⟨_, rfl, .mismatch hs⟩

/-- A connection that fails on the control thread was refused and nothing has changed, or it was
to be published and could not be because some end of a wire does not resolve. In that case it
stands as if no recalculation had been asked for, and what was published before is as it was. -/
theorem connect_refused_or_unpublished {s : Send} {d : Desk} (hc : d.rendering = false)
    {target : Bundle} {options : ConnectOptions} {e : Fault SendError}
    (he : (s.connect target options d).result = .error e) :
    (∃ cause, e = .cause cause ∧ s.Refuses target options.accepts d.registry cause ∧
      s.connect target options d = ⟨.error e, s, d⟩) ∨
    (options.recalc = true ∧ s.Admits target options.accepts d.registry ∧
      let quiet := s.connect target { options with recalc := false } d
      quiet.result = .ok () ∧ quiet.desk = { d with wiring := quiet.desk.wiring } ∧
      s.connect target options d = ⟨.error e, quiet.send, quiet.desk⟩ ∧
      ∃ flaw, quiet.desk.wiring.endpoints.findSome? d.registry.flaw? = some flaw ∧
        e = .cause (.lookup flaw)) := by
  rcases s.checkTarget_cases target options.accepts d.registry with
    ⟨hok, hadmits⟩ | ⟨cause, herr, hrefuses⟩
  · right
    have hquiet : s.connect target { options with recalc := false } d =
        ⟨.ok (), s.connected target options, { d with wiring := s.rewired d.wiring target }⟩ :=
      connect_of_control hc hok
    rw [connect_of_control hc hok] at he ⊢
    rw [hquiet]
    unfold finish at he ⊢
    cases ha : options.recalc with
    | false =>
      rw [ha] at he
      cases he
    | true =>
      rw [ha, if_pos rfl] at he
      rw [if_pos rfl]
      cases hrecalc : ({ d with wiring := s.rewired d.wiring target } : Desk).recalc false with
      | ok d' =>
        rw [hrecalc] at he
        cases he
      | error fault =>
        obtain ⟨flaw, hflaw, rfl⟩ :=
          Desk.recalc_eq_error (d := { d with wiring := s.rewired d.wiring target }) hc hrecalc
        rw [hrecalc] at he
        cases he
        exact ⟨rfl, hadmits, rfl, rfl, rfl, flaw, hflaw, rfl⟩
  · left
    have hsame : s.connect target options d = ⟨.error (.cause cause), s, d⟩ := by
      unfold connect
      rw [herr]
    rw [hsame] at he ⊢
    cases he
    exact ⟨cause, rfl, hrefuses, rfl⟩

/-- A wire of somebody else comes from a port that is gone. -/
theorem connect_refused_or_unpublished_of_stray :
    let made := (Send.create 1 0 .audio {}).run {}
    let s := made.1
    let first := made.2.fresh
    let second := first.2.fresh
    let left : PortId := ⟨.plugin 5, .audio, .input, 0, .stereoLeft, none⟩
    let right : PortId := ⟨.plugin 5, .audio, .input, 1, .stereoRight, none⟩
    let stray : PortId := ⟨.fader 3, .audio, .output, 0, .none, none⟩
    let ports := (({} : Registry).addPorts s.faces).registerPort left "left" first.1
    let registry := (ports.2.registerPort right "right" second.1).2.registerPlugin 5 "gate" none
    let wiring := Wiring.empty.connect stray left 2 false true
    let d : Desk := ⟨false, wiring.2, registry.2, second.2, {}⟩
    let o := s.connect (.stereo left right) { sidechain := true, recalc := true } d
    o.result = .error (.cause (.lookup (.missingPort stray))) ∧
      o.send.isOn = true ∧ o.send.sidechain = true ∧
      o.desk.wiring.wires =
        wiring.1 :: (s.outputs.ports.zip [left, right]).map Wiring.lockedWire ∧
      o.desk.board = d.board ∧ o.desk.recalcs = d.recalcs := by
  intro made s first second left right stray ports registry wiring d o
  have he : o.result = .error (.cause (.lookup (.missingPort stray))) := by decide +kernel
  have hflag : o.send.sidechain = true := by decide +kernel
  refine ⟨he, by decide +kernel, hflag, by decide +kernel, ?_⟩
  rcases connect_refused_or_unpublished (d := d) rfl he with
    ⟨cause, -, -, hsame⟩ | ⟨-, -, -, hdesk, hquiet, -⟩
  · have hsend : o.send = s := congrArg SendOutcome.send hsame
    rw [hsend] at hflag
    cases hflag
  · have hleft : o.desk = _ := congrArg SendOutcome.desk hquiet
    rw [hleft, hdesk]
    exact ⟨rfl, rfl⟩

end Send

end MixerRouting
