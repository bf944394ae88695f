import MixerRouting.Proofs.Wiring.Lookup

/-!
# Clearing ports of their wires

Before ports go, all their wires go, at once or port after port. A wire between
two of the ports is found at both, and a loop is found at both ends of its own
port, but either goes only once. So it makes no difference how often and in which
order the ports are named, while the two numbers of wires at a port count a loop
twice.
-/
namespace MixerRouting

/-- What one test finds, and another one in the rest. -/
theorem countP_or {α : Type} (xs : List α) (first second : α → Bool) :
    (xs.countP fun x => first x || second x) =
      xs.countP first + (xs.filter fun x => !first x).countP second := by
  induction xs with
  | nil => rfl
  | cons x rest ih =>
    cases hf : first x with
    | true =>
      simp only [List.countP_cons, List.filter_cons, hf, Bool.not_true, Bool.true_or, if_true,
        Bool.false_eq_true, if_false]
      omega
    | false =>
      simp only [List.countP_cons, List.filter_cons, hf, Bool.not_false, Bool.false_or, if_true,
        Bool.false_eq_true, if_false]
      omega

namespace Wiring

theorem any_touches_iff (ports : List PortId) (w : Wire) :
    ports.any w.touches = true ↔ w.src ∈ ports ∨ w.dest ∈ ports := by
  simp only [List.any_eq_true, Wire.touches, Bool.or_eq_true, decide_eq_true_iff]
  constructor
  · rintro ⟨p, hp, rfl | rfl⟩
    · exact .inl hp
    · exact .inr hp
  · rintro (h | h)
    · exact ⟨w.src, h, .inl rfl⟩
    · exact ⟨w.dest, h, .inr rfl⟩

/-- Of two removals the second finds only what the first has left. -/
theorem removeWhere_removeWhere (g : Wiring) (first second : Wire → Bool) :
    (g.removeWhere fun w => first w || second w) =
      ((g.removeWhere first).1 + ((g.removeWhere first).2.removeWhere second).1,
        ((g.removeWhere first).2.removeWhere second).2) := by
  have hfirst : g.removeWhere first = _ := removeWhere_ofList g.wires first
  have hboth : (g.removeWhere fun w => first w || second w) = _ := removeWhere_ofList g.wires _
  rw [hboth, hfirst, removeWhere_ofList, ← countP_or, List.filter_filter]
  have hkept : (fun w => !second w && !first w) = fun w => !(first w || second w) := by
    funext w
    rw [Bool.not_or, Bool.and_comm]
  rw [hkept]

/-- A removal asks only which ports are named. -/
theorem disconnectPorts_congr (g : Wiring) {ports order : List PortId}
    (h : ∀ p, p ∈ order ↔ p ∈ ports) : g.disconnectPorts order = g.disconnectPorts ports := by
  have htouched : (fun w : Wire => order.any w.touches) = fun w => ports.any w.touches := by
    funext w
    rw [Bool.eq_iff_iff, any_touches_iff, any_touches_iff, h, h]
  unfold disconnectPorts
  rw [htouched]

theorem disconnectPorts_singleton (g : Wiring) (p : PortId) :
    g.disconnectPorts [p] = g.disconnectPort p := by
  have htouched : (fun w : Wire => [p].any w.touches) = fun w => w.touches p := by
    funext w
    exact Bool.or_false _
  unfold disconnectPorts disconnectPort
  rw [htouched]

theorem wires_disconnectPorts (g : Wiring) (ports : List PortId) :
    (g.disconnectPorts ports).2.wires =
      g.wires.filter fun w => w.src ∉ ports ∧ w.dest ∉ ports := by
  apply List.filter_congr
  intro w _
  rw [Bool.eq_iff_iff, Bool.not_eq_true', ← Bool.not_eq_true, any_touches_iff, not_or,
    decide_eq_true_iff]

/-- A loop is found at both ends of its port. -/
theorem countP_touches (wires : List Wire) (p : PortId) :
    (wires.countP fun w => w.touches p) + (wires.countP fun w => w.ends = (p, p)) =
      (wires.countP fun w => w.dest = p) + wires.countP fun w => w.src = p := by
  induction wires with
  | nil => rfl
  | cons w rest ih =>
    by_cases hs : w.src = p <;> by_cases hd : w.dest = p <;>
      simp [Wire.touches, Wire.ends, hs, hd] at ih ⊢ <;>
      omega

theorem countP_ends {wires : List Wire} (hd : Unique wires) (src dest : PortId) :
    (wires.countP fun w => w.ends = (src, dest)) =
      if ((ofList wires).find? src dest).isSome then 1 else 0 := by
  have hone := countP_ends_le_one hd (src, dest)
  have hsome : ((ofList wires).find? src dest).isSome = true ↔
      0 < wires.countP fun w => w.ends = (src, dest) := by
    rw [find?, List.find?_isSome, List.countP_pos_iff]
    simp [Wire.joins_iff]
  split
  · next h =>
    have hpos := hsome.mp h
    omega
  · next h =>
    have hzero := mt hsome.mpr h
    omega

/-- How many wires go from a port. -/
theorem Reachable.disconnectPort_fst {g : Wiring} (h : g.Reachable) (p : PortId) :
    (g.disconnectPort p).1 + (if (g.find? p p).isSome then 1 else 0) =
      g.count p .source + g.count p .destination := by
  obtain ⟨hg, hd⟩ := h.eq_ofList
  have hcount := countP_touches g.wires p
  rw [countP_ends hd, ← hg] at hcount
  rw [hg, count_ofList, count_ofList, ← hg, ← List.countP_eq_length_filter,
    ← List.countP_eq_length_filter]
  have hgone : (g.disconnectPort p).1 = g.wires.countP fun w => w.touches p :=
    congrArg Prod.fst (removeWhere_ofList g.wires _)
  rw [hgone]
  exact hcount

end Wiring

namespace Desk

/-- Clears one port after the other; answers how many wires went in all. -/
def disconnectInTurn (d : Desk) : List PortId → Except Misuse (Nat × Desk)
  | [] => .ok (0, d)
  | p :: rest => do
    let (first, d) ← d.disconnectPort p
    let (later, d) ← d.disconnectInTurn rest
    return (first + later, d)

theorem disconnectPorts_of_control {d : Desk} (hc : d.rendering = false) (ports : List PortId) :
    d.disconnectPorts ports = .ok ((d.wiring.disconnectPorts ports).1,
      { d with wiring := (d.wiring.disconnectPorts ports).2 }) :=
  edit_of_control hc _ _

theorem disconnectPort_of_control {d : Desk} (hc : d.rendering = false) (p : PortId) :
    d.disconnectPort p = .ok ((d.wiring.disconnectPort p).1,
      { d with wiring := (d.wiring.disconnectPort p).2 }) :=
  edit_of_control hc _ _

theorem disconnectInTurn_eq {d : Desk} (hc : d.rendering = false) (hg : d.wiring.Reachable)
    (ports : List PortId) : d.disconnectInTurn ports = d.disconnectPorts ports := by
  induction ports generalizing d with
  | nil =>
    have hnone : d.wiring.disconnectPorts [] = (0, d.wiring) := by
      have hall : d.wiring.disconnectPorts [] = _ := Wiring.removeWhere_ofList d.wiring.wires _
      rw [hall]
      simp [← hg.eq_ofList.1]
    rw [disconnectPorts_of_control hc, hnone]
    rfl
  | cons p rest ih =>
    have hnext := ih (d := { d with wiring := (d.wiring.disconnectPort p).2 }) hc
      (.change (.disconnectPort p) hg nofun)
    have hboth := d.wiring.removeWhere_removeWhere (fun w => w.touches p)
      fun w => rest.any w.touches
    rw [disconnectInTurn, disconnectPort_of_control hc]
    simp only [bind, Except.bind, hnext, disconnectPorts_of_control hc, disconnectPorts_of_control
      (d := { d with wiring := (d.wiring.disconnectPort p).2 }) hc]
    exact congrArg (fun r : Nat × Wiring => Except.ok (r.1, { d with wiring := r.2 })) hboth.symm

/-- Clearing ports removes the wires that end at one of them, at either end, and counts each once;
the rest keeps its order, all positions are those of the new list, and none of the ports has a wire
left. Clearing the same ports one after the other, in any order and with any repeats, comes to the
same wiring and to the same number in all. A single port loses as many wires as arrive and leave
there, with its loop counted once. -/
theorem clears_ports {d : Desk} (hc : d.rendering = false) (hg : d.wiring.Reachable)
    (ports : List PortId) :
    ∃ gone g, d.disconnectPorts ports = .ok (gone, { d with wiring := g }) ∧
      g.wires = (d.wiring.wires.filter fun w => w.src ∉ ports ∧ w.dest ∉ ports) ∧
      gone + g.wires.length = d.wiring.wires.length ∧
      (∀ p side, g.positions p side = g.wires.findIdxs fun w => side.near w = p) ∧
      (∀ p ∈ ports, ∀ side, g.count p side = 0) ∧
      (∀ order : List PortId, (∀ p, p ∈ order ↔ p ∈ ports) →
        d.disconnectInTurn order = .ok (gone, { d with wiring := g })) ∧
      ∀ p, ports = [p] →
        d.disconnectPort p = .ok (gone, { d with wiring := g }) ∧
        gone + (if (d.wiring.find? p p).isSome then 1 else 0) =
          d.wiring.count p .source + d.wiring.count p .destination := by
  have hwires := d.wiring.wires_disconnectPorts ports
  refine ⟨_, _, disconnectPorts_of_control hc ports, hwires, ?_, ?_, ?_, ?_, ?_⟩
  · have hkept := List.length_filter_le (fun w => !ports.any w.touches) d.wiring.wires
    exact Nat.sub_add_cancel hkept
  · exact Wiring.positions_ofList _
  · intro p hp side
    have hcount : (d.wiring.disconnectPorts ports).2.count p side = _ :=
      Wiring.count_ofList _ p side
    rw [hcount, List.length_eq_zero_iff, List.filter_eq_nil_iff]
    intro w hw hnear
    replace hw : w ∈ (d.wiring.disconnectPorts ports).2.wires := hw
    rw [hwires, List.mem_filter, decide_eq_true_iff] at hw
    obtain rfl := of_decide_eq_true hnear
    cases side with
    | source => exact hw.2.2 hp
    | destination => exact hw.2.1 hp
  · intro order hsame
    rw [disconnectInTurn_eq hc hg, disconnectPorts_of_control hc,
      d.wiring.disconnectPorts_congr hsame]
  · rintro p rfl
    rw [d.wiring.disconnectPorts_singleton]
    exact ⟨disconnectPort_of_control hc p, hg.disconnectPort_fst p⟩

/-- A wire between two of the ports, a loop on one of them and a wire that goes nowhere near; the
ports come twice, and in another order. Then the port of the loop alone. -/
theorem clears_ports_of_loop :
    let a : PortId := ⟨.fader 1, .audio, .output, 0, .none, none⟩
    let b : PortId := ⟨.trackInput 2, .audio, .input, 0, .none, none⟩
    let c : PortId := ⟨.trackInput 3, .audio, .input, 0, .none, none⟩
    let between : Wire := ⟨a, b, 1, true, true, 0⟩
    let loop : Wire := ⟨a, a, 1, false, true, 0⟩
    let far : Wire := ⟨c, c, 2, false, false, 5⟩
    let d : Desk := ⟨false, .ofList [between, far, loop], {}, {}, {}⟩
    d.rendering = false ∧ d.wiring.Reachable ∧
      (∃ g : Wiring, g.wires = [far] ∧
        d.disconnectPorts [a, b, a] = .ok (2, { d with wiring := g }) ∧
        d.disconnectInTurn [b, b, a] = .ok (2, { d with wiring := g }) ∧
        g.count a .source = 0 ∧ g.count b .source = 0) ∧
      ∃ gone g, d.disconnectPort a = .ok (gone, { d with wiring := g }) ∧
        gone + 1 = d.wiring.count a .source + d.wiring.count a .destination := by
  intro a b c between loop far d
  have hg : d.wiring.Reachable := .change (.restore [between, far, loop]) .empty nofun
  obtain ⟨gone, g, hports, hwires, hgone, -, hnone, hturn, -⟩ :=
    clears_ports (d := d) rfl hg [a, b, a]
  obtain ⟨gone', g', -, -, -, -, -, -, hsingle⟩ := clears_ports (d := d) rfl hg [a]
  replace hwires : g.wires = [far] := hwires.trans (by decide +kernel)
  rw [hwires] at hgone
  obtain rfl : gone = 2 := Nat.succ.inj hgone
  have hloop : (d.wiring.find? a a).isSome = true := by decide +kernel
  obtain ⟨hport, hcount⟩ := hsingle a rfl
  rw [if_pos hloop] at hcount
  refine ⟨rfl, hg, ⟨g, hwires, hports, hturn _ ?_, ?_, ?_⟩, gone', g', hport, hcount⟩
  · intro p
    simp only [List.mem_cons, List.not_mem_nil, or_false]
    tauto
  · exact hnone a List.mem_cons_self .source
  · exact hnone b (List.mem_cons_of_mem _ List.mem_cons_self) .source

end Desk

end MixerRouting
