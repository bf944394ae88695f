import MixerRouting.Proofs.Wiring.WireTable

/-!
# A wiring refines a table

A wiring refines a table if its wires are the entries in their order and its
indices were built from these wires. One change keeps that and answers as the
table does, hence so does every run, with any number of wirings beside each
other that take over from one another. Runs happen on a desk on the control
thread; the desk contributes the check of the thread and nothing else.
-/
namespace MixerRouting

namespace Wiring

def Refines (g : Wiring) (t : WireTable) : Prop := g = t.toWiring

theorem Refines.wires_eq {g : Wiring} {t : WireTable} (h : g.Refines t) : g.wires = t.wires := by
  rw [h, WireTable.toWiring, ofList_wires]

theorem apply_ofList_removed (t : WireTable) (doomed : PortId × PortId → Bool) :
    (t.toWiring.removeWhere fun w => doomed w.ends).map Answer.removed id =
      ((t.eraseWhere doomed).map .removed id).map id WireTable.toWiring := by
  have h := t.wires_eraseWhere doomed
  rw [WireTable.toWiring, removeWhere_ofList, Prod.map_map]
  exact congrArg (Prod.map Answer.removed ofList) h.symm

/-- One change of a wiring answers as the same change of the table does and refines its result.
The wirings that a reset may take over are given as a family `gs` that refines the tables `ts`. -/
theorem apply_refines {ρ : Type} {gs : ρ → Wiring} {ts : ρ → WireTable} {t : WireTable}
    (c : Change ρ) (hs : ∀ r, c.source? = some r → (gs r).Refines (ts r)) :
    t.toWiring.apply (c.map gs) = (t.apply (c.map ts)).map id WireTable.toWiring := by
  have hd := t.unique_wires
  cases c with
  | connect src dest gain locked enabled =>
    have hb : baseOf t.wires src dest = ((t.get? (src, dest)).map WireState.base).getD 0 := by
      rw [baseOf, WireTable.find?_joins_wires, Option.map_map]
      rfl
    simp only [Change.map, apply, WireTable.apply, WireTable.toWiring, connect_ofList hd, hb,
      Prod.map, id, WireTable.wires_insert]
    rfl
  | disconnect src dest =>
    simp only [Change.map, apply, WireTable.apply, WireTable.toWiring, disconnect_ofList hd,
      Prod.map, id, WireTable.any_joins_wires, WireTable.wires_erase]
  | disconnectPort p => exact apply_ofList_removed t fun e => e.1 = p || e.2 = p
  | disconnectPorts ports =>
    exact apply_ofList_removed t fun e => ports.any fun p => e.1 = p || e.2 = p
  | replace before after =>
    simp only [Change.map, apply, WireTable.apply, WireTable.toWiring, replace_ofList hd,
      WireTable.map_ends_wires, ← Table.contains_iff]
    split
    · simp only [Prod.map, id, WireTable.toWiring, WireTable.wires_rename]
    · rfl
  | reset other =>
    cases other with
    | none => rfl
    | some r =>
      have hr : (gs r).wires = (ts r).wires := (hs r rfl).wires_eq
      simp only [Change.map, apply, WireTable.apply, WireTable.toWiring, reset, Option.map_some,
        Option.getD_some, hr, Prod.map, id]
  | restore records =>
    simp only [Change.map, apply, WireTable.apply, WireTable.toWiring, restore, Prod.map, id,
      WireTable.wires_restore, WireTable.wires_empty]
  | reindex => rfl
  | setBase src dest value =>
    simp only [Change.map, apply, WireTable.apply, WireTable.toWiring, setBase_ofList hd,
      Prod.map, id, WireTable.any_joins_wires, WireTable.wires_modify_base]

/-- Every reachable wiring refines a table. -/
theorem Reachable.refines {g : Wiring} (h : g.Reachable) : ∃ t, g.Refines t := by
  induction h with
  | empty => exact ⟨∅, rfl⟩
  | @change g c _ _ ih hs =>
    obtain ⟨t, rfl⟩ := ih
    -- A reset takes over at most one wiring, and only for that one a table is needed.
    choose! ts hts using hs
    have hstep : t.toWiring.apply (c.map id) = (t.apply (c.map ts)).map id WireTable.toWiring :=
      apply_refines c hts
    rw [Change.map_id] at hstep
    exact ⟨_, congrArg Prod.snd hstep⟩

end Wiring

/-! ### Runs

Wirings stand beside each other under numbers. A run is a list of changes, each
with the number of the wiring that it is made to; a reset names what it takes
over by its number. The trace of a run gives for each step the answer and the
wires afterwards. -/

def Desk.run (d : Desk) : (Nat → Wiring) → List (Nat × Change Nat) →
    Except Misuse (List (Answer × List Wire) × (Nat → Wiring))
  | gs, [] => .ok ([], gs)
  | gs, (m, c) :: rest => do
    let (answer, after) ← { d with wiring := gs m }.perform (c.map gs)
    let (trace, gs) ← d.run (Function.update gs m after.wiring) rest
    return ((answer, after.wiring.wires) :: trace, gs)

def WireTable.run : (Nat → WireTable) → List (Nat × Change Nat) →
    List (Answer × List Wire) × (Nat → WireTable)
  | ts, [] => ([], ts)
  | ts, (m, c) :: rest =>
    let (answer, after) := (ts m).apply (c.map ts)
    let (trace, ts) := run (Function.update ts m after) rest
    ((answer, after.wires) :: trace, ts)

theorem WireTable.unique_run (ts : Nat → WireTable) (script : List (Nat × Change Nat)) :
    ∀ step ∈ (run ts script).1, Wiring.Unique step.2 := by
  induction script generalizing ts with
  | nil => simp [run]
  | cons first rest ih =>
    obtain ⟨m, c⟩ := first
    intro step hs
    rcases List.mem_cons.mp hs with rfl | hs
    · exact unique_wires _
    · exact ih _ step hs

theorem Desk.run_refines {d : Desk} (hc : d.rendering = false) {gs : Nat → Wiring}
    {ts : Nat → WireTable} (h : ∀ m, (gs m).Refines (ts m)) (script : List (Nat × Change Nat)) :
    d.run gs script =
      .ok ((WireTable.run ts script).1, fun m => ((WireTable.run ts script).2 m).toWiring) := by
  induction script generalizing gs ts with
  | nil =>
    obtain rfl : gs = fun m => (ts m).toWiring := funext h
    rfl
  | cons first rest ih =>
    obtain ⟨m, c⟩ := first
    have hstep : (gs m).apply (c.map gs) = ((ts m).apply (c.map ts)).map id WireTable.toWiring := by
      rw [h m]
      exact Wiring.apply_refines c fun r _ => h r
    have hnext : ∀ k, (Function.update gs m ((gs m).apply (c.map gs)).2 k).Refines
        (Function.update ts m ((ts m).apply (c.map ts)).2 k) := by
      intro k
      by_cases hk : k = m
      · subst hk
        simp only [Function.update_self]
        exact congrArg Prod.snd hstep
      · simp only [Function.update_of_ne hk]
        exact h k
    have hd : { d with wiring := gs m }.rendering = false := hc
    have hrest := ih hnext
    simp only [run, perform_of_control hd, bind, Except.bind, hrest]
    rw [hstep]
    rfl

/-- On the control thread every run that starts from empty wirings succeeds and gives the trace of
the reference: each step has the answer of the table, and the wires afterwards are its entries in
its order, never two for one pair of ports. In the end every wiring has the wires of its table. -/
theorem Desk.run_eq_table {d : Desk} (hc : d.rendering = false) (script : List (Nat × Change Nat)) :
    ∃ trace gs, d.run (fun _ => .empty) script = .ok (trace, gs) ∧
      trace = (WireTable.run (fun _ => ∅) script).1 ∧
      (∀ m, (gs m).wires = WireTable.wires ((WireTable.run (fun _ => ∅) script).2 m)) ∧
      ∀ step ∈ trace, Wiring.Unique step.2 := by
  have h : ∀ m, ((fun _ => .empty : Nat → Wiring) m).Refines ((fun _ => ∅ : Nat → WireTable) m) :=
    fun _ => rfl
  refine ⟨_, _, Desk.run_refines hc h script, rfl, ?_, WireTable.unique_run _ script⟩
  intro m
  exact Wiring.ofList_wires _

/-- A loop on one port, a pair that is restored twice, a wiring that takes over another one, and a
wire that takes the place of two. -/
theorem Desk.run_eq_table_of_loop_and_duplicates :
    let a : PortId := ⟨.fader 1, .audio, .output, 0, .none, none⟩
    let b : PortId := ⟨.trackInput 2, .audio, .input, 0, .none, none⟩
    let script : List (Nat × Change Nat) :=
      [(0, .connect a a 1 true true), (0, .setBase a a 2),
        (1, .restore [⟨a, b, 1, false, true, 0⟩, ⟨a, a, 1, false, true, 0⟩,
          ⟨a, b, 2, true, true, 1⟩]),
        (0, .reset (some 1)), (0, .replace ⟨a, a, 1, false, true, 0⟩ ⟨a, b, 3, true, false, 0⟩),
        (0, .disconnectPort a)]
    ∃ trace gs,
      (⟨false, .empty, {}, {}, {}⟩ : Desk).run (fun _ => .empty) script = .ok (trace, gs) ∧
      trace =
        [(.wire ⟨a, a, 1, true, true, 0⟩, [⟨a, a, 1, true, true, 0⟩]),
          (.found true, [⟨a, a, 1, true, true, 2⟩]),
          (.done, [⟨a, b, 2, true, true, 1⟩, ⟨a, a, 1, false, true, 0⟩]),
          (.done, [⟨a, b, 2, true, true, 1⟩, ⟨a, a, 1, false, true, 0⟩]),
          (.found true, [⟨a, b, 3, true, false, 0⟩]),
          (.removed 1, [])] := by
  intro a b script
  obtain ⟨trace, gs, hrun, htrace, -, -⟩ :=
    Desk.run_eq_table (d := ⟨false, .empty, {}, {}, {}⟩) rfl script
  exact ⟨trace, gs, hrun, htrace⟩

end MixerRouting
