import MixerRouting.Proofs.Send.Rewiring

/-!
# Operations on different sends commute

A send rewrites the wires of its own outputs and reads no other wires. Two sends
that have no output in common therefore cannot notice which of them comes first,
even if one leads to the other's ports or both lead to the same. Only the order
of the list tells, since new wires come last.

Nothing is assumed of the outputs of one send. If they were not different, a
connection would still leave there what it leaves in an empty wiring.
-/
namespace MixerRouting

namespace Wiring

/-! ### Joining ports beside other wires -/

theorem enter_append {front wires : List Wire} {w : Wire} (h : w.ends ∉ front.map Wire.ends) :
    enter (front ++ wires) w = front ++ enter wires w := by
  have hfront : (front.findIdx? fun v => v.joins w.src w.dest) = none := by
    rw [List.findIdx?_eq_none_iff]
    intro v hv
    rw [Bool.eq_false_iff, ne_eq, Wire.joins_iff]
    exact ends_ne h hv
  unfold enter
  rw [List.findIdx?_append, hfront, Option.none_or]
  cases wires.findIdx? fun v => v.joins w.src w.dest with
  | none => exact List.append_assoc _ _ _
  | some i =>
    simp only [Option.map_some, List.set_append_right _ _ (Nat.le_add_left _ _),
      Nat.add_sub_cancel]

theorem baseOf_append {front wires : List Wire} {src dest : PortId}
    (h : (src, dest) ∉ front.map Wire.ends) :
    baseOf (front ++ wires) src dest = baseOf wires src dest := by
  have hfront : (front.find? fun v => v.joins src dest) = none := by
    rw [List.find?_eq_none]
    intro v hv
    rw [Wire.joins_iff]
    exact ends_ne h hv
  rw [baseOf, List.find?_append, hfront, Option.none_or, baseOf]

section
variable {g own : Wiring} (hg : g.Reachable) (ho : own.Reachable) {front : List Wire}
  (h : g.wires = front ++ own.wires)
include hg ho h

theorem Reachable.wires_connect_append {src : PortId} (hfree : ∀ w ∈ front, w.src ≠ src)
    (dest : PortId) (gain : Float32) (locked enabled : Bool) :
    (g.connect src dest gain locked enabled).2.wires =
      front ++ (own.connect src dest gain locked enabled).2.wires := by
  obtain ⟨hwiring, hd⟩ := hg.eq_ofList
  obtain ⟨howiring, hod⟩ := ho.eq_ofList
  have hends : (src, dest) ∉ front.map Wire.ends := by
    intro hm
    obtain ⟨w, hw, he⟩ := List.mem_map.mp hm
    exact hfree w hw (congrArg Prod.fst he)
  rw [hwiring, howiring, connect_ofList hd, connect_ofList hod, h]
  simp only [ofList_wires]
  rw [baseOf_append hends, enter_append hends]

/-- Joining ports one after the other takes no notice of wires that leave other ports. -/
theorem Reachable.wires_connectLocked_append {pairs : List (PortId × PortId)}
    (hfree : ∀ w ∈ front, w.src ∉ pairs.map Prod.fst) :
    (g.connectLocked pairs).wires = front ++ (own.connectLocked pairs).wires := by
  induction pairs generalizing g own with
  | nil => exact h
  | cons pair rest ih =>
    have hfirst : ∀ w ∈ front, w.src ≠ pair.1 :=
      fun w hw hs => hfree w hw (hs ▸ List.mem_cons_self)
    have hrest : ∀ w ∈ front, w.src ∉ rest.map Prod.fst :=
      fun w hw hs => hfree w hw (List.mem_cons_of_mem _ hs)
    exact ih (hg.connect pair.1 pair.2 1 true true) (ho.connect pair.1 pair.2 1 true true)
      (hg.wires_connect_append ho h hfirst pair.2 1 true true) hrest

end

theorem src_mem_of_connectLocked {pairs : List (PortId × PortId)} {w : Wire}
    (hw : w ∈ (Wiring.empty.connectLocked pairs).wires) : w.src ∈ pairs.map Prod.fst := by
  by_contra hs
  have hnone := Reachable.empty.outgoing_connectLocked hs
  have hleaves : w ∈ (Wiring.empty.connectLocked pairs).outgoing w.src :=
    mem_outgoing_iff.mpr ⟨hw, rfl⟩
  rw [hnone] at hleaves
  cases hleaves

/-! ### Other wires in place of those of some ports -/

/-- The wires with other ones in place of those that leave some ports; the new ones come last. The
wires stay if there are no others. -/
def rewire (ports : List PortId) (made : Option (List Wire)) (wires : List Wire) : List Wire :=
  match made with
  | some made => (wires.filter fun w => w.src ∉ ports) ++ made
  | none => wires

/-- The new wires leave the ports in question. -/
def Leave (made : Option (List Wire)) (ports : List PortId) : Prop :=
  ∀ ws ∈ made, ∀ w ∈ ws, w.src ∈ ports

theorem filter_src_rewire {ports : List PortId} {made : Option (List Wire)} (h : Leave made ports)
    {p : PortId} (hp : p ∉ ports) (wires : List Wire) :
    ((rewire ports made wires).filter fun w => w.src = p) = wires.filter fun w => w.src = p := by
  cases made with
  | none => rfl
  | some made =>
    have hnew : (made.filter fun w => w.src = p) = [] := by
      rw [List.filter_eq_nil_iff]
      intro w hw hs
      exact hp (of_decide_eq_true hs ▸ h made rfl w hw)
    rw [rewire, List.filter_append, hnew, List.append_nil, filter_src_filter hp]

theorem rewire_rewire {ports others : List PortId} {made : Option (List Wire)} {new : List Wire}
    (hnew : ∀ w ∈ new, w.src ∉ ports) (wires : List Wire) :
    rewire ports made (rewire others (some new) wires) =
      match made with
      | some made => (wires.filter fun w => w.src ∉ ports ∧ w.src ∉ others) ++ (new ++ made)
      | none => (wires.filter fun w => w.src ∉ others) ++ new := by
  cases made with
  | none => rfl
  | some made =>
    have hkept : (new.filter fun w => w.src ∉ ports) = new :=
      List.filter_eq_self.mpr fun w hw => decide_eq_true (hnew w hw)
    simp only [rewire, List.filter_append, List.filter_filter, hkept, ← Bool.decide_and,
      List.append_assoc]

/-- Rewiring different ports in either order gives the same wires. -/
theorem rewire_perm {ports others : List PortId} (apart : ∀ p ∈ ports, p ∉ others)
    {made new : Option (List Wire)} (hm : Leave made ports) (hn : Leave new others)
    (wires : List Wire) :
    (rewire ports made (rewire others new wires)).Perm
      (rewire others new (rewire ports made wires)) := by
  cases made with
  | none => exact .refl _
  | some made =>
    cases new with
    | none => exact .refl _
    | some new =>
      have hmade : ∀ w ∈ made, w.src ∉ others := fun w hw => apart _ (hm made rfl w hw)
      have hnew : ∀ w ∈ new, w.src ∉ ports :=
        fun w hw hs => apart _ hs (hn new rfl w hw)
      have hboth : (fun w : Wire => decide (w.src ∉ ports ∧ w.src ∉ others)) =
          fun w => decide (w.src ∉ others ∧ w.src ∉ ports) := by
        funext w
        rw [decide_eq_decide, and_comm]
      rw [rewire_rewire hnew, rewire_rewire hmade]
      dsimp only
      rw [hboth]
      exact List.perm_append_comm.append_left _

end Wiring

/-- A connection without a recalculation, by what the check says of the target. -/
theorem Send.connect_quiet {s : Send} {d : Desk} (hc : d.rendering = false) (target : Bundle)
    (sidechain : Bool) (accepts : Option (PortId → PortId → Bool)) :
    s.connect target { sidechain, accepts } d =
      match s.checkTarget target accepts d.registry with
      | .error e => ⟨.error (.cause e), s, d⟩
      | .ok () => ⟨.ok (), s.connected target { sidechain, accepts },
        { d with wiring := s.rewired d.wiring target }⟩ := by
  cases ht : s.checkTarget target accepts d.registry with
  | error e => exact connect_of_refused ht
  | ok => exact connect_of_control hc ht

/-- What can be done to a send without recalculating the graph. -/
inductive SendOperation where
  /-- With the check of compatibility, if there is one. -/
  | connect (target : Bundle) (sidechain : Bool) (accepts : Option (PortId → PortId → Bool))
  | disconnect

namespace SendOperation

def perform (s : Send) (d : Desk) : SendOperation → SendOutcome
  | .connect target sidechain accepts => s.connect target { sidechain, accepts } d
  | .disconnect => s.disconnect false d

/-- The wires that leave the send after the operation; none are given if the target is refused. -/
def makes? (s : Send) (r : Registry) : SendOperation → Option (List Wire)
  | .connect target _ accepts =>
    match s.checkTarget target accepts r with
    | .ok () => some (Wiring.empty.connectLocked (s.outputs.ports.zip target.ports)).wires
    | .error _ => none
  | .disconnect => some []

theorem leave_makes? (op : SendOperation) (s : Send) (r : Registry) :
    Wiring.Leave (op.makes? s r) s.outputs.ports := by
  intro made hmade w hw
  cases op with
  | connect target sidechain accepts =>
    simp only [makes?] at hmade
    split at hmade
    · cases hmade
      obtain ⟨pair, hpair, hs⟩ := List.mem_map.mp (Wiring.src_mem_of_connectLocked hw)
      exact hs ▸ (List.of_mem_zip hpair).1
    · cases hmade
  | disconnect =>
    cases hmade
    cases hw

section
variable (op : SendOperation) (s : Send) {d : Desk} (hc : d.rendering = false)
  (hg : d.wiring.Reachable)
include hc hg

/-- An operation changes the wiring only, and there the wires of its own send only. -/
theorem perform_desk :
    ∃ g, (op.perform s d).desk = { d with wiring := g } ∧ g.Reachable ∧
      g.wires = Wiring.rewire s.outputs.ports (op.makes? s d.registry) d.wiring.wires := by
  cases op with
  | connect target sidechain accepts =>
    simp only [perform, makes?, Send.connect_quiet hc]
    cases s.checkTarget target accepts d.registry with
    | error e => exact ⟨d.wiring, rfl, hg, rfl⟩
    | ok =>
      refine ⟨s.rewired d.wiring target, rfl, Send.reachable_rewired hg target, ?_⟩
      have hcleared : (s.cleared d.wiring).Reachable := hg.disconnectEach _
      have hfront : (s.cleared d.wiring).wires =
          (d.wiring.wires.filter fun w => w.src ∉ s.outputs.ports) ++ Wiring.empty.wires :=
        (s.wires_cleared hg).trans (List.append_nil _).symm
      apply hcleared.wires_connectLocked_append .empty hfront
      intro w hw hs
      obtain ⟨pair, hpair, he⟩ := List.mem_map.mp hs
      exact of_decide_eq_true (List.mem_filter.mp hw).2 (he ▸ (List.of_mem_zip hpair).1)
  | disconnect =>
    obtain ⟨t, ht, -⟩ := s.exists_quiet_disconnect hc
    refine ⟨s.cleared d.wiring, congrArg SendOutcome.desk ht, hg.disconnectEach _, ?_⟩
    exact (s.wires_cleared hg).trans (List.append_nil _).symm

/-- What an operation answers, and what becomes of its send, depends on the registry and on the
send's own wires. -/
theorem perform_congr {e : Desk} (hc' : e.rendering = false) (hg' : e.wiring.Reachable)
    (hr : e.registry = d.registry)
    (hown : ∀ p ∈ s.outputs.ports, e.wiring.outgoing p = d.wiring.outgoing p) :
    (op.perform s e).result = (op.perform s d).result ∧
      (op.perform s e).send = (op.perform s d).send := by
  cases op with
  | connect target sidechain accepts =>
    simp only [perform, Send.connect_quiet hc, Send.connect_quiet hc', hr]
    cases s.checkTarget target accepts d.registry <;> exact ⟨rfl, rfl⟩
  | disconnect =>
    have hwires : s.wiresFrom e.wiring = s.wiresFrom d.wiring := by
      rw [s.wiresFrom_of_reachable hg, s.wiresFrom_of_reachable hg']
      exact List.flatMap_congr hown
    simp only [perform]
    rw [s.disconnect_of_control hc, s.disconnect_of_control hc', hwires]
    split <;> exact ⟨rfl, rfl⟩

end

/-- Two sends that have no output in common, on the control thread, in any state and with any wires.
Whatever is done to the one and to the other, in either order both operations answer the same and
leave the same sends, the wires are the same in some order, and nothing else is different. -/
theorem perform_comm {s t : Send} {d : Desk} (hc : d.rendering = false) (hg : d.wiring.Reachable)
    (apart : ∀ p ∈ s.outputs.ports, p ∉ t.outputs.ports) (f h : SendOperation) :
    let s₁ := f.perform s d
    let t₁ := h.perform t s₁.desk
    let t₂ := h.perform t d
    let s₂ := f.perform s t₂.desk
    s₂.result = s₁.result ∧ s₂.send = s₁.send ∧ t₂.result = t₁.result ∧ t₂.send = t₁.send ∧
      s₂.desk.wiring.wires.Perm t₁.desk.wiring.wires ∧
      s₂.desk = { t₁.desk with wiring := s₂.desk.wiring } := by
  intro s₁ t₁ t₂ s₂
  obtain ⟨g₁, hd₁, hr₁, hw₁⟩ := f.perform_desk s hc hg
  obtain ⟨g₂, hd₂, hr₂, hw₂⟩ := h.perform_desk t hc hg
  have hown₂ : ∀ p ∈ s.outputs.ports, g₂.outgoing p = d.wiring.outgoing p := by
    intro p hp
    rw [Wiring.outgoing, hw₂]
    exact Wiring.filter_src_rewire (h.leave_makes? t d.registry) (apart p hp) _
  have hown₁ : ∀ p ∈ t.outputs.ports, g₁.outgoing p = d.wiring.outgoing p := by
    intro p hp
    rw [Wiring.outgoing, hw₁]
    exact Wiring.filter_src_rewire (f.leave_makes? s d.registry) (fun hs => apart p hs hp) _
  obtain ⟨g, hd, -, hw⟩ := h.perform_desk t (d := { d with wiring := g₁ }) hc hr₁
  obtain ⟨g', hd', -, hw'⟩ := f.perform_desk s (d := { d with wiring := g₂ }) hc hr₂
  obtain ⟨hresult, hsend⟩ :=
    f.perform_congr s hc hg (e := { d with wiring := g₂ }) hc hr₂ rfl hown₂
  obtain ⟨hresult', hsend'⟩ :=
    h.perform_congr t hc hg (e := { d with wiring := g₁ }) hc hr₁ rfl hown₁
  have hs₂ : s₂ = f.perform s { d with wiring := g₂ } := congrArg (f.perform s) hd₂
  have ht₁ : t₁ = h.perform t { d with wiring := g₁ } := congrArg (h.perform t) hd₁
  rw [hs₂, ht₁, hd, hd', hresult, hsend, hresult', hsend']
  refine ⟨rfl, rfl, rfl, rfl, ?_, rfl⟩
  dsimp only at hw hw' ⊢
  rw [hw, hw', hw₁, hw₂]
  exact Wiring.rewire_perm apart (f.leave_makes? s _) (h.leave_makes? t _) _

/-- Two sends lead to each other's outputs, one of them as a sidechain; the other one had wires to
two tracks. -/
theorem perform_comm_of_ring :
    let made := (Send.create 1 0 .audio {}).run {}
    let s := made.1
    let other := (Send.create 1 1 .audio {}).run made.2
    let t := other.1
    let track (n : OwnerId) : PortId := ⟨.trackInput n, .audio, .input, 0, .none, none⟩
    let wires : List (PortId × PortId) := [(t.outputs.first, track 2), (t.outputs.first, track 3),
      (track 2, s.outputs.first)]
    let d : Desk := ⟨false, Wiring.empty.connectLocked wires,
      ({} : Registry).addPorts (s.faces ++ t.faces), other.2, {}⟩
    let f : SendOperation := .connect t.outputs true none
    let h : SendOperation := .connect s.outputs false none
    let s₁ := f.perform s d
    let t₁ := h.perform t s₁.desk
    let t₂ := h.perform t d
    let s₂ := f.perform s t₂.desk
    d.rendering = false ∧ d.wiring.Reachable ∧ (∀ p ∈ s.outputs.ports, p ∉ t.outputs.ports) ∧
      s₂.result = .ok () ∧ t₁.result = .ok () ∧ s₂.send.sidechain = true ∧
      s₂.desk.wiring.wires.Perm t₁.desk.wiring.wires ∧
      s₂.desk.wiring.wires ≠ t₁.desk.wiring.wires := by
  intro made s other t track wires d f h s₁ t₁ t₂ s₂
  have hg : d.wiring.Reachable := Wiring.Reachable.empty.connectLocked wires
  have apart : ∀ p ∈ s.outputs.ports, p ∉ t.outputs.ports := by decide +kernel
  have hok : s₁.result = .ok () := by decide +kernel
  have hok' : t₂.result = .ok () := by decide +kernel
  have hflag : s₁.send.sidechain = true := by decide +kernel
  have hne : s₂.desk.wiring.wires ≠ t₁.desk.wiring.wires := by decide +kernel
  obtain ⟨hresult, hsend, hresult', -, hwires, -⟩ := perform_comm (d := d) rfl hg apart f h
  -- What the operations are has been used; from here on they are not to be run.
  clear_value f h
  exact ⟨rfl, hg, apart, hresult.trans hok, hresult'.symm.trans hok',
    (congrArg Send.sidechain hsend).trans hflag, hwires, hne⟩

end SendOperation

end MixerRouting
