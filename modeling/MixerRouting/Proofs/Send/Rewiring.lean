import MixerRouting.Channel.Basic
import MixerRouting.Proofs.Wiring.Joining

/-!
# What sends do to the wires

Connecting, disconnecting and tapping on the control thread, each as one change
of the list of wires. A send works on the wires of its own outputs and a tap on
those of the tap; all other wires stay, in their order. Whether the graph is
recalculated at the end, and whether that succeeds, makes no difference to the
send and to the wires.
-/
namespace MixerRouting

theorem Bundle.length_ports {a b : Bundle} (h : a.signal = b.signal) :
    a.ports.length = b.ports.length := by
  cases a <;> cases b <;> first | rfl | cases h

namespace Send

theorem signal_outputs (s : Send) : s.outputs.signal = s.signal := by
  unfold outputs signal
  cases s.lines <;> rfl

theorem finish_send (s : Send) (d : Desk) (recalc : Bool) : (s.finish d recalc).send = s := by
  unfold finish
  split
  · split <;> rfl
  · rfl

theorem finish_wiring (s : Send) (d : Desk) (recalc : Bool) :
    (s.finish d recalc).desk.wiring = d.wiring := by
  unfold finish
  split
  · split
    · next h =>
      obtain ⟨-, -, recalcs, rfl⟩ := Desk.recalc_eq_ok h
      rfl
    · rfl
  · rfl

theorem wiresFrom_of_reachable (s : Send) {g : Wiring} (h : g.Reachable) :
    s.wiresFrom g = s.outputs.ports.flatMap g.outgoing := by
  unfold wiresFrom
  congr 1
  funext p
  exact h.neighbours_destination p

theorem mem_wiresFrom_iff (s : Send) {g : Wiring} (h : g.Reachable) {w : Wire} :
    w ∈ s.wiresFrom g ↔ w ∈ g.wires ∧ w.src ∈ s.outputs.ports := by
  rw [s.wiresFrom_of_reachable h, List.mem_flatMap]
  simp only [Wiring.mem_outgoing_iff]
  constructor
  · rintro ⟨p, hp, hw, rfl⟩
    exact ⟨hw, hp⟩
  · rintro ⟨hw, hs⟩
    exact ⟨w.src, hs, hw, rfl⟩

/-! ### Disconnecting -/

/-- The wiring without the wires that leave the send. -/
def cleared (s : Send) (g : Wiring) : Wiring := g.disconnectEach (s.wiresFrom g)

theorem wires_cleared (s : Send) {g : Wiring} (h : g.Reachable) :
    (s.cleared g).wires = g.wires.filter fun w => w.src ∉ s.outputs.ports := by
  rw [cleared, h.wires_disconnectEach]
  apply List.filter_congr
  intro w hw
  rw [decide_eq_decide, not_iff_not, List.mem_map]
  constructor
  · rintro ⟨v, hv, he⟩
    rw [← Wire.src_of_ends he]
    exact ((s.mem_wiresFrom_iff h).mp hv).2
  · intro hs
    exact ⟨w, (s.mem_wiresFrom_iff h).mpr ⟨hw, hs⟩, rfl⟩

theorem outgoing_cleared (s : Send) {g : Wiring} (h : g.Reachable) (p : PortId) :
    (s.cleared g).outgoing p = if p ∈ s.outputs.ports then [] else g.outgoing p := by
  rw [Wiring.outgoing, s.wires_cleared h]
  split
  · next hp =>
    apply List.filter_eq_nil_iff.mpr
    intro w hw hs
    exact of_decide_eq_true (List.mem_filter.mp hw).2 (of_decide_eq_true hs ▸ hp)
  · next hp => exact Wiring.filter_src_filter hp _

/-- Disconnecting is refused while rendering if there are wires. Otherwise only a send that is off
already is left as it is. -/
theorem disconnect_eq (s : Send) (d : Desk) (recalc : Bool) :
    s.disconnect recalc d =
      if d.rendering && !(s.wiresFrom d.wiring).isEmpty then
        ⟨.error (.misuse (.whileRendering .disconnect)), s, d⟩
      else if !s.isOn && (s.wiresFrom d.wiring).isEmpty then
        ⟨.ok (), s, { d with wiring := s.cleared d.wiring }⟩
      else s.switchedOff.finish { d with wiring := s.cleared d.wiring } recalc := by
  simp only [disconnect, Desk.disconnectEach_eq]
  cases hnone : (s.wiresFrom d.wiring).isEmpty with
  | true =>
    have hsame : s.cleared d.wiring = d.wiring := by
      rw [cleared, List.isEmpty_iff.mp hnone]
      rfl
    simp only [hsame, Bool.not_true, Bool.and_false, Bool.false_eq_true, if_false]
    rw [List.isEmpty_iff.mp hnone]
    rfl
  | false =>
    cases d.rendering <;> simp only [Bool.and_false, Bool.not_false, Bool.and_true] <;> rfl

theorem disconnect_of_control (s : Send) {d : Desk} (hc : d.rendering = false) (recalc : Bool) :
    s.disconnect recalc d =
      if !s.isOn && (s.wiresFrom d.wiring).isEmpty then
        ⟨.ok (), s, { d with wiring := s.cleared d.wiring }⟩
      else s.switchedOff.finish { d with wiring := s.cleared d.wiring } recalc := by
  rw [disconnect_eq, hc]
  rfl

/-- Disconnecting without a recalculation: whether the send was off before does not show in the
wires. -/
theorem exists_quiet_disconnect (s : Send) {d : Desk} (hc : d.rendering = false) :
    ∃ t, s.disconnect false d = ⟨.ok (), t, { d with wiring := s.cleared d.wiring }⟩ ∧
      (t = s ∨ t = s.switchedOff) := by
  rw [s.disconnect_of_control hc]
  split
  · exact ⟨s, rfl, .inl rfl⟩
  · exact ⟨s.switchedOff, rfl, .inr rfl⟩

/-! ### Connecting -/

/-- The wiring with the send's wires led to a target. -/
def rewired (s : Send) (g : Wiring) (target : Bundle) : Wiring :=
  (s.cleared g).connectLocked (s.outputs.ports.zip target.ports)

/-- The send as it is after it was connected. -/
def connected (s : Send) (target : Bundle) (options : ConnectOptions) : Send :=
  s.switchedOn (options.sidechain && target.signal = .audio)

theorem signal_of_checkTarget {s : Send} {target : Bundle}
    {accepts : Option (PortId → PortId → Bool)} {registry : Registry}
    (h : s.checkTarget target accepts registry = .ok ()) : target.signal = s.signal := by
  by_contra hne
  rw [checkTarget, if_pos hne] at h
  cases h

theorem map_fst_zip_outputs {s : Send} {target : Bundle} (h : target.signal = s.signal) :
    (s.outputs.ports.zip target.ports).map Prod.fst = s.outputs.ports :=
  List.map_fst_zip (Nat.le_of_eq (Bundle.length_ports (s.signal_outputs.trans h.symm)))

theorem reachable_rewired {s : Send} {g : Wiring} (h : g.Reachable) (target : Bundle) :
    (s.rewired g target).Reachable :=
  (h.disconnectEach _).connectLocked _

/-- The wires that left the send are gone, and one from each output comes last. -/
theorem wires_rewired {s : Send} {g : Wiring} (h : g.Reachable) (hn : s.outputs.ports.Nodup)
    {target : Bundle} (ht : target.signal = s.signal) :
    (s.rewired g target).wires = (g.wires.filter fun w => w.src ∉ s.outputs.ports) ++
      (s.outputs.ports.zip target.ports).map Wiring.lockedWire := by
  have hcleared := s.wires_cleared h
  have hr : (s.cleared g).Reachable := h.disconnectEach _
  have hends := map_fst_zip_outputs ht
  have hdistinct : ((s.outputs.ports.zip target.ports).map Prod.fst).Nodup := by
    rw [hends]
    exact hn
  have hfree : ∀ w ∈ (s.cleared g).wires,
      w.src ∉ (s.outputs.ports.zip target.ports).map Prod.fst := by
    intro w hw
    rw [hcleared] at hw
    rw [hends]
    exact of_decide_eq_true (List.mem_filter.mp hw).2
  rw [rewired, hr.wires_connectLocked hdistinct hfree, hcleared]

/-- Wires that leave other ports are not touched. -/
theorem outgoing_rewired_of_ne {s : Send} {g : Wiring} (h : g.Reachable) (target : Bundle)
    {p : PortId} (hp : p ∉ s.outputs.ports) : (s.rewired g target).outgoing p = g.outgoing p := by
  have hr : (s.cleared g).Reachable := h.disconnectEach _
  have hpairs : p ∉ (s.outputs.ports.zip target.ports).map Prod.fst := by
    intro hm
    obtain ⟨pair, hpair, rfl⟩ := List.mem_map.mp hm
    exact hp (List.of_mem_zip hpair).1
  rw [rewired, hr.outgoing_connectLocked hpairs, s.outgoing_cleared h, if_neg hp]

theorem outgoing_rewired {s : Send} {g : Wiring} (h : g.Reachable) (hn : s.outputs.ports.Nodup)
    {target : Bundle} (ht : target.signal = s.signal) {pair : PortId × PortId}
    (hp : pair ∈ s.outputs.ports.zip target.ports) :
    (s.rewired g target).outgoing pair.1 = [Wiring.lockedWire pair] := by
  have hold : (s.cleared g).outgoing pair.1 = [] :=
    (s.outgoing_cleared h pair.1).trans (if_pos (List.of_mem_zip hp).1)
  have hdistinct : ((s.outputs.ports.zip target.ports).map Prod.fst).Nodup := by
    rw [map_fst_zip_outputs ht]
    exact hn
  rw [Wiring.outgoing, wires_rewired h hn ht, ← s.wires_cleared h, List.filter_append,
    ← Wiring.outgoing, hold, List.nil_append, List.filter_map]
  exact congrArg _ (Keyed.filter_eq_singleton hdistinct hp)

theorem connect_of_control {s : Send} {d : Desk} (hc : d.rendering = false) {target : Bundle}
    {options : ConnectOptions} (ht : s.checkTarget target options.accepts d.registry = .ok ()) :
    s.connect target options d =
      (s.connected target options).finish { d with wiring := s.rewired d.wiring target }
        options.recalc := by
  obtain ⟨t, hcleared, hon⟩ := s.exists_quiet_disconnect hc
  have hmade : ({ d with wiring := s.cleared d.wiring } : Desk).connectLocked
      (s.outputs.ports.zip target.ports) = .ok { d with wiring := s.rewired d.wiring target } :=
    Desk.connectLocked_of_control (d := { d with wiring := s.cleared d.wiring }) hc _
  have hconnected : t.switchedOn (options.sidechain && target.signal = .audio) =
      s.connected target options := by
    rcases hon with rfl | rfl <;> rfl
  unfold connect
  simp only [ht, hcleared, hmade, hconnected]

/-- A refused target changes nothing. -/
theorem connect_of_refused {s : Send} {d : Desk} {target : Bundle} {options : ConnectOptions}
    {e : SendError} (ht : s.checkTarget target options.accepts d.registry = .error e) :
    s.connect target options d = ⟨.error (.cause e), s, d⟩ := by
  unfold connect
  rw [ht]

/-! ### Tapping -/

/-- A tap makes wires from its own ports only. -/
theorem connectToTap_eq_ok (s : Send) {d d' : Desk} (h : d.wiring.Reachable)
    {prefader fader : Bundle} (ht : s.connectToTap prefader fader d = .ok d') :
    ∃ g, d' = { d with wiring := g } ∧ g.Reachable ∧
      ∀ p ∉ prefader.ports ++ fader.ports, g.outgoing p = d.wiring.outgoing p := by
  unfold connectToTap at ht
  generalize htap : (if s.isPrefader then prefader else fader) = tap at ht
  have hsub : tap.ports ⊆ prefader.ports ++ fader.ports := by
    rw [← htap]
    split
    · exact List.subset_append_left _ _
    · exact List.subset_append_right _ _
  by_cases hs : tap.signal = s.signal
  · simp only [hs, if_true, Desk.connectLocked_eq] at ht
    split at ht
    · cases ht
    · refine ⟨_, (Except.ok.inj ht).symm, h.connectLocked _, ?_⟩
      intro p hp
      apply h.outgoing_connectLocked
      intro hm
      obtain ⟨pair, hpair, rfl⟩ := List.mem_map.mp hm
      exact hp (hsub (List.of_mem_zip hpair).1)
  · simp only [hs, if_false] at ht
    cases ht

end Send

/-- Tapping the sends of a channel makes wires from its taps only. -/
theorem Channel.connectSends_eq_ok (c : Channel) {d d' : Desk} (h : d.wiring.Reachable)
    (ht : c.connectSends d = .ok d') :
    ∃ g, d' = { d with wiring := g } ∧ g.Reachable ∧
      ∀ p ∉ c.prefader.ids.ports ++ c.fader.ids.ports, g.outgoing p = d.wiring.outgoing p := by
  unfold connectSends at ht
  generalize c.sends = sends at ht
  induction sends generalizing d with
  | nil => exact ⟨d.wiring, (Except.ok.inj ht).symm, h, fun _ _ => rfl⟩
  | cons s rest ih =>
    rw [List.foldlM_cons] at ht
    obtain ⟨d₁, hfirst, hrest⟩ := exists_of_bind_eq_ok ht
    obtain ⟨g₁, rfl, hr₁, hsame₁⟩ := s.connectToTap_eq_ok h hfirst
    obtain ⟨g, hg, hr, hsame⟩ := ih (d := { d with wiring := g₁ }) hr₁ hrest
    refine ⟨g, hg, hr, ?_⟩
    intro p hp
    rw [hsame p hp]
    exact hsame₁ p hp

end MixerRouting
