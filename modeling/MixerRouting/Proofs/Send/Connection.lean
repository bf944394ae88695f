import MixerRouting.Proofs.Send.Rewiring
import MixerRouting.Proofs.Send.Views

/-!
# What a connection leaves behind

Whatever state a send is in when it is connected, a connection that succeeds
leaves the same: its outputs lead to the target and nowhere else, all other
wires are as they were, and if the graph was recalculated both views of the
send follow the plugin behind the target.
-/
namespace MixerRouting

theorem Bundle.eq_of_ports {a b : Bundle} (hs : a.signal = b.signal) (hp : a.ports = b.ports) :
    a = b := by
  cases a with
  | stereo l r =>
    cases b with
    | stereo l' r' =>
      obtain ⟨rfl, hr⟩ := List.cons.inj hp
      rw [List.singleton_inj.mp hr]
    | midi p => cases hs
  | midi p =>
    cases b with
    | stereo l r => cases hs
    | midi p' => rw [List.singleton_inj.mp hp]

theorem Bundle.ports_eq (b : Bundle) : b.ports = b.first :: b.ports.tail := by
  cases b <;> rfl

theorem Wiring.isSome_find?_iff (g : Wiring) (src dest : PortId) :
    (g.find? src dest).isSome = true ↔ ∃ w ∈ g.outgoing src, w.dest = dest := by
  rw [Wiring.find?, List.find?_isSome]
  constructor
  · rintro ⟨w, hw, hj⟩
    obtain ⟨rfl, hd⟩ := Prod.mk.inj ((w.joins_iff src dest).mp hj)
    exact ⟨w, mem_outgoing_iff.mpr ⟨hw, rfl⟩, hd⟩
  · rintro ⟨w, hw, rfl⟩
    obtain ⟨hm, rfl⟩ := mem_outgoing_iff.mp hw
    exact ⟨w, hm, (w.joins_iff w.src w.dest).mpr rfl⟩

namespace Registry

/-- A port that resolves is reached unless its plugin has come to be marked as failed. -/
theorem reaches_flip_iff {r : Registry} {p : PortId} (h : r.flaw? p = none)
    (flips : List (PluginHandle × Bool)) :
    (r.flip flips).reaches p = true ↔
      ∀ plugin, (r.flip flips).pluginOf p = some plugin → plugin.failed = false := by
  unfold reaches pluginOf hostOf plugin?
  rw [plugins_flip]
  cases hid : p.owner.plugin? with
  | none => simp
  | some id =>
    obtain ⟨handle, plugin, hh, hd⟩ := plugin_of_no_flaw h hid
    have hlt : handle.index < r.descriptors.length := (List.getElem?_eq_some_iff.mp hd).1
    rw [← length_descriptors_flip r flips] at hlt
    simp [hh, descriptor?, hlt]

end Registry

namespace Send

theorem zip_outputs {s : Send} {target : Bundle} :
    s.outputs.ports.zip target.ports =
      (s.outputs.first, target.first) :: s.outputs.ports.tail.zip target.ports.tail := by
  rw [s.outputs.ports_eq, target.ports_eq]
  rfl

theorem rendering_disconnect (s : Send) (d : Desk) :
    (s.disconnect false d).desk.rendering = d.rendering := by
  rw [disconnect_eq]
  split
  · rfl
  · split <;> rfl

section
variable {s : Send} {d : Desk} {target : Bundle} {options : ConnectOptions}
  (h : (s.connect target options d).result = .ok ())
include h

theorem checkTarget_of_connect : s.checkTarget target options.accepts d.registry = .ok () := by
  unfold connect at h
  split at h
  · cases h
  · next ht => exact ht

/-- No connection is made while rendering. -/
theorem control_of_connect : d.rendering = false := by
  by_contra hr
  rw [Bool.not_eq_false] at hr
  have ht := checkTarget_of_connect h
  have hrefused : (s.disconnect false d).desk.connectLocked (s.outputs.ports.zip target.ports) =
      .error (.whileRendering .connect) := by
    rw [Desk.connectLocked_eq, rendering_disconnect, hr, zip_outputs]
    rfl
  simp only [connect, ht, hrefused] at h
  split at h
  · next hcleared =>
    rw [hcleared] at h
    cases h
  · cases h

end

/-- One wire leaves each output, and it leads to the port of the target in the same place. -/
structure LeadsTo (s : Send) (g : Wiring) (target : Bundle) : Prop where
  signal : target.signal = s.signal
  wire : ∀ pair ∈ s.outputs.ports.zip target.ports,
    ∃ w, g.outgoing pair.1 = [w] ∧ w.dest = pair.2

/-- A send whose outputs lead to one target is connected to no other. -/
theorem LeadsTo.isConnectedTo_iff {s : Send} {g : Wiring} {target : Bundle}
    (h : s.LeadsTo g target) (hon : s.isOn = true) (t : Bundle) :
    s.isConnectedTo g t = true ↔ t = target := by
  unfold isConnectedTo
  rw [hon, Bool.true_and, Bool.and_eq_true, decide_eq_true_iff, List.all_eq_true]
  constructor
  · rintro ⟨hs, hall⟩
    have hsignal : t.signal = target.signal := hs.symm.trans h.signal.symm
    apply Bundle.eq_of_ports hsignal
    apply List.ext_getElem (Bundle.length_ports hsignal)
    intro i hi hi'
    have ho : i < s.outputs.ports.length := by
      rw [Bundle.length_ports (s.signal_outputs.trans hs)]
      exact hi
    have hpair : ∀ (b : Bundle) (hb : i < b.ports.length),
        (s.outputs.ports[i], b.ports[i]) ∈ s.outputs.ports.zip b.ports := by
      intro b hb
      have hz : i < (s.outputs.ports.zip b.ports).length := by
        rw [List.length_zip]
        exact Nat.lt_min.mpr ⟨ho, hb⟩
      rw [← List.getElem_zip (h := hz)]
      exact List.getElem_mem hz
    obtain ⟨w, hw, hd⟩ := (g.isSome_find?_iff _ _).mp (hall _ (hpair t hi))
    obtain ⟨v, hv, htarget⟩ := h.wire _ (hpair target hi')
    rw [hv, List.mem_singleton] at hw
    rw [hw] at hd
    exact hd.symm.trans htarget
  · rintro rfl
    refine ⟨h.signal.symm, ?_⟩
    intro pair hpair
    obtain ⟨w, hw, hd⟩ := h.wire pair hpair
    exact (g.isSome_find?_iff _ _).mpr ⟨w, hw ▸ List.mem_singleton_self w, hd⟩

theorem isConnectedTo_iff {s : Send} {g : Wiring} {target : Bundle} (hon : s.isOn = true)
    (ht : target.signal = s.signal)
    (hled : ∀ pair ∈ s.outputs.ports.zip target.ports, g.outgoing pair.1 = [Wiring.lockedWire pair])
    (t : Bundle) : s.isConnectedTo g t = true ↔ t = target := by
  have hto : s.LeadsTo g target := ⟨ht, fun pair hpair => ⟨_, hled pair hpair, rfl⟩⟩
  exact hto.isConnectedTo_iff hon t

section
variable {s : Send} {d d' : Desk} {soft : Bool} (hg : d.wiring.Reachable) (hs : s.Lends d)
  (hd : d.recalc soft = .ok d') {w : Wire} (hone : d.wiring.outgoing s.outputs.first = [w])
  (hw : w.enabled = true)
include hg hs hd hone hw

/-- The published destination of a send with one wire at its first output. -/
theorem soleDestination_of_recalc :
    (d'.board.read s.primaryOutputSlot).soleDestination =
      some (Wiring.routeTo d.registry w.dest w) := by
  obtain ⟨-, -, recalcs, rfl⟩ := Desk.recalc_eq_ok hd
  obtain ⟨label, hp⟩ := hs.registered
  rw [Wiring.read_published hp hs.handedOut hs.alone, Wiring.routesOf, hg.neighbours_destination,
    hone, List.filter_singleton, hw]
  rfl

/-- In both views such a send takes part, if it is on, unless the plugin at the other end failed. -/
theorem isActive_of_recalc (hon : s.isOn = true) (rendering : Bool)
    (flips : List (PluginHandle × Bool)) :
    s.isActive { d' with rendering, registry := d'.registry.flip flips } = true ↔
      ∀ plugin, (d.registry.flip flips).pluginOf w.dest = some plugin → plugin.failed = false := by
  have hactive : s.isActive { d' with rendering, registry := d'.registry.flip flips } =
      (d.registry.flip flips).reaches w.dest := by
    cases rendering with
    | false =>
      have hcontrol := isActive_control (s := s) hg hd s.enabled.value flips
      rw [hone] at hcontrol
      exact hcontrol.trans (congrArg (· && _) hon)
    | true =>
      have hrender := isActive_render hg hs hd s.enabled.value flips
      rw [hone, List.filter_singleton, hw] at hrender
      exact hrender.trans (congrArg (· && _) hon)
  obtain ⟨-, hv, -⟩ := Desk.recalc_eq_ok hd
  have hmem : w ∈ d.wiring.wires := List.mem_of_mem_filter (hone ▸ List.mem_singleton_self w)
  rw [hactive]
  exact Registry.reaches_flip_iff (Wiring.flaw?_of_verify hv (Wiring.dest_mem_endpoints hmem)) flips

end

/-- A connection that succeeds, from any state of the wires between whatever ports, and of a send
with different outputs, as every send is made with (`Fresh.ownsOutputs`). The wires that left the
outputs are gone, the others keep their order, and one locked wire from each output to its port of
the target comes last. The switch is on, the flag is as it was asked for, and nothing else about
the send has changed. If the graph was recalculated, the target's first port is the published
destination, and both views say yes unless the plugin of that port is marked as failed, now or
later. -/
theorem connect_ok {s t : Send} {d d' : Desk} (hg : d.wiring.Reachable)
    (hn : s.outputs.ports.Nodup) {target : Bundle} {options : ConnectOptions}
    (h : s.connect target options d = ⟨.ok (), t, d'⟩) :
    target.signal = s.signal ∧
      d'.wiring.wires = (d.wiring.wires.filter fun w => w.src ∉ s.outputs.ports) ++
        (s.outputs.ports.zip target.ports).map Wiring.lockedWire ∧
      t = { s with
        enabled := t.enabled, sidechain := options.sidechain && target.signal = .audio } ∧
      t.isOn = true ∧
      (∀ b, t.isConnectedTo d'.wiring b = true ↔ b = target) ∧
      (options.recalc = true → s.Lends d →
        (d'.board.read s.primaryOutputSlot).soleDestination =
          some ⟨target.first, 1, d.registry.hostOf target.first⟩ ∧
        ∀ rendering flips,
          let registry := d.registry.flip flips
          t.isActive { d' with rendering, registry } = true ↔
            ∀ plugin, registry.pluginOf target.first = some plugin → plugin.failed = false) := by
  have hresult : (s.connect target options d).result = .ok () := by rw [h]
  have hc := control_of_connect hresult
  have hok := checkTarget_of_connect hresult
  have ht := signal_of_checkTarget hok
  rw [connect_of_control hc hok] at h
  have hsend : t = s.connected target options := by
    have hkept := finish_send (s.connected target options)
      { d with wiring := s.rewired d.wiring target } options.recalc
    rwa [h] at hkept
  have hwiring : d'.wiring = s.rewired d.wiring target := by
    have hkept := finish_wiring (s.connected target options)
      { d with wiring := s.rewired d.wiring target } options.recalc
    rwa [h] at hkept
  have hr : (s.rewired d.wiring target).Reachable := reachable_rewired hg target
  have hled : ∀ pair ∈ s.outputs.ports.zip target.ports,
      (s.rewired d.wiring target).outgoing pair.1 = [Wiring.lockedWire pair] :=
    fun pair hpair => outgoing_rewired hg hn ht hpair
  refine ⟨ht, ?_, ?_, ?_, ?_, ?_⟩
  · rw [hwiring]
    exact wires_rewired hg hn ht
  · rw [hsend]
    rfl
  · rw [hsend]
    exact s.isOn_switchedOn _
  · rw [hsend, hwiring]
    exact isConnectedTo_iff (s.isOn_switchedOn _) ht hled
  · intro hrecalc hs
    have hfirst : (s.outputs.first, target.first) ∈ s.outputs.ports.zip target.ports := by
      rw [zip_outputs]
      exact List.mem_cons_self
    have hone : (s.rewired d.wiring target).outgoing s.outputs.first =
        [Wiring.lockedWire (s.outputs.first, target.first)] := hled _ hfirst
    have hlends : (s.connected target options).Lends
        { d with wiring := s.rewired d.wiring target } :=
      ⟨hs.registered, hs.handedOut, hs.alone⟩
    rw [hrecalc, finish, if_pos rfl] at h
    cases hd : ({ d with wiring := s.rewired d.wiring target } : Desk).recalc false with
    | error e =>
      rw [hd] at h
      cases h
    | ok published =>
      rw [hd] at h
      cases h
      refine ⟨soleDestination_of_recalc hr hlends hd hone rfl, ?_⟩
      obtain ⟨-, -, recalcs, rfl⟩ := Desk.recalc_eq_ok hd
      exact isActive_of_recalc hr hlends hd hone rfl (s.isOn_switchedOn _)

/-- A send that is off has wires to itself, to the target and to a track, among the wire of another
fader. It is connected to a plugin, which fails afterwards. -/
theorem connect_ok_of_stale :
    let made := (Send.create 1 0 .audio {}).run {}
    let s := made.1
    let first := made.2.fresh
    let second := first.2.fresh
    let left : PortId := ⟨.plugin 5, .audio, .input, 0, .stereoLeft, none⟩
    let right : PortId := ⟨.plugin 5, .audio, .input, 1, .stereoRight, none⟩
    let target : Bundle := .stereo left right
    let ports := (({} : Registry).addPorts s.faces).registerPort left "left" first.1
    let registry := (ports.2.registerPort right "right" second.1).2.registerPlugin 5 "gate" none
    let stale : List (PortId × PortId) := [(s.outputs.first, left), (s.inputs.first, right),
      (s.outputs.first, s.inputs.first), (s.outputs.first, s.outputs.first)]
    let d : Desk := ⟨false, Wiring.empty.connectLocked stale, registry.2, second.2, {}⟩
    let o := s.connect target { sidechain := true, recalc := true } d
    s.isOn = false ∧ o.send.sidechain = true ∧
      o.desk.wiring.wires = Wiring.lockedWire (s.inputs.first, right) ::
        (s.outputs.ports.zip target.ports).map Wiring.lockedWire ∧
      (o.desk.board.read s.primaryOutputSlot).soleDestination = some ⟨left, 1, some registry.1⟩ ∧
      (∀ rendering, o.send.isActive
        { o.desk with rendering, registry := d.registry.flip [(registry.1, true)] } = false) ∧
      o.send.isConnectedTo o.desk.wiring (.stereo right left) = false := by
  intro made s first second left right target ports registry stale d o
  have hg : d.wiring.Reachable := Wiring.Reachable.empty.connectLocked stale
  have hn : s.outputs.ports.Nodup := by decide +kernel
  have hok : o.result = .ok () := by decide +kernel
  have hs : s.Lends d := ⟨⟨"channel_send_1_audio_out_l", by decide +kernel⟩, by decide +kernel,
    by decide +kernel⟩
  have hmade : s.connect target { sidechain := true, recalc := true } d =
      ⟨.ok (), o.send, o.desk⟩ := by rw [← hok]
  obtain ⟨-, hwires, hsend, -, hto, hseen⟩ := connect_ok hg hn hmade
  obtain ⟨hsole, hactive⟩ := hseen rfl hs
  have hold : (d.wiring.wires.filter fun w => w.src ∉ s.outputs.ports) =
      [Wiring.lockedWire (s.inputs.first, right)] := by decide +kernel
  have hhost : d.registry.hostOf left = some registry.1 := by decide +kernel
  have hfailed : (d.registry.flip [(registry.1, true)]).pluginOf left =
      some ⟨"gate", none, true⟩ := by decide +kernel
  refine ⟨by decide +kernel, ?_, ?_, ?_, ?_, ?_⟩
  · rw [hsend]
    rfl
  · rw [hwires, hold]
    rfl
  · rw [hsole]
    exact congrArg (fun host => some (Route.mk left 1 host)) hhost
  · intro rendering
    rw [Bool.eq_false_iff]
    intro hyes
    have hmarked := (hactive rendering [(registry.1, true)]).mp hyes _ hfailed
    cases hmarked
  · rw [Bool.eq_false_iff]
    intro hyes
    have hswapped : Bundle.stereo right left = target := (hto _).mp hyes
    revert hswapped
    decide +kernel

end Send

end MixerRouting
