import MixerRouting.Proofs.Studio.Making
import MixerRouting.Proofs.Wiring.Outgoing
import MixerRouting.Send.Observe

/-!
# The two views of a send

Whether a send takes part is answered from the published routes while
rendering, and from the wiring otherwise. Routes know enabled wires only, the
wiring counts all of them. What a recalculation publishes for the send's first
output is compared here with what the wiring says, for one wire and for any
number; the plugins on the other side may fail and recover in between.
-/
namespace MixerRouting

/-! ### Plugins that fail and recover -/

namespace Registry

def flip (r : Registry) (flips : List (PluginHandle × Bool)) : Registry :=
  flips.foldl (fun r f => r.setFailed f.1 f.2) r

/-- Whether the plugin of a port, if it has one, is registered and has not failed. -/
def reaches (r : Registry) (p : PortId) : Bool :=
  match p.owner.plugin? with
  | some id =>
    match r.plugin? id with
    | some plugin => !plugin.failed
    | none => false
  | none => true

@[simp] theorem plugins_flip (r : Registry) (flips : List (PluginHandle × Bool)) :
    (r.flip flips).plugins = r.plugins := by
  induction flips generalizing r with
  | nil => rfl
  | cons f rest ih => exact ih _

theorem length_descriptors_flip (r : Registry) (flips : List (PluginHandle × Bool)) :
    (r.flip flips).descriptors.length = r.descriptors.length := by
  induction flips generalizing r with
  | nil => rfl
  | cons f rest ih => exact (ih _).trans (List.length_modify _ _ _)

theorem plugin?_eq_some {r : Registry} {id : OwnerId} {plugin : Plugin}
    (h : r.plugin id = .ok plugin) : r.plugin? id = some plugin := by
  unfold Registry.plugin at h
  split at h
  · next hp =>
    cases h
    exact hp
  · cases h

/-- A port that resolves belongs to no plugin, or to one whose handle was given out. -/
theorem host_of_endpoint {r : Registry} {p : PortId} {port : RegisteredPort}
    (h : r.endpoint p = .ok port) {id : OwnerId} (hid : p.owner.plugin? = some id) :
    ∃ handle, r.plugins.get? id = some handle ∧ handle.index < r.descriptors.length := by
  unfold endpoint at h
  obtain ⟨found, -, h⟩ := exists_of_bind_eq_ok h
  rw [hid] at h
  obtain ⟨plugin, hplugin, -⟩ := exists_of_bind_eq_ok h
  obtain ⟨handle, hh, hd⟩ := Option.bind_eq_some_iff.mp (plugin?_eq_some hplugin)
  exact ⟨handle, hh, (List.getElem?_eq_some_iff.mp hd).1⟩

/-- The route along a wire knows the plugin that a later lookup finds. -/
theorem usable_routeTo {r : Registry} {w : Wire} {port : RegisteredPort}
    (h : r.endpoint w.dest = .ok port) (flips : List (PluginHandle × Bool)) :
    (r.flip flips).usable (Wiring.routeTo r w.dest w) = (r.flip flips).reaches w.dest := by
  unfold usable reaches Wiring.routeTo hostOf plugin?
  rw [plugins_flip]
  cases hid : w.dest.owner.plugin? with
  | none => rfl
  | some id =>
    obtain ⟨handle, hh, hlt⟩ := host_of_endpoint h hid
    rw [← length_descriptors_flip r flips] at hlt
    simp only [Option.bind_some, hh, descriptor?, List.getElem?_eq_getElem hlt]

/-- Some flips let every plugin of a resolved port take part. -/
theorem exists_flips_reaches {r : Registry} {p : PortId} {port : RegisteredPort}
    (h : r.endpoint p = .ok port) : ∃ flips, (r.flip flips).reaches p = true := by
  cases hid : p.owner.plugin? with
  | none =>
    refine ⟨[], ?_⟩
    unfold reaches
    rw [hid]
  | some id =>
    obtain ⟨handle, hh, hlt⟩ := host_of_endpoint h hid
    refine ⟨[(handle, false)], ?_⟩
    have hd : (r.flip [(handle, false)]).descriptor? handle =
        some { r.descriptors[handle.index] with failed := false } := by
      simp [flip, setFailed, descriptor?, hlt]
    unfold reaches plugin?
    rw [hid, plugins_flip]
    simp only [hh, Option.bind_some, hd]
    rfl

end Registry

/-! ### The views -/

/-- What a list of wires says if it has one member; no otherwise. -/
def soleWire (wires : List Wire) (f : Wire → Bool) : Bool :=
  match wires with
  | [w] => f w
  | _ => false

theorem soleWire_of_length {wires : List Wire} (h : wires.length ≠ 1) (f : Wire → Bool) :
    soleWire wires f = false := by
  unfold soleWire
  split
  · exact absurd rfl h
  · rfl

theorem soleWire_congr {wires : List Wire} {f f' : Wire → Bool} (h : ∀ w ∈ wires, f w = f' w) :
    soleWire wires f = soleWire wires f' := by
  match wires with
  | [] => rfl
  | [w] => exact h w (List.mem_singleton_self w)
  | _ :: _ :: _ => rfl

theorem soleWire_perm {wires wires' : List Wire} (h : wires'.Perm wires) (f : Wire → Bool) :
    soleWire wires' f = soleWire wires f := by
  by_cases hone : wires.length = 1
  · obtain ⟨w, rfl⟩ := List.length_eq_one_iff.mp hone
    rw [h.eq_singleton]
  · rw [soleWire_of_length hone, soleWire_of_length (h.length_eq ▸ hone)]

theorem soleWire_filter {wires : List Wire} {keep : Wire → Bool}
    (h : wires.length = 1 ↔ (wires.filter keep).length = 1) (f : Wire → Bool) :
    soleWire (wires.filter keep) f = soleWire wires f := by
  by_cases hone : wires.length = 1
  · rw [List.filter_sublist.eq_of_length ((h.mp hone).trans hone.symm)]
  · rw [soleWire_of_length hone, soleWire_of_length fun hf => hone (h.mpr hf)]

/-- A list that holds a single wire says yes at some time, and so does a list that always says the
same. -/
theorem Desk.length_of_soleWire_eq {d d' : Desk} {soft : Bool} (h : d.recalc soft = .ok d')
    {wires others : List Wire} (hsub : ∀ w ∈ wires, w ∈ d.wiring.wires)
    (hsame : ∀ flips, soleWire wires (fun w => (d.registry.flip flips).reaches w.dest) =
      soleWire others fun w => (d.registry.flip flips).reaches w.dest)
    (hone : wires.length = 1) : others.length = 1 := by
  obtain ⟨-, hv, -⟩ := Desk.recalc_eq_ok h
  obtain ⟨w, rfl⟩ := List.length_eq_one_iff.mp hone
  obtain ⟨port, hp⟩ := Wiring.endpoint_of_verify hv (hsub w List.mem_cons_self)
  obtain ⟨flips, hyes⟩ := Registry.exists_flips_reaches hp
  by_contra hne
  have hno := hsame flips
  rw [soleWire_of_length hne] at hno
  exact Bool.false_ne_true (hno.symm.trans hyes)

namespace Send

/-- The first output is registered with its own slot, which the board handed out and which no other
identity has. -/
structure Lends (s : Send) (d : Desk) : Prop where
  registered : ∃ label, d.registry.ports.get? s.outputs.first = some ⟨label, s.primaryOutputSlot⟩
  handedOut : s.primaryOutputSlot.index < d.board.snapshots.length
  alone : ∀ e ∈ d.registry.ports.entries, e.2.slot = s.primaryOutputSlot → e.1 = s.outputs.first

/-- The answer while rendering is the answer otherwise, wherever the switch stands and whatever has
become of the plugins. -/
def ViewsAgree (s : Send) (d : Desk) : Prop :=
  ∀ value flips,
    (s.setEnabledValue value).isActive
        { d with rendering := true, registry := d.registry.flip flips } =
      (s.setEnabledValue value).isActive
        { d with rendering := false, registry := d.registry.flip flips }

theorem wireUsable_eq (s : Send) {g : Wiring} (h : g.Reachable) (r : Registry) :
    s.wireUsable g r = soleWire (g.outgoing s.outputs.first) fun w => r.reaches w.dest := by
  unfold wireUsable Wiring.single? Wiring.single
  rw [h.neighbours_destination]
  match g.outgoing s.outputs.first with
  | [] => rfl
  | [w] => rfl
  | _ :: _ :: _ => rfl

theorem routeUsable_eq {s : Send} {d : Desk} (hs : s.Lends d) (hg : d.wiring.Reachable)
    (r : Registry) :
    s.routeUsable r (d.wiring.published d.registry d.board) =
      soleWire ((d.wiring.outgoing s.outputs.first).filter Wire.enabled)
        fun w => r.usable (Wiring.routeTo d.registry w.dest w) := by
  obtain ⟨label, hp⟩ := hs.registered
  have hread := Wiring.read_published (g := d.wiring) hp hs.handedOut hs.alone
  unfold routeUsable
  rw [hread, Wiring.routesOf, hg.neighbours_destination]
  rcases (d.wiring.outgoing s.outputs.first).filter Wire.enabled with _ | ⟨w, _ | ⟨v, rest⟩⟩
  · rfl
  · rfl
  · rfl

section
variable {s : Send} {d d' : Desk} {soft : Bool} (hg : d.wiring.Reachable) (hs : s.Lends d)
  (h : d.recalc soft = .ok d') (value : Float32) (flips : List (PluginHandle × Bool))
include hg h

theorem isActive_control :
    (s.setEnabledValue value).isActive
        { d' with rendering := false, registry := d'.registry.flip flips } =
      ((s.setEnabledValue value).isOn && soleWire (d.wiring.outgoing s.outputs.first)
        fun w => (d.registry.flip flips).reaches w.dest) := by
  obtain ⟨-, -, recalcs, rfl⟩ := Desk.recalc_eq_ok h
  rw [isActive]
  exact congrArg _ ((s.setEnabledValue value).wireUsable_eq hg _)

include hs

/-- What was published leads where the wires lead. -/
theorem routeUsable_of_recalc :
    s.routeUsable (d.registry.flip flips) d'.board =
      soleWire ((d.wiring.outgoing s.outputs.first).filter Wire.enabled)
        fun w => (d.registry.flip flips).reaches w.dest := by
  obtain ⟨-, hv, recalcs, rfl⟩ := Desk.recalc_eq_ok h
  rw [routeUsable_eq hs hg (d.registry.flip flips)]
  apply soleWire_congr
  intro w hm
  have hmem : w ∈ d.wiring.wires := List.mem_of_mem_filter (List.mem_of_mem_filter hm)
  obtain ⟨port, hp⟩ := Wiring.endpoint_of_verify hv hmem
  exact Registry.usable_routeTo hp flips

theorem isActive_render :
    (s.setEnabledValue value).isActive
        { d' with rendering := true, registry := d'.registry.flip flips } =
      ((s.setEnabledValue value).isOn &&
        soleWire ((d.wiring.outgoing s.outputs.first).filter Wire.enabled)
          fun w => (d.registry.flip flips).reaches w.dest) := by
  have hroutes := routeUsable_of_recalc hg hs h flips
  obtain ⟨-, -, recalcs, rfl⟩ := Desk.recalc_eq_ok h
  rw [isActive]
  exact congrArg _ hroutes

/-- After a recalculation the two views of a send agree, and go on agreeing while its switch moves
and plugins fail and recover, exactly if disabled wires make no difference to whether one wire
leaves its first output. -/
theorem viewsAgree_iff :
    s.ViewsAgree d' ↔
      ((d.wiring.outgoing s.outputs.first).length = 1 ↔
        ((d.wiring.outgoing s.outputs.first).filter Wire.enabled).length = 1) := by
  have hcontrol := isActive_control (s := s) hg h
  have hrender := isActive_render hg hs h
  have hon : (s.setEnabledValue 1).isOn = true := s.enabled.isOn_switch true
  constructor
  · intro hagree
    have hsame : ∀ flips,
        soleWire (d.wiring.outgoing s.outputs.first)
            (fun w => (d.registry.flip flips).reaches w.dest) =
          soleWire ((d.wiring.outgoing s.outputs.first).filter Wire.enabled)
            fun w => (d.registry.flip flips).reaches w.dest := by
      intro flips
      have hnow := hagree 1 flips
      rw [hcontrol, hrender, hon, Bool.true_and, Bool.true_and] at hnow
      exact hnow.symm
    constructor
    · apply Desk.length_of_soleWire_eq h _ hsame
      exact fun w hm => List.mem_of_mem_filter hm
    · apply Desk.length_of_soleWire_eq h _ fun flips => (hsame flips).symm
      exact fun w hm => List.mem_of_mem_filter (List.mem_of_mem_filter hm)
  · intro hiff value flips
    rw [hcontrol, hrender, soleWire_filter hiff]

end

/-- One enabled wire leads to a plugin. -/
theorem viewsAgree_iff_of_plugin :
    let made := (Send.create 1 0 .audio {}).run {}
    let s := made.1
    let target : PortId := ⟨.plugin 5, .audio, .input, 0, .sidechain, none⟩
    let registry := ((({} : Registry).addPorts s.faces).registerPort target "key" made.2.fresh.1).2
    let d : Desk := ⟨false, (Wiring.empty.connect s.outputs.first target 1 true true).2,
      (registry.registerPlugin 5 "gate" none).2, made.2.fresh.2, {}⟩
    ∃ d', d.recalc false = .ok d' ∧ s.ViewsAgree d' := by
  intro made s target registry d
  have hg : d.wiring.Reachable := .connect .empty _ _ _ _ _
  have hout : s.primaryOutputSlot.index < d.board.snapshots.length := by
    rw [Board.length_fresh]
    exact Nat.lt_succ_of_lt (slot_lt_of_create 1 0 .audio {} {})
  have hs : s.Lends d := ⟨⟨"channel_send_1_audio_out_l", by decide +kernel⟩, hout,
    by decide +kernel⟩
  have hok : (d.recalc false).toOption.isSome = true := by decide +kernel
  have hone : (d.wiring.outgoing s.outputs.first).length = 1 ↔
      ((d.wiring.outgoing s.outputs.first).filter Wire.enabled).length = 1 := by decide +kernel
  cases h : d.recalc false with
  | error e =>
    rw [h] at hok
    cases hok
  | ok d' => exact ⟨d', rfl, (viewsAgree_iff hg hs h).mpr hone⟩

/-- A single disabled wire counts off the render thread and is no route while rendering. -/
theorem not_viewsAgree_of_disabled_wire :
    ¬ ∀ (s : Send) (d d' : Desk) (soft : Bool), d.wiring.Reachable → s.Lends d →
      d.recalc soft = .ok d' → s.ViewsAgree d' := by
  intro hall
  let made := (Send.create 1 0 .event {}).run {}
  let s := made.1
  let target : PortId := ⟨.trackInput 2, .event, .input, 0, .none, none⟩
  let d : Desk := ⟨false, (Wiring.empty.connect s.outputs.first target 1 false false).2,
    ((({} : Registry).addPorts s.faces).registerPort target "in" made.2.fresh.1).2,
    made.2.fresh.2, {}⟩
  have hg : d.wiring.Reachable := .connect .empty _ _ _ _ _
  have hout : s.primaryOutputSlot.index < d.board.snapshots.length := by
    rw [Board.length_fresh]
    exact Nat.lt_succ_of_lt (slot_lt_of_create 1 0 .event {} {})
  have hs : s.Lends d := ⟨⟨"channel_send_1_midi_out", by decide +kernel⟩, hout,
    by decide +kernel⟩
  have hok : (d.recalc false).toOption.isSome = true := by decide +kernel
  cases h : d.recalc false with
  | error e =>
    rw [h] at hok
    cases hok
  | ok d' =>
    have hsame := hall s d d' false hg hs h 1 []
    rw [isActive_control hg h, isActive_render hg hs h] at hsame
    revert hsame
    decide +kernel

end Send

end MixerRouting
