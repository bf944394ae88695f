import MixerRouting.Proofs.Channel.Made
import MixerRouting.Proofs.Send.Refusal
import MixerRouting.Proofs.Studio.Operation

/-!
# Wirings that resolve

A wiring resolves if every end of every wire does. Removing wires cannot spoil
that, and connecting sends does not because all ports are looked up first. In
the registry, registrations of any kind keep every port that resolves; taking
away a port or a plugin is harmless where no wire is left that ends there.
-/
namespace MixerRouting

/-! ### The ends of wires -/

namespace Wiring

/-- Every end of every wire resolves. -/
def Resolves (g : Wiring) (r : Registry) : Prop := ∀ p ∈ g.endpoints, r.flaw? p = none

theorem verify_eq_ok_iff (g : Wiring) (r : Registry) : g.verify r = .ok () ↔ g.Resolves r := by
  constructor
  · exact fun h p hp => flaw?_of_verify h hp
  · intro h
    rw [verify_eq, List.findSome?_eq_none_iff.mpr h]

theorem mem_endpoints_iff {g : Wiring} {p : PortId} :
    p ∈ g.endpoints ↔ ∃ w ∈ g.wires, w.touches p = true := by
  have htouches : ∀ w : Wire, p ∈ [w.src, w.dest] ↔ w.touches p = true := by
    intro w
    rw [List.mem_cons, List.mem_singleton, Wire.touches, Bool.or_eq_true, decide_eq_true_iff,
      decide_eq_true_iff, eq_comm, @eq_comm _ p]
  simp only [endpoints, List.mem_flatMap, htouches]

/-- Wires with the ends of other wires have no other ends. -/
theorem endpoints_subset {g g' : Wiring} (h : ∀ w ∈ g'.wires, ∃ v ∈ g.wires, v.ends = w.ends) :
    g'.endpoints ⊆ g.endpoints := by
  intro p hp
  obtain ⟨w, hw, ht⟩ := mem_endpoints_iff.mp hp
  obtain ⟨v, hv, he⟩ := h w hw
  obtain ⟨hsrc, hdest⟩ := Prod.mk.inj he
  refine mem_endpoints_iff.mpr ⟨v, hv, ?_⟩
  rw [Wire.touches, hsrc, hdest]
  exact ht

theorem endpoints_subset_of_wires {g g' : Wiring} (h : g'.wires ⊆ g.wires) :
    g'.endpoints ⊆ g.endpoints :=
  endpoints_subset fun w hw => ⟨w, h hw, rfl⟩

/-- No end is left at a port of which all wires are removed. -/
theorem not_mem_endpoints_removeWhere {g : Wiring} {doomed : Wire → Bool} {p : PortId}
    (h : ∀ w : Wire, w.touches p = true → doomed w = true) :
    p ∉ (g.removeWhere doomed).2.endpoints := by
  intro hp
  obtain ⟨w, hw, ht⟩ := mem_endpoints_iff.mp hp
  have hkept := (List.mem_filter.mp hw).2
  rw [h w ht] at hkept
  cases hkept

theorem wires_disconnect_subset (g : Wiring) (src dest : PortId) :
    (g.disconnect src dest).2.wires ⊆ g.wires := by
  unfold disconnect
  split
  · exact fun w hw => List.mem_of_mem_eraseIdx hw
  · exact List.Subset.refl _

theorem wires_disconnectEach_subset (g : Wiring) (gone : List Wire) :
    (g.disconnectEach gone).wires ⊆ g.wires := by
  induction gone generalizing g with
  | nil => exact List.Subset.refl _
  | cons w rest ih => exact List.Subset.trans (ih _) (g.wires_disconnect_subset w.src w.dest)

/-- Setting one wire anew between the same ports. -/
theorem Reachable.ends_set_located {g : Wiring} (h : g.Reachable) {src dest : PortId} {i : Nat}
    {old new : Wire} (hl : g.locate? src dest = some (i, old)) (hnew : new.ends = old.ends) :
    ∀ w ∈ g.wires.set i new, ∃ v ∈ g.wires, v.ends = w.ends := by
  intro w hw
  rw [h.eq_ofList.1] at hl
  rcases List.mem_or_eq_of_mem_set hw with hw | rfl
  · exact ⟨w, hw, rfl⟩
  · exact ⟨old, List.mem_of_getElem? (joins_of_locate? hl).1, hnew.symm⟩

theorem Reachable.endpoints_connect {g : Wiring} (h : g.Reachable) (src dest : PortId)
    (gain : Float32) (locked enabled : Bool) {p : PortId}
    (hp : p ∈ (g.connect src dest gain locked enabled).2.endpoints) :
    p ∈ g.endpoints ∨ p = src ∨ p = dest := by
  unfold Wiring.connect at hp
  split at hp
  · next i old hl =>
    have hsame : (old.update gain locked enabled).ends = old.ends := rfl
    exact .inl (endpoints_subset (h.ends_set_located hl hsame) hp)
  · obtain ⟨w, hw, ht⟩ := mem_endpoints_iff.mp hp
    rcases List.mem_append.mp hw with hw | hw
    · exact .inl (mem_endpoints_iff.mpr ⟨w, hw, ht⟩)
    · rw [List.mem_singleton.mp hw, Wire.touches, Bool.or_eq_true, decide_eq_true_iff,
        decide_eq_true_iff, eq_comm, @eq_comm _ dest] at ht
      exact .inr ht

theorem Reachable.endpoints_connectLocked {g : Wiring} (h : g.Reachable)
    {pairs : List (PortId × PortId)} {p : PortId} (hp : p ∈ (g.connectLocked pairs).endpoints) :
    p ∈ g.endpoints ∨ ∃ pair ∈ pairs, p = pair.1 ∨ p = pair.2 := by
  induction pairs generalizing g with
  | nil => exact .inl hp
  | cons pair rest ih =>
    rcases ih (h.connect pair.1 pair.2 1 true true) hp with hp | ⟨other, hother, hp⟩
    · rcases h.endpoints_connect pair.1 pair.2 1 true true hp with hp | hp
      · exact .inl hp
      · exact .inr ⟨pair, List.mem_cons_self, hp⟩
    · exact .inr ⟨other, List.mem_cons_of_mem pair hother, hp⟩

end Wiring

/-- Changes that make no wire. -/
def Change.removes {ρ : Type} : Change ρ → Bool
  | .disconnect .. | .disconnectPort _ | .disconnectPorts _ | .reset none | .reindex
  | .setBase .. => true
  | _ => false

theorem Change.removes_map {ρ σ : Type} (f : ρ → σ) {c : Change ρ} (hc : c.removes) :
    (c.map f).removes := by
  cases c with
  | reset other =>
    cases other with
    | none => rfl
    | some k => cases hc
  | _ => exact hc

theorem Wiring.Reachable.endpoints_apply {g : Wiring} (h : g.Reachable) {c : Change Wiring}
    (hc : c.removes) : (g.apply c).2.endpoints ⊆ g.endpoints := by
  cases c with
  | disconnect src dest => exact endpoints_subset_of_wires (g.wires_disconnect_subset src dest)
  | disconnectPort p => exact endpoints_subset_of_wires (List.filter_subset_self _)
  | disconnectPorts ports => exact endpoints_subset_of_wires (List.filter_subset_self _)
  | reset other =>
    cases other with
    | none => exact List.nil_subset _
    | some k => cases hc
  | reindex => exact List.Subset.refl _
  | setBase src dest value =>
    show (g.setBase src dest value).2.endpoints ⊆ g.endpoints
    unfold Wiring.setBase
    split
    · next i old hl => exact endpoints_subset (h.ends_set_located hl rfl)
    · exact List.Subset.refl _
  | _ => cases hc

/-! ### Registrations -/

namespace Registry
variable {r : Registry} {p : PortId}

theorem flaw?_eq_none_iff : r.flaw? p = none ↔ (r.ports.get? p).isSome ∧
    ∀ id, p.owner.plugin? = some id → (r.plugin? id).isSome := by
  unfold flaw?
  cases r.ports.get? p with
  | none => exact iff_of_false nofun fun h => Bool.false_ne_true h.1
  | some port =>
    cases p.owner.plugin? with
    | none => exact iff_of_true rfl ⟨rfl, nofun⟩
    | some id =>
      simp only [Option.isSome_some, Option.some.injEq, true_and, forall_eq']
      cases r.plugin? id with
      | none => exact iff_of_false nofun Bool.false_ne_true
      | some plugin => exact iff_of_true rfl rfl

/-- What resolves after ports were registered: nothing is lost. -/
theorem flaw?_addPorts (h : r.flaw? p = none) (ports : List PortFace) :
    (r.addPorts ports).flaw? p = none := by
  induction ports generalizing r with
  | nil => exact h
  | cons f rest ih =>
    apply ih
    rw [flaw?_eq_none_iff] at h ⊢
    refine ⟨?_, h.2⟩
    show ((r.ports.insert f.id ⟨f.label, f.slot⟩).get? p).isSome
    rw [Table.get?_insert]
    split
    · rfl
    · exact h.1

theorem flaw?_removePorts (h : r.flaw? p = none) {ports : List PortFace}
    (hp : p ∉ ports.map PortFace.id) : (r.removePorts ports).flaw? p = none := by
  induction ports generalizing r with
  | nil => exact h
  | cons f rest ih =>
    rw [List.map_cons, List.mem_cons, not_or] at hp
    apply ih _ hp.2
    rw [flaw?_eq_none_iff] at h ⊢
    refine ⟨?_, h.2⟩
    show ((r.ports.erase f.id).get? p).isSome
    rw [Table.get?_erase, if_neg hp.1]
    exact h.1

theorem flaw?_registerPlugin (h : r.flaw? p = none) (id : OwnerId) (name : String)
    (track : Option OwnerId) : (r.registerPlugin id name track).2.flaw? p = none := by
  rw [flaw?_eq_none_iff] at h ⊢
  refine ⟨h.1, ?_⟩
  intro id' hid
  show (((r.plugins.insert id _).get? id').bind _).isSome
  rw [Table.get?_insert]
  split
  · show (r.descriptors ++ [_])[r.descriptors.length]?.isSome
    rw [List.getElem?_concat_length]
    rfl
  · obtain ⟨plugin, hplugin⟩ := Option.isSome_iff_exists.mp (h.2 id' hid)
    obtain ⟨handle, hh, hd⟩ := Option.bind_eq_some_iff.mp hplugin
    rw [hh]
    show (r.descriptors ++ [_])[handle.index]?.isSome
    rw [List.getElem?_append_left (List.getElem?_eq_some_iff.mp hd).1,
      show r.descriptors[handle.index]? = some plugin from hd]
    rfl

theorem flaw?_unregisterPlugin (h : r.flaw? p = none) {id : OwnerId}
    (hp : p.owner.plugin? ≠ some id) : (r.unregisterPlugin id).flaw? p = none := by
  rw [flaw?_eq_none_iff] at h ⊢
  refine ⟨h.1, ?_⟩
  intro id' hid
  have hne : id' ≠ id := by
    rintro rfl
    exact hp hid
  show (((r.plugins.erase id).get? id').bind r.descriptor?).isSome
  rw [Table.get?_erase, if_neg hne]
  exact h.2 id' hid

theorem flaw?_setFailed (h : r.flaw? p = none) (handle : PluginHandle) (failed : Bool) :
    (r.setFailed handle failed).flaw? p = none := by
  rw [flaw?_eq_none_iff] at h ⊢
  refine ⟨h.1, ?_⟩
  intro id hid
  obtain ⟨plugin, hplugin⟩ := Option.isSome_iff_exists.mp (h.2 id hid)
  obtain ⟨handle', hh, hd⟩ := Option.bind_eq_some_iff.mp hplugin
  obtain ⟨now, hnow, -⟩ := r.continues_perform (.setFailed handle failed) handle' plugin hd
  show ((r.plugins.get? id).bind (r.setFailed handle failed).descriptor?).isSome
  rw [hh]
  exact Option.isSome_iff_exists.mpr ⟨now, hnow⟩

end Registry

/-- Registrations that take nothing away but the name of a track. -/
def RegistryOperation.keepsPorts : RegistryOperation → Bool
  | .unregisterPorts _ | .unregisterPlugin _ => false
  | _ => true

theorem Registry.flaw?_perform {r : Registry} {p : PortId} (h : r.flaw? p = none)
    {op : RegistryOperation} (hop : op.keepsPorts) : (r.perform op).flaw? p = none := by
  cases op with
  | registerPorts ports => exact flaw?_addPorts h ports
  | registerPlugin id name track => exact flaw?_registerPlugin h id name track
  | setFailed handle failed => exact flaw?_setFailed h handle failed
  | registerTrack id name => exact h
  | unregisterTrack id => exact h
  | _ => cases hop

/-! ### Sends -/

section
variable {d : Desk} (hg : d.wiring.Reachable) (h : d.wiring.Resolves d.registry)
include h

omit h in
theorem Send.finish_ok (hc : d.rendering = false) (h : d.wiring.Resolves d.registry) (s : Send)
    (recalc : Bool) : (s.finish d recalc).result = .ok () := by
  unfold finish
  split
  · rw [Desk.recalc_of_control hc, List.findSome?_eq_none_iff.mpr h]
  · rfl

theorem Send.resolves_cleared (s : Send) : (s.cleared d.wiring).Resolves d.registry := fun p hp =>
  h p (Wiring.endpoints_subset_of_wires (d.wiring.wires_disconnectEach_subset _) hp)

theorem Send.resolves_disconnect (s : Send) (recalc : Bool) :
    (s.disconnect recalc d).desk.wiring.Resolves d.registry := by
  rw [s.disconnect_eq]
  split
  · exact h
  · split
    · exact s.resolves_cleared h
    · rw [finish_wiring]
      exact s.resolves_cleared h

include hg

/-- A connection is made between ports that were looked up. -/
theorem Send.resolves_connect (s : Send) (target : Bundle) (options : ConnectOptions) :
    (s.connect target options d).desk.wiring.Resolves d.registry := by
  have hworks := s.works_disconnect hg false
  have hcleared := s.resolves_disconnect h false
  unfold connect
  generalize s.disconnect false d = cleared at hworks hcleared
  rcases s.checkTarget_cases target options.accepts d.registry with
    ⟨hok, hadmits⟩ | ⟨cause, herr, -⟩
  · simp only [hok]
    cases cleared.result with
    | error e => exact hcleared
    | ok =>
      simp only [Desk.connectLocked_eq]
      split
      · exact hcleared
      · next d' hd =>
        split at hd
        · cases hd
        · cases hd
          rw [finish_wiring]
          obtain ⟨g, hr, hdesk⟩ : d.Edits cleared.desk := by
            rcases hworks.desk with ⟨he, -⟩ | ⟨hno, -⟩
            · exact he
            · cases hno
          rw [hdesk] at hcleared ⊢
          intro p hp
          rcases hr.endpoints_connectLocked hp with hp | ⟨pair, hpair, hp⟩
          · exact hcleared p hp
          · apply hadmits.resolved
            rw [← List.mem_pair] at hp
            exact List.mem_flatMap_of_mem hpair hp
  · simp only [herr]
    exact h

theorem Send.resolves_connectToTap (s : Send) {prefader fader : Bundle}
    (hp : ∀ p ∈ prefader.ports ++ fader.ports ++ s.inputs.ports, d.registry.flaw? p = none)
    {d' : Desk} (hd : s.connectToTap prefader fader d = .ok d') :
    d'.wiring.Resolves d.registry := by
  unfold connectToTap at hd
  generalize htap : (if s.isPrefader then prefader else fader) = tap at hd
  have hsub : tap.ports ⊆ prefader.ports ++ fader.ports := by
    rw [← htap]
    split
    · exact List.subset_append_left _ _
    · exact List.subset_append_right _ _
  by_cases hs : tap.signal = s.signal
  · simp only [hs, if_true, Desk.connectLocked_eq] at hd
    split at hd
    · cases hd
    · cases hd
      intro p hm
      rcases hg.endpoints_connectLocked hm with hm | ⟨pair, hpair, rfl | rfl⟩
      · exact h p hm
      · exact hp _ (List.mem_append_left _ (hsub (List.of_mem_zip hpair).1))
      · exact hp _ (List.mem_append_right _ (List.of_mem_zip hpair).2)
  · simp only [hs, if_false] at hd
    cases hd

end

/-- The ports that are joined when the sends of a channel are tapped. -/
theorem Channel.mem_portIds {c : Channel} {s : Send} (hs : s ∈ c.sends) {p : PortId}
    (hp : p ∈ c.prefader.ids.ports ++ c.fader.ids.ports ++ s.inputs.ports) : p ∈ c.portIds := by
  rw [Send.inputs, ← LiveBundle.map_id_faces, ← LiveBundle.map_id_faces,
    ← LiveBundle.map_id_faces, ← List.map_append, ← List.map_append] at hp
  obtain ⟨f, hf, rfl⟩ := List.mem_map.mp hp
  apply List.mem_map_of_mem
  rcases List.mem_append.mp hf with hf | hf
  · exact List.mem_append_left _ hf
  · apply List.mem_append_right
    apply List.mem_flatMap_of_mem hs
    exact List.mem_cons_of_mem _ (List.mem_cons_of_mem _ (List.mem_append_left _ hf))

/-- Tapping the sends of a channel makes wires between ports of the channel. -/
theorem Channel.resolves_connectSends (c : Channel) {d d' : Desk} (hg : d.wiring.Reachable)
    (h : d.wiring.Resolves d.registry) (hc : ∀ p ∈ c.portIds, d.registry.flaw? p = none)
    (hd : c.connectSends d = .ok d') : d'.wiring.Resolves d.registry := by
  have hports : ∀ s ∈ c.sends, ∀ p ∈ c.prefader.ids.ports ++ c.fader.ids.ports ++ s.inputs.ports,
      d.registry.flaw? p = none := fun s hs p hp => hc p (mem_portIds hs hp)
  unfold connectSends at hd
  generalize c.sends = sends at hd hports
  induction sends generalizing d with
  | nil =>
    cases hd
    exact h
  | cons s rest ih =>
    rw [List.foldlM_cons] at hd
    obtain ⟨d₁, hfirst, hrest⟩ := exists_of_bind_eq_ok hd
    have h₁ := s.resolves_connectToTap hg h (hports s List.mem_cons_self) hfirst
    obtain ⟨g₁, rfl, hr₁, -⟩ := s.connectToTap_eq_ok hg hfirst
    exact ih (d := { d with wiring := g₁ }) hr₁ h₁ hc hrest
      fun s' hs' => hports s' (List.mem_cons_of_mem s hs')

end MixerRouting
