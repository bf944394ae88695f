import MixerRouting.Proofs.Studio.Making
import MixerRouting.Proofs.Studio.Work

/-!
# Everything that can be done in a studio

Besides the work on wirings there are registrations, the making of ports, sends
and channels, edits of contents, rendering, and the marks of the render thread.
None of these touches the wires or a snapshot that is there; what they have to
keep is that every slot in use was handed out by the board, and that every
registered plugin has a handle that was given out.
-/
namespace MixerRouting

/-- Ports may be registered under any identity and with any slot that was handed out. -/
inductive RegistryOperation where
  | registerPorts (ports : List PortFace)
  | unregisterPorts (ports : List PortFace)
  | registerTrack (id : OwnerId) (name : String)
  | unregisterTrack (id : OwnerId)
  | registerPlugin (id : OwnerId) (name : String) (track : Option OwnerId)
  | unregisterPlugin (id : OwnerId)
  | setFailed (handle : PluginHandle) (failed : Bool)

/-- How a port that stands on its own is to be made. -/
inductive PortRecipe where
  | audio (id : PortId) (label : String) (length : Nat)
  | stereo (owner : Owner) (direction : Direction) (base : UInt16) (label : String) (length : Nat)
  | midi (id : PortId) (label : String) (capacity : Nat)
  | control (id : PortId) (label : String) (value : Float32)

inductive Operation where
  | work (m : Nat) (op : WiringOperation)
  | registry (op : RegistryOperation)
  /-- Registers a port with a new slot. -/
  | registerFresh (id : PortId) (label : String)
  | addChannel (track : OwnerId) (signal : Signal) (settings : Settings)
  | addSend (track : OwnerId) (slot : UInt8) (signal : Signal) (settings : Settings)
  | addPort (recipe : PortRecipe)
  | editPort (n : Nat) (edit : PortEdit)
  | editSend (ref : SendRef) (edit : SendEdit)
  | editTap (channel : Nat) (prefader : Bool) (edit : LineEdit)
  | prepareChannel (channel : Nat)
  | processChannel (channel : Nat) (w : Window)
  | enter
  | leave (number : Nat)
  | leaveNewest

namespace Registry

def perform (r : Registry) : RegistryOperation → Registry
  | .registerPorts ports => r.addPorts ports
  | .unregisterPorts ports => r.removePorts ports
  | .registerTrack id name => r.registerTrack id name
  | .unregisterTrack id => r.unregisterTrack id
  | .registerPlugin id name track => (r.registerPlugin id name track).2
  | .unregisterPlugin id => r.unregisterPlugin id
  | .setFailed handle failed => r.setFailed handle failed

end Registry

namespace PortRecipe

/-- A pair needs a second number. -/
def make : PortRecipe → Except Misuse (Building LivePort)
  | .audio id label length => .ok (LivePort.audio <$> AudioPort.create id label length)
  | .stereo owner direction base label length =>
    (StereoPair.checkNumber base).map fun _ =>
      LivePort.stereo <$> StereoPair.create owner direction base label length
  | .midi id label capacity => .ok (LivePort.midi <$> EventPort.create id label capacity)
  | .control id label value => .ok (LivePort.control <$> ControlPort.create id label value)

theorem took_make {recipe : PortRecipe} {make : Building LivePort} (h : recipe.make = .ok make)
    (b : Board) : b.Took (make.run b).1.faces (make.run b).2 := by
  cases recipe with
  | stereo owner direction base label length =>
    cases hn : StereoPair.checkNumber base with
    | error e =>
      simp only [PortRecipe.make, hn, Except.map] at h
      cases h
    | ok =>
      simp only [PortRecipe.make, hn, Except.map] at h
      cases h
      exact (StereoPair.numbered_create b owner direction base label length).took
  | _ =>
    cases h
    exact ((Board.Numbered.nil b).port _ _).took

end PortRecipe

namespace Studio

def editedSend (st : Studio) (s : Send) : SendEdit → Send
  | .setEnabledValue value => s.setEnabledValue value
  | .setFaderPosition position => s.setFaderPosition position
  | .copyValues other => ((st.send? other).map s.copyValues).getD s
  | .applyRecord r => (s.applyRecord r).toOption.getD s
  | .editInput e => { s with lines := s.lines.editInput e }
  | .prepare => s.prepare
  | .receive c prefader w =>
    ((st.channel? c).map fun channel => s.receive (channel.tap prefader) w).getD s
  | .render w => s.render st.registry st.board w

/-- One operation; answers whether it succeeded. Nothing happens if what is to be edited is not
there. -/
def perform (st : Studio) : Operation → Bool × Studio
  | .work m op => st.work m op
  | .registry op => (true, { st with registry := st.registry.perform op })
  | .registerFresh id label => (true, (st.registerFresh id label).2)
  | .addChannel track signal settings => (true, (st.addChannel track signal settings).2)
  | .addSend track slot signal settings => (true, (st.addSend track slot signal settings).2)
  | .addPort recipe =>
    match recipe.make with
    | .ok make => (true, (st.addPort make).2)
    | .error _ => (false, st)
  | .editPort n edit =>
    (true, (st.ports[n]?.map fun p => st.setPort n (p.edit st.ports edit)).getD st)
  | .editSend ref edit =>
    (true, ((st.send? ref).map fun s => st.setSend ref (st.editedSend s edit)).getD st)
  | .editTap c prefader edit =>
    (true, ((st.channel? c).map fun channel =>
      st.setChannel c (channel.editTap prefader edit)).getD st)
  | .prepareChannel c =>
    (true, ((st.channel? c).map fun channel => st.setChannel c channel.prepare).getD st)
  | .processChannel c w =>
    (true, ((st.channel? c).map fun channel => st.processChannel c channel w).getD st)
  | .enter => (true, { st with mark := st.mark.enter })
  | .leave number => (true, { st with mark := st.mark.leave number })
  | .leaveNewest => (true, { st with mark := st.mark.leaveNewest })

end Studio

/-- The wiring that is worked on is there, and ports are registered with slots of the board. -/
def Operation.applies (st : Studio) : Operation → Bool
  | .work m _ => m < st.wirings.length
  | .registry (.registerPorts ports) =>
    ports.all fun f => f.slot.index < st.board.snapshots.length
  | _ => true

/-! ### Registrations -/

namespace Registry

/-- All registered plugins have handles that were given out. -/
def HandlesGiven (r : Registry) : Prop :=
  ∀ id handle, r.plugins.get? id = some handle → handle.index < r.descriptors.length

/-- Every handle still stands for the plugin that it was given for, which may have failed or
recovered. -/
def Continues (r r' : Registry) : Prop :=
  ∀ handle old, r.descriptor? handle = some old →
    ∃ now, r'.descriptor? handle = some now ∧ now.name = old.name ∧ now.track = old.track

theorem Continues.refl (r : Registry) : r.Continues r := fun _ old h => ⟨old, h, rfl, rfl⟩

theorem Continues.trans {r r' r'' : Registry} (h : r.Continues r') (h' : r'.Continues r'') :
    r.Continues r'' := by
  intro handle old ho
  obtain ⟨mid, hm, hname, htrack⟩ := h handle old ho
  obtain ⟨now, hn, hname', htrack'⟩ := h' handle mid hm
  exact ⟨now, hn, hname'.trans hname, htrack'.trans htrack⟩

theorem addPorts_eq (r : Registry) (ports : List PortFace) :
    r.addPorts ports = { r with ports := (r.addPorts ports).ports } := by
  induction ports generalizing r with
  | nil => rfl
  | cons p rest ih => exact ih _

theorem removePorts_eq (r : Registry) (ports : List PortFace) :
    r.removePorts ports = { r with ports := (r.removePorts ports).ports } := by
  induction ports generalizing r with
  | nil => rfl
  | cons p rest ih => exact ih _

variable {r : Registry} {b : Board}

theorem onBoard_iff : r.OnBoard b ↔
    ∀ p port, r.ports.get? p = some port → port.slot.index < b.snapshots.length := by
  constructor
  · intro h p port hp
    exact h (p, port) ((r.mem_entries_iff p port).mpr hp)
  · rintro h ⟨p, port⟩ he
    exact h p port ((r.mem_entries_iff p port).mp he)

theorem OnBoard.of_length_le {b' : Board} (h : r.OnBoard b)
    (hle : b.snapshots.length ≤ b'.snapshots.length) : r.OnBoard b' :=
  fun e he => Nat.lt_of_lt_of_le (h e he) hle

theorem OnBoard.registerPort (h : r.OnBoard b) (id : PortId) (label : String) {slot : RouteSlot}
    (hs : slot.index < b.snapshots.length) : (r.registerPort id label slot).2.OnBoard b := by
  rw [onBoard_iff] at h ⊢
  intro p port hp
  rw [Registry.registerPort, Table.get?_insert] at hp
  split at hp
  · cases hp
    exact hs
  · exact h p port hp

theorem OnBoard.addPorts (h : r.OnBoard b) {ports : List PortFace}
    (hp : ∀ f ∈ ports, f.slot.index < b.snapshots.length) : (r.addPorts ports).OnBoard b := by
  induction ports generalizing r with
  | nil => exact h
  | cons f rest ih =>
    exact ih (h.registerPort f.id f.label (hp f List.mem_cons_self))
      fun f' hf' => hp f' (List.mem_cons_of_mem f hf')

theorem OnBoard.removePorts (h : r.OnBoard b) (ports : List PortFace) :
    (r.removePorts ports).OnBoard b := by
  induction ports generalizing r with
  | nil => exact h
  | cons f rest ih =>
    apply ih
    rw [onBoard_iff] at h ⊢
    intro p port hp
    change (r.ports.erase f.id).get? p = some port at hp
    rw [Table.get?_erase] at hp
    split at hp
    · cases hp
    · exact h p port hp

theorem OnBoard.perform (h : r.OnBoard b) {op : RegistryOperation}
    (hop : ∀ ports, op = .registerPorts ports → ∀ f ∈ ports, f.slot.index < b.snapshots.length) :
    (r.perform op).OnBoard b := by
  cases op with
  | registerPorts ports => exact h.addPorts (hop ports rfl)
  | unregisterPorts ports => exact h.removePorts ports
  | _ => exact h

theorem HandlesGiven.perform (h : r.HandlesGiven) (op : RegistryOperation) :
    (r.perform op).HandlesGiven := by
  cases op with
  | registerPorts ports =>
    rw [Registry.perform, addPorts_eq]
    exact h
  | unregisterPorts ports =>
    rw [Registry.perform, removePorts_eq]
    exact h
  | registerPlugin id name track =>
    intro id' handle hh
    show handle.index < (r.descriptors ++ [_]).length
    rw [List.length_append, List.length_singleton]
    change (r.plugins.insert id _).get? id' = some handle at hh
    rw [Table.get?_insert] at hh
    split at hh
    · cases hh
      exact Nat.lt_succ_self _
    · exact Nat.lt_succ_of_lt (h id' handle hh)
  | unregisterPlugin id =>
    intro id' handle hh
    change (r.plugins.erase id).get? id' = some handle at hh
    rw [Table.get?_erase] at hh
    split at hh
    · cases hh
    · exact h id' handle hh
  | setFailed handle failed =>
    intro id' handle' hh
    show handle'.index < (r.descriptors.modify handle.index _).length
    rw [List.length_modify]
    exact h id' handle' hh
  | _ => exact h

/-- Registering a plugin again gives out a new handle, and a failure is marked on the old plugin. -/
theorem continues_perform (r : Registry) (op : RegistryOperation) : r.Continues (r.perform op) := by
  cases op with
  | registerPorts ports =>
    rw [Registry.perform, addPorts_eq]
    exact .refl r
  | unregisterPorts ports =>
    rw [Registry.perform, removePorts_eq]
    exact .refl r
  | registerPlugin id name track =>
    intro handle old ho
    refine ⟨old, ?_, rfl, rfl⟩
    show (r.descriptors ++ [_])[handle.index]? = some old
    rw [List.getElem?_append_left (List.getElem?_eq_some_iff.mp ho).1]
    exact ho
  | setFailed handle failed =>
    intro handle' old ho
    show ∃ now, (r.descriptors.modify handle.index _)[handle'.index]? = some now ∧ _
    rw [List.getElem?_modify, show r.descriptors[handle'.index]? = some old from ho]
    refine ⟨_, rfl, ?_⟩
    split <;> exact ⟨rfl, rfl⟩
  | _ => exact .refl r

end Registry

namespace Studio

/-! ### Operations beside the wirings -/

/-- What such an operation leaves behind: the wires and all snapshots as they were, new slots only
for new ports, and registrations in order if they were before. -/
structure Aside (st st' : Studio) : Prop where
  wirings : st'.wirings = st.wirings
  recalcs : st'.recalcs = st.recalcs
  grown : st.board.Extends st'.board
  faces : ∀ f ∈ st'.faces, f ∈ st.faces ∨ f.slot.index < st'.board.snapshots.length
  ports : st.registry.OnBoard st.board → st'.registry.OnBoard st'.board
  plugins : st.registry.HandlesGiven → st'.registry.HandlesGiven
  continues : st.registry.Continues st'.registry

section
variable {st st' : Studio}

/-- New ports were made, or none. -/
theorem Aside.of_took {ports : List PortFace} (hw : st'.wirings = st.wirings)
    (hr : st'.recalcs = st.recalcs) (hreg : st'.registry = st.registry)
    (htook : st.board.Took ports st'.board) (hf : ∀ f ∈ st'.faces, f ∈ st.faces ∨ f ∈ ports) :
    st.Aside st' := by
  refine ⟨hw, hr, htook.grown, ?_, ?_, ?_, ?_⟩
  · exact fun f hm => (hf f hm).imp id (htook.handedOut f)
  · intro h
    rw [hreg]
    exact h.of_length_le htook.grown.length_le
  · rw [hreg]
    exact id
  · rw [hreg]
    exact .refl _

/-- Only contents and marks have changed. -/
theorem Aside.of_faces (hw : st'.wirings = st.wirings) (hr : st'.recalcs = st.recalcs)
    (hreg : st'.registry = st.registry) (hb : st'.board = st.board) (hf : st'.faces = st.faces) :
    st.Aside st' := by
  have htook : st.board.Took [] st'.board := by
    rw [hb]
    exact (Board.Numbered.nil st.board).took
  exact .of_took hw hr hreg htook fun _ hm => .inl (hf ▸ hm)

theorem Aside.of_found {α : Type} {found : Option α} {f : α → Studio}
    (h : ∀ x, found = some x → st.Aside (f x)) : st.Aside ((found.map f).getD st) := by
  cases hx : found with
  | none => exact .of_faces rfl rfl rfl rfl rfl
  | some x => exact h x hx

theorem faces_editedSend (st : Studio) (s : Send) (e : SendEdit) :
    (st.editedSend s e).faces = s.faces := by
  cases e with
  | setEnabledValue value => rfl
  | setFaderPosition position => rfl
  | copyValues other =>
    show (((st.send? other).map s.copyValues).getD s).faces = s.faces
    cases st.send? other <;> rfl
  | applyRecord r =>
    show ((s.applyRecord r).toOption.getD s).faces = s.faces
    cases h : s.applyRecord r with
    | error e => rfl
    | ok t => exact Send.faces_applyRecord h
  | editInput e => exact s.faces_editInput e
  | prepare => exact s.faces_prepare
  | receive c prefader w =>
    show (((st.channel? c).map fun channel => s.receive (channel.tap prefader) w).getD s).faces =
      s.faces
    cases st.channel? c with
    | none => rfl
    | some channel => exact s.faces_receive _ w
  | render w => exact s.faces_render st.registry st.board w

theorem aside_perform {op : Operation} (happ : op.applies st) (hop : ∀ m w, op ≠ .work m w) :
    st.Aside (st.perform op).2 := by
  cases op with
  | work m w => exact absurd rfl (hop m w)
  | registry op =>
    refine ⟨rfl, rfl, .refl _, fun f hf => .inl hf, fun h => h.perform ?_, fun h => h.perform op,
      st.registry.continues_perform op⟩
    rintro ports rfl f hf
    exact of_decide_eq_true (List.all_eq_true.mp happ f hf)
  | registerFresh id label =>
    have hgrown : st.board.Extends st.board.fresh.2 := (Board.Extends.refl st.board).fresh
    refine ⟨rfl, rfl, hgrown, fun f hf => .inl hf, ?_, fun h => h, .refl _⟩
    intro h
    apply (h.of_length_le hgrown.length_le).registerPort id label
    rw [Board.length_fresh]
    exact Nat.lt_succ_self _
  | addChannel track signal settings =>
    refine .of_took rfl rfl rfl (Channel.numbered_create st.board track signal settings).took ?_
    intro f hf
    change f ∈ (st.channels ++ [_]).flatMap _ ++ _ ++ _ at hf
    rw [List.flatMap_append, List.flatMap_singleton] at hf
    simp only [faces, List.mem_append] at hf ⊢
    tauto
  | addSend track slot signal settings =>
    refine .of_took rfl rfl rfl (Send.numbered_create st.board track slot signal settings).took ?_
    intro f hf
    change f ∈ _ ++ (st.sends ++ [_]).flatMap _ ++ _ at hf
    rw [List.flatMap_append, List.flatMap_singleton] at hf
    simp only [faces, List.mem_append] at hf ⊢
    tauto
  | addPort recipe =>
    cases hmake : recipe.make with
    | error e =>
      simp only [perform, hmake]
      exact .of_faces rfl rfl rfl rfl rfl
    | ok make =>
      simp only [perform, hmake]
      refine .of_took rfl rfl rfl (PortRecipe.took_make hmake st.board) ?_
      intro f hf
      change f ∈ _ ++ (st.ports ++ [_]).flatMap _ at hf
      rw [List.flatMap_append, List.flatMap_singleton] at hf
      simp only [faces, List.mem_append] at hf ⊢
      tauto
  | editPort n edit =>
    apply Aside.of_found
    exact fun p hp => .of_faces rfl rfl rfl rfl (faces_setPort hp (p.faces_edit st.ports edit))
  | editSend ref edit =>
    apply Aside.of_found
    exact fun s hs => .of_faces (wirings_setSend ..) (recalcs_setSend ..) (registry_setSend ..)
      (board_setSend ..) (faces_setSend hs (st.faces_editedSend s edit))
  | editTap c prefader edit =>
    apply Aside.of_found
    exact fun channel hc =>
      .of_faces rfl rfl rfl rfl (faces_setChannel hc (channel.faces_editTap prefader edit))
  | prepareChannel c =>
    apply Aside.of_found
    exact fun channel hc => .of_faces rfl rfl rfl rfl (faces_setChannel hc channel.faces_prepare)
  | processChannel c w =>
    apply Aside.of_found
    exact fun channel hc => .of_faces rfl rfl rfl rfl
      (faces_setChannel hc (channel.faces_process st.registry st.board w))
  | enter => exact .of_faces rfl rfl rfl rfl rfl
  | leave number => exact .of_faces rfl rfl rfl rfl rfl
  | leaveNewest => exact .of_faces rfl rfl rfl rfl rfl

end

/-! ### What every operation preserves -/

/-- Wirings come from changes, slots in use from the board and handles in use from the registry. -/
structure Sound (st : Studio) : Prop where
  reachable : ∀ g ∈ st.wirings, g.Reachable
  faces : ∀ f ∈ st.faces, f.slot.index < st.board.snapshots.length
  ports : st.registry.OnBoard st.board
  plugins : st.registry.HandlesGiven

theorem sound_empty (wirings : Nat) : (Studio.empty wirings).Sound where
  reachable g hg := by
    rw [(List.mem_replicate.mp hg).2]
    exact .empty
  faces f hf := absurd hf List.not_mem_nil
  ports e he := absurd he List.not_mem_nil
  plugins id handle h := by cases h

section
variable {st st' : Studio}

theorem Sound.wiring (h : st.Sound) (m : Nat) : (st.wiring m).Reachable := by
  unfold Studio.wiring
  cases hm : st.wirings[m]? with
  | none => exact .empty
  | some g => exact h.reachable g (List.mem_of_getElem? hm)

theorem Sound.aside (h : st.Sound) (ha : st.Aside st') : st'.Sound where
  reachable := by
    rw [ha.wirings]
    exact h.reachable
  faces f hf := by
    rcases ha.faces f hf with hf | hf
    · exact Nat.lt_of_lt_of_le (h.faces f hf) ha.grown.length_le
    · exact hf
  ports := ha.ports h.ports
  plugins := ha.plugins h.plugins

theorem Sound.worked (h : st.Sound) {m : Nat} {d : Desk} (hw : st.Worked m d st')
    (hg : d.wiring.Reachable)
    (hb : d.board.snapshots.length = st.board.snapshots.length) : st'.Sound where
  reachable g hm := by
    rw [hw.wirings] at hm
    rcases List.mem_or_eq_of_mem_set hm with hm | rfl
    · exact h.reachable g hm
    · exact hg
  faces f hf := by
    rw [hw.faces] at hf
    rw [hw.board, hb]
    exact h.faces f hf
  ports := by
    rw [hw.registry, hw.board]
    exact h.ports.of_length_le (Nat.le_of_eq hb.symm)
  plugins := by
    rw [hw.registry]
    exact h.plugins

theorem Sound.perform (h : st.Sound) {op : Operation} (happ : op.applies st) :
    (st.perform op).2.Sound := by
  by_cases hop : ∀ m w, op ≠ .work m w
  · exact h.aside (aside_perform happ hop)
  · push Not at hop
    obtain ⟨m, w, rfl⟩ := hop
    show (st.work m w).2.Sound
    have ho := outcome_work h.wiring m w
    generalize st.work m w = outcome at ho ⊢
    cases ho with
    | edited hw hedits hfailed =>
      obtain ⟨g, hg, rfl⟩ := hedits
      exact h.worked hw hg rfl
    | published hw hpublishes hdue =>
      obtain ⟨g, recalcs, hg, rfl⟩ := hpublishes
      exact h.worked hw hg (Board.length_foldl_post _ _ _)

end

end Studio

end MixerRouting
