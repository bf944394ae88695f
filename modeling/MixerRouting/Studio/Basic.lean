import MixerRouting.Channel.Basic
import MixerRouting.Routing.RenderMark
import MixerRouting.Studio.Port

/-!
# The studio

Everything that lasts while a program runs: the mark of the render thread,
the wirings, the registry, the board of published routes, the count of
recalculations, and all channels, sends and ports. There may be several
wirings beside each other; they share the rest.

An operation on a wiring or on a send sees a desk, which is put together from
the studio and taken apart again afterwards.
-/
namespace MixerRouting

structure Studio where
  mark : RenderMark := {}
  wirings : List Wiring
  registry : Registry := {}
  board : Board := {}
  recalcs : Recalcs := {}
  channels : List Channel := []
  /-- Sends that belong to no channel. -/
  sends : List Send := []
  ports : List LivePort := []

/-- Where a send is found. -/
inductive SendRef where
  | inChannel (channel slot : Nat)
  | loose (number : Nat)
  deriving DecidableEq, Repr

namespace Studio

/-- A studio with a number of empty wirings and nothing else. -/
def empty (wirings : Nat) : Studio := { wirings := List.replicate wirings .empty }

/-! ### Desks -/

def wiring (st : Studio) (m : Nat) : Wiring := (st.wirings[m]?).getD .empty

def desk (st : Studio) (m : Nat) : Desk where
  rendering := st.mark.rendering
  wiring := st.wiring m
  registry := st.registry
  board := st.board
  recalcs := st.recalcs

/-- Puts back what a desk may change. -/
def withDesk (st : Studio) (m : Nat) (d : Desk) : Studio :=
  { st with wirings := st.wirings.set m d.wiring, board := d.board, recalcs := d.recalcs }

/-- An operation on a desk; a failure leaves the studio as it is. -/
def onDesk {ε α : Type} (st : Studio) (m : Nat) (f : Desk → Except ε (α × Desk)) :
    Except ε α × Studio :=
  match f (st.desk m) with
  | .ok (answer, d) => (.ok answer, st.withDesk m d)
  | .error e => (.error e, st)

/-- An operation on a desk that answers nothing. -/
def onDesk_ {ε : Type} (st : Studio) (m : Nat) (f : Desk → Except ε Desk) :
    Except ε Unit × Studio :=
  st.onDesk m fun d => (f d).map fun d => ((), d)

/-! ### Sends and channels -/

def channel? (st : Studio) (c : Nat) : Option Channel := st.channels[c]?

def setChannel (st : Studio) (c : Nat) (channel : Channel) : Studio :=
  { st with channels := st.channels.set c channel }

def send? (st : Studio) : SendRef → Option Send
  | .inChannel c slot => (st.channel? c).bind fun channel => channel.send? slot
  | .loose n => st.sends[n]?

def setSend (st : Studio) (ref : SendRef) (s : Send) : Studio :=
  match ref with
  | .inChannel c slot =>
    { st with channels := st.channels.modify c fun channel => channel.setSend slot s }
  | .loose n => { st with sends := st.sends.set n s }

/-- An operation on a send and a desk; what it had done when it failed stays done. -/
def onSend (st : Studio) (ref : SendRef) (s : Send) (m : Nat) (f : Send → Desk → SendOutcome) :
    Except (Fault SendError) Unit × Studio :=
  let outcome := f s (st.desk m)
  (outcome.result, (st.setSend ref outcome.send).withDesk m outcome.desk)

/-! ### Making ports -/

def build {α : Type} (st : Studio) (make : Building α) : α × Studio :=
  let (made, board) := make.run st.board
  (made, { st with board })

/-- Makes a channel; answers its number. -/
def addChannel (st : Studio) (track : OwnerId) (signal : Signal) (settings : Settings) :
    Nat × Studio :=
  let (channel, st) := st.build (Channel.create track signal settings)
  (st.channels.length, { st with channels := st.channels ++ [channel] })

/-- Makes a send outside of channels; answers its number. -/
def addSend (st : Studio) (track : OwnerId) (slot : UInt8) (signal : Signal)
    (settings : Settings) : Nat × Studio :=
  let (send, st) := st.build (Send.create track slot signal settings)
  (st.sends.length, { st with sends := st.sends ++ [send] })

/-- Makes a port; answers its number. -/
def addPort (st : Studio) (make : Building LivePort) : Nat × Studio :=
  let (port, st) := st.build make
  (st.ports.length, { st with ports := st.ports ++ [port] })

def setPort (st : Studio) (n : Nat) (port : LivePort) : Studio :=
  { st with ports := st.ports.set n port }

/-! ### Registering ports -/

/-- Registers a port of its own with a new slot; answers whether its identity is new. -/
def registerFresh (st : Studio) (id : PortId) (label : String) : Bool × Studio :=
  let (slot, st) := st.build takeSlot
  let (isNew, registry) := st.registry.registerPort id label slot
  (isNew, { st with registry })

def registerAll (st : Studio) (ports : List PortFace) : Studio :=
  { st with registry := st.registry.addPorts ports }

def unregisterAll (st : Studio) (ports : List PortFace) : Studio :=
  { st with registry := st.registry.removePorts ports }

/-! ### Rendering -/

/-- Renders one window of all sends of a channel. -/
def processChannel (st : Studio) (c : Nat) (channel : Channel) (w : Window) : Studio :=
  st.setChannel c (channel.process st.registry st.board w)

end Studio

end MixerRouting
