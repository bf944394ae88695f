import MixerRouting.Port.EventQueue
import MixerRouting.Routing.Fault
import MixerRouting.Routing.Registry

/-!
# Ports with their contents

A live port has an identity, a label and a slot on the board of published
routes, and besides that the data which render code works on: samples, a
queue of events, or one control value.
-/
namespace MixerRouting

/-- What the registry has to know of a port. -/
structure PortFace where
  id : PortId
  label : String
  slot : RouteSlot
  deriving DecidableEq, Repr

namespace PortFace

def create (id : PortId) (label : String) : Building PortFace := do
  return { id, label, slot := ← takeSlot }

/-- Answers whether the identity is new to the registry. -/
def register (p : PortFace) (r : Registry) : Bool × Registry := r.registerPort p.id p.label p.slot

def unregister (p : PortFace) (r : Registry) : Registry := r.unregisterPort p.id

end PortFace

/-- Registers ports in order. -/
def Registry.addPorts (r : Registry) (ports : List PortFace) : Registry :=
  ports.foldl (fun r p => (p.register r).2) r

def Registry.removePorts (r : Registry) (ports : List PortFace) : Registry :=
  ports.foldl (fun r p => p.unregister r) r

structure AudioPort extends PortFace where
  samples : Samples

namespace AudioPort

def create (id : PortId) (label : String) (length : Nat) : Building AudioPort := do
  return { ← PortFace.create id label with samples := .silence length }

def clear (p : AudioPort) : AudioPort := { p with samples := .silence p.samples.size }

end AudioPort

structure StereoPair where
  left : AudioPort
  right : AudioPort

namespace StereoPair

/-- The second port of a pair has the next number; there has to be one. -/
def checkNumber (base : UInt16) : Except Misuse Unit :=
  if base.toNat + 1 < UInt16.size then .ok () else .error .overflow

/-- A pair with the numbers `base` and `base + 1`; the labels end in `_l` and `_r`. -/
def create (owner : Owner) (direction : Direction) (base : UInt16) (label : String)
    (length : Nat) : Building StereoPair := do
  let id (index : UInt16) (flags : PortFlags) : PortId :=
    { owner, medium := .audio, direction, index, flags }
  let left ← AudioPort.create (id base .stereoLeft) (label ++ "_l") length
  let right ← AudioPort.create (id (base + 1) .stereoRight) (label ++ "_r") length
  return { left, right }

def clear (p : StereoPair) : StereoPair := ⟨p.left.clear, p.right.clear⟩

def faces (p : StereoPair) : List PortFace := [p.left.toPortFace, p.right.toPortFace]

/-- Applies an operation on samples to both channels, each with the same channel of `src`. -/
def zip (f : Samples → Samples → Samples) (dst src : StereoPair) : StereoPair where
  left := { dst.left with samples := f dst.left.samples src.left.samples }
  right := { dst.right with samples := f dst.right.samples src.right.samples }

/-- Overwrites the first samples of both channels. -/
def fill (p : StereoPair) (left right : List Float32) : StereoPair where
  left := { p.left with samples := p.left.samples.fill left }
  right := { p.right with samples := p.right.samples.fill right }

end StereoPair

structure EventPort extends PortFace where
  queue : EventQueue

namespace EventPort

def create (id : PortId) (label : String) (capacity : Nat) : Building EventPort := do
  return { ← PortFace.create id label with queue := .empty capacity }

def clear (p : EventPort) : EventPort := { p with queue := p.queue.clear }

/-- Appends the events of `src` that lie in the window; answers how many were queued. -/
def appendWindow (w : Window) (dst src : EventPort) : Nat × EventPort :=
  let (count, queue) := EventQueue.appendWindow w dst.queue src.queue
  (count, { dst with queue })

def pushAll (p : EventPort) (events : List Event) : List Bool × EventPort :=
  let (queued, queue) := p.queue.pushAll events
  (queued, { p with queue })

end EventPort

/-- A port with one value. It keeps the value from block to block. -/
structure ControlPort extends PortFace where
  value : Float32
  /-- The value that the port was made with. -/
  initial : Float32
  deriving DecidableEq

namespace ControlPort

/-- A switch whose value is above this counts as on. -/
def toggleThreshold : Float32 := Float32.ofBits 0x3a83126f

def create (id : PortId) (label : String) (value : Float32) : Building ControlPort := do
  return { ← PortFace.create id label with value, initial := value }

def set (p : ControlPort) (value : Float32) : ControlPort := { p with value }

def reset (p : ControlPort) : ControlPort := p.set p.initial

def isOn (p : ControlPort) : Bool := decide (toggleThreshold < p.value)

def switch (p : ControlPort) (on : Bool) : ControlPort := p.set (if on then 1 else 0)

@[simp] theorem set_value (p : ControlPort) (value : Float32) : (p.set value).value = value := rfl

@[simp] theorem isOn_switch (p : ControlPort) (on : Bool) : (p.switch on).isOn = on := by
  cases on
  · show decide (toggleThreshold < (0 : Float32)) = false
    decide +kernel
  · show decide (toggleThreshold < (1 : Float32)) = true
    decide +kernel

end ControlPort

end MixerRouting
