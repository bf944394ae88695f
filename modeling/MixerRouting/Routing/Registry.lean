import MixerRouting.Routing.Routes
import MixerRouting.Table
import MixerRouting.Wiring.Error

/-!
# The registry of ports, tracks and plugins

Wires know ports by identity only. The registry turns identities and numbers
back into things: a port's label and slot, a track's name, a plugin. Every
lookup may fail, so an identity that outlived its port shows as an error.

A plugin is known through the handle of its registration. Registering the
same number again makes a new handle; whoever kept the old one still sees the
plugin that it was given for, and whether that plugin failed.
-/
namespace MixerRouting

structure RegisteredPort where
  label : String
  slot : RouteSlot
  deriving DecidableEq, Repr

structure Plugin where
  name : String
  /-- The track that hosts the plugin. -/
  track : Option OwnerId
  /-- Whether the plugin failed to start. -/
  failed : Bool := false
  deriving DecidableEq, Repr

structure Registry where
  ports : Table PortId RegisteredPort := ∅
  tracks : Table OwnerId String := ∅
  plugins : Table OwnerId PluginHandle := ∅
  /-- The plugin of every handle that was given out. -/
  descriptors : List Plugin := []

namespace Registry

instance : Inhabited Registry := ⟨{}⟩

/-! ### Ports -/

/-- Registers a port; answers whether its identity is new. -/
def registerPort (r : Registry) (id : PortId) (label : String) (slot : RouteSlot) :
    Bool × Registry :=
  (!r.ports.contains id, { r with ports := r.ports.insert id ⟨label, slot⟩ })

def unregisterPort (r : Registry) (id : PortId) : Registry :=
  { r with ports := r.ports.erase id }

def port (r : Registry) (id : PortId) : Except LookupError RegisteredPort :=
  match r.ports.get? id with
  | some port => .ok port
  | none => .error (.missingPort id)

def containsPort (r : Registry) (id : PortId) : Bool := r.ports.contains id

def portCount (r : Registry) : Nat := r.ports.size

/-! ### Tracks -/

/-- Registers or renames a track. -/
def registerTrack (r : Registry) (id : OwnerId) (name : String) : Registry :=
  { r with tracks := r.tracks.insert id name }

def unregisterTrack (r : Registry) (id : OwnerId) : Registry :=
  { r with tracks := r.tracks.erase id }

def track (r : Registry) (id : OwnerId) : Except LookupError String :=
  match r.tracks.get? id with
  | some name => .ok name
  | none => .error (.missingTrack id)

/-! ### Plugins -/

def registerPlugin (r : Registry) (id : OwnerId) (name : String) (track : Option OwnerId) :
    PluginHandle × Registry :=
  let handle : PluginHandle := ⟨r.descriptors.length⟩
  (handle, { r with
    plugins := r.plugins.insert id handle
    descriptors := r.descriptors ++ [{ name, track }] })

def unregisterPlugin (r : Registry) (id : OwnerId) : Registry :=
  { r with plugins := r.plugins.erase id }

/-- The plugin of a handle, as it is now. -/
def descriptor? (r : Registry) (handle : PluginHandle) : Option Plugin :=
  r.descriptors[handle.index]?

/-- Marks the plugin of a handle as failed or as running. -/
def setFailed (r : Registry) (handle : PluginHandle) (failed : Bool) : Registry :=
  { r with descriptors := r.descriptors.modify handle.index fun p => { p with failed } }

/-- The registered plugin with a number. -/
def plugin? (r : Registry) (id : OwnerId) : Option Plugin :=
  (r.plugins.get? id).bind r.descriptor?

def plugin (r : Registry) (id : OwnerId) : Except LookupError Plugin :=
  match r.plugin? id with
  | some plugin => .ok plugin
  | none => .error (.missingPlugin id)

/-- The handle of the plugin that owns a port. -/
def hostOf (r : Registry) (id : PortId) : Option PluginHandle :=
  id.owner.plugin?.bind r.plugins.get?

def pluginOf (r : Registry) (id : PortId) : Option Plugin := (r.hostOf id).bind r.descriptor?

/-! ### Joined lookups -/

/-- The track that a port belongs to; a plugin's port belongs to the track that hosts it. -/
def trackOf (r : Registry) (id : PortId) : Option OwnerId :=
  match id.owner.track? with
  | some track => some track
  | none => (r.pluginOf id).bind Plugin.track

/-- The port at one end of a wire. The plugin of a plugin's port has to be registered too. -/
def endpoint (r : Registry) (id : PortId) : Except LookupError RegisteredPort := do
  let port ← r.port id
  match id.owner.plugin? with
  | some plugin => let _ ← r.plugin plugin
  | none => pure ()
  return port

/-- The name of a plugin's port group; the track is left out if it is not known. -/
def designation (r : Registry) (id : OwnerId) (group : String) : Except LookupError String := do
  let plugin ← r.plugin id
  match plugin.track.bind r.tracks.get? with
  | some track => return s!"{track}/{plugin.name}/{group}"
  | none => return s!"{plugin.name}/{group}"

/-- Whether the port at the other end of a route can take part: its plugin, if it has one, has
not failed. -/
def usable (r : Registry) (route : Route) : Bool :=
  match route.plugin.bind r.descriptor? with
  | some plugin => !plugin.failed
  | none => true

@[simp] theorem usable_of_no_plugin (r : Registry) (peer : PortId) (gain : Float32) :
    r.usable ⟨peer, gain, none⟩ = true := rfl

end Registry

end MixerRouting
