/-!
# Misuse

An operation can fail for a cause of its own domain or because it was called
where it must not be. Changes of the topology belong to the control thread:
each checks the mark of the render thread before it does anything else.
-/
namespace MixerRouting

/-- The operations that are refused on the render thread. -/
inductive TopologyChange where
  | connect
  | disconnect
  | disconnectPort
  | disconnectPorts
  | replace
  | reset
  | restore
  | reindex
  | publish
  | setBase
  deriving DecidableEq, Repr

/-- The name under which a refusal reports the operation. -/
def TopologyChange.name : TopologyChange → String
  | .connect => "ensure_connect"
  | .disconnect => "ensure_disconnect"
  | .disconnectPort => "ensure_disconnect_all"
  | .disconnectPorts => "ensure_disconnect_all_of"
  | .replace => "replace_connection"
  | .reset => "reset_connections"
  | .restore => "reset_from"
  | .reindex => "regenerate_hashtables"
  | .publish => "publish_routes"
  | .setBase => "set_base_value"

inductive Misuse where
  | whileRendering (change : TopologyChange)
  /-- A sum does not fit into its word. -/
  | overflow
  deriving DecidableEq, Repr

def Misuse.message : Misuse → String
  | .whileRendering change => s!"{change.name} called on the processing thread"
  | .overflow => "attempt to add with overflow"

/-- A failure: a cause of the domain, or misuse. -/
inductive Fault (ε : Type) where
  | cause (e : ε)
  | misuse (m : Misuse)
  deriving DecidableEq, Repr

def Fault.map {ε ε' : Type} (f : ε → ε') : Fault ε → Fault ε'
  | .cause e => .cause (f e)
  | .misuse m => .misuse m

@[simp] theorem Fault.map_cause {ε ε' : Type} (f : ε → ε') (e : ε) :
    (Fault.cause e).map f = .cause (f e) := rfl

@[simp] theorem Fault.map_misuse {ε ε' : Type} (f : ε → ε') (m : Misuse) :
    (Fault.misuse m : Fault ε).map f = .misuse m := rfl

end MixerRouting
