import MixerRouting.Port.Bundle

/-!
# Failed send operations
-/
namespace MixerRouting

inductive SendError where
  /-- The check of compatibility refused a pair of ports. -/
  | rejected (src dest : PortId)
  /-- The target carries another signal than the send. -/
  | mismatch (expected found : Signal)
  | lookup (e : LookupError)
  deriving DecidableEq, Repr

def SendError.message : SendError → String
  | .rejected src dest => s!"cannot connect {src.text} to {dest.text}"
  | .mismatch expected found =>
    s!"send carries {expected.text} signal, target is {found.text}"
  | .lookup e => e.message

end MixerRouting
