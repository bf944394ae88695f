import MixerRouting.Send.Basic
import MixerRouting.Send.Error

/-!
# Saved sends
-/
namespace MixerRouting

/-- What a project keeps of a send. -/
structure SendRecord where
  slot : UInt8
  amount : Float32
  enabled : Bool
  sidechain : Bool
  amountPort : PortId
  enabledPort : PortId
  inputs : Bundle
  outputs : Bundle
  deriving DecidableEq

/-- Equality of all fields with the amounts compared as numbers. -/
def SendRecord.agrees (a b : SendRecord) : Bool :=
  a.slot = b.slot && a.amount == b.amount && a.enabled = b.enabled && a.sidechain = b.sidechain
    && a.amountPort = b.amountPort && a.enabledPort = b.enabledPort && a.inputs = b.inputs
    && a.outputs = b.outputs

namespace Send

def record (s : Send) : SendRecord where
  slot := s.slot
  amount := s.amount.value
  enabled := s.isOn
  sidechain := s.sidechain
  amountPort := s.amount.id
  enabledPort := s.enabled.id
  inputs := s.inputs
  outputs := s.outputs

/-- Takes over amount, switch and sidechain flag of a record for the same signal. -/
def applyRecord (s : Send) (r : SendRecord) : Except SendError Send :=
  if r.outputs.signal = s.signal then
    .ok { s with
      amount := s.amount.set r.amount
      enabled := s.enabled.switch r.enabled
      sidechain := r.sidechain }
  else .error (.mismatch s.signal r.outputs.signal)

end Send

end MixerRouting
