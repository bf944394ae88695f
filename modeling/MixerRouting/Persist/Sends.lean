import MixerRouting.Persist.Ports
import MixerRouting.Send.Record

/-!
# Saved sends as text

The JSON form of what a project keeps of a send. Every field is required.
-/
namespace MixerRouting.SendRecord

variable (c : JsonCodec)

def toJson (r : SendRecord) : JsonValue :=
  .record [("slot", .ofNat r.slot.toNat), ("amount", c.ofSingle r.amount),
    ("enabled", .bool r.enabled), ("is_sidechain", .bool r.sidechain),
    ("amount_port", r.amountPort.toJson), ("enabled_port", r.enabledPort.toJson),
    ("inputs", r.inputs.toJson), ("outputs", r.outputs.toJson)]

def ofJson? (v : JsonValue) : Option SendRecord :=
  match c.fields? ["slot", "amount", "enabled", "is_sidechain", "amount_port", "enabled_port",
    "inputs", "outputs"] v with
  | some [some slot, some amount, some enabled, some sidechain, some amountPort,
      some enabledPort, some inputs, some outputs] => do
    return {
      slot := ← Owner.slotOfJson? c slot
      amount := ← c.single? amount
      enabled := ← c.bool? enabled
      sidechain := ← c.bool? sidechain
      amountPort := ← PortId.ofJson? c amountPort
      enabledPort := ← PortId.ofJson? c enabledPort
      inputs := ← Bundle.ofJson? c inputs
      outputs := ← Bundle.ofJson? c outputs }
  | _ => none

end MixerRouting.SendRecord
