import MixerRouting.Number.Numeral

/-!
# Mixer settings

Sizes and tolerances that all channels of a mixer share. Every setting has a
default. `check` finds the first setting that is out of range.
-/
namespace MixerRouting

structure Settings where
  /-- Samples per buffer; no block is longer. -/
  blockLength : Nat := 4096
  /-- Sends per channel. -/
  sendSlots : Nat := 9
  /-- The first slot that taps the signal behind the fader. -/
  postFaderStart : Nat := 6
  /-- How far from one a send amount may be to count as one: a hundred-thousandth. -/
  unityEpsilon : Float32 := Float32.ofBits 0x3727c5ac
  /-- Events that a queue has room for. -/
  eventCapacity : Nat := 128
  deriving DecidableEq

inductive SettingFault where
  | noBlockLength
  | noEventCapacity
  | tooManySlots (slots : Nat)
  | startBeyondSlots (start slots : Nat)
  | badEpsilon (epsilon : Float32)
  deriving DecidableEq

namespace Settings

def maxSlots : Nat := 255

def check (s : Settings) : Except SettingFault Unit :=
  if s.blockLength = 0 then .error .noBlockLength
  else if s.eventCapacity = 0 then .error .noEventCapacity
  else if maxSlots < s.sendSlots then .error (.tooManySlots s.sendSlots)
  else if s.sendSlots < s.postFaderStart then
    .error (.startBeyondSlots s.postFaderStart s.sendSlots)
  else if !s.unityEpsilon.isFinite || decide (s.unityEpsilon < 0) then
    .error (.badEpsilon s.unityEpsilon)
  else .ok ()

end Settings

namespace SettingFault

/-- A number in a message has the fewest digits that read back, and never an exponent. -/
def numberStyle : NumberStyle := ⟨.up, none, false, "NaN"⟩

def reason : SettingFault → String
  | .noBlockLength => "block_length must be > 0"
  | .noEventCapacity => "midi_event_capacity must be > 0"
  | .tooManySlots slots => s!"send_slots must be <= {Settings.maxSlots}, got {slots}"
  | .startBeyondSlots start slots =>
    s!"post_fader_start_slot ({start}) exceeds send_slots ({slots})"
  | .badEpsilon epsilon =>
    "unity_epsilon must be finite and >= 0, got "
      ++ numberStyle.text .single (FloatValue.ofSingle epsilon)

end SettingFault

/-- Why settings cannot be read, written or used. -/
inductive SettingsError where
  | unreadable (path reason : String)
  | unwritable (path reason : String)
  /-- The text is not in the format of settings files. -/
  | malformed
  /-- A number is too large for the format of settings files. -/
  | unrepresentable
  | invalid (reason : String)
  deriving DecidableEq, Repr

namespace SettingsError

def ofFault (f : SettingFault) : SettingsError := .invalid f.reason

/-- The message, as far as this library decides it. -/
def message? : SettingsError → Option String
  | .unreadable path reason => some ("failed to read file '" ++ path ++ "': " ++ reason)
  | .unwritable path reason => some ("failed to write file '" ++ path ++ "': " ++ reason)
  | .malformed | .unrepresentable => none
  | .invalid reason => some s!"invalid mixer config: {reason}"

end SettingsError

end MixerRouting
