import MixerRouting.Settings.Basic
import MixerRouting.Toml.Codec

/-!
# Settings files

A settings file is a TOML text with one field for each setting. A setting that
the text does not mention has its default, and what is not a setting is passed
over. Settings that are read are checked; settings that are written are not.
-/
namespace MixerRouting.Settings

/-! ### Reading -/

/-- What a field is taken for; the default if there is no such field. -/
def readOr {α : Type} (read : TomlValue → Option α) (default : α) : Option TomlValue → Option α
  | none => some default
  | some v => read v

variable (c : TomlCodec)

/-- The settings that fields make up, whether or not they are in range. -/
def ofFields? (fields : List (String × TomlValue)) : Option Settings := do
  let defaults : Settings := {}
  let get (key : String) : Option TomlValue := fields.lookup key
  return {
    blockLength := ← readOr c.size? defaults.blockLength (get "block_length")
    sendSlots := ← readOr c.size? defaults.sendSlots (get "send_slots")
    postFaderStart := ← readOr c.size? defaults.postFaderStart (get "post_fader_start_slot")
    unityEpsilon := ← readOr c.single? defaults.unityEpsilon (get "unity_epsilon")
    eventCapacity := ← readOr c.size? defaults.eventCapacity (get "midi_event_capacity") }

/-- The settings of a text, in range. -/
def parse (text : String) : Except SettingsError Settings :=
  match (c.parse? text).bind (ofFields? c) with
  | none => .error .malformed
  | some s =>
    match s.check with
    | .ok () => .ok s
    | .error fault => .error (.ofFault fault)

/-- The settings of a file with the given contents, `none` for a file that does not exist. -/
def load (path : String) (contents : Option ByteArray) : Except SettingsError Settings :=
  match contents with
  | none => .error (.unreadable path "no such file")
  | some bytes =>
    match String.fromUTF8? bytes with
    | none => .error (.unreadable path "not a text in UTF-8")
    | some text => parse c text

/-! ### Writing -/

/-- All settings in their order. The tolerance is written in double precision. -/
def fields (s : Settings) : List (String × TomlNumber) :=
  [("block_length", .size s.blockLength), ("send_slots", .size s.sendSlots),
    ("post_fader_start_slot", .size s.postFaderStart),
    ("unity_epsilon", .double (FloatFormat.double.ofValue (FloatValue.ofSingle s.unityEpsilon))),
    ("midi_event_capacity", .size s.eventCapacity)]

/-- The text of a settings file. -/
def text (s : Settings) : Except SettingsError String :=
  match c.print? s.fields with
  | some text => .ok text
  | none => .error .unrepresentable

/-- What is written to the file; writing fails if its directory does not exist. -/
def save (s : Settings) (path : String) (writable : Bool) : Except SettingsError String := do
  let text ← s.text c
  if writable then return text else throw (.unwritable path "no such directory")

end MixerRouting.Settings
