import MixerRouting.Json.Codec
import MixerRouting.Json.Fields
import MixerRouting.Json.Printer
import MixerRouting.Json.Reader

/-!
# Compact texts as a library

The printer, the reader and the views of values put together. Its texts have no
blanks, its numbers the fewest digits that read back.
-/
namespace MixerRouting

def JsonCodec.compact : JsonCodec where
  print := JsonValue.render
  parse? := JsonValue.parse?
  ofSingle := JsonValue.ofSingle
  single? := JsonValue.single?
  nat? := JsonValue.nat?
  bool? := JsonValue.bool?
  optionalString? := JsonValue.optionalString?
  fields? := JsonValue.fields?
  variant? := JsonValue.variant?
  unit? := JsonValue.unit?

end MixerRouting
