import MixerRouting.Number.Numeral

/-!
# Values of a settings text

The values of TOML 1.0. Floating-point numbers are kept as what they are in
double precision, dates and times as they are written.
-/
namespace MixerRouting

inductive TomlValue where
  | string (s : String)
  | integer (i : Int)
  | float (v : FloatValue)
  | boolean (b : Bool)
  | dateTime (written : String)
  | array (items : List TomlValue)
  | table (fields : List (String × TomlValue))
  deriving Inhabited

end MixerRouting
