import Mathlib.Data.List.Nodup
import MixerRouting.Json.Codec
import MixerRouting.Number.Rounding

/-!
# What is assumed of the library behind saved texts

Three things: that strings, integers and what is made of them read back as
written; how the fields of records and the names of alternatives are found; and
what becomes of numbers that have no numeral. Which numeral a number gets, and
which number a numeral stands for, is left open. So is everything about texts
that no project writes.
-/
namespace MixerRouting.JsonCodec

/-- The values that a project writes: strings, integers, switches, numbers as the library writes
them, and rows and records of such values. -/
inductive Writes (c : JsonCodec) : JsonValue → Prop where
  | ofString (s : String) : Writes c (.ofString s)
  | ofNat {n : Nat} (h : n < UInt64.size) : Writes c (.ofNat n)
  | bool (b : Bool) : Writes c (.bool b)
  | ofSingle (x : Float32) : Writes c (c.ofSingle x)
  | array {items : List JsonValue} (h : ∀ v ∈ items, Writes c v) : Writes c (.array items)
  | record {fields : List (String × JsonValue)} (names : (fields.map Prod.fst).Nodup)
    (h : ∀ field ∈ fields, Writes c field.2) : Writes c (.record fields)

structure Lawful (c : JsonCodec) : Prop where
  /-- A text reads back as the value that it was written for. -/
  parse?_print : ∀ v, c.Writes v → c.parse? (c.print v) = some v
  /-- The fields of a record are found by their names, wherever they stand in it. -/
  fields?_record : ∀ (fields : List (String × JsonValue)) (names : List String),
    (fields.map Prod.fst).Nodup → fields.map Prod.fst ⊆ names →
      c.fields? names (.record fields) = some (names.map fun name => List.lookup name fields)
  /-- An alternative with a value is an object with its name as the only field. -/
  variant?_tagged : ∀ name v, c.variant? (.tagged name v) = some (name, some v)
  /-- An alternative without a value is its name. -/
  variant?_ofString : ∀ name, c.variant? (.ofString name) = some (name, none)
  unit?_ofString : ∀ name, c.unit? (.ofString name) = some name
  nat?_ofNat : ∀ n bound, n ≤ bound → c.nat? bound (.ofNat n) = some n
  bool?_bool : ∀ b, c.bool? (.bool b) = some b
  optionalString?_ofString : ∀ s, c.optionalString? (.ofString s) = some (some s)
  /-- A finite number has a numeral that stands for some number. -/
  single?_ofSingle : ∀ x, (FloatValue.ofSingle x).isFinite = true →
    (c.single? (c.ofSingle x)).isSome = true
  /-- Infinities and NaN have no numeral and are written as `null`, which is no number. -/
  ofSingle_eq_null : ∀ x, (FloatValue.ofSingle x).isFinite = false → c.ofSingle x = .null
  single?_null : c.single? .null = none

/-- What reading makes of the text of a number. -/
def reread? (c : JsonCodec) (x : Float32) : Option Float32 :=
  (c.parse? (c.print (c.ofSingle x))).bind c.single?

variable {c : JsonCodec}

theorem Writes.tagged {v : JsonValue} (h : c.Writes v) (name : String) :
    c.Writes (.tagged name v) :=
  .record (List.nodup_singleton name) (by simpa using h)

namespace Lawful

variable (hc : c.Lawful)
include hc

theorem parse?_print_bind {α : Type} (read : JsonValue → Option α) {v : JsonValue}
    (h : c.Writes v) : (c.parse? (c.print v)).bind read = read v := by
  rw [hc.parse?_print v h, Option.bind_some]

theorem single?_eq_reread? (x : Float32) : c.single? (c.ofSingle x) = c.reread? x :=
  (hc.parse?_print_bind c.single? (.ofSingle x)).symm

/-- A number reads back if and only if it is finite. -/
theorem isSome_reread? (x : Float32) :
    (c.reread? x).isSome = (FloatValue.ofSingle x).isFinite := by
  rw [← hc.single?_eq_reread?]
  cases hx : (FloatValue.ofSingle x).isFinite with
  | true => exact hc.single?_ofSingle x hx
  | false =>
    rw [hc.ofSingle_eq_null x hx, hc.single?_null]
    rfl

end Lawful

end MixerRouting.JsonCodec
