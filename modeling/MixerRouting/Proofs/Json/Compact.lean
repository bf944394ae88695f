import MixerRouting.Json.Compact
import MixerRouting.Proofs.Json.Laws
import MixerRouting.Proofs.Json.Numbers
import MixerRouting.Proofs.Json.Texts

/-!
# Compact texts keep to what is assumed

The library of compact texts is one to which projects can be saved: it reads
back every value, finds fields by their names if no name occurs twice, and
refuses no finite number.
-/
namespace MixerRouting

namespace JsonValue

/-- Where no name occurs twice, a field is looked up by its name. -/
theorem field?_eq_lookup {fields : List (String × JsonValue)} (hd : (fields.map Prod.fst).Nodup)
    (name : String) : field? fields name = some (List.lookup name fields) := by
  induction fields with
  | nil => rfl
  | cons field rest ih =>
    obtain ⟨key, v⟩ := field
    obtain ⟨hnew, hrest⟩ := List.nodup_cons.mp hd
    by_cases hname : key = name
    · subst hname
      have hnone : (rest.filter fun f => f.1 = key) = [] := by
        rw [List.filter_eq_nil_iff]
        intro f hf h
        exact hnew (List.mem_map.mpr ⟨f, hf, of_decide_eq_true h⟩)
      simp [field?, hnone]
    · have hskip : field? ((key, v) :: rest) name = field? rest name := by
        simp [field?, hname]
      have hbeq : (name == key) = false := beq_false_of_ne (Ne.symm hname)
      rw [hskip, ih hrest, List.lookup_cons, hbeq]

theorem fields?_record {fields : List (String × JsonValue)} (hd : (fields.map Prod.fst).Nodup)
    (names : List String) :
    (record fields).fields? names = some (names.map fun name => List.lookup name fields) := by
  have hnames : (fields.map fun field => (some field.1, field.2)).mapM
      (fun field => field.1.map fun name => (name, field.2)) = some fields := by
    induction fields with
    | nil => rfl
    | cons field rest ih => simp [ih hd.of_cons]
  have hlookup : names.mapM (field? fields) =
      some (names.map fun name => List.lookup name fields) := by
    induction names with
    | nil => rfl
    | cons name rest ih => simp [field?_eq_lookup hd, ih]
  rw [record, fields?, hnames]
  exact hlookup

theorem nat?_ofNat {n bound : Nat} (h : n ≤ bound) : (ofNat n).nat? bound = some n := by
  simp [ofNat, nat?, Numeral.isInteger, h]

theorem ofSingle_eq_null {x : Float32} (h : (FloatValue.ofSingle x).isFinite = false) :
    ofSingle x = .null := by
  unfold ofSingle
  split
  next negative units scale hx =>
    rw [hx] at h
    cases h
  next => rfl

end JsonValue

theorem JsonCodec.lawful_compact : compact.Lawful where
  parse?_print v _ := JsonValue.parse?_render v
  fields?_record _ names hd _ := JsonValue.fields?_record hd names
  variant?_tagged _ _ := rfl
  variant?_ofString _ := rfl
  unit?_ofString _ := rfl
  nat?_ofNat _ _ h := JsonValue.nat?_ofNat h
  bool?_bool _ := rfl
  optionalString?_ofString _ := rfl
  single?_ofSingle _ h := JsonValue.isSome_single?_ofSingle h
  ofSingle_eq_null _ h := JsonValue.ofSingle_eq_null h
  single?_null := rfl

end MixerRouting
