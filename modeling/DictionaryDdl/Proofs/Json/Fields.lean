import DictionaryDdl.Json.Record
import DictionaryDdl.Proofs.Json.Ordering

/-!
The fields of records that are read from an object of all of them. Each field is found by its name,
in whatever order the members stand, and a record none of whose fields is bad is accepted. Of what
is said of bad or missing fields nothing is shown here.
-/

namespace DictionaryDdl.Json

variable {α : Type} {type : RecordType} {members : List (String × Json)} {name : String}
  {value : Json} {x : α}

theorem asUInt32_ofNat (n : UInt32) : asUInt32 (ofNat n.toNat) = .ok n := by
  have hlt := n.toNat_lt
  rw [ofNat, asUInt32, if_pos ⟨by omega, by exact_mod_cast hlt⟩, Int.toNat_natCast,
    UInt32.ofNat_toNat]

theorem asUInt64_ofNat (n : UInt64) : asUInt64 (ofNat n.toNat) = .ok n := by
  have hlt := n.toNat_lt
  rw [ofNat, asUInt64, if_pos ⟨by omega, by exact_mod_cast hlt⟩, Int.toNat_natCast,
    UInt64.ofNat_toNat]

/-- A list is read if each of its items is. -/
theorem asList_ordered {toJson : α → Json} {item : Json → Except Mismatch α} {xs : List α}
    (h : ∀ x ∈ xs, item (toJson x).ordered = .ok x) :
    asList item (ordered (.array (xs.map toJson))) = .ok xs := by
  rw [ordered, orderedItems_eq_map, asList, List.map_map]
  induction xs with
  | nil => rfl
  | cons x more ih =>
      rw [List.forall_mem_cons] at h
      rw [List.map_cons, List.mapM_cons, Function.comp_apply, h.1, ih h.2]
      rfl

/-- What an object of all fields gives for a record. -/
theorem RecordType.fieldsOf_ordered (hvalue : value = .object members)
    (hnames : members.map (·.1) = type.fields) (hnodup : type.fields.Nodup) :
    ∃ fields, type.fieldsOf value.ordered = .ok fields ∧ fields.surplus = none ∧
      ∀ {α : Type} (name : String) (found : Json) (decode : Json → Except Mismatch α) (x : α),
        value.get? name = some found → decode found.ordered = .ok x →
          fields.read name decode = some (.ok x) := by
  have hget := get?_ordered hvalue (hnames ▸ hnodup)
  subst hvalue
  refine ⟨_, rfl, rfl, fun name found decode x hfound hdecode => ?_⟩
  have hlookup := hget name
  rw [hfound, ordered, ofMembers, get?] at hlookup
  rw [Fields.read, hlookup, Option.map_some, Option.map_some, hdecode]

/-- A record without bad fields is accepted. -/
theorem Fields.check_eq_ok {fields : Fields} {faults : List (String × Option Mismatch)}
    (h : ∀ fault ∈ faults, fault.2 = none) : fields.check faults = .ok () := by
  have hfault (name : String) : (faults.lookup name).join = none := by
    cases hlookup : faults.lookup name with
    | none => rfl
    | some fault =>
        obtain ⟨before, after, rfl, -⟩ := List.lookup_eq_some_iff.mp hlookup
        exact h (name, fault) (by simp)
  have hnone : fields.firstFault? faults = none :=
    List.findSome?_eq_none_iff.mpr fun member _ => hfault member.1
  rw [Fields.check, hnone]

end DictionaryDdl.Json
