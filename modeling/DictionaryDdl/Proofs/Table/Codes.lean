import DictionaryDdl.Proofs.Table.Success
import DictionaryDdl.Table.Error

/-!
The codes that each vocabulary of the dictionary knows. Partition codes differ from the others in
that zero is known and stands for no method at all.
-/

namespace DictionaryDdl

theorem known_eq_ok {α : Type} {kind : CodeKind} {code : UInt32} {meaning? : Option α}
    {meaning : α} : known kind code meaning? = .ok meaning ↔ meaning? = some meaning := by
  cases meaning? <;> simp [known]

theorem succeeds_known {α : Type} {kind : CodeKind} {code : UInt32} {meaning? : Option α} :
    Succeeds (known kind code meaning?) ↔ meaning?.isSome = true := by
  cases meaning? <;> simp [known]

theorem IndexKind.succeeds_ofCode {code : UInt32} :
    Succeeds (ofCode code) ↔ 1 ≤ code ∧ code ≤ 5 := by
  rw [ofCode, succeeds_known, UInt32.le_iff_toNat_le, UInt32.le_iff_toNat_le]
  unfold ofCode?
  split <;> simp_all
  omega

theorem RowFormat.succeeds_ofCode {code : UInt32} :
    Succeeds (ofCode code) ↔ 1 ≤ code ∧ code ≤ 6 := by
  rw [ofCode, succeeds_known, UInt32.le_iff_toNat_le, UInt32.le_iff_toNat_le]
  unfold ofCode?
  split <;> simp_all
  omega

theorem ReferentialAction.succeeds_ofCode {code : UInt32} :
    Succeeds (ofCode code) ↔ 1 ≤ code ∧ code ≤ 5 := by
  rw [ofCode, succeeds_known, UInt32.le_iff_toNat_le, UInt32.le_iff_toNat_le]
  unfold ofCode?
  split <;> simp_all
  omega

namespace PartitionMethod

theorem isSome_ofCode? {code : UInt32} : (ofCode? code).isSome = true ↔ code ≤ 10 := by
  rw [UInt32.le_iff_toNat_le]
  unfold ofCode?
  split <;> simp_all
  omega

theorem ofCode?_eq_none {code : UInt32} : ofCode? code = some none ↔ code = 0 := by
  rw [← UInt32.toNat_inj]
  unfold ofCode?
  split <;> simp_all

theorem isSome_ofSubCode? {code : UInt32} : (ofSubCode? code).isSome = true ↔ code ≤ 6 := by
  unfold ofSubCode?
  split
  · next hcode =>
      have hwide : code ≤ 10 := UInt32.le_trans hcode (by decide)
      simp [isSome_ofCode?, hcode, hwide]
  · next hcode => simp [hcode]

theorem ofSubCode?_eq_none {code : UInt32} : ofSubCode? code = some none ↔ code = 0 := by
  unfold ofSubCode?
  split
  · exact ofCode?_eq_none
  · next hcode =>
      constructor
      · intro h
        cases h
      · rintro rfl
        exact absurd (by decide) hcode

end PartitionMethod

end DictionaryDdl
