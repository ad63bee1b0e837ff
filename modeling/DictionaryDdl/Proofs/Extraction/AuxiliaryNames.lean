import DictionaryDdl.Extraction
import DictionaryDdl.Proofs.Text.Delimited
import DictionaryDdl.Proofs.Text.Languages

/-!
Which file names belong to the auxiliary tablespaces of full-text indexes. The names are given as a
regular language first, and the recogniser is shown to accept its words and nothing else. What the
words look like is then said part by part: which table the file is for, and what it holds.

Some of the alternatives are beginnings of others, `deleted` of `deleted_cache` for one. The
recogniser need not choose between them, since each has to be followed by the extension at once.
-/

namespace DictionaryDdl

namespace Tablespace

open Text (only oneOf)

variable {cs : List Char} {text : String}

/-! ### The names -/

def hexadecimalDigits : Set Char :=
  {c | ('a' ≤ c ∧ c ≤ 'f') ∨ ('0' ≤ c ∧ c ≤ '9')}

/-- Sixteen hexadecimal digits, in small letters. -/
def IsId (id : String) : Prop :=
  id.length = 16 ∧ ∀ c ∈ id.toList, c ∈ hexadecimalDigits

/-- One or more decimal digits, of any script. -/
def IsNumber (number : String) : Prop :=
  number ≠ "" ∧ ∀ c ∈ number.toList, c ∈ Text.decimalDigits.characters

/-- What an auxiliary tablespace holds: a part of one index, or what the indexes of a table have in
common. -/
def IsRole (role : String) : Prop :=
  (∃ id number : String, IsId id ∧ IsNumber number ∧ role = id ++ "_index_" ++ number) ∨
    role ∈ ["being_deleted", "being_deleted_cache", "config", "deleted", "deleted_cache"]

def ids : Language Char :=
  oneOf hexadecimalDigits ^ 16

def numbers : Language Char :=
  Text.someOf Text.decimalDigits.characters

def commonRoles : Language Char :=
  only "being_deleted" + only "being_deleted_cache" + only "config" + only "deleted" +
    only "deleted_cache"

/-- The file names of the auxiliary tablespaces. -/
def auxiliaryNames : Language Char :=
  only "fts_" * ids * only "_" * (ids * only "_index_" * numbers + commonRoles) * only ".ibd"

theorem mem_ids : text.toList ∈ ids ↔ IsId text := by
  rw [ids, Text.mem_oneOf_pow, String.length_toList, IsId]

theorem mem_numbers : text.toList ∈ numbers ↔ IsNumber text := by
  rw [numbers, Text.mem_someOf, ne_eq, String.toList_eq_nil_iff, IsNumber]

theorem mem_commonRoles : cs ∈ commonRoles ↔ ∃ table ∈ commonTables, cs = table.toList := by
  simp only [commonRoles, commonTables, Language.mem_add, Text.mem_only, or_assoc,
    List.exists_mem_cons_iff, List.not_mem_nil, false_and, exists_false, or_false]

theorem mem_roles : text.toList ∈ ids * only "_index_" * numbers + commonRoles ↔ IsRole text := by
  rw [Language.mem_add, mem_commonRoles]
  apply or_congr
  · simp only [Text.toList_mem_mul, Text.toList_mem_only, mem_ids, mem_numbers, exists_and_left,
      exists_eq_left]
    constructor
    · rintro ⟨_, ⟨id, hid, rfl⟩, number, hnumber, rfl⟩
      exact ⟨id, hid, number, hnumber, rfl⟩
    · rintro ⟨id, hid, number, hnumber, rfl⟩
      exact ⟨_, ⟨id, hid, rfl⟩, number, hnumber, rfl⟩
  · simp only [String.toList_inj, exists_eq_right']
    rfl

theorem mem_auxiliaryNames :
    text.toList ∈ auxiliaryNames ↔
      ∃ id role : String, IsId id ∧ IsRole role ∧ text = "fts_" ++ id ++ "_" ++ role ++ ".ibd" := by
  simp only [auxiliaryNames, Text.toList_mem_mul, Text.toList_mem_only, mem_ids, mem_roles,
    exists_and_left, exists_eq_left]
  constructor
  · rintro ⟨_, ⟨_, ⟨_, ⟨id, hid, rfl⟩, rfl⟩, role, hrole, rfl⟩, rfl⟩
    exact ⟨id, hid, role, hrole, rfl⟩
  · rintro ⟨id, hid, role, hrole, rfl⟩
    exact ⟨_, ⟨_, ⟨_, ⟨id, hid, rfl⟩, rfl⟩, role, hrole, rfl⟩, rfl⟩

/-! ### Taking the parts off a name -/

theorem isHexadecimal_iff (c : Char) : isHexadecimal c = true ↔ c ∈ hexadecimalDigits := by
  simp only [isHexadecimal, Bool.or_eq_true, Bool.and_eq_true, decide_eq_true_eq]
  exact or_comm

theorem takes_afterId? : Text.Takes afterId? ids := by
  intro cs rest
  simp only [afterId?, Option.ite_none_right_eq_some, List.all_eq_true, isHexadecimal_iff,
    Option.some.injEq]
  constructor
  · rintro ⟨hid, rfl⟩
    exact ⟨cs.take 16, Text.mem_oneOf_pow.mpr hid, List.take_append_drop 16 cs⟩
  · rintro ⟨id, hid, rfl⟩
    have hid : id.length = 16 ∧ ∀ c ∈ id, c ∈ hexadecimalDigits := Text.mem_oneOf_pow.mp hid
    rw [List.take_left' hid.1, List.drop_left' hid.1]
    exact ⟨hid, rfl⟩

theorem takes_after? (start : String) : Text.Takes (after? start) (only start) := by
  intro cs rest
  simp only [after?, Option.ite_none_right_eq_some, List.isPrefixOf_iff_prefix, Option.some.injEq,
    Text.mem_only, exists_eq_left]
  constructor
  · rintro ⟨⟨_, rfl⟩, rfl⟩
    rw [List.drop_left]
  · rintro rfl
    exact ⟨List.prefix_append _ _, List.drop_left⟩

theorem isExtension_iff (cs : List Char) : isExtension cs = true ↔ cs ∈ only ".ibd" := by
  rw [isExtension, beq_iff_eq, Text.mem_only]

/-- The extension starts with a dot, which is no digit, so the longest run of digits is the number
and nothing shorter need be tried. -/
theorem isIndexTable_iff (cs : List Char) :
    isIndexTable cs = true ↔ cs ∈ numbers * only ".ibd" := by
  simp only [isIndexTable, Bool.and_eq_true, Bool.not_eq_true', List.isEmpty_eq_false_iff,
    isExtension_iff, Language.mem_mul, numbers, Text.mem_someOf]
  constructor
  · rintro ⟨hne, hextension⟩
    refine ⟨cs.takeWhile isIndexTable.isDecimal, ⟨hne, fun c hc => ?_⟩, _, hextension, ?_⟩
    · exact Text.isDecimalDigit_iff.mp (List.all_eq_true.mp List.all_takeWhile c hc)
    · exact List.prefix_iff_eq_append.mp (List.takeWhile_prefix _)
  · rintro ⟨digits, ⟨hne, hdigits⟩, _, rfl, rfl⟩
    have hdecimal : ∀ c ∈ digits, isIndexTable.isDecimal c = true :=
      fun c hc => Text.isDecimalDigit_iff.mpr (hdigits c hc)
    have hdot : isIndexTable.isDecimal '.' = false := by decide
    have hends : Text.EndsRun isIndexTable.isDecimal ".ibd".toList := by
      simp [Text.EndsRun, hdot]
    rw [Text.takeWhile_run hdecimal hends, List.drop_left]
    exact ⟨hne, rfl⟩

theorem isCommonTable_iff (cs : List Char) :
    commonTables.any (fun table => (after? table cs).any isExtension) = true ↔
      cs ∈ commonRoles * only ".ibd" := by
  simp only [List.any_eq_true, (takes_after? _).any_iff isExtension_iff, Language.mem_mul,
    mem_commonRoles, Text.mem_only]
  constructor
  · rintro ⟨table, htable, _, rfl, hextension⟩
    exact ⟨_, ⟨table, htable, rfl⟩, hextension⟩
  · rintro ⟨_, ⟨table, htable, rfl⟩, hextension⟩
    exact ⟨table, htable, _, rfl, hextension⟩

theorem isFullTextAuxiliary_iff_mem (fileName : String) :
    isFullTextAuxiliary fileName = true ↔ fileName.toList ∈ auxiliaryNames := by
  have hfront := ((takes_after? "fts_").bind takes_afterId?).bind (takes_after? "_")
  have hindex := takes_afterId?.bind (takes_after? "_index_")
  -- Behind the second underscore both kinds of tablespace are recognised up to the end of the name.
  have hrest (rest : List Char) :
      (commonTables.any (fun table => (after? table rest).any isExtension) ||
        ((afterId? rest).bind (after? "_index_")).any isIndexTable) = true ↔
      rest ∈ (ids * only "_index_" * numbers + commonRoles) * only ".ibd" := by
    rw [Bool.or_eq_true, isCommonTable_iff, hindex.any_iff isIndexTable_iff, add_mul,
      Language.mem_add, or_comm, mul_assoc _ numbers]
  rw [auxiliaryNames, mul_assoc, ← hfront.any_iff hrest, isFullTextAuxiliary]
  cases ((after? "fts_" fileName.toList).bind afterId?).bind (after? "_") with
  | none => rfl
  | some rest => rfl

/-- A tablespace is taken for an auxiliary one exactly if its file name is `fts_`, the number of a
table, an underscore, what the tablespace holds and the extension, with nothing before or behind
them. -/
theorem isFullTextAuxiliary_iff (fileName : String) :
    isFullTextAuxiliary fileName = true ↔
      ∃ id role : String, IsId id ∧ IsRole role ∧
        fileName = "fts_" ++ id ++ "_" ++ role ++ ".ibd" := by
  rw [isFullTextAuxiliary_iff_mem, mem_auxiliaryNames]

/-- The digits of the number may be those of another script. A name that goes on behind one of the
alternatives is none of these names. -/
example : isFullTextAuxiliary "fts_0000000000000437_00000000000004d2_index_\u0663.ibd" = true ∧
    isFullTextAuxiliary "fts_0000000000000437_deleted_config.ibd" = false := by decide +kernel

end Tablespace

end DictionaryDdl
