import DictionaryDdl.Proofs.Json.Lexemes
import DictionaryDdl.Proofs.Sql.DefaultClause
import DictionaryDdl.Proofs.Sql.TextReading

/-!
The default of a column, and what the server reads. A literal may be any text. It is left out,
taken over as it is, or quoted, and a quoted default reads back as it was, or with the zero date
replaced and everything behind the date kept. The forms are told apart by the text alone.

The default of a generated column is not written at all.
-/

namespace DictionaryDdl

namespace Sql

/-- The types whose defaults are expressions, not strings. -/
def bareTypes : List DataType := [.binary, .bit, .timestamp]

/-- The types whose default may be the current time. -/
def temporalTypes : List DataType := [.date, .dateTime, .timestamp, .time]

/-- The types whose zero date is replaced. -/
def dateTypes : List DataType := [.date, .dateTime]

/-- What the server is to find in a quoted default. -/
def shownDefault (type : DataType) (text : String) : List Char :=
  if type ∈ dateTypes ∧ "0000-00-00".toList <+: text.toList then
    "0000-01-01".toList ++ text.toList.drop 10
  else text.toList

/-- A text is the default clause of a literal. It is empty, or takes the literal over as it is, or
holds a string that reads back in front of any text that does not go on with it. In no form does
a date start with the zero date, and what follows the date is kept. -/
structure WritesDefault (type : DataType) (text clause : String) : Prop where
  omitted_iff : clause = "" ↔ type ∈ bareTypes ∧ (text = "" ∨ text = "0x")
  bare_iff : clause ≠ "" → (clause = " DEFAULT " ++ text ↔
    (type ∈ bareTypes ∧ ¬(type = .timestamp ∧ text.toList.head?.any Char.isDigit = true)) ∨
      (type ∈ temporalTypes ∧ "CURRENT_TIMESTAMP".toList <+: text.toList))
  quoted : clause ≠ "" → clause ≠ " DEFAULT " ++ text → ∃ quoted, clause = " DEFAULT " ++ quoted ∧
    ∀ rest, EndsText rest → readText (quoted.toList ++ rest) = some (shownDefault type text, rest)
  bare_shown : clause = " DEFAULT " ++ text → shownDefault type text = text.toList
  valid_date : type ∈ dateTypes → ¬"0000-00-00".toList <+: shownDefault type text ∧
    (shownDefault type text).drop 10 = text.toList.drop 10

theorem hasBareDefault_iff {type : DataType} : type.hasBareDefault = true ↔ type ∈ bareTypes := by
  cases type <;> simp [DataType.hasBareDefault, bareTypes]

theorem isTemporal_iff {type : DataType} : type.isTemporal = true ↔ type ∈ temporalTypes := by
  cases type <;> simp [DataType.isTemporal, temporalTypes]

theorem startsWithDigit_eq (text : String) :
    startsWithDigit text = text.toList.head?.any Char.isDigit := by
  rw [startsWithDigit, funext Text.isDigit_eq]

theorem isWrittenBare_iff {type : DataType} {text : String} : IsWrittenBare type text ↔
    (type ∈ bareTypes ∧ ¬(type = .timestamp ∧ text.toList.head?.any Char.isDigit = true)) ∨
      (type ∈ temporalTypes ∧ "CURRENT_TIMESTAMP".toList <+: text.toList) := by
  rw [IsWrittenBare, hasBareDefault_iff, isTemporal_iff, startsWithDigit_eq]
  rfl

/-! The corrected text. -/

theorem toList_defaultText (type : DataType) (text : String) :
    (defaultText type text).toList = shownDefault type text := by
  unfold defaultText shownDefault validDate
  simp only [dateTypes, List.mem_cons, List.not_mem_nil, or_false, List.isPrefixOf_iff_prefix]
  by_cases htype : type = .date ∨ type = .dateTime
  · by_cases hzero : zeroDate.toList <+: text.toList
    · rw [if_pos htype, if_pos hzero, if_pos ⟨htype, hzero⟩, String.toList_append,
        String.toList_ofList]
      rfl
    · rw [if_pos htype, if_neg hzero, if_neg (fun h => hzero h.2)]
  · rw [if_neg htype, if_neg (fun h => htype h.1)]

/-- The two dates have the same length. -/
theorem length_defaultText (type : DataType) (text : String) :
    (defaultText type text).length = text.length := by
  rw [← String.length_toList, ← String.length_toList, toList_defaultText]
  unfold shownDefault
  split
  · next hzero =>
      have hlength : 10 ≤ text.toList.length := hzero.2.length_le
      rw [List.length_append, List.length_drop]
      exact Nat.add_sub_cancel' hlength
  · rfl

theorem shownDefault_valid {type : DataType} (htype : type ∈ dateTypes) (text : String) :
    ¬"0000-00-00".toList <+: shownDefault type text ∧
      (shownDefault type text).drop 10 = text.toList.drop 10 := by
  unfold shownDefault
  split
  · refine ⟨?_, List.drop_left' rfl⟩
    simp
  · next hvalid => exact ⟨fun hzero => hvalid ⟨htype, hzero⟩, rfl⟩

/-! The clause by the dictionary's text. -/

/-- A quoted text is longer than the literal, so the two forms of a clause exclude each other. -/
theorem literal_defaultText_ne (type : DataType) (text : String) :
    literal (defaultText type text) ≠ text := by
  intro hsame
  have hlonger := length_lt_literal (defaultText type text)
  rw [hsame, length_defaultText] at hlonger
  exact Nat.lt_irrefl _ hlonger

theorem default_ne_empty (text : String) : " DEFAULT " ++ text ≠ "" := by
  intro h
  have hkeyword : (" DEFAULT " : String) = "" := (String.append_eq_empty_iff.mp h).1
  exact absurd hkeyword (by decide)

theorem defaultClause_eq_empty_iff {type : DataType} {text : String} :
    defaultClause type text = "" ↔ IsOmitted type text := by
  constructor
  · intro hempty
    by_contra hpresent
    by_cases hbare : IsWrittenBare type text
    · rw [defaultClause_of_isWrittenBare hpresent hbare] at hempty
      exact default_ne_empty _ hempty
    · rw [defaultClause_of_quoted hpresent hbare] at hempty
      exact default_ne_empty _ hempty
  · exact defaultClause_of_isOmitted

theorem defaultClause_eq_bare_iff {type : DataType} {text : String}
    (hpresent : defaultClause type text ≠ "") :
    defaultClause type text = " DEFAULT " ++ text ↔ IsWrittenBare type text := by
  have hpresent' := mt defaultClause_eq_empty_iff.mpr hpresent
  constructor
  · intro hclause
    by_contra hquoted
    rw [defaultClause_of_quoted hpresent' hquoted] at hclause
    exact literal_defaultText_ne type text (String.append_right_inj _ |>.mp hclause)
  · exact defaultClause_of_isWrittenBare hpresent'

/-- The clause is written by the rules, for every type and every text. -/
theorem writesDefault_defaultClause (type : DataType) (text : String) :
    WritesDefault type text (defaultClause type text) where
  omitted_iff := by rw [defaultClause_eq_empty_iff, IsOmitted, hasBareDefault_iff]
  bare_iff := fun hpresent => (defaultClause_eq_bare_iff hpresent).trans isWrittenBare_iff
  quoted := by
    intro hpresent hbare
    have hclause := defaultClause_of_quoted (mt defaultClause_eq_empty_iff.mpr hpresent)
      (mt (defaultClause_eq_bare_iff hpresent).mpr hbare)
    refine ⟨_, hclause, fun rest hrest => ?_⟩
    rw [toList_literal, readText_quoteText _ hrest, toList_defaultText]
  bare_shown := by
    intro hclause
    have hpresent : defaultClause type text ≠ "" := hclause ▸ default_ne_empty text
    rw [← toList_defaultText]
    rcases (defaultClause_eq_bare_iff hpresent).mp hclause with ⟨htype, -⟩ | hcurrent
    · rw [defaultText_of_hasBareDefault htype]
    · rw [defaultText_of_isCurrentTime (isCurrentTime_defaultText_iff.mpr hcurrent)]
  valid_date := fun htype => shownDefault_valid htype text

end Sql

namespace Column

open Sql

/-- The text of a column in front of its default. -/
def beforeDefault (c : Column) : String :=
  identifier c.name ++ " " ++ c.rawType ++ typeFlag c.isUnsigned "UNSIGNED" c.rawType ++
    typeFlag c.isZerofill "ZEROFILL" c.rawType ++ c.collationClause ++ c.nullability

/-- The text of a column behind its default. -/
def behindDefault (c : Column) : String :=
  (if c.isAutoIncrement then " AUTO_INCREMENT" else "") ++ c.commentClause

theorem sql_eq_default {c : Column} (hplain : c.generationExpression = none) :
    c.sql = c.beforeDefault ++ c.defaultClause ++ c.behindDefault := by
  unfold sql attributes beforeDefault behindDefault
  rw [hplain]
  simp only [String.append_assoc]

theorem sql_withoutDefault {c : Column} (hplain : c.generationExpression = none) :
    { c with default := none }.sql = c.beforeDefault ++ c.behindDefault := by
  have hsql := sql_eq_default (c := { c with default := none }) hplain
  have hclause : { c with default := none }.defaultClause = "" := rfl
  rw [hclause, String.append_empty] at hsql
  exact hsql

/-- What follows the default is empty or starts with a space. -/
theorem endsText_behindDefault (c : Column) : EndsText c.behindDefault.toList := by
  unfold EndsText behindDefault commentClause
  split <;> split <;> simp

/-- The expression of a generated column takes the place of its default and of its
auto-increment attribute. -/
theorem sql_generated {c : Column} (hgenerated : c.generationExpression ≠ none)
    (default : Option DefaultValue) (isAutoIncrement : Bool) :
    { c with default, isAutoIncrement }.sql = c.sql := by
  obtain ⟨expression, hexpression⟩ := Option.ne_none_iff_exists'.mp hgenerated
  unfold sql attributes
  rw [hexpression]
  rfl

/-- The default of a generated column is not seen in its text. In any other column a literal makes
one clause of its own, by the rules of its type, and leaves the rest of the text as it is. -/
theorem sql_default (c : Column) :
    (c.generationExpression ≠ none → ∀ default isAutoIncrement,
      { c with default, isAutoIncrement }.sql = c.sql) ∧
    (c.generationExpression = none → ∀ text, c.default = some (.literal text) →
      ∃ clause, WritesDefault c.baseType text clause ∧
        c.sql = c.beforeDefault ++ clause ++ c.behindDefault ∧
        { c with default := none }.sql = c.beforeDefault ++ c.behindDefault ∧
        EndsText c.behindDefault.toList) := by
  refine ⟨sql_generated, fun hplain text htext => ?_⟩
  have hclause : c.defaultClause = Sql.defaultClause c.baseType text := by
    rw [defaultClause, htext]
  refine ⟨_, writesDefault_defaultClause c.baseType text, ?_, sql_withoutDefault hplain,
    endsText_behindDefault c⟩
  rw [← hclause]
  exact sql_eq_default hplain

/-- A date and time that strict modes refuse. -/
def zeroDateTime : Column where
  name := "due"
  rawType := "datetime"
  baseType := .dateTime
  ordinal := 1
  isNullable := false
  isUnsigned := false
  isZerofill := false
  isAutoIncrement := false
  isVirtual := false
  default := some (.literal "0000-00-00 12:30:00")
  collationId := 45
  collation := none
  generationExpression := none
  comment := "it's due"

/-- The same column, computed from another. -/
def generatedDateTime : Column :=
  { zeroDateTime with generationExpression := some "`paid`" }

theorem sql_default_zeroDateTime :
    (generatedDateTime.generationExpression ≠ none ∧ ∀ default isAutoIncrement,
      { generatedDateTime with default, isAutoIncrement }.sql = generatedDateTime.sql) ∧
    (zeroDateTime.generationExpression = none ∧
      zeroDateTime.default = some (.literal "0000-00-00 12:30:00") ∧
      ∃ quoted, zeroDateTime.sql =
          "`due` datetime NOT NULL" ++ (" DEFAULT " ++ quoted) ++ " COMMENT 'it\\'s due'" ∧
        readText (quoted.toList ++ " COMMENT 'it\\'s due'".toList) =
          some ("0000-01-01 12:30:00".toList, " COMMENT 'it\\'s due'".toList)) := by
  have hgenerated : generatedDateTime.generationExpression ≠ none := nofun
  refine ⟨⟨hgenerated, (sql_default generatedDateTime).1 hgenerated⟩, rfl, rfl, ?_⟩
  obtain ⟨clause, hwrites, hsql, -, hends⟩ := (sql_default zeroDateTime).2 rfl _ rfl
  have hpresent : clause ≠ "" := fun hempty =>
    absurd (hwrites.omitted_iff.mp hempty).1 (by decide)
  have hquoted : clause ≠ " DEFAULT " ++ "0000-00-00 12:30:00" := fun hbare =>
    absurd ((hwrites.bare_iff hpresent).mp hbare) (by decide)
  obtain ⟨quoted, rfl, hread⟩ := hwrites.quoted hpresent hquoted
  have hbefore : zeroDateTime.beforeDefault = "`due` datetime NOT NULL" := by decide
  have hbehind : zeroDateTime.behindDefault = " COMMENT 'it\\'s due'" := by decide
  have hshown : shownDefault zeroDateTime.baseType "0000-00-00 12:30:00" =
      "0000-01-01 12:30:00".toList := by decide
  rw [hbefore, hbehind] at hsql
  rw [hbehind] at hends
  refine ⟨quoted, hsql, ?_⟩
  rw [hread _ hends, hshown]

end Column

end DictionaryDdl
