import DictionaryDdl.Proofs.Sql.DefaultClause
import DictionaryDdl.Proofs.Sql.Scanning
import DictionaryDdl.Proofs.Text.Delimited
import DictionaryDdl.Sql.Table

/-!
The lines of the statement that creates a table. Names, comments and quoted defaults may be any
text, and the parts that a column writes as they are have to be closed. Then every column and
every index stands on a line of its own, between the line that opens the statement and the one
that starts with the attributes of the table.

Nothing is assumed of the engine, the collation or the partitions of the table. They stand behind
the entries, so they can only add lines behind the ones described here.
-/

namespace DictionaryDdl

namespace Sql

/-- The default clause is closed if the default is, where it is written without quotes. -/
theorem closed_defaultClause {type : DataType} {text : String}
    (h : IsWrittenBare type text → Closed text) : Closed (defaultClause type text) := by
  have hkeyword : Closed " DEFAULT " := by decide
  by_cases homitted : IsOmitted type text
  · rw [defaultClause_of_isOmitted homitted]
    decide
  · by_cases hbare : IsWrittenBare type text
    · rw [defaultClause_of_isWrittenBare homitted hbare]
      exact hkeyword.append (h hbare)
    · rw [defaultClause_of_quoted homitted hbare]
      exact hkeyword.append (closed_literal _)

theorem closed_typeFlag (isSet : Bool) {keyword : String} (hkeyword : Closed keyword)
    (rawType : String) : Closed (typeFlag isSet keyword rawType) := by
  have hspace : Closed " " := by decide
  unfold typeFlag
  dsimp only
  split
  · exact hspace.append hkeyword
  · decide

end Sql

namespace Column

open Sql

/-- The parts of a column that its definition takes over as they are, all of them closed. The
character set and the default are not written for a generated column. -/
structure RawClosed (c : Column) : Prop where
  rawType : Closed c.rawType
  collationName : ∀ collation, c.collation = some collation → Closed collation.name
  expression : ∀ text, c.generationExpression = some text → Closed text
  charset : ∀ collation, c.collation = some collation → c.generationExpression = none →
    Closed collation.charset
  default : ∀ text, c.default = some (.literal text) → c.generationExpression = none →
    IsWrittenBare c.baseType text → Closed text

theorem closed_nullability (c : Column) : Closed c.nullability := by
  unfold nullability
  split <;> decide

theorem closed_commentClause (c : Column) : Closed c.commentClause := by
  have hkeyword : Closed " COMMENT " := by decide
  unfold commentClause
  split
  · decide
  · exact hkeyword.append (closed_literal _)

theorem closed_collationClause {c : Column} (h : c.RawClosed)
    (hplain : c.generationExpression = none) : Closed c.collationClause := by
  have hcharset : Closed " CHARACTER SET " := by decide
  have hcollate : Closed " COLLATE " := by decide
  unfold collationClause
  split
  · decide
  · next collation hcollation =>
      refine Closed.append (Closed.append ?_ hcollate) (h.collationName _ hcollation)
      split
      · decide
      · exact hcharset.append (h.charset _ hcollation hplain)

theorem closed_generatedCollationClause {c : Column} (h : c.RawClosed) :
    Closed c.generatedCollationClause := by
  have hcollate : Closed " COLLATE " := by decide
  unfold generatedCollationClause
  split
  · decide
  · next collation hcollation => exact hcollate.append (h.collationName _ hcollation)

theorem closed_defaultClause {c : Column} (h : c.RawClosed)
    (hplain : c.generationExpression = none) : Closed c.defaultClause := by
  unfold defaultClause
  split
  · decide
  · decide
  · next text hdefault => exact Sql.closed_defaultClause (h.default text hdefault hplain)

theorem closed_attributes {c : Column} (h : c.RawClosed) : Closed c.attributes := by
  unfold attributes
  split
  · next hplain =>
      have hfront := ((closed_collationClause h hplain).append (closed_nullability c)).append
        (closed_defaultClause h hplain)
      apply hfront.append
      split <;> decide
  · next text htext =>
      have hopen : Closed " AS (" := by decide
      have hfront := ((closed_generatedCollationClause h).append hopen).append
        (h.expression text htext)
      refine (hfront.append ?_).append (closed_nullability c)
      split <;> decide

/-- A column definition is closed if the parts are that it takes over as they are. -/
theorem closed_sql {c : Column} (h : c.RawClosed) : Closed c.sql := by
  have hspace : Closed " " := by decide
  have htype := ((closed_identifier c.name).append hspace).append h.rawType
  have hunsigned := closed_typeFlag c.isUnsigned (by decide : Closed "UNSIGNED") c.rawType
  have hzerofill := closed_typeFlag c.isZerofill (by decide : Closed "ZEROFILL") c.rawType
  unfold sql
  exact ((((htype.append hunsigned).append hzerofill).append (closed_attributes h)).append
    (closed_commentClause c))

end Column

open Sql

theorem IndexElement.closed_sql (e : IndexElement) : Closed e.sql := by
  have hopen : Closed "(" := by decide
  have hclose : Closed ")" := by decide
  unfold sql
  apply (closed_identifier _).append
  split
  · decide
  · exact (hopen.append (closed_ofUInt64 _)).append hclose

theorem Index.closed_sql (index : Index) : Closed index.sql := by
  have hkeyword : Closed index.kind.keyword := by
    cases index.kind <;> decide
  have hname : Closed index.namePart := by
    have hspace : Closed " " := by decide
    unfold namePart
    split
    · decide
    · exact hspace.append (closed_identifier _)
  have hopen : Closed " (" := by decide
  have hclose : Closed ")" := by decide
  have helements : Closed (Text.joined ", " (index.elements.map IndexElement.sql)) := by
    apply Closed.joined (by decide)
    intro text htext
    obtain ⟨element, _, rfl⟩ := List.mem_map.mp htext
    exact element.closed_sql
  unfold sql
  exact (((hkeyword.append hname).append hopen).append helements).append hclose

namespace TableDefinition

/-- The lines of a list of entries: a tab before each of them, a comma behind all but the
last. -/
def entryLines : List String → List String
  | [] => []
  | [entry] => ["\t" ++ entry]
  | entry :: next :: more => ("\t" ++ entry ++ ",") :: entryLines (next :: more)

theorem lines_entries {entries : List String} (hentries : entries ≠ [])
    (hclosed : ∀ entry ∈ entries, Closed entry) (rest : String) :
    lines ("\t" ++ Text.joined ",\n\t" entries ++ "\n" ++ rest) =
      entryLines entries ++ lines rest := by
  have htab : Closed "\t" := by decide
  have hcomma : Closed "," := by decide
  induction entries with
  | nil => exact absurd rfl hentries
  | cons entry more ih =>
      have hentry : Closed ("\t" ++ entry) := htab.append (hclosed entry (by simp))
      cases more with
      | nil => exact lines_break hentry rest
      | cons next others =>
          have hsplit : "\t" ++ Text.joined ",\n\t" (entry :: next :: others) ++ "\n" ++ rest =
              "\t" ++ entry ++ "," ++ "\n" ++
                ("\t" ++ Text.joined ",\n\t" (next :: others) ++ "\n" ++ rest) := by
            have hseparator : ",\n\t" = "," ++ ("\n" ++ "\t") := by decide
            rw [Text.joined_cons, Text.continued]
            simp only [hseparator, String.append_assoc]
          rw [hsplit, lines_break (hentry.append hcomma), ih (by simp)
            (fun text htext => hclosed text (by simp [htext]))]
          rfl

/-- The statement that creates a table has one line for each column and each index, in their
order, between its opening line and the line that starts with the attributes of the table. -/
theorem createStatement_lines (t : TableDefinition)
    (hentries : t.columns ≠ [] ∨ t.indexes ≠ [])
    (hcolumns : ∀ c ∈ t.columns, c.RawClosed) :
    ∃ line more, lines t.createStatement =
      ("CREATE TABLE " ++ identifier t.name ++ "(") ::
        entryLines (t.columns.map Column.sql ++ t.indexes.map Index.sql) ++
        (") ENGINE=" ++ line) :: more := by
  have hopening : Closed ("CREATE TABLE " ++ identifier t.name ++ "(") := by
    have hcreate : Closed "CREATE TABLE " := by decide
    exact (hcreate.append (closed_identifier t.name)).append (by decide)
  have hengine : Closed ") ENGINE=" := by decide
  have hnonempty : t.entries ≠ [] := by
    unfold entries
    simpa [or_iff_not_imp_left] using hentries
  have hclosed : ∀ entry ∈ t.entries, Closed entry := by
    intro entry hentry
    unfold entries at hentry
    rcases List.mem_append.mp hentry with hcolumn | hindex
    · obtain ⟨c, hc, rfl⟩ := List.mem_map.mp hcolumn
      exact Column.closed_sql (hcolumns c hc)
    · obtain ⟨index, _, rfl⟩ := List.mem_map.mp hindex
      exact index.closed_sql
  obtain ⟨tail, htail⟩ : ∃ tail, t.attributes ++ t.partitionClause ++ ";" =
      ") ENGINE=" ++ tail := by
    unfold attributes
    simp only [String.append_assoc]
    exact ⟨_, rfl⟩
  have hstatement : t.createStatement = "CREATE TABLE " ++ identifier t.name ++ "(" ++ "\n" ++
      ("\t" ++ Text.joined ",\n\t" t.entries ++ "\n" ++ (") ENGINE=" ++ tail)) := by
    have hparenthesis : "(\n\t" = "(" ++ ("\n" ++ "\t") := by decide
    rw [← htail]
    unfold createStatement
    simp only [hparenthesis, String.append_assoc]
  obtain ⟨line, more, hlast⟩ := lines_append hengine tail
  refine ⟨line, more, ?_⟩
  rw [hstatement, lines_break hopening, lines_entries hnonempty hclosed, hlast]
  rfl

/-- A table with quotes, backslashes and line feeds in its texts. -/
def quotedTable : TableDefinition where
  schema := "shop"
  name := "a`\nb"
  engine := "InnoDB"
  rowFormat := .dynamic
  collationId := 45
  collation := ⟨45, "utf8mb4_general_ci", "utf8mb4", 4⟩
  autoIncrement := none
  columns := [{
    name := "`\n"
    rawType := "enum('\n','y')"
    baseType := .enum
    ordinal := 1
    isNullable := true
    isUnsigned := false
    isZerofill := false
    isAutoIncrement := false
    isVirtual := false
    default := some (.literal "it's\\\n")
    collationId := 45
    collation := none
    generationExpression := none
    comment := "\"\n" }]
  indexes := [{ name := "i\n", kind := .multiple, elements := [⟨1, "`\n", 1, none⟩] }]
  partitioning := {}
  foreignKeys := []
  options := {}

theorem createStatement_lines_quotedTable :
    (quotedTable.columns ≠ [] ∨ quotedTable.indexes ≠ []) ∧
      (∀ c ∈ quotedTable.columns, c.RawClosed) ∧
      ∃ line more, lines quotedTable.createStatement =
        "CREATE TABLE `a``\nb`(" ::
          ["\t```\n` enum('\n','y') NULL DEFAULT 'it\\'s\\\\\n' COMMENT '\\\"\n',",
            "\tINDEX `i\n` (```\n`)"] ++
          (") ENGINE=" ++ line) :: more := by
  have hentries : quotedTable.columns ≠ [] ∨ quotedTable.indexes ≠ [] := by decide
  have hcolumns : ∀ c ∈ quotedTable.columns, c.RawClosed := by
    intro c hc
    obtain rfl := List.mem_singleton.mp hc
    refine ⟨by decide, nofun, nofun, nofun, ?_⟩
    rintro text - - (⟨hbare, -⟩ | ⟨htemporal, -⟩)
    · cases hbare
    · cases htemporal
  have hlines := createStatement_lines quotedTable hentries hcolumns
  have hentryLines :
      entryLines (quotedTable.columns.map Column.sql ++ quotedTable.indexes.map Index.sql) =
        ["\t```\n` enum('\n','y') NULL DEFAULT 'it\\'s\\\\\n' COMMENT '\\\"\n',",
          "\tINDEX `i\n` (```\n`)"] := by decide
  rw [hentryLines] at hlines
  exact ⟨hentries, hcolumns, hlines⟩

end TableDefinition

end DictionaryDdl
