import DictionaryDdl.Sql.Quoting
import DictionaryDdl.Table.Options

/-!
The text of the table options, with spaces between them. Options that are absent and numbers that
are zero are left out.
-/

namespace DictionaryDdl.TableOptions

/-- The option of a number, unless it is absent or zero. -/
def numberClause (keyword : String) : Option UInt64 → List String
  | none => []
  | some n => if n = 0 then [] else [keyword ++ "=" ++ Text.ofUInt64 n]

def recalcClause : Option Bool → List String
  | none => []
  | some on => [if on then "STATS_AUTO_RECALC=1" else "STATS_AUTO_RECALC=0"]

def encryptionClause : Option String → List String
  | none => []
  | some mode => ["ENCRYPTION=" ++ Sql.literal mode]

/-- The options that are written, in their order. -/
def clauses (o : TableOptions) : List String :=
  numberClause "AVG_ROW_LENGTH" o.avgRowLength ++
    numberClause "KEY_BLOCK_SIZE" o.keyBlockSize ++
    recalcClause o.statsAutoRecalc ++
    numberClause "STATS_SAMPLE_PAGES" o.statsSamplePages ++
    encryptionClause o.encryption

/-- The options of a table. -/
def sql (o : TableOptions) : String :=
  Text.joined " " o.clauses

end DictionaryDdl.TableOptions
