import DictionaryDdl.Proofs.Sql.TextReading
import DictionaryDdl.Proofs.Text.Delimited
import DictionaryDdl.Sql.Options

/-!
The text of the table options says which options are set and to what, apart from numbers that are
zero. Each option is written as its keyword, an equals sign and its value, and no keyword can be
taken for another one. A number ends at its last digit and a string at its closing quote, so spaces
and keywords inside a string separate nothing. The text therefore determines the list of the options
that are written, and the list determines the options.
-/

namespace DictionaryDdl

/-- An option that is set. -/
inductive TableOption where
  | avgRowLength (n : UInt64)
  | keyBlockSize (n : UInt64)
  | statsAutoRecalc (on : Bool)
  | statsSamplePages (n : UInt64)
  | encryption (mode : String)

namespace TableOption

def keyword : TableOption → String
  | avgRowLength _ => "AVG_ROW_LENGTH"
  | keyBlockSize _ => "KEY_BLOCK_SIZE"
  | statsAutoRecalc _ => "STATS_AUTO_RECALC"
  | statsSamplePages _ => "STATS_SAMPLE_PAGES"
  | encryption _ => "ENCRYPTION"

def value : TableOption → String
  | avgRowLength n | keyBlockSize n | statsSamplePages n => Text.ofUInt64 n
  | statsAutoRecalc on => if on then "1" else "0"
  | encryption mode => Sql.literal mode

def sql (x : TableOption) : String :=
  x.keyword ++ "=" ++ x.value

variable {x y : TableOption} {r s : List Char}

theorem isWord_keyword (x : TableOption) : Text.IsWord x.keyword := by
  cases x <;> simp only [keyword] <;> decide

theorem exists_head_sql (x : TableOption) :
    ∃ opening ≠ '\n', x.sql.toList.head? = some opening := by
  cases x <;> simp [sql, keyword, String.toList_append]

/-- An option reads back up to the space behind it or the end of the line. -/
theorem sql_cancel (hr : Text.EndsEntry ' ' '\n' r) (hs : Text.EndsEntry ' ' '\n' s)
    (h : x.sql.toList ++ r = y.sql.toList ++ s) : x = y ∧ r = s := by
  have hequals (rest : List Char) : Text.EndsRun Text.isWordChar ("=".toList ++ rest) := by
    simp [Text.EndsRun, Text.isWordChar]
  have hnumber {rest : List Char} (hrest : Text.EndsEntry ' ' '\n' rest) :
      Text.EndsRun Char.isDigit rest :=
    hrest.endsRun (by decide) (by decide)
  have htext {rest : List Char} (hrest : Text.EndsEntry ' ' '\n' rest) : Sql.EndsText rest :=
    hrest.head_ne (by decide) (by decide)
  simp only [sql, String.toList_append, List.append_assoc] at h
  obtain ⟨hkeyword, hvalue⟩ := Text.word_cancel x.isWord_keyword y.isWord_keyword (hequals _)
    (hequals _) h
  rw [List.append_cancel_left_eq] at hvalue
  -- the keywords are the same only for options of one kind, whose values read back
  cases x <;> cases y <;> simp [keyword] at hkeyword
  case avgRowLength.avgRowLength | keyBlockSize.keyBlockSize |
      statsSamplePages.statsSamplePages =>
    obtain ⟨rfl, hrest⟩ := Text.ofUInt64_cancel (hnumber hr) (hnumber hs) hvalue
    exact ⟨rfl, hrest⟩
  case statsAutoRecalc.statsAutoRecalc first second =>
    cases first <;> cases second <;> simp [value] at hvalue <;> exact ⟨rfl, hvalue⟩
  case encryption.encryption =>
    obtain ⟨rfl, hrest⟩ := Sql.literal_cancel (htext hr) (htext hs) hvalue
    exact ⟨rfl, hrest⟩

/-- Options with spaces between them read back, whatever their values are. -/
theorem joined_injective {xs ys : List TableOption}
    (h : Text.joined " " (xs.map sql) = Text.joined " " (ys.map sql)) : xs = ys := by
  have hseparator : " ".toList = ' ' :: [] := by decide
  -- a line feed behind both texts ends the lists, since no option starts with one
  have hline : (Text.joined " " (xs.map sql)).toList ++ ['\n'] =
      (Text.joined " " (ys.map sql)).toList ++ ['\n'] := by rw [h]
  have hoptions := (Text.joined_cancel_of_head hseparator (by decide) exists_head_sql
    (fun x _ y _ r s hr hs => sql_cancel hr hs) hline).1
  rwa [List.forall₂_eq_eq_eq] at hoptions

end TableOption

namespace TableOptions

/-- The options that are set, in the order of the statement. -/
def settings (o : TableOptions) : List TableOption :=
  o.avgRowLength.toList.map .avgRowLength ++
    o.keyBlockSize.toList.map .keyBlockSize ++
    o.statsAutoRecalc.toList.map .statsAutoRecalc ++
    o.statsSamplePages.toList.map .statsSamplePages ++
    o.encryption.toList.map .encryption

/-- The options with all numbers that are zero taken away. -/
def withoutZeros (o : TableOptions) : TableOptions :=
  { o with
    avgRowLength := o.avgRowLength.filter (· ≠ 0)
    keyBlockSize := o.keyBlockSize.filter (· ≠ 0)
    statsSamplePages := o.statsSamplePages.filter (· ≠ 0) }

/-- The options after one more is set. -/
def set (o : TableOptions) : TableOption → TableOptions
  | .avgRowLength n => { o with avgRowLength := some n }
  | .keyBlockSize n => { o with keyBlockSize := some n }
  | .statsAutoRecalc on => { o with statsAutoRecalc := some on }
  | .statsSamplePages n => { o with statsSamplePages := some n }
  | .encryption mode => { o with encryption := some mode }

theorem foldl_set_settings (o : TableOptions) : o.settings.foldl set {} = o := by
  obtain ⟨avgRowLength, keyBlockSize, statsAutoRecalc, statsSamplePages, encryption⟩ := o
  cases avgRowLength <;> cases keyBlockSize <;> cases statsAutoRecalc <;>
    cases statsSamplePages <;> cases encryption <;> rfl

theorem settings_injective {o p : TableOptions} (h : o.settings = p.settings) : o = p := by
  rw [← foldl_set_settings o, h, foldl_set_settings]

theorem numberClause_eq {keyword : String} (option : UInt64 → TableOption)
    (hoption : ∀ n, (option n).sql = keyword ++ "=" ++ Text.ofUInt64 n) (x : Option UInt64) :
    numberClause keyword x = ((x.filter (· ≠ 0)).toList.map option).map TableOption.sql := by
  cases x with
  | none => rfl
  | some n =>
      by_cases hn : n = 0
      · simp [numberClause, hn]
      · have hkept : (some n).filter (· ≠ 0) = some n := by simp [Option.filter, hn]
        rw [hkept]
        simp [numberClause, hn, hoption]

/-- What is written are the options that are set, without the zeros. -/
theorem clauses_eq (o : TableOptions) :
    o.clauses = o.withoutZeros.settings.map TableOption.sql := by
  have hrecalc : recalcClause o.statsAutoRecalc =
      (o.statsAutoRecalc.toList.map .statsAutoRecalc).map TableOption.sql := by
    rcases o.statsAutoRecalc with _ | _ | _
    · rfl
    all_goals simp [recalcClause, TableOption.sql, TableOption.keyword, TableOption.value]
  have hencryption : encryptionClause o.encryption =
      (o.encryption.toList.map .encryption).map TableOption.sql := by
    cases o.encryption with
    | none => rfl
    | some mode => rfl
  unfold clauses settings withoutZeros
  rw [numberClause_eq .avgRowLength (fun _ => rfl), numberClause_eq .keyBlockSize (fun _ => rfl),
    numberClause_eq .statsSamplePages (fun _ => rfl), hrecalc, hencryption]
  simp only [List.map_append]

/-- Options have the same text if, and only if, they are the same apart from numbers that are
zero. -/
theorem sql_eq_iff_withoutZeros (o p : TableOptions) :
    o.sql = p.sql ↔ o.withoutZeros = p.withoutZeros := by
  unfold sql
  rw [clauses_eq, clauses_eq]
  constructor
  · intro h
    exact settings_injective (TableOption.joined_injective h)
  · intro h
    rw [h]

/-- A mode that is written like another option. -/
example : ({ encryption := some "Y' STATS_SAMPLE_PAGES='8" } : TableOptions).sql =
    "ENCRYPTION='Y\\' STATS_SAMPLE_PAGES=\\'8'" := by decide +kernel

end TableOptions

end DictionaryDdl
