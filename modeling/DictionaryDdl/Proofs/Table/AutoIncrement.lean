import DictionaryDdl.Proofs.Sdi.KeyValues
import DictionaryDdl.Proofs.Table.Consistency
import DictionaryDdl.Proofs.Text.Numerals
import DictionaryDdl.Sql.Table

/-!
The next auto-increment value of a table, from the private data to the statement. The last pair of
the key that has a number of sixty-four bits counts, and elements that give no such number may stand
anywhere. The number is written in its own digits behind the collation of the table, however it was
spelt in the private data; without a number the place stays empty between its two spaces.
-/

namespace DictionaryDdl

namespace AutoIncrement

variable {s t : String} {n : UInt64} {element : Sdi.KeyValue}

/-- Whether an element gives a number as the next value. -/
def Gives (element : Sdi.KeyValue) (n : UInt64) : Prop :=
  ∃ text, element = .pair "autoinc" text ∧ Text.IsNumeral text.toList n.toNat

/-- An element that is passed over: it is malformed, its key is another one, or its value is no
number or one that needs more than sixty-four bits. -/
def IsIdle : Sdi.KeyValue → Prop
  | .malformed _ => True
  | .pair found text => found = "autoinc" → ∀ n, Text.IsNumeral text.toList n → UInt64.size ≤ n

/-- The number that an element gives, if it gives one. -/
def given? : Sdi.KeyValue → Option UInt64
  | .pair found text => if found = key then Text.readUInt64? text else none
  | .malformed _ => none

theorem given?_eq_some : given? element = some n ↔ Gives element n := by
  cases element with
  | malformed text =>
      refine iff_of_false (by simp [given?]) ?_
      rintro ⟨text, hpair, -⟩
      cases hpair
  | pair found text =>
      by_cases hkey : found = key
      · rw [given?, if_pos hkey, Text.readUInt64?_eq_some]
        constructor
        · exact fun h => ⟨text, by rw [hkey, key], h⟩
        · rintro ⟨text, hpair, h⟩
          cases hpair
          exact h
      · rw [given?, if_neg hkey]
        refine iff_of_false (by simp) ?_
        rintro ⟨text, hpair, -⟩
        cases hpair
        exact hkey rfl

theorem given?_eq_none : given? element = none ↔ IsIdle element := by
  cases element with
  | malformed text => exact iff_of_true rfl trivial
  | pair found text =>
      rw [Option.eq_none_iff_forall_ne_some]
      constructor
      · intro hnone hkey n hnumeral
        by_contra hsmall
        have hsize : n < UInt64.size := Nat.lt_of_not_le hsmall
        refine hnone (UInt64.ofNat n) (given?_eq_some.mpr ⟨text, by rw [hkey], ?_⟩)
        rwa [UInt64.toNat_ofNat_of_lt' hsize]
      · intro hidle n hsome
        obtain ⟨text, hpair, hnumeral⟩ := given?_eq_some.mp hsome
        cases hpair
        exact absurd n.toNat_lt (Nat.not_lt_of_le (hidle rfl n.toNat hnumeral))

theorem step_eq (value : Option UInt64) (element : Sdi.KeyValue) :
    step value element = (given? element).or value := by
  cases element with
  | malformed text => rfl
  | pair found text =>
      rw [step, given?]
      split_ifs
      · rfl
      · rfl

theorem ofText_eq (s : String) : ofText s = lastGiven? given? (Sdi.keyValues s) := by
  rw [ofText, funext₂ step_eq, foldl_lastGiven?, Option.or_none]

/-- A way to read private data in which the last number of the key is the one that counts. -/
structure LastCounts (next : String → Option UInt64) : Prop where
  present : ∀ s n, next s = some n ↔
    ∃ before element after, Sdi.keyValues s = before ++ element :: after ∧ Gives element n ∧
      ∀ later ∈ after, IsIdle later
  absent : ∀ s, next s = none ↔ ∀ element ∈ Sdi.keyValues s, IsIdle element
  /-- What is passed over makes no difference, wherever it stands. -/
  idle : ∀ s t front skipped back, Sdi.keyValues s = front ++ skipped ++ back →
    Sdi.keyValues t = front ++ back → (∀ element ∈ skipped, IsIdle element) → next s = next t
  joined : ∀ a b, next (a ++ ";" ++ b) = (next b).or (next a)

theorem lastCounts_ofText : LastCounts ofText := by
  constructor
  · intro s n
    rw [ofText_eq, lastGiven?_eq_some]
    simp only [given?_eq_some, given?_eq_none]
  · intro s
    rw [ofText_eq, lastGiven?_eq_none]
    simp only [given?_eq_none]
  · intro s t front skipped back hs ht hidle
    rw [ofText_eq, ofText_eq, hs, ht]
    exact lastGiven?_skip fun element hmem => given?_eq_none.mpr (hidle element hmem)
  · intro a b
    rw [ofText_eq, ofText_eq, ofText_eq, Sdi.keyValues_append, lastGiven?_append]

end AutoIncrement

namespace TableDefinition

variable {catalog : Collation.Catalog} {table : Sdi.Table} {definition : TableDefinition}

/-- The statement up to the collation of the table. -/
def throughCollation (t : TableDefinition) : String :=
  "CREATE TABLE " ++ Sql.identifier t.name ++ "(\n\t" ++ Text.joined ",\n\t" t.entries ++
    "\n) ENGINE=" ++ t.engine ++ " ROW_FORMAT=" ++ t.rowFormat.keyword ++
    " DEFAULT CHARSET=" ++ t.collation.charset ++ " COLLATE=" ++ t.collation.name

/-- The statement from the options of the table on. -/
def fromOptions (t : TableDefinition) : String :=
  t.options.sql ++ t.partitionClause ++ ";"

/-- What stands between the collation and the options. -/
def FillsSlot : Option UInt64 → String → Prop
  | none, slot => slot = ""
  | some n, slot =>
      ∃ digits, Text.IsDecimal digits.toList n.toNat ∧ slot = "AUTO_INCREMENT=" ++ digits

theorem fillsSlot_autoIncrementClause (t : TableDefinition) :
    FillsSlot t.autoIncrement t.autoIncrementClause := by
  unfold autoIncrementClause
  cases t.autoIncrement with
  | none => rfl
  | some n => exact ⟨Text.ofUInt64 n, Text.isDecimal_ofUInt64 n, rfl⟩

theorem createStatement_eq_slot (t : TableDefinition) :
    t.createStatement =
      t.throughCollation ++ " " ++ t.autoIncrementClause ++ " " ++ t.fromOptions := by
  have hstart : "\n) ENGINE=" = "\n" ++ ") ENGINE=" := by decide +kernel
  unfold createStatement attributes throughCollation fromOptions
  rw [hstart]
  simp only [String.append_assoc]

theorem ofSdi_privateData (h : ofSdi catalog table = .ok definition) (s : String) :
    ofSdi catalog { table with privateData := s } =
      .ok { definition with autoIncrement := AutoIncrement.ofText s } := by
  obtain ⟨layout, hlayout, hrest⟩ := bind_eq_ok.mp h
  obtain ⟨⟨rowFormat, collation⟩, hstorage, hdefinition⟩ := bind_eq_ok.mp hrest
  cases hdefinition
  exact bind_eq_ok.mpr ⟨layout, hlayout, bind_eq_ok.mpr ⟨_, hstorage, rfl⟩⟩

/-- The private data of a table decides on its next auto-increment value and on nothing else: the
last number of the key counts, and it stands in the statement behind the collation. -/
theorem autoIncrement_of_ofSdi (h : ofSdi catalog table = .ok definition) :
    AutoIncrement.LastCounts AutoIncrement.ofText ∧
      definition.autoIncrement = AutoIncrement.ofText table.privateData ∧
      (∀ s, ofSdi catalog { table with privateData := s } =
        .ok { definition with autoIncrement := AutoIncrement.ofText s }) ∧
      ∀ value, ∃ slot, FillsSlot value slot ∧
        { definition with autoIncrement := value }.createStatement =
          definition.throughCollation ++ " " ++ slot ++ " " ++ definition.fromOptions := by
  refine ⟨AutoIncrement.lastCounts_ofText, ?_, ofSdi_privateData h, fun value => ?_⟩
  · have hsame : Except.ok definition = _ := h.symm.trans (ofSdi_privateData h table.privateData)
    exact congrArg autoIncrement (Except.ok.inj hsame)
  · let changed : TableDefinition := { definition with autoIncrement := value }
    exact ⟨changed.autoIncrementClause, fillsSlot_autoIncrementClause changed,
      createStatement_eq_slot changed⟩

/-- The largest number, behind a smaller one and before one that is too large. -/
def crowdedPrivateData : String :=
  "autoinc=7; autoinc = +018446744073709551615 ;x;autoinc=18446744073709551616"

theorem autoIncrement_of_ofSdi_crowded :
    ofSdi (.ofList [.general]) .orderLines = .ok orderLines ∧
      ofSdi (.ofList [.general])
          { Sdi.Table.orderLines with privateData := crowdedPrivateData } =
        .ok { orderLines with autoIncrement := some 18446744073709551615 } := by
  obtain ⟨hlast, -, hall, -⟩ := autoIncrement_of_ofSdi ofSdi_orderLines
  refine ⟨ofSdi_orderLines, ?_⟩
  rw [hall, (hlast.present crowdedPrivateData 18446744073709551615).mpr]
  refine ⟨[.pair "autoinc" "7"], .pair "autoinc" "+018446744073709551615",
    [.malformed "x", .pair "autoinc" "18446744073709551616"], by decide +kernel, ?_, ?_⟩
  · exact AutoIncrement.given?_eq_some.mp (by decide +kernel)
  · have hidle : ∀ later ∈ [Sdi.KeyValue.malformed "x", .pair "autoinc" "18446744073709551616"],
        AutoIncrement.given? later = none := by decide +kernel
    exact fun later hlater => AutoIncrement.given?_eq_none.mp (hidle later hlater)

end TableDefinition

end DictionaryDdl
