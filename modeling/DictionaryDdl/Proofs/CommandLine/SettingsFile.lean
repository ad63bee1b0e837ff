import DictionaryDdl.CommandLine.Environment
import DictionaryDdl.Proofs.Lookup
import DictionaryDdl.Proofs.Text.Pieces
import DictionaryDdl.Proofs.Text.Trimming

/-!
What a settings file does to the variables. A file with a good beginning does what its beginning
and then its end would do, a variable has the value of the last line that assigns one to it, and a
value in quotes arrives as it is written, whatever stands in it.
-/

namespace DictionaryDdl

open Text

namespace SettingsLine

variable {key lead before after value : List Char} {quote : Char}

/-- A name of a variable that a line can start with. -/
structure IsVariableName (key : List Char) : Prop where
  ne_nil : key ≠ []
  noBlank : ∀ c ∈ key, isBlank c = false
  noEquals : '=' ∉ key
  noHash : key.head? ≠ some '#'

/-- What may stand before the name: nothing, or `export` and blanks. -/
inductive IsLead : List Char → Prop where
  | bare : IsLead []
  | exported {gap : List Char} (hgap : AllBlank gap) : IsLead (exportWord ++ gap)

def IsQuote (c : Char) : Prop :=
  c = '"' ∨ c = '\''

/-- The line that assigns a value in quotes, with what stands around the assignment. -/
def quotedLine (before lead key : List Char) (quote : Char) (value after : List Char) : List Char :=
  before ++ (lead ++ key ++ '=' :: (quote :: value ++ [quote])) ++ after

theorem IsQuote.not_blank (h : IsQuote quote) : isBlank quote = false := by
  rcases h with rfl | rfl
  · decide
  · decide

theorem IsVariableName.isTrimmed (h : IsVariableName key) : IsTrimmed key where
  head c hc := h.noBlank c (List.mem_of_mem_head? hc)
  last c hc := h.noBlank c (List.mem_of_mem_getLast? hc)

/-- A name is not taken for the word before an assignment, because it has no blank. -/
theorem IsVariableName.not_exportWord (h : IsVariableName key) (rest : List Char) :
    exportWord.isPrefixOf (key ++ '=' :: rest) = false := by
  have hblank : ' ' ∉ key := fun hmem => absurd (h.noBlank ' ' hmem) (by decide)
  have hword : ' ' ∈ exportWord := by decide
  rw [Bool.eq_false_iff, ne_eq, List.isPrefixOf_iff_prefix]
  rintro ⟨more, hmore⟩
  rcases List.append_eq_append_iff.mp hmore with ⟨left, hlong, -⟩ | ⟨left, hshort, hrest⟩
  · exact hblank (hlong ▸ List.mem_append_left left hword)
  · cases left with
    | nil =>
        rw [List.append_nil] at hshort
        exact hblank (hshort ▸ hword)
    | cons c others =>
        obtain rfl := (List.cons.inj hrest).1
        have hequals : '=' ∈ exportWord := hshort ▸ List.mem_append_right key List.mem_cons_self
        exact absurd hequals (by decide)

/-- Once the word is taken off, an equals sign cuts the line behind the name. -/
theorem IsLead.withoutExport (hlead : IsLead lead) (hkey : IsVariableName key) (rest : List Char) :
    ∃ named, cutAt '=' (SettingsLine.withoutExport (lead ++ key ++ '=' :: rest)) =
      some (named, rest) ∧ trim named = key := by
  cases hlead with
  | bare =>
      refine ⟨key, ?_, trim_of_isTrimmed hkey.isTrimmed⟩
      rw [List.nil_append, SettingsLine.withoutExport, hkey.not_exportWord]
      exact cutAt_append_cons hkey.noEquals
  | @exported gap hgap =>
      have hequals : '=' ∉ gap ++ key := by
        rw [List.mem_append, not_or]
        exact ⟨hgap.not_mem (by decide), hkey.noEquals⟩
      have hoff : SettingsLine.withoutExport (exportWord ++ gap ++ key ++ '=' :: rest) =
          (gap ++ key) ++ '=' :: rest := by
        simp [SettingsLine.withoutExport]
      refine ⟨gap ++ key, ?_, ?_⟩
      · rw [hoff, cutAt_append_cons hequals]
      · rw [trim_blank_append hgap, trim_of_isTrimmed hkey.isTrimmed]

/-- The line is neither blank nor a remark. -/
theorem IsLead.head? (hlead : IsLead lead) (hkey : IsVariableName key) (rest : List Char) :
    ∃ c, (lead ++ key ++ rest).head? = some c ∧ isBlank c = false ∧ c ≠ '#' := by
  cases hlead with
  | bare =>
      obtain ⟨c, more, rfl⟩ := List.exists_cons_of_ne_nil hkey.ne_nil
      exact ⟨c, rfl, hkey.noBlank c List.mem_cons_self, fun hc => hkey.noHash (hc ▸ rfl)⟩
  | exported hgap => exact ⟨'e', rfl, by decide, by decide⟩

/-- Quotes around a value are taken off, and only they. -/
theorem unquoted_quoted (hquote : IsQuote quote) (value : List Char) :
    unquoted (quote :: value ++ [quote]) = value := by
  have htrimmed : IsTrimmed (quote :: value ++ [quote]) := by
    constructor
    · rintro c ⟨⟩
      exact hquote.not_blank
    · intro c hc
      rw [List.getLast?_concat] at hc
      cases hc
      exact hquote.not_blank
  have hquoted : isQuotedBy quote (quote :: value ++ [quote]) = true := by
    rw [isQuotedBy, List.getLast?_concat]
    simp
  have heither : (isQuotedBy '"' (quote :: value ++ [quote]) ||
      isQuotedBy '\'' (quote :: value ++ [quote])) = true := by
    rcases hquote with rfl | rfl
    · rw [hquoted, Bool.true_or]
    · rw [hquoted, Bool.or_true]
  rw [unquoted, trim_of_isTrimmed htrimmed, if_pos heither]
  simp

/-- A value in quotes arrives as it is written. -/
theorem ofText_quotedLine (hkey : IsVariableName key) (hlead : IsLead lead)
    (hquote : IsQuote quote) (hbefore : AllBlank before) (hafter : AllBlank after) :
    ofText (quotedLine before lead key quote value after) =
      .assignment (String.ofList key) (String.ofList value) := by
  obtain ⟨c, hhead, hblank, hhash⟩ := hlead.head? hkey ('=' :: (quote :: value ++ [quote]))
  obtain ⟨named, hcut, hnamed⟩ := hlead.withoutExport hkey (quote :: value ++ [quote])
  have htrimmed : IsTrimmed (lead ++ key ++ '=' :: (quote :: value ++ [quote])) := by
    constructor
    · intro d hd
      rw [hhead] at hd
      cases hd
      exact hblank
    · intro d hd
      have hlast : (lead ++ key ++ '=' :: (quote :: value ++ [quote])).getLast? = some quote := by
        rw [← List.cons_append, ← List.append_assoc, List.getLast?_concat]
      rw [hlast] at hd
      cases hd
      exact hquote.not_blank
  have hassigns : ¬ ((lead ++ key ++ '=' :: (quote :: value ++ [quote])).isEmpty = true ∨
      (lead ++ key ++ '=' :: (quote :: value ++ [quote])).head? = some '#') := by
    rw [hhead]
    simp [hhash]
  have hname : (trim named).isEmpty = false :=
    hnamed ▸ List.isEmpty_eq_false_iff.mpr hkey.ne_nil
  rw [ofText, quotedLine, trim_padded hbefore htrimmed hafter]
  simp only [if_neg hassigns, hcut, hname, Bool.false_eq_true, if_false]
  rw [hnamed, unquoted_quoted hquote]

theorem not_mem_quotedLine (hkey : IsVariableName key) (hquote : IsQuote quote)
    (haround : '\n' ∉ before ++ lead ++ after) (hvalue : '\n' ∉ value) :
    '\n' ∉ quotedLine before lead key quote value after := by
  have hname : '\n' ∉ key := fun hmem => absurd (hkey.noBlank '\n' hmem) (by decide)
  have hfeed : '\n' ≠ quote := by
    rintro rfl
    exact absurd hquote.not_blank (by decide)
  simp only [List.mem_append, not_or] at haround
  simp [quotedLine, haround, hname, hvalue, hfeed]

end SettingsLine

namespace Environment

open SettingsLine

variable {env : Environment} {number : Nat} {first second : List (List Char)} {line : List Char}
  {effect : Environment → Environment} {key value : String}

theorem value?_set (env : Environment) (key value other : String) :
    (env.set key value).value? other = if other = key then some value else env.value? other :=
  lookup_cons_eq_ite other key value env.assignments

/-- The value that a line assigns to a variable. -/
def assigned? (key : String) (line : List Char) : Option String :=
  match ofText line with
  | .assignment found value => if key = found then some value else none
  | _ => none

theorem assigned?_eq_some :
    assigned? key line = some value ↔ ofText line = .assignment key value := by
  unfold assigned?
  split
  · next found kept hline =>
      rw [hline, Option.ite_none_right_eq_some, SettingsLine.assignment.injEq, Option.some.injEq]
      simp [eq_comm]
  · next hother =>
      simp only [reduceCtorEq, false_iff]
      exact hother key value

theorem assigned?_eq_none :
    assigned? key line = none ↔ ∀ value, ofText line ≠ .assignment key value := by
  rw [Option.eq_none_iff_forall_ne_some]
  exact forall_congr' fun value => not_congr assigned?_eq_some

/-- What a line does to the variables, unless it is faulty. -/
def effect? (line : List Char) : Option (Environment → Environment) :=
  match ofText line with
  | .blank => some id
  | .assignment key value => some (·.set key value)
  | .malformed => none
  | .emptyKey => none

theorem loadLines_cons (h : effect? line = some effect) (env : Environment) (number : Nat)
    (more : List (List Char)) :
    env.loadLines number (line :: more) = (effect env).loadLines (number + 1) more := by
  rw [effect?] at h
  rw [loadLines]
  generalize ofText line = said at h ⊢
  cases said with
  | blank =>
      cases h
      rfl
  | assignment key value =>
      cases h
      rfl
  | malformed => cases h
  | emptyKey => cases h

theorem loadLines_faulty (h : effect? line = none) (env : Environment) (number : Nat)
    (more : List (List Char)) :
    (env.loadLines number (line :: more)).1 = env ∧
      (env.loadLines number (line :: more)).2 ≠ none := by
  rw [effect?] at h
  rw [loadLines]
  generalize ofText line = said at h ⊢
  cases said with
  | blank => cases h
  | assignment key value => cases h
  | malformed => exact ⟨rfl, Option.some_ne_none _⟩
  | emptyKey => exact ⟨rfl, Option.some_ne_none _⟩

theorem value?_effect (h : effect? line = some effect) (env : Environment) (key : String) :
    (effect env).value? key = (assigned? key line).or (env.value? key) := by
  rw [effect?] at h
  rw [assigned?]
  generalize ofText line = said at h ⊢
  cases said with
  | blank =>
      cases h
      rfl
  | assignment found value =>
      cases h
      dsimp only
      rw [value?_set]
      split_ifs
      · rfl
      · rfl
  | malformed => cases h
  | emptyKey => cases h

/-- The numbers of the lines only stand in the fault. -/
theorem loadLines_variables (env : Environment) (number other : Nat) (lines : List (List Char)) :
    (env.loadLines number lines).1 = (env.loadLines other lines).1 := by
  induction lines generalizing env number other with
  | nil => rfl
  | cons line more ih =>
      cases heffect : effect? line with
      | none => rw [(loadLines_faulty heffect ..).1, (loadLines_faulty heffect ..).1]
      | some effect =>
          rw [loadLines_cons heffect, loadLines_cons heffect]
          exact ih (effect env) _ _

/-- Whether there is a fault depends on the lines alone. -/
theorem loadLines_good (env other : Environment) (number number' : Nat)
    (lines : List (List Char)) :
    (env.loadLines number lines).2 = none ↔ (other.loadLines number' lines).2 = none := by
  induction lines generalizing env other number number' with
  | nil => rfl
  | cons line more ih =>
      cases heffect : effect? line with
      | none =>
          exact iff_of_false (loadLines_faulty heffect ..).2 (loadLines_faulty heffect ..).2
      | some effect =>
          rw [loadLines_cons heffect, loadLines_cons heffect]
          exact ih (effect env) (effect other) _ _

theorem loadLines_append (h : (env.loadLines number first).2 = none) :
    env.loadLines number (first ++ second) =
      (env.loadLines number first).1.loadLines (number + first.length) second := by
  induction first generalizing env number with
  | nil => rfl
  | cons line more ih =>
      have hcount : number + (line :: more).length = number + 1 + more.length := by
        rw [List.length_cons]
        omega
      cases heffect : effect? line with
      | none => exact absurd h (loadLines_faulty heffect ..).2
      | some effect =>
          rw [loadLines_cons heffect] at h
          rw [List.cons_append, hcount, loadLines_cons heffect, loadLines_cons heffect]
          exact ih h

/-- After good lines, a variable has the last value that one of them assigns to it, or else the one
it had. -/
theorem value?_loadLines (h : (env.loadLines number first).2 = none) (key : String) :
    (env.loadLines number first).1.value? key =
      (lastGiven? (assigned? key) first).or (env.value? key) := by
  induction first generalizing env number with
  | nil => rfl
  | cons line more ih =>
      cases heffect : effect? line with
      | none => exact absurd h (loadLines_faulty heffect ..).2
      | some effect =>
          rw [loadLines_cons heffect] at h ⊢
          rw [ih h, value?_effect heffect, lastGiven?_cons, Option.or_assoc]

theorem load_append_lineFeed (env : Environment) (first second : String) :
    env.load (first ++ "\n" ++ second) =
      env.loadLines 1 (pieces '\n' first.toList ++ pieces '\n' second.toList) := by
  rw [load, String.toList_append, String.toList_append, ← pieces_append_cons]
  simp

theorem load_quotedLine {before lead after : List Char} {quote : Char}
    (hkey : IsVariableName key.toList) (hlead : IsLead lead) (hquote : IsQuote quote)
    (hbefore : AllBlank before) (hafter : AllBlank after)
    (haround : '\n' ∉ before ++ lead ++ after) (hvalue : '\n' ∉ value.toList) :
    env.load (String.ofList (quotedLine before lead key.toList quote value.toList after)) =
      (env.set key value, none) := by
  rw [load, String.toList_ofList, pieces_of_not_mem (not_mem_quotedLine hkey hquote haround hvalue)]
  simp only [loadLines, ofText_quotedLine hkey hlead hquote hbefore hafter, String.ofList_toList]

/-- What a settings file does to the variables, whatever they were before. A good text and another
one on the lines after it do what the two do one after the other, and there is a fault if the other
one has one. After a good text, a variable has the value of the last line that assigns one to it,
and its old value if there is no such line; an empty value is none. A line with a value in quotes
assigns what stands between the quotes. -/
theorem load_spec (env : Environment) :
    (∀ first second : String, (env.load first).2 = none →
      (env.load (first ++ "\n" ++ second)).1 = ((env.load first).1.load second).1 ∧
        ∀ other : Environment,
          (env.load (first ++ "\n" ++ second)).2 = none ↔ (other.load second).2 = none) ∧
      (∀ text key : String, (env.load text).2 = none →
        (∀ before line after value, pieces '\n' text.toList = before ++ line :: after →
          ofText line = .assignment key value →
          (∀ later ∈ after, ∀ replaced, ofText later ≠ .assignment key replaced) →
          (env.load text).1.get? key = if value = "" then none else some value) ∧
        ((∀ line ∈ pieces '\n' text.toList, ∀ value, ofText line ≠ .assignment key value) →
          (env.load text).1.get? key = env.get? key)) ∧
      ∀ (key value : String) (quote : Char) (before lead after : List Char),
        IsVariableName key.toList → '\n' ∉ value.toList → IsQuote quote → IsLead lead →
        AllBlank before → AllBlank after → '\n' ∉ before ++ lead ++ after →
        ofText (quotedLine before lead key.toList quote value.toList after) =
            .assignment key value ∧
          env.load (String.ofList (quotedLine before lead key.toList quote value.toList after)) =
            (env.set key value, none) := by
  refine ⟨?_, ?_, ?_⟩
  · intro first second hfirst
    have hboth : env.load (first ++ "\n" ++ second) =
        (env.load first).1.loadLines (1 + (pieces '\n' first.toList).length)
          (pieces '\n' second.toList) := by
      rw [load_append_lineFeed, loadLines_append hfirst, load]
    rw [hboth]
    exact ⟨loadLines_variables _ _ 1 _, fun other => loadLines_good _ other _ 1 _⟩
  · intro text key htext
    refine ⟨fun before line after value hlines hline hafter => ?_, fun hnone => ?_⟩
    · have hlast : lastGiven? (assigned? key) (pieces '\n' text.toList) = some value :=
        lastGiven?_eq_some.mpr ⟨before, line, after, hlines, assigned?_eq_some.mpr hline,
          fun later hlater => assigned?_eq_none.mpr (hafter later hlater)⟩
      rw [get?, load, value?_loadLines htext, hlast, Option.some_or, Option.filter_some]
      by_cases hvalue : value = ""
      · simp [hvalue]
      · simp [hvalue]
    · have hlast : lastGiven? (assigned? key) (pieces '\n' text.toList) = none :=
        lastGiven?_eq_none.mpr fun line hline => assigned?_eq_none.mpr (hnone line hline)
      rw [get?, load, value?_loadLines htext, hlast, Option.none_or, get?]
  · intro key value quote before lead after hkey hvalue hquote hlead hbefore hafter haround
    refine ⟨?_, load_quotedLine hkey hlead hquote hbefore hafter haround hvalue⟩
    rw [ofText_quotedLine hkey hlead hquote hbefore hafter, String.ofList_toList,
      String.ofList_toList]

/-- A number of jobs that the variables have, and a file with an address. -/
theorem load_spec_address :
    (load ⟨[("JOBS", "4")]⟩ ("URL=a" ++ "\n" ++ "JOBS=\nURL")).1 =
        ((load ⟨[("JOBS", "4")]⟩ "URL=a").1.load "JOBS=\nURL").1 ∧
      (load ⟨[("JOBS", "4")]⟩ ("URL=a" ++ "\n" ++ "JOBS=\nURL")).2 ≠ none ∧
      (load ⟨[("JOBS", "4")]⟩ "URL=a").1.get? "URL" = some "a" ∧
      (load ⟨[("JOBS", "4")]⟩ "URL=a").1.get? "JOBS" = some "4" ∧
      load ⟨[("JOBS", "4")]⟩ "export URL=\"p = 'q' # r\"\r" =
        (set ⟨[("JOBS", "4")]⟩ "URL" "p = 'q' # r", none) := by
  obtain ⟨hboth, hlast, hquoted⟩ := load_spec ⟨[("JOBS", "4")]⟩
  have hgood : (load ⟨[("JOBS", "4")]⟩ "URL=a").2 = none := by decide +kernel
  have hlines : pieces '\n' "URL=a".toList = [] ++ "URL=a".toList :: [] := by decide +kernel
  have hline : ofText "URL=a".toList = .assignment "URL" "a" := by decide +kernel
  refine ⟨(hboth "URL=a" "JOBS=\nURL" hgood).1, ?_, ?_, ?_, ?_⟩
  · rw [ne_eq, (hboth "URL=a" "JOBS=\nURL" hgood).2 ⟨[]⟩]
    decide +kernel
  · exact (hlast "URL=a" "URL" hgood).1 [] _ [] "a" hlines hline (by simp)
  · refine (hlast "URL=a" "JOBS" hgood).2 fun line hmem value => ?_
    rw [hlines, List.nil_append, List.mem_singleton] at hmem
    rw [hmem, hline]
    simp
  · have hname : IsVariableName "URL".toList :=
      ⟨by decide, by simp [isBlank], by decide, by decide⟩
    have htext : '\n' ∉ "p = 'q' # r".toList := by decide +kernel
    exact (hquoted "URL" "p = 'q' # r" '"' [] "export ".toList ['\r'] hname htext (.inl rfl)
      (IsLead.exported (by decide : AllBlank [])) (by decide) (by decide) (by decide)).2

end Environment

end DictionaryDdl
