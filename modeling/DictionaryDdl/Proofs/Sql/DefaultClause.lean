import DictionaryDdl.Sql.Column
import Mathlib.Tactic.ByContra

/-!
The three forms of a default clause. The writer corrects dates first, then asks whether the
corrected text calls the current time, and only then whether the type has bare defaults. Here the
questions are put to the dictionary's text, in the order of their answers: the clause is left out,
or else the text is taken over as it is, or else the corrected text is quoted.
-/

namespace DictionaryDdl.Sql

/-- The defaults that are not written at all. -/
def IsOmitted (type : DataType) (text : String) : Prop :=
  type.hasBareDefault = true ∧ (text = "" ∨ text = "0x")

/-- The defaults that are written without quotes: those of binary, bit and timestamp columns, if
they are not a timestamp's date, and the function for the current time. -/
def IsWrittenBare (type : DataType) (text : String) : Prop :=
  (type.hasBareDefault = true ∧ ¬(type = .timestamp ∧ startsWithDigit text = true)) ∨
    (type.isTemporal = true ∧ currentTimestamp.toList <+: text.toList)

/-- A corrected date starts with a digit, so it is not taken for the current time. -/
theorem defaultText_of_isCurrentTime {type : DataType} {text : String}
    (h : isCurrentTime type (defaultText type text) = true) : defaultText type text = text := by
  unfold defaultText at h ⊢
  split
  · unfold validDate
    split
    · next hzero hdate =>
        exfalso
        simp [hdate, validDate, hzero, isCurrentTime, firstValidDate, currentTimestamp] at h
    · rfl
  · rfl

theorem defaultText_of_hasBareDefault {type : DataType} (h : type.hasBareDefault = true)
    (text : String) : defaultText type text = text := by
  cases type <;> first | rfl | cases h

/-- A call of the current time is not a date. -/
theorem defaultText_of_currentTimestamp {text : String}
    (h : currentTimestamp.toList <+: text.toList) (type : DataType) :
    defaultText type text = text := by
  have hdate : ¬zeroDate.toList.isPrefixOf text.toList = true := by
    obtain ⟨rest, htext⟩ := h
    rw [← htext]
    simp [zeroDate, currentTimestamp]
  unfold defaultText validDate
  rw [if_neg hdate, ite_self]

/-- The correction neither makes a date into a call of the current time nor such a call into
something else. -/
theorem isCurrentTime_defaultText_iff {type : DataType} {text : String} :
    isCurrentTime type (defaultText type text) = true ↔
      type.isTemporal = true ∧ currentTimestamp.toList <+: text.toList := by
  have hcall : isCurrentTime type text = true ↔
      type.isTemporal = true ∧ currentTimestamp.toList <+: text.toList := by
    rw [isCurrentTime, Bool.and_eq_true, List.isPrefixOf_iff_prefix]
  constructor
  · intro h
    rw [defaultText_of_isCurrentTime h] at h
    exact hcall.mp h
  · intro h
    rw [defaultText_of_currentTimestamp h.2]
    exact hcall.mpr h

theorem defaultClause_of_isOmitted {type : DataType} {text : String} (h : IsOmitted type text) :
    defaultClause type text = "" := by
  obtain ⟨htype, htext⟩ := h
  have hcall : ¬isCurrentTime type (defaultText type text) = true := by
    rw [isCurrentTime_defaultText_iff]
    rintro ⟨-, hcurrent⟩
    rcases htext with rfl | rfl
    all_goals exact absurd hcurrent (by decide)
  unfold defaultClause
  dsimp only
  rw [if_neg hcall, if_pos htype, defaultText_of_hasBareDefault htype, if_pos htext]

theorem defaultClause_of_isWrittenBare {type : DataType} {text : String}
    (hpresent : ¬IsOmitted type text) (hbare : IsWrittenBare type text) :
    defaultClause type text = " DEFAULT " ++ text := by
  unfold defaultClause
  dsimp only
  by_cases hcall : isCurrentTime type (defaultText type text) = true
  · rw [if_pos hcall, defaultText_of_isCurrentTime hcall]
  · rcases hbare with ⟨htype, hdate⟩ | hcurrent
    · rw [if_neg hcall, if_pos htype, defaultText_of_hasBareDefault htype,
        if_neg (fun htext => hpresent ⟨htype, htext⟩), if_neg hdate]
    · exact absurd (isCurrentTime_defaultText_iff.mpr hcurrent) hcall

theorem defaultClause_of_quoted {type : DataType} {text : String}
    (hpresent : ¬IsOmitted type text) (hquoted : ¬IsWrittenBare type text) :
    defaultClause type text = " DEFAULT " ++ literal (defaultText type text) := by
  have hcall : ¬isCurrentTime type (defaultText type text) = true :=
    fun h => hquoted (Or.inr (isCurrentTime_defaultText_iff.mp h))
  unfold defaultClause
  dsimp only
  rw [if_neg hcall]
  by_cases htype : type.hasBareDefault = true
  · have hdate : type = .timestamp ∧ startsWithDigit text = true := by
      by_contra hdate
      exact hquoted (Or.inl ⟨htype, hdate⟩)
    rw [if_pos htype, defaultText_of_hasBareDefault htype,
      if_neg (fun htext => hpresent ⟨htype, htext⟩), if_pos hdate]
  · rw [if_neg htype]

end DictionaryDdl.Sql
