import DictionaryDdl.Text.Blank
import Mathlib.Data.List.DropRight

/-!
What trimming takes away and what it leaves. Blanks at either end make no difference, a text that
neither starts nor ends with a blank is kept as it is, and every text is its trimmed one with blanks
around it. A character that is not blank keeps what stands before it and behind it apart.
-/

namespace DictionaryDdl.Text

variable {cs before after : List Char} {c : Char}

def AllBlank (cs : List Char) : Prop :=
  ∀ c ∈ cs, isBlank c = true

instance (cs : List Char) : Decidable (AllBlank cs) :=
  List.decidableBAll (isBlank · = true) cs

/-- A text that neither starts nor ends with a blank, such as the empty one. -/
structure IsTrimmed (cs : List Char) : Prop where
  head : ∀ c ∈ cs.head?, isBlank c = false
  last : ∀ c ∈ cs.getLast?, isBlank c = false

theorem AllBlank.append (hbefore : AllBlank before) (hafter : AllBlank after) :
    AllBlank (before ++ after) := by
  intro c hc
  rcases List.mem_append.mp hc with hc | hc
  · exact hbefore c hc
  · exact hafter c hc

theorem AllBlank.not_mem (h : AllBlank cs) (hc : isBlank c = false) : c ∉ cs := by
  intro hmem
  rw [h c hmem] at hc
  cases hc

theorem trimEnd_append_blank (hafter : AllBlank after) (cs : List Char) :
    trimEnd (cs ++ after) = trimEnd cs := by
  unfold trimEnd
  rw [List.reverse_append, List.dropWhile_append_of_pos]
  intro c hc
  exact hafter c (List.mem_reverse.mp hc)

theorem exists_eq_trimEnd_append (cs : List Char) :
    ∃ after, AllBlank after ∧ cs = trimEnd cs ++ after := by
  refine ⟨cs.rtakeWhile isBlank, ?_, List.rdropWhile_append_rtakeWhile.symm⟩
  intro c hc
  exact List.mem_rtakeWhile_imp hc

theorem trim_blank_append (hbefore : AllBlank before) (cs : List Char) :
    trim (before ++ cs) = trim cs := by
  unfold trim
  rw [List.dropWhile_append_of_pos hbefore]

theorem trim_append_blank (hafter : AllBlank after) (cs : List Char) :
    trim (cs ++ after) = trim cs := by
  unfold trim
  rw [List.dropWhile_append]
  split
  · next hcs =>
      have hnone : after.dropWhile isBlank = [] := List.dropWhile_eq_nil_iff.mpr hafter
      rw [List.isEmpty_iff.mp hcs, hnone]
  · exact trimEnd_append_blank hafter _

theorem trim_dropWhile (cs : List Char) : trim (cs.dropWhile isBlank) = trim cs := by
  unfold trim
  rw [List.dropWhile_idempotent]

theorem trim_trimEnd (cs : List Char) : trim (trimEnd cs) = trim cs := by
  obtain ⟨after, hafter, hcs⟩ := exists_eq_trimEnd_append cs
  conv_rhs => rw [hcs]
  exact (trim_append_blank hafter _).symm

/-- Every text is its trimmed one with blanks around it. -/
theorem exists_eq_append_trim (cs : List Char) :
    ∃ before after, AllBlank before ∧ AllBlank after ∧ cs = before ++ trim cs ++ after := by
  obtain ⟨after, hafter, hrest⟩ := exists_eq_trimEnd_append (cs.dropWhile isBlank)
  refine ⟨cs.takeWhile isBlank, after, fun c hc => List.mem_takeWhile_imp hc, hafter, ?_⟩
  rw [List.append_assoc]
  unfold trim
  rw [← hrest, List.takeWhile_append_dropWhile]

theorem mem_of_mem_trim (h : c ∈ trim cs) : c ∈ cs := by
  obtain ⟨before, after, -, -, hcs⟩ := exists_eq_append_trim cs
  rw [hcs]
  exact List.mem_append_left _ (List.mem_append_right _ h)

theorem trim_eq_nil_iff : trim cs = [] ↔ AllBlank cs := by
  constructor
  · intro h
    obtain ⟨before, after, hbefore, hafter, hcs⟩ := exists_eq_append_trim cs
    rw [hcs, h, List.append_nil]
    exact hbefore.append hafter
  · intro h
    exact trim_append_blank h []

theorem trim_of_isTrimmed (h : IsTrimmed cs) : trim cs = cs := by
  have hfront : cs.dropWhile isBlank = cs := by
    cases cs with
    | nil => rfl
    | cons c rest =>
        have hc : isBlank c = false := h.head c rfl
        exact List.dropWhile_cons_of_neg (by simp [hc])
  have hback : cs.rdropWhile isBlank = cs := by
    apply List.rdropWhile_eq_self_iff.mpr
    intro hne
    have hlast := h.last (cs.getLast hne) (List.getLast?_eq_some_getLast hne)
    simp [hlast]
  unfold trim
  rw [hfront]
  exact hback

theorem trim_padded (hbefore : AllBlank before) (hcs : IsTrimmed cs) (hafter : AllBlank after) :
    trim (before ++ cs ++ after) = cs := by
  rw [trim_append_blank hafter, trim_blank_append hbefore, trim_of_isTrimmed hcs]

theorem isTrimmed_trim (cs : List Char) : IsTrimmed (trim cs) := by
  constructor
  · intro c hc
    obtain ⟨rest, hrest⟩ := List.rdropWhile_prefix isBlank (cs.dropWhile isBlank)
    have hhead : (cs.dropWhile isBlank).head? = some c := by
      rw [← hrest]
      exact List.mem_head?_append_of_mem_head? hc
    have hblank := List.head?_dropWhile_not isBlank cs
    rw [hhead] at hblank
    simpa using hblank
  · intro c hc
    obtain ⟨hne, rfl⟩ := List.mem_getLast?_eq_getLast hc
    exact Bool.eq_false_iff.mpr (List.rdropWhile_last_not isBlank (cs.dropWhile isBlank) hne)

/-! ### A character that is not blank -/

private theorem dropWhile_append_cons (hc : isBlank c = false) (before after : List Char) :
    (before ++ c :: after).dropWhile isBlank = before.dropWhile isBlank ++ c :: after := by
  rw [List.dropWhile_append]
  split
  · next hbefore =>
      rw [List.isEmpty_iff.mp hbefore, List.dropWhile_cons_of_neg (by simp [hc])]
      rfl
  · rfl

theorem trim_append_cons (hc : isBlank c = false) (before after : List Char) :
    trim (before ++ c :: after) = before.dropWhile isBlank ++ c :: trimEnd after := by
  unfold trim trimEnd
  rw [dropWhile_append_cons hc, List.reverse_append, List.reverse_cons, List.append_assoc,
    List.singleton_append, dropWhile_append_cons hc]
  simp

end DictionaryDdl.Text
