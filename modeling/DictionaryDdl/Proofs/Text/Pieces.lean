import DictionaryDdl.Text.Split

/-!
The pieces of a text between separators. A separator between two texts adds their pieces up, a text
without separators is its only piece, and the pieces with separators between them are the text
again. A text is cut at a separator that has none before it.
-/

namespace DictionaryDdl.Text

variable {separator : Char} {a b : List Char}

theorem pieces_ne_nil (separator : Char) (cs : List Char) : pieces separator cs ≠ [] := by
  cases cs with
  | nil => simp [pieces]
  | cons c rest =>
      unfold pieces
      split
      · simp
      · split <;> simp

theorem pieces_cons_of_ne {c : Char} (h : c ≠ separator) {piece : List Char}
    {more : List (List Char)} (hrest : pieces separator a = piece :: more) :
    pieces separator (c :: a) = (c :: piece) :: more := by
  simp [pieces, h, hrest]

theorem pieces_append_cons (separator : Char) (a b : List Char) :
    pieces separator (a ++ separator :: b) = pieces separator a ++ pieces separator b := by
  induction a with
  | nil => simp [pieces]
  | cons c rest ih =>
      by_cases h : c = separator
      · subst h
        simp [pieces, ih]
      · obtain ⟨piece, more, hrest⟩ := List.exists_cons_of_ne_nil (pieces_ne_nil separator rest)
        have hlong : pieces separator (rest ++ separator :: b) =
            piece :: (more ++ pieces separator b) := by
          rw [ih, hrest, List.cons_append]
        rw [List.cons_append, pieces_cons_of_ne h hlong, pieces_cons_of_ne h hrest,
          List.cons_append]

theorem pieces_of_not_mem (h : separator ∉ a) : pieces separator a = [a] := by
  induction a with
  | nil => rfl
  | cons c rest ih =>
      rw [List.mem_cons, not_or] at h
      exact pieces_cons_of_ne (Ne.symm h.1) (ih h.2)

/-- A text without separators goes to the last piece of the one it is appended to. -/
theorem pieces_append_of_not_mem (a : List Char) (h : separator ∉ b) :
    ∃ before last, pieces separator a = before ++ [last] ∧
      pieces separator (a ++ b) = before ++ [last ++ b] := by
  induction a with
  | nil => exact ⟨[], [], rfl, by simpa using pieces_of_not_mem h⟩
  | cons c rest ih =>
      obtain ⟨before, last, hrest, hlong⟩ := ih
      by_cases hc : c = separator
      · exact ⟨[] :: before, last, by simp [pieces, hc, hrest], by simp [pieces, hc, hlong]⟩
      · cases before with
        | nil =>
            exact ⟨[], c :: last, pieces_cons_of_ne hc hrest, pieces_cons_of_ne hc hlong⟩
        | cons first more =>
            exact ⟨(c :: first) :: more, last, pieces_cons_of_ne hc hrest,
              pieces_cons_of_ne hc hlong⟩

theorem not_mem_of_mem_pieces {piece : List Char} (h : piece ∈ pieces separator a) :
    separator ∉ piece ∧ ∀ c ∈ piece, c ∈ a := by
  induction a generalizing piece with
  | nil =>
      simp only [pieces, List.mem_singleton] at h
      simp [h]
  | cons c rest ih =>
      by_cases hc : c = separator
      · simp only [pieces, if_pos hc, List.mem_cons] at h
        rcases h with rfl | h
        · simp
        · exact ⟨(ih h).1, fun d hd => List.mem_cons_of_mem c ((ih h).2 d hd)⟩
      · obtain ⟨first, more, hrest⟩ := List.exists_cons_of_ne_nil (pieces_ne_nil separator rest)
        rw [pieces_cons_of_ne hc hrest, List.mem_cons] at h
        rcases h with rfl | h
        · obtain ⟨hfirst, hall⟩ := ih (show first ∈ pieces separator rest by simp [hrest])
          constructor
          · simp [Ne.symm hc, hfirst]
          · intro d hd
            rcases List.mem_cons.mp hd with rfl | hd
            · exact List.mem_cons_self
            · exact List.mem_cons_of_mem c (hall d hd)
        · obtain ⟨hpiece, hall⟩ := ih (show piece ∈ pieces separator rest by simp [hrest, h])
          exact ⟨hpiece, fun d hd => List.mem_cons_of_mem c (hall d hd)⟩

/-! ### The first separator -/

theorem cutAt_append_cons (h : separator ∉ a) :
    cutAt separator (a ++ separator :: b) = some (a, b) := by
  induction a with
  | nil => simp [cutAt]
  | cons c rest ih =>
      rw [List.mem_cons, not_or] at h
      rw [List.cons_append, cutAt, if_neg (Ne.symm h.1), ih h.2]
      rfl

theorem eq_append_cons_of_cutAt {cs : List Char} (h : cutAt separator cs = some (a, b)) :
    separator ∉ a ∧ cs = a ++ separator :: b := by
  induction cs generalizing a with
  | nil => cases h
  | cons c rest ih =>
      by_cases hc : c = separator
      · rw [cutAt, if_pos hc] at h
        cases h
        exact ⟨List.not_mem_nil, by rw [hc, List.nil_append]⟩
      · rw [cutAt, if_neg hc] at h
        obtain ⟨⟨before, after⟩, hrest, hcons⟩ := Option.map_eq_some_iff.mp h
        cases hcons
        obtain ⟨hbefore, rfl⟩ := ih hrest
        refine ⟨?_, by rw [List.cons_append]⟩
        rw [List.mem_cons, not_or]
        exact ⟨Ne.symm hc, hbefore⟩

/-! ### Joined texts -/

theorem toList_joined_cons (separator first : String) {more : List String} (h : more ≠ []) :
    (joined separator (first :: more)).toList =
      first.toList ++ (separator.toList ++ (joined separator more).toList) := by
  cases more with
  | nil => exact absurd rfl h
  | cons next others => simp [joined, String.toList_append]

theorem joined_sublist (separator : String) {texts texts' : List String}
    (h : texts.Sublist texts') :
    (joined separator texts).toList.Sublist (joined separator texts').toList := by
  induction h with
  | slnil => exact .refl _
  | @cons texts texts' first hrest ih =>
      by_cases hempty : texts' = []
      · rw [hempty, List.sublist_nil] at hrest
        simp [hrest, joined]
      · rw [toList_joined_cons separator first hempty, ← List.append_assoc]
        exact ih.trans (List.sublist_append_right _ _)
  | @cons_cons texts texts' first hrest ih =>
      by_cases hempty : texts = []
      · subst hempty
        by_cases hempty' : texts' = []
        · simp [hempty']
        · rw [toList_joined_cons separator first hempty']
          exact List.sublist_append_left _ _
      · have hempty' : texts' ≠ [] := by
          rintro rfl
          exact hempty (List.sublist_nil.mp hrest)
        rw [toList_joined_cons separator first hempty, toList_joined_cons separator first hempty']
        exact (ih.append_left _).append_left _

/-- The pieces of a text with the separator between them are the text. -/
theorem joined_pieces {joint : String} (hjoint : joint.toList = [separator]) (cs : List Char) :
    (joined joint ((pieces separator cs).map String.ofList)).toList = cs := by
  induction cs with
  | nil => rfl
  | cons c rest ih =>
      obtain ⟨first, more, hrest⟩ := List.exists_cons_of_ne_nil (pieces_ne_nil separator rest)
      by_cases hc : c = separator
      · subst hc
        have hpieces : pieces c (c :: rest) = [] :: pieces c rest := by simp [pieces]
        rw [hpieces, List.map_cons, toList_joined_cons _ _ (by simp [hrest]), ih, hjoint]
        rfl
      · rw [pieces_cons_of_ne hc hrest]
        rw [hrest] at ih
        by_cases hmore : more = []
        · subst hmore
          simp only [List.map_cons, List.map_nil, joined, String.toList_ofList] at ih ⊢
          rw [ih]
        · rw [List.map_cons, toList_joined_cons _ _ (by simpa using hmore),
            String.toList_ofList] at ih ⊢
          rw [List.cons_append, ih]

/-- Texts without slashes are the pieces of what they are joined to. -/
theorem pieces_joined {texts : List String} (h : ∀ text ∈ texts, '/' ∉ text.toList)
    (hne : texts ≠ []) : (pieces '/' (joined "/" texts).toList).map String.ofList = texts := by
  induction texts with
  | nil => exact absurd rfl hne
  | cons first more ih =>
      have hfirst : '/' ∉ first.toList := h first List.mem_cons_self
      by_cases hmore : more = []
      · subst hmore
        simp [joined, pieces_of_not_mem hfirst]
      · rw [toList_joined_cons _ _ hmore]
        change (pieces '/' (first.toList ++ '/' :: (joined "/" more).toList)).map String.ofList = _
        rw [pieces_append_cons, List.map_append, pieces_of_not_mem hfirst,
          ih (fun text htext => h text (List.mem_cons_of_mem first htext)) hmore]
        simp

theorem utf8ByteSize_le_of_sublist {s t : String} (h : s.toList.Sublist t.toList) :
    s.utf8ByteSize ≤ t.utf8ByteSize := by
  have hlists {a b : List Char} (h : a.Sublist b) :
      (String.ofList a).utf8ByteSize ≤ (String.ofList b).utf8ByteSize := by
    induction h with
    | slnil => exact Nat.le_refl _
    | cons c _ ih =>
        rw [String.ofList_cons, String.utf8ByteSize_append]
        omega
    | cons_cons c _ ih =>
        rw [String.ofList_cons, String.ofList_cons, String.utf8ByteSize_append,
          String.utf8ByteSize_append]
        omega
  simpa using hlists h

end DictionaryDdl.Text
