import DictionaryDdl.Files.Tree
import DictionaryDdl.Proofs.Text.Pieces

/-!
The text of a path and its pieces. A slash between two texts adds their pieces up, and the pieces
of a path with slashes between them are its text again. A name is a piece that leads one step down,
so joining a name to a path adds one piece to it, but for an empty one at the end of the path.
-/

namespace DictionaryDdl

namespace Path

variable {p base : Path} {name text : String}

/-- A piece that leads one step down. -/
structure IsName (name : String) : Prop where
  ne_empty : name ≠ ""
  ne_here : name ≠ "."
  ne_up : name ≠ ".."
  no_slash : '/' ∉ name.toList

instance (name : String) : Decidable (IsName name) :=
  decidable_of_iff (name ≠ "" ∧ name ≠ "." ∧ name ≠ ".." ∧ '/' ∉ name.toList)
    ⟨fun ⟨h1, h2, h3, h4⟩ => ⟨h1, h2, h3, h4⟩, fun ⟨h1, h2, h3, h4⟩ => ⟨h1, h2, h3, h4⟩⟩

theorem pieces_ne_nil (p : Path) : p.pieces ≠ [] := by
  simpa [pieces] using Text.pieces_ne_nil '/' p.text.toList

theorem pieces_append_slash (a b : String) :
    (Path.mk (a ++ "/" ++ b)).pieces = (Path.mk a).pieces ++ (Path.mk b).pieces := by
  have htext : (a ++ "/" ++ b).toList = a.toList ++ '/' :: b.toList := by
    simp [String.toList_append]
  simp only [pieces, htext, Text.pieces_append_cons, List.map_append]

theorem pieces_of_no_slash (h : '/' ∉ text.toList) : (Path.mk text).pieces = [text] := by
  simp [pieces, Text.pieces_of_not_mem h]

theorem mem_pieces {piece : String} (h : piece ∈ p.pieces) :
    '/' ∉ piece.toList ∧ ∀ c ∈ piece.toList, c ∈ p.text.toList := by
  obtain ⟨cs, hcs, rfl⟩ := List.mem_map.mp h
  simpa using Text.not_mem_of_mem_pieces hcs

/-- A text that ends in a slash is a shorter one with the slash after it. -/
theorem eq_append_slash (h : p.text.toList.getLast? = some '/') :
    ∃ a, p.text = a ++ "/" := by
  obtain ⟨cs, hcs⟩ := List.getLast?_eq_some_iff.mp h
  refine ⟨String.ofList cs, ?_⟩
  apply String.toList_injective
  simp [hcs, String.toList_append]

/-- What is joined to a path stands at the end of its pieces. -/
theorem pieces_join (base : Path) (text : String) :
    ∃ before, (base.join text).pieces = before ++ (Path.mk text).pieces := by
  unfold join
  split
  · exact ⟨[], rfl⟩
  · split
    · rename_i hslash
      obtain ⟨a, ha⟩ := eq_append_slash hslash
      exact ⟨(Path.mk a).pieces, by rw [ha, pieces_append_slash]⟩
    · exact ⟨base.pieces, pieces_append_slash base.text text⟩

theorem IsName.head?_ne_slash (h : IsName name) : name.toList.head? ≠ some '/' := by
  intro hhead
  exact h.no_slash (List.mem_of_head? hhead)

/-- A name becomes the last piece; the one before it may be an empty one that is not needed. -/
theorem pieces_join_name (base : Path) (h : IsName name) :
    (base.join name).pieces = base.pieces ++ [name] ∨
      ∃ before, base.pieces = before ++ [""] ∧ (base.join name).pieces = before ++ [name] := by
  have hname := pieces_of_no_slash h.no_slash
  unfold join
  split
  · rename_i hempty
    have hbase : base.text = "" :=
      String.isEmpty_iff.mp (hempty.resolve_left h.head?_ne_slash)
    refine .inr ⟨[], ?_, by simpa using hname⟩
    simp [pieces, hbase, Text.pieces]
  · split
    · rename_i hslash
      obtain ⟨a, ha⟩ := eq_append_slash hslash
      refine .inr ⟨(Path.mk a).pieces, ?_, by rw [ha, pieces_append_slash, hname]⟩
      have hend := pieces_append_slash a ""
      rwa [String.append_empty, ← ha] at hend
    · left
      rw [pieces_append_slash, hname]

theorem pieces_of_endsInSlash (h : p.endsInSlash = true) :
    ∃ before, p.pieces = before ++ [""] := by
  obtain ⟨a, ha⟩ := eq_append_slash (by simpa [endsInSlash] using h)
  refine ⟨(Path.mk a).pieces, ?_⟩
  have hend := pieces_append_slash a ""
  rwa [String.append_empty, ← ha] at hend

theorem endsInSlash_join (h : IsName name) : (base.join name).endsInSlash = false := by
  rw [Bool.eq_false_iff]
  intro hslash
  obtain ⟨before, hbefore⟩ := pieces_of_endsInSlash hslash
  rcases pieces_join_name base h with hpieces | ⟨others, -, hpieces⟩
  · rw [hpieces] at hbefore
    exact h.ne_empty (List.append_inj_right' hbefore rfl |> List.singleton_inj.mp)
  · rw [hpieces] at hbefore
    exact h.ne_empty (List.append_inj_right' hbefore rfl |> List.singleton_inj.mp)

theorem text_join (base : Path) (text : String) :
    (base.join text).text = text ∨ (base.join text).text = base.text ++ text ∨
      (base.join text).text = base.text ++ "/" ++ text := by
  unfold join
  split
  · exact .inl rfl
  · split
    · exact .inr (.inl rfl)
    · exact .inr (.inr rfl)

theorem text_join_name (hne : base.text ≠ "") (h : IsName name) :
    (base.join name).text = base.text ++ name ∨
      (base.join name).text = base.text ++ "/" ++ name := by
  have hrelative : ¬ (name.toList.head? = some '/' ∨ base.text.isEmpty = true) := by
    rw [not_or]
    exact ⟨h.head?_ne_slash, by simpa using hne⟩
  unfold join
  rw [if_neg hrelative]
  split
  · exact .inl rfl
  · exact .inr rfl

/-- A name without its extension has no other characters. -/
theorem mem_of_mem_stem {c : Char} (h : c ∈ (cutName name).1.toList) : c ∈ name.toList := by
  unfold cutName at h
  cases hcut : Text.cutAt '.' name.toList.reverse with
  | none =>
      rw [hcut] at h
      exact h
  | some found =>
      obtain ⟨extension, stem⟩ := found
      rw [hcut] at h
      dsimp only at h
      split at h
      · exact h
      · rw [String.toList_ofList, List.mem_reverse] at h
        have hname := (Text.eq_append_cons_of_cutAt hcut).2
        apply List.mem_reverse.mp
        rw [hname]
        exact List.mem_append_right _ (List.mem_cons_of_mem _ h)

/-- The extension stands behind the last dot, and something before it. -/
theorem cutName_eq_some {found : String} :
    (cutName name).2 = some found ↔
      ∃ stem : String, stem ≠ "" ∧ '.' ∉ found.toList ∧ name = stem ++ "." ++ found := by
  unfold cutName
  constructor
  · intro h
    cases hcut : Text.cutAt '.' name.toList.reverse with
    | none =>
        rw [hcut] at h
        cases h
    | some cut =>
        obtain ⟨extension, stem⟩ := cut
        obtain ⟨hdot, hname⟩ := Text.eq_append_cons_of_cutAt hcut
        rw [hcut] at h
        dsimp only at h
        split at h
        · cases h
        · next hstem =>
            cases h
            refine ⟨String.ofList stem.reverse, ?_, ?_, ?_⟩
            · simpa using hstem
            · simpa using hdot
            · apply String.toList_injective
              rw [← List.reverse_inj, hname]
              simp [String.toList_append]
  · rintro ⟨stem, hstem, hdot, rfl⟩
    have hname : (stem ++ "." ++ found).toList.reverse =
        found.toList.reverse ++ '.' :: stem.toList.reverse := by
      simp [String.toList_append]
    rw [hname, Text.cutAt_append_cons (by simpa using hdot)]
    simp [hstem]

/-- A text with an extension is a name, whatever stands before the dot. -/
theorem isName_append {extension : String} (h : '/' ∉ text.toList)
    (hextension : '/' ∉ extension.toList) (hlong : 2 < extension.toList.length) :
    IsName (text ++ extension) := by
  have hne (other : String) (hother : other.toList.length ≤ 2) : text ++ extension ≠ other := by
    rintro rfl
    rw [String.toList_append, List.length_append] at hother
    omega
  refine ⟨hne "" (by decide), hne "." (by decide), hne ".." (by decide), ?_⟩
  rw [String.toList_append, List.mem_append, not_or]
  exact ⟨h, hextension⟩

theorem isName_append_sql (h : '/' ∉ text.toList) : IsName (text ++ ".sql") :=
  isName_append h (by decide) (by decide)

/-- The extension of scripts goes to the last piece, which is a name then. -/
theorem pieces_append_sql (text : String) :
    ∃ before last, (Path.mk (text ++ ".sql")).pieces = before ++ [last ++ ".sql"] ∧
      IsName (last ++ ".sql") := by
  obtain ⟨before, last, htext, hlong⟩ :=
    Text.pieces_append_of_not_mem text.toList (show '/' ∉ ".sql".toList by decide)
  refine ⟨before.map String.ofList, String.ofList last, ?_, isName_append_sql ?_⟩
  · simp only [pieces, String.toList_append, hlong, List.map_append, List.map_singleton,
      String.ofList_append, String.ofList_toList]
  · have hlast : last ∈ Text.pieces '/' text.toList := by simp [htext]
    simpa using (Text.not_mem_of_mem_pieces hlast).1

end Path

end DictionaryDdl
