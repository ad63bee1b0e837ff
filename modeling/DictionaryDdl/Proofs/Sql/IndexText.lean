import DictionaryDdl.Proofs.Sql.NameReading
import DictionaryDdl.Sql.Index

/-!
The definition of an index is uniquely readable. Its keyword gives the kind, and with it whether a
name follows. The elements are read one after another: a column by its quotes, and the length of a
prefix, if there is one, between parentheses that nothing in a name can imitate. So two definitions
are the same text only if the kind, the columns and their prefixes are the same, and the name where
it is written.

What an element holds beside the column and the prefix is not written.
-/

namespace DictionaryDdl

theorem IndexKind.keyword_cancel {a b : IndexKind} {r s : List Char}
    (h : a.keyword.toList ++ r = b.keyword.toList ++ s) : a = b ∧ r = s := by
  cases a <;> cases b <;> simp [keyword] at h <;> exact ⟨rfl, h⟩

namespace IndexElement

variable {e f : IndexElement} {p q : Option UInt64} {r s : List Char}

/-- What the definition of an index says about an element. -/
def shown (e : IndexElement) : String × Option UInt64 :=
  (e.columnName, e.prefixChars)

/-- The length of a prefix as it stands behind the column. -/
def prefixPart : Option UInt64 → String
  | none => ""
  | some n => "(" ++ Text.ofUInt64 n ++ ")"

theorem sql_eq (e : IndexElement) :
    e.sql = Sql.identifier e.shown.1 ++ prefixPart e.shown.2 := by
  unfold sql shown prefixPart
  cases e.prefixChars with
  | none => rfl
  | some n => rfl

theorem endsName_prefixPart (p : Option UInt64) (hr : Text.EndsEntry ',' ')' r) :
    Sql.EndsName ((prefixPart p).toList ++ r) := by
  cases p with
  | none => exact hr.head_ne (by decide) (by decide)
  | some n =>
      rw [prefixPart, String.append_assoc, String.toList_append, List.append_assoc]
      exact Sql.EndsName.of_head rfl (by decide) _

theorem prefixPart_cancel (hr : Text.EndsEntry ',' ')' r) (hs : Text.EndsEntry ',' ')' s)
    (h : (prefixPart p).toList ++ r = (prefixPart q).toList ++ s) : p = q ∧ r = s := by
  -- what follows a column without a prefix cannot be the parenthesis of one
  have hopen {n : UInt64} {r s : List Char} (hr : Text.EndsEntry ',' ')' r) :
      r ≠ (prefixPart (some n)).toList ++ s := by
    rintro rfl
    simp [Text.EndsEntry, prefixPart, String.toList_append] at hr
  have hclosing (rest : List Char) : Text.EndsRun Char.isDigit (")".toList ++ rest) := by
    simp [Text.EndsRun]
  cases p with
  | none =>
      cases q with
      | none => exact ⟨rfl, h⟩
      | some n => exact absurd h (hopen hr)
  | some m =>
      cases q with
      | none => exact absurd h.symm (hopen hs)
      | some n =>
          simp only [prefixPart, String.toList_append, List.append_assoc] at h
          rw [List.append_cancel_left_eq] at h
          obtain ⟨hnumber, hrest⟩ := Text.ofUInt64_cancel (hclosing r) (hclosing s) h
          exact ⟨congrArg some hnumber, List.append_cancel_left hrest⟩

/-- An element reads back up to the comma or the parenthesis behind it. -/
theorem sql_cancel (hr : Text.EndsEntry ',' ')' r) (hs : Text.EndsEntry ',' ')' s)
    (h : e.sql.toList ++ r = f.sql.toList ++ s) : e.shown = f.shown ∧ r = s := by
  rw [sql_eq, sql_eq, String.toList_append, String.toList_append, List.append_assoc,
    List.append_assoc] at h
  obtain ⟨hcolumn, h⟩ := Sql.identifier_cancel (endsName_prefixPart _ hr)
    (endsName_prefixPart _ hs) h
  obtain ⟨hchars, hrest⟩ := prefixPart_cancel hr hs h
  exact ⟨Prod.ext hcolumn hchars, hrest⟩

/-- The parentheses around a list of elements end it. -/
theorem list_cancel {es fs : List IndexElement}
    (h : (Text.joined ", " (es.map sql)).toList ++ ')' :: r =
      (Text.joined ", " (fs.map sql)).toList ++ ')' :: s) :
    es.map shown = fs.map shown ∧ r = s := by
  have hseparator : ", ".toList = ',' :: [' '] := by decide
  have hopen (e : IndexElement) : e.sql.toList.head? = some Sql.backtick := by
    simp [sql_eq, String.toList_append, Sql.quoteName]
  obtain ⟨hentries, hrest⟩ := Text.joined_cancel hseparator (by decide) (by decide) hopen
    (fun e _ f _ r s hr hs => sql_cancel hr hs) h
  rw [← List.forall₂_eq_eq_eq, List.forall₂_map_left_iff, List.forall₂_map_right_iff]
  exact ⟨hentries, hrest⟩

end IndexElement

namespace Index

variable {i j : Index} {r s : List Char}

theorem namePart_of_primary (h : i.kind = .primary) : i.namePart = "" := by
  rw [namePart, if_pos h]

theorem namePart_of_ne_primary (h : i.kind ≠ .primary) :
    i.namePart = " " ++ Sql.identifier i.name := by
  rw [namePart, if_neg h]

/-- Only the name of a primary key is not written. -/
theorem namePart_cancel (hkind : i.kind = j.kind)
    (h : i.namePart.toList ++ (" (".toList ++ r) = j.namePart.toList ++ (" (".toList ++ s)) :
    (i.kind ≠ .primary → i.name = j.name) ∧ r = s := by
  have hopening (rest : List Char) : Sql.EndsName (" (".toList ++ rest) :=
    Sql.EndsName.of_head rfl (by decide) rest
  by_cases hprimary : i.kind = .primary
  · rw [namePart_of_primary hprimary, namePart_of_primary (hkind ▸ hprimary)] at h
    exact ⟨fun hnot => absurd hprimary hnot, List.append_cancel_left (List.append_cancel_left h)⟩
  · rw [namePart_of_ne_primary hprimary, namePart_of_ne_primary (hkind ▸ hprimary)] at h
    simp only [String.toList_append, List.append_assoc] at h
    rw [List.append_cancel_left_eq] at h
    obtain ⟨hname, hrest⟩ := Sql.identifier_cancel (hopening r) (hopening s) h
    exact ⟨fun _ => hname, List.append_cancel_left hrest⟩

theorem namePart_congr (hkind : i.kind = j.kind) (hname : i.kind ≠ .primary → i.name = j.name) :
    i.namePart = j.namePart := by
  by_cases hprimary : i.kind = .primary
  · rw [namePart_of_primary hprimary, namePart_of_primary (hkind ▸ hprimary)]
  · rw [namePart_of_ne_primary hprimary, namePart_of_ne_primary (hkind ▸ hprimary),
      hname hprimary]

/-- Two indexes have the same definition if, and only if, they have the same kind, the same columns
in the same order with the same prefixes and, unless they are primary keys, the same name. -/
theorem sql_eq_iff_shown (i j : Index) :
    i.sql = j.sql ↔
      i.kind = j.kind ∧ i.elements.map IndexElement.shown = j.elements.map IndexElement.shown ∧
        (i.kind ≠ .primary → i.name = j.name) := by
  constructor
  · intro h
    have htext := congrArg String.toList h
    unfold sql at htext
    simp only [String.toList_append, List.append_assoc] at htext
    obtain ⟨hkind, htext⟩ := IndexKind.keyword_cancel htext
    obtain ⟨hname, htext⟩ := namePart_cancel hkind htext
    exact ⟨hkind, (IndexElement.list_cancel htext).1, hname⟩
  · rintro ⟨hkind, helements, hname⟩
    have htexts : i.elements.map IndexElement.sql = j.elements.map IndexElement.sql := by
      have hshown (es : List IndexElement) : es.map IndexElement.sql =
          (es.map IndexElement.shown).map
            fun part => Sql.identifier part.1 ++ IndexElement.prefixPart part.2 := by
        rw [List.map_map]
        exact List.map_congr_left fun e _ => e.sql_eq
      rw [hshown, hshown, helements]
    unfold sql
    rw [hkind, namePart_congr hkind hname, htexts]

end Index

end DictionaryDdl
