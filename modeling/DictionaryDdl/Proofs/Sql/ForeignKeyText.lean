import DictionaryDdl.Proofs.Sql.NameReading
import DictionaryDdl.Sql.ForeignKey

/-!
The statement that adds foreign keys is uniquely readable. Every part of a clause is taken off
its front in turn: names by their quotes, lists by their parentheses, actions by their keywords,
none of which starts another one. The parent table is read with or without its schema by the
character behind the first name, a dot or a space.
-/

namespace DictionaryDdl

theorem ReferentialAction.keyword_cancel {a b : ReferentialAction} {r s : List Char}
    (h : a.keyword.toList ++ r = b.keyword.toList ++ s) : a = b ∧ r = s := by
  cases a <;> cases b <;> simp [keyword] at h <;> exact ⟨rfl, h⟩

namespace ForeignKey

/-- The parent table reads back together with its schema, which is absent only where it was
absent. -/
theorem parent_cancel {j k : ForeignKey} {r s : List Char}
    (h : j.parent.toList ++ ' ' :: r = k.parent.toList ++ ' ' :: s) :
    j.referencedSchema = k.referencedSchema ∧ j.referencedTable = k.referencedTable ∧ r = s := by
  have hspace (rest : List Char) : Sql.EndsName (' ' :: rest) :=
    Sql.EndsName.of_head (rfl : " ".toList.head? = some ' ') (by decide) rest
  have hdot (rest : List Char) : Sql.EndsName (".".toList ++ rest) :=
    Sql.EndsName.of_head rfl (by decide) rest
  unfold parent at h
  cases hj : j.referencedSchema with
  | none =>
      cases hk : k.referencedSchema with
      | none =>
          simp only [hj, hk] at h
          obtain ⟨htable, hrest⟩ := Sql.identifier_cancel (hspace r) (hspace s) h
          exact ⟨rfl, htable, List.tail_eq_of_cons_eq hrest⟩
      | some schema =>
          simp only [hj, hk, String.toList_append, List.append_assoc] at h
          have hrest := (Sql.identifier_cancel (hspace _) (hdot _) h).2
          simp at hrest
  | some schema =>
      cases hk : k.referencedSchema with
      | none =>
          simp only [hj, hk, String.toList_append, List.append_assoc] at h
          have hrest := (Sql.identifier_cancel (hdot _) (hspace _) h).2
          simp at hrest
      | some schema' =>
          simp only [hj, hk, String.toList_append, List.append_assoc] at h
          obtain ⟨hschema, hrest⟩ := Sql.identifier_cancel (hdot _) (hdot _) h
          rw [List.append_cancel_left_eq] at hrest
          obtain ⟨htable, hrest⟩ := Sql.identifier_cancel (hspace r) (hspace s) hrest
          exact ⟨by rw [hschema], htable, List.tail_eq_of_cons_eq hrest⟩

/-- The clause of a foreign key reads back field by field. -/
theorem sql_cancel {j k : ForeignKey} {r s : List Char}
    (h : j.sql.toList ++ r = k.sql.toList ++ s) : j = k ∧ r = s := by
  have hkeyword (rest : List Char) : Sql.EndsName (" FOREIGN KEY ".toList ++ rest) :=
    Sql.EndsName.of_head rfl (by decide) rest
  unfold sql at h
  simp only [String.toList_append, List.append_assoc] at h
  rw [List.append_cancel_left_eq] at h
  obtain ⟨hname, h⟩ := Sql.identifier_cancel (hkeyword _) (hkeyword _) h
  rw [List.append_cancel_left_eq] at h
  obtain ⟨hlocal, h⟩ := Sql.nameList_cancel h
  rw [List.append_cancel_left_eq] at h
  obtain ⟨hschema, htable, h⟩ := parent_cancel h
  obtain ⟨hcolumns, h⟩ := Sql.nameList_cancel h
  rw [List.append_cancel_left_eq] at h
  obtain ⟨hdelete, h⟩ := ReferentialAction.keyword_cancel h
  rw [List.append_cancel_left_eq] at h
  obtain ⟨hupdate, hrest⟩ := ReferentialAction.keyword_cancel h
  cases j
  cases k
  simp only at hname hlocal hschema htable hcolumns hdelete hupdate
  subst hname hlocal hschema htable hcolumns hdelete hupdate
  exact ⟨rfl, hrest⟩

/-- Two statements that add foreign keys are equal only for the same table and the same foreign
keys, in the same order and with the same fields. -/
theorem statement_inj (table table' : String) (keys keys' : List ForeignKey) :
    statement table keys = statement table' keys' ↔ table = table' ∧ keys = keys' := by
  constructor
  · intro h
    have hends (rest : List Char) : Sql.EndsName ("\n\t".toList ++ rest) :=
      Sql.EndsName.of_head rfl (by decide) rest
    have hseparator : ",\n\t".toList = ',' :: ['\n', '\t'] := by decide
    have hopen (key : ForeignKey) : key.sql.toList.head? = some 'A' := by
      unfold sql
      simp [String.toList_append]
    have htext := congrArg String.toList h
    unfold statement at htext
    simp only [String.toList_append, List.append_assoc] at htext
    rw [List.append_cancel_left_eq] at htext
    obtain ⟨htable, hrest⟩ := Sql.identifier_cancel (hends _) (hends _) htext
    rw [List.append_cancel_left_eq] at hrest
    have hkeys := (Text.joined_cancel hseparator (by decide) (by decide) hopen
      (fun j _ k _ r s _ _ hjk => sql_cancel hjk) hrest).1
    rw [List.forall₂_eq_eq_eq] at hkeys
    exact ⟨htable, hkeys⟩
  · rintro ⟨rfl, rfl⟩
    rfl

end ForeignKey

end DictionaryDdl
