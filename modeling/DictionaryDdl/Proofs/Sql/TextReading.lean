import DictionaryDdl.Proofs.Text.Delimited
import DictionaryDdl.Sql.Quoting

/-!
Reading strings back by MySQL's rules. Between single quotes a doubled quote stands for one, and a
backslash gives the character behind it a meaning of its own or none. A quoted string reads back
as it was, whatever characters it has, and exactly what follows it is left. What follows must not
start with a single quote, which would be taken for the second half of a doubled one.
-/

namespace DictionaryDdl.Sql

/-- What a character behind a backslash stands for. The two wildcards of patterns keep their
backslash, and characters without a meaning of their own lose it. -/
def unescaped : Char → List Char
  | '0' => ['\x00']
  | 'b' => ['\x08']
  | 'n' => ['\n']
  | 'r' => ['\r']
  | 't' => ['\t']
  | 'Z' => ['\x1a']
  | '%' => ['\\', '%']
  | '_' => ['\\', '_']
  | c => [c]

/-- The string up to its closing quote, and what follows. -/
def readTextBody : List Char → Option (List Char × List Char)
  | [] => none
  | [c] => if c = '\'' then some ([], []) else none
  | c :: d :: rest =>
      if c = '\\' then
        (readTextBody rest).map fun (text, after) => (unescaped d ++ text, after)
      else if c = '\'' then
        if d = '\'' then
          (readTextBody rest).map fun (text, after) => ('\'' :: text, after)
        else some ([], d :: rest)
      else (readTextBody (d :: rest)).map fun (text, after) => (c :: text, after)

/-- A string between single quotes, and what follows. -/
def readText : List Char → Option (List Char × List Char)
  | [] => none
  | c :: rest => if c = '\'' then readTextBody rest else none

/-- A text that cannot be taken for the continuation of a string. -/
def EndsText (rest : List Char) : Prop :=
  rest.head? ≠ some '\''

private theorem readTextBody_close {rest : List Char} (hrest : EndsText rest) :
    readTextBody ('\'' :: rest) = some ([], rest) := by
  cases rest with
  | nil => rfl
  | cons d more =>
      have hd : d ≠ '\'' := by simpa [EndsText] using hrest
      simp [readTextBody, hd]

private theorem readTextBody_escapeChar (c : Char) {rest : List Char} (hrest : rest ≠ []) :
    readTextBody (escapeChar c ++ rest) =
      (readTextBody rest).map fun (text, after) => (c :: text, after) := by
  unfold escapeChar
  split
  · next hmark =>
      have hmeaning : unescaped c = [c] := by
        rcases hmark with rfl | rfl | rfl
        all_goals rfl
      simp [readTextBody, hmeaning]
  · next hplain =>
      rw [not_or, not_or] at hplain
      split
      · next hnul => simp [readTextBody, unescaped, hnul]
      · obtain ⟨d, more, rfl⟩ := List.exists_cons_of_ne_nil hrest
        simp [readTextBody, hplain]

private theorem readTextBody_escapeText (text : List Char) {rest : List Char}
    (hrest : EndsText rest) :
    readTextBody (escapeText text ++ '\'' :: rest) = some (text, rest) := by
  induction text with
  | nil => exact readTextBody_close hrest
  | cons c text ih =>
      have hbody : escapeText (c :: text) = escapeChar c ++ escapeText text := rfl
      rw [hbody, List.append_assoc, readTextBody_escapeChar c (by simp), ih]
      rfl

/-- A quoted string reads back, and nothing of what follows it is taken. -/
theorem readText_quoteText (text : List Char) {rest : List Char} (hrest : EndsText rest) :
    readText (quoteText text ++ rest) = some (text, rest) := by
  simp [readText, quoteText, readTextBody_escapeText text hrest]

private theorem readTextBody_append {whole back content : List Char} (hback : EndsText back)
    (h : readTextBody whole = some (content, [])) :
    readTextBody (whole ++ back) = some (content, back) := by
  fun_induction readTextBody whole generalizing content with
  | case1 => cases h
  | case2 =>
      cases h
      exact readTextBody_close hback
  | case3 c hc => cases h
  | case4 d rest ih =>
      obtain ⟨⟨text, after⟩, hrest, hcons⟩ := Option.map_eq_some_iff.mp h
      cases hcons
      simp [readTextBody, ih hrest]
  | case5 rest hslash ih =>
      obtain ⟨⟨text, after⟩, hrest, hcons⟩ := Option.map_eq_some_iff.mp h
      cases hcons
      simp [readTextBody, ih hrest]
  | case6 d rest hslash hd => simp at h
  | case7 c d rest hslash hc ih =>
      obtain ⟨⟨text, after⟩, hrest, hcons⟩ := Option.map_eq_some_iff.mp h
      cases hcons
      have hshorter := ih hrest
      rw [List.cons_append] at hshorter
      simp [readTextBody, hslash, hc, hshorter]

/-- A complete string stays one in front of a text that does not go on with it. -/
theorem readText_append {whole back content : List Char} (hback : EndsText back)
    (h : readText whole = some (content, [])) :
    readText (whole ++ back) = some (content, back) := by
  cases whole with
  | nil => cases h
  | cons c rest =>
      by_cases hc : c = '\''
      · subst hc
        exact readTextBody_append hback h
      · simp [readText, hc] at h

@[simp] theorem toList_literal (text : String) : (literal text).toList = quoteText text.toList := by
  simp [literal]

/-- Quoted strings are a prefix code: two texts that start with one agree in the string and in what
follows it. -/
theorem literal_cancel {a b : String} {r s : List Char} (hr : EndsText r) (hs : EndsText s)
    (h : (literal a).toList ++ r = (literal b).toList ++ s) : a = b ∧ r = s := by
  rw [toList_literal, toList_literal] at h
  obtain ⟨htext, hrest⟩ := Text.cancel_of_read (readText_quoteText a.toList hr)
    (readText_quoteText b.toList hs) h
  exact ⟨String.toList_injective htext, hrest⟩

theorem length_le_escapeText (text : List Char) : text.length ≤ (escapeText text).length := by
  induction text with
  | nil => exact Nat.le_refl _
  | cons c text ih =>
      have hbody : escapeText (c :: text) = escapeChar c ++ escapeText text := rfl
      have hchar : 1 ≤ (escapeChar c).length := by
        unfold escapeChar
        split
        · simp
        · split <;> simp
      rw [hbody, List.length_append, List.length_cons]
      omega

/-- The quotes alone make a quoted string longer than the text. -/
theorem length_lt_literal (text : String) : text.length < (literal text).length := by
  have htext := length_le_escapeText text.toList
  rw [← String.length_toList, ← String.length_toList, toList_literal]
  simp only [quoteText, List.cons_append, List.length_cons, List.length_append]
  omega

end DictionaryDdl.Sql
