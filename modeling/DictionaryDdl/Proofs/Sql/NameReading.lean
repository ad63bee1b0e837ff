import DictionaryDdl.Proofs.Text.Delimited
import DictionaryDdl.Sql.Quoting

/-!
Reading names back. A reader that takes two backticks for one and stops at a backtick that is
not followed by another one gets back every name and leaves exactly what follows it, whatever
characters the name has. What follows must not start with a backtick, which would be taken for
a part of the name.
-/

namespace DictionaryDdl.Sql

/-- The name up to its closing backtick, and what follows. -/
def readNameBody : List Char → Option (List Char × List Char)
  | [] => none
  | [c] => if c = backtick then some ([], []) else none
  | c :: d :: rest =>
      if c = backtick then
        if d = backtick then
          (readNameBody rest).map fun (name, after) => (backtick :: name, after)
        else some ([], d :: rest)
      else (readNameBody (d :: rest)).map fun (name, after) => (c :: name, after)

/-- A name between backticks, and what follows. -/
def readName : List Char → Option (List Char × List Char)
  | [] => none
  | c :: rest => if c = backtick then readNameBody rest else none

/-- A text that cannot be taken for the continuation of a name. -/
def EndsName (rest : List Char) : Prop :=
  rest.head? ≠ some backtick

theorem EndsName.of_head {text : String} {c : Char} (hhead : text.toList.head? = some c)
    (hc : c ≠ backtick) (rest : List Char) : EndsName (text.toList ++ rest) := by
  unfold EndsName
  rw [List.head?_append, hhead]
  simpa using hc

private theorem readNameBody_close {rest : List Char} (hrest : EndsName rest) :
    readNameBody (backtick :: rest) = some ([], rest) := by
  cases rest with
  | nil => simp [readNameBody]
  | cons d more =>
      have hd : d ≠ backtick := by simpa [EndsName] using hrest
      simp [readNameBody, hd]

private theorem readNameBody_char {c : Char} (hc : c ≠ backtick) {rest : List Char}
    (hrest : rest ≠ []) :
    readNameBody (c :: rest) =
      (readNameBody rest).map fun (name, after) => (c :: name, after) := by
  cases rest with
  | nil => exact absurd rfl hrest
  | cons d more => simp [readNameBody, hc]

private theorem readNameBody_escapeName (name : List Char) {rest : List Char}
    (hrest : EndsName rest) :
    readNameBody (escapeName name ++ backtick :: rest) = some (name, rest) := by
  induction name with
  | nil => exact readNameBody_close hrest
  | cons c name ih =>
      by_cases hc : c = backtick
      · simp [escapeName, hc, readNameBody, ih]
      · rw [escapeName, if_neg hc, List.cons_append, readNameBody_char hc (by simp), ih]
        rfl

/-- A quoted name reads back, and nothing of what follows it is taken. -/
theorem readName_quoteName (name : List Char) {rest : List Char} (hrest : EndsName rest) :
    readName (quoteName name ++ rest) = some (name, rest) := by
  simp [readName, quoteName, readNameBody_escapeName name hrest]

private theorem readNameBody_append {whole back content : List Char} (hback : EndsName back)
    (h : readNameBody whole = some (content, [])) :
    readNameBody (whole ++ back) = some (content, back) := by
  fun_induction readNameBody whole generalizing content with
  | case1 => cases h
  | case2 =>
      cases h
      exact readNameBody_close hback
  | case3 c hc => cases h
  | case4 rest ih =>
      obtain ⟨⟨name, after⟩, hrest, hcons⟩ := Option.map_eq_some_iff.mp h
      cases hcons
      simp [readNameBody, ih hrest]
  | case5 d rest hd => simp at h
  | case6 c d rest hc ih =>
      obtain ⟨⟨name, after⟩, hrest, hcons⟩ := Option.map_eq_some_iff.mp h
      cases hcons
      rw [List.cons_append, readNameBody_char hc (by simp), ih hrest]
      rfl

/-- A complete name stays one in front of a text that does not go on with it. -/
theorem readName_append {whole back content : List Char} (hback : EndsName back)
    (h : readName whole = some (content, [])) :
    readName (whole ++ back) = some (content, back) := by
  cases whole with
  | nil => cases h
  | cons c rest =>
      by_cases hc : c = backtick
      · subst hc
        exact readNameBody_append hback h
      · simp [readName, hc] at h

@[simp] theorem toList_identifier (name : String) :
    (identifier name).toList = quoteName name.toList := by
  simp [identifier]

/-- Quoted names are a prefix code: two texts that start with one agree in the name and in what
follows it. -/
theorem identifier_cancel {a b : String} {r s : List Char} (hr : EndsName r) (hs : EndsName s)
    (h : (identifier a).toList ++ r = (identifier b).toList ++ s) : a = b ∧ r = s := by
  rw [toList_identifier, toList_identifier] at h
  obtain ⟨hname, hrest⟩ := Text.cancel_of_read (readName_quoteName a.toList hr)
    (readName_quoteName b.toList hs) h
  exact ⟨String.toList_injective hname, hrest⟩

/-- Lists of names are a prefix code as well; their closing parenthesis ends them. -/
theorem nameList_cancel {as bs : List String} {r s : List Char}
    (h : (nameList as).toList ++ r = (nameList bs).toList ++ s) : as = bs ∧ r = s := by
  have hseparator : ", ".toList = ',' :: [' '] := by decide
  have hopen (name : String) : (identifier name).toList.head? = some backtick := by
    simp [quoteName]
  have hname {rest : List Char} (hrest : Text.EndsEntry ',' ')' rest) : EndsName rest :=
    hrest.head_ne (by decide) (by decide)
  have hread (a b : String) (r s : List Char) (hr : Text.EndsEntry ',' ')' r)
      (hs : Text.EndsEntry ',' ')' s)
      (hab : (identifier a).toList ++ r = (identifier b).toList ++ s) : a = b ∧ r = s :=
    identifier_cancel (hname hr) (hname hs) hab
  simp only [nameList, String.toList_append, List.append_assoc, List.append_cancel_left_eq] at h
  obtain ⟨hnames, hrest⟩ := Text.joined_cancel hseparator (by decide) (by decide) hopen
    (fun a _ b _ => hread a b) h
  rw [List.forall₂_eq_eq_eq] at hnames
  exact ⟨hnames, hrest⟩

end DictionaryDdl.Sql
