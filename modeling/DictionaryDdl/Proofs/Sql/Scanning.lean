import DictionaryDdl.Sql.Quoting
import DictionaryDdl.Text.Decimal

/-!
Statements cut into lines by MySQL's own rules of quoting. A line feed inside a name or a string
belongs to that name or string and ends no line. A text is closed when it neither leaves a quote
open nor ends a line: closed texts can be put one after another without any of them changing how
the others are read. Names and strings between quotes are closed whatever characters they hold.
-/

namespace DictionaryDdl.Sql

/-- Where a reader of a statement stands. -/
inductive Place where
  | outside
  | inName
  | inText (mark : Char)
  /-- Behind a backslash in a string. -/
  | escaped (mark : Char)
  deriving DecidableEq, Repr

namespace Place

/-- Where the reader stands after one more character. A doubled mark closes and reopens. -/
def next : Place → Char → Place
  | outside, c =>
      if c = backtick then inName else if c = '\'' ∨ c = '"' then inText c else outside
  | inName, c => if c = backtick then outside else inName
  | inText mark, c =>
      if c = '\\' then escaped mark else if c = mark then outside else inText mark
  | escaped mark, _ => inText mark

/-- Where the reader stands after a text. -/
def after (place : Place) (text : List Char) : Place :=
  text.foldl next place

/-- Whether a text has no line feed outside quotes. -/
def staysOnLine : Place → List Char → Bool
  | _, [] => true
  | place, c :: rest => !(place == outside && c == '\n') && (place.next c).staysOnLine rest

/-- A text without line feeds outside quotes that leads from one place to another. -/
def Leads (first last : Place) (text : List Char) : Prop :=
  first.after text = last ∧ first.staysOnLine text = true

theorem Leads.nil (place : Place) : Leads place place [] :=
  ⟨rfl, rfl⟩

theorem Leads.cons {first last : Place} {c : Char} {text : List Char}
    (hc : ¬(first = outside ∧ c = '\n')) (h : Leads (first.next c) last text) :
    Leads first last (c :: text) := by
  refine ⟨h.1, ?_⟩
  have hline : (first == outside && c == '\n') = false := by
    simpa using hc
  simp [staysOnLine, hline, h.2]

theorem Leads.append {first middle last : Place} {xs ys : List Char}
    (hxs : Leads first middle xs) (hys : Leads middle last ys) : Leads first last (xs ++ ys) := by
  obtain ⟨rfl, hline⟩ := hxs
  induction xs generalizing first with
  | nil => exact hys
  | cons c xs ih =>
      simp only [staysOnLine, Bool.and_eq_true, Bool.not_eq_true'] at hline
      apply Leads.cons
      · rintro ⟨hfirst, hc⟩
        simp [hfirst, hc] at hline
      · exact ih hline.2 hys

end Place

def onFirst (text : List Char) : List (List Char) → List (List Char)
  | [] => [text]
  | line :: more => (text ++ line) :: more

/-- The lines of a text that starts at a place, cut at the line feeds outside quotes. -/
def linesFrom (place : Place) : List Char → List (List Char)
  | [] => [[]]
  | c :: rest =>
      if place = .outside ∧ c = '\n' then [] :: linesFrom (place.next c) rest
      else onFirst [c] (linesFrom (place.next c) rest)

/-- The lines of a statement. -/
def lines (text : String) : List String :=
  (linesFrom .outside text.toList).map String.ofList

/-- A text that ends outside quotes and has no line feed outside them. -/
def Closed (text : String) : Prop :=
  Place.Leads .outside .outside text.toList

instance (text : String) : Decidable (Closed text) :=
  inferInstanceAs (Decidable (_ ∧ _))

theorem onFirst_onFirst (a b : List Char) (rest : List (List Char)) :
    onFirst a (onFirst b rest) = onFirst (a ++ b) rest := by
  cases rest <;> simp [onFirst]

theorem onFirst_ne_nil (text : List Char) (rest : List (List Char)) : onFirst text rest ≠ [] := by
  cases rest <;> simp [onFirst]

theorem linesFrom_ne_nil (place : Place) (text : List Char) : linesFrom place text ≠ [] := by
  cases text with
  | nil => simp [linesFrom]
  | cons c rest =>
      unfold linesFrom
      split
      · simp
      · exact onFirst_ne_nil _ _

/-- What stands before a text, without a line feed of its own, goes to the front of its first
line. -/
theorem linesFrom_append {first last : Place} {xs : List Char} (h : first.Leads last xs)
    (ys : List Char) : linesFrom first (xs ++ ys) = onFirst xs (linesFrom last ys) := by
  obtain ⟨rfl, hline⟩ := h
  induction xs generalizing first with
  | nil =>
      obtain ⟨line, more, hlines⟩ := List.exists_cons_of_ne_nil (linesFrom_ne_nil first ys)
      simp [Place.after, hlines, onFirst]
  | cons c xs ih =>
      simp only [Place.staysOnLine, Bool.and_eq_true, Bool.not_eq_true'] at hline
      have hfeed : ¬(first = .outside ∧ c = '\n') := by
        rintro ⟨hfirst, hc⟩
        simp [hfirst, hc] at hline
      rw [List.cons_append, linesFrom, if_neg hfeed, ih hline.2, onFirst_onFirst]
      rfl

/-- A closed text before a line feed is a line of its own. -/
theorem lines_break {text : String} (h : Closed text) (rest : String) :
    lines (text ++ "\n" ++ rest) = text :: lines rest := by
  have hfeed : linesFrom .outside ('\n' :: rest.toList) = [] :: linesFrom .outside rest.toList :=
    rfl
  have htext : (text ++ "\n" ++ rest).toList = text.toList ++ '\n' :: rest.toList := by
    simp [String.toList_append]
  rw [lines, htext, linesFrom_append h, hfeed]
  simp [onFirst, lines]

/-- A closed text with no line feed behind it is the start of a line. -/
theorem lines_append {text : String} (h : Closed text) (rest : String) :
    ∃ line more, lines (text ++ rest) = (text ++ line) :: more := by
  obtain ⟨line, more, hlines⟩ :=
    List.exists_cons_of_ne_nil (linesFrom_ne_nil .outside rest.toList)
  refine ⟨String.ofList line, more.map String.ofList, ?_⟩
  rw [lines, String.toList_append, linesFrom_append h, hlines]
  simp [onFirst, String.ofList_append]

theorem Closed.append {a b : String} (ha : Closed a) (hb : Closed b) : Closed (a ++ b) := by
  unfold Closed
  rw [String.toList_append]
  exact Place.Leads.append ha hb

theorem Closed.joined {separator : String} (hseparator : Closed separator) {texts : List String}
    (h : ∀ text ∈ texts, Closed text) : Closed (Text.joined separator texts) := by
  induction texts with
  | nil => exact of_decide_eq_true rfl
  | cons text more ih =>
      have htext : Closed text := h text (by simp)
      have hmore : ∀ text ∈ more, Closed text := fun text' hm => h text' (by simp [hm])
      cases more with
      | nil => exact htext
      | cons next rest => exact (htext.append hseparator).append (ih hmore)

/-- The characters that change nothing for a reader outside quotes. -/
def isPlain (c : Char) : Bool :=
  c != backtick && c != '\'' && c != '"' && c != '\n'

theorem Closed.of_plain {text : String} (h : ∀ c ∈ text.toList, isPlain c = true) :
    Closed text := by
  unfold Closed
  generalize text.toList = cs at h
  induction cs with
  | nil => exact Place.Leads.nil _
  | cons c cs ih =>
      have hc : isPlain c = true := h c (by simp)
      simp only [isPlain, Bool.and_eq_true, bne_iff_ne] at hc
      have hnext : Place.outside.next c = .outside := by
        simp [Place.next, hc]
      apply Place.Leads.cons
      · simp [hc]
      · rw [hnext]
        exact ih fun c' hc' => h c' (by simp [hc'])

theorem closed_toString (n : Nat) : Closed (toString n) := by
  apply Closed.of_plain
  intro c hc
  rw [Nat.toString_eq_repr, Nat.toList_repr] at hc
  have hdigit := Nat.isDigit_of_mem_toDigits (by omega) (by omega) hc
  simp only [isPlain, Bool.and_eq_true, bne_iff_ne]
  refine ⟨⟨⟨?_, ?_⟩, ?_⟩, ?_⟩ <;> rintro rfl <;> exact absurd hdigit (by decide)

theorem closed_ofUInt64 (n : UInt64) : Closed (Text.ofUInt64 n) :=
  closed_toString n.toNat

private theorem leads_escapeName (name : List Char) :
    Place.Leads .inName .inName (escapeName name) := by
  induction name with
  | nil => exact Place.Leads.nil _
  | cons c name ih =>
      unfold escapeName
      split
      · -- The first backtick closes the name for one step, and the second one reopens it.
        apply Place.Leads.cons (by decide)
        exact Place.Leads.cons (by decide) ih
      · next hc =>
          apply Place.Leads.cons (by simp)
          simpa [Place.next, hc] using ih

/-- A quoted name is closed, whatever characters the name has. -/
theorem closed_identifier (name : String) : Closed (identifier name) := by
  unfold Closed
  rw [identifier, String.toList_ofList, quoteName, List.cons_append]
  apply Place.Leads.cons (by decide)
  apply Place.Leads.append (leads_escapeName name.toList)
  exact Place.Leads.cons (by decide) (Place.Leads.nil _)

private theorem leads_escapeChar (c : Char) :
    Place.Leads (.inText '\'') (.inText '\'') (escapeChar c) := by
  unfold escapeChar
  split
  · exact ⟨rfl, rfl⟩
  · next hc =>
      split
      · exact ⟨rfl, rfl⟩
      · apply Place.Leads.cons (by simp)
        have hnext : (Place.inText '\'').next c = .inText '\'' := by
          simp only [not_or] at hc
          simp [Place.next, hc]
        rw [hnext]
        exact Place.Leads.nil _

private theorem leads_escapeText (text : List Char) :
    Place.Leads (.inText '\'') (.inText '\'') (escapeText text) := by
  induction text with
  | nil => exact Place.Leads.nil _
  | cons c text ih =>
      rw [escapeText, List.flatMap_cons]
      exact (leads_escapeChar c).append ih

/-- A quoted string is closed, whatever characters the text has. -/
theorem closed_literal (text : String) : Closed (literal text) := by
  unfold Closed
  rw [literal, String.toList_ofList, quoteText, List.cons_append]
  apply Place.Leads.cons (by decide)
  apply Place.Leads.append (leads_escapeText text.toList)
  exact Place.Leads.cons (by decide) (Place.Leads.nil _)

end DictionaryDdl.Sql
