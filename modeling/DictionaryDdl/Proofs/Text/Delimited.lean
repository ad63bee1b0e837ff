import DictionaryDdl.Text.Decimal
import DictionaryDdl.Text.Split
import Mathlib.Data.List.Forall2

/-!
Texts that a reader can take off the front of a longer text. The statements here are about two
texts that are equal as a whole: what stands at the front of both is then the same, and so is
what follows, provided that what follows cannot be taken for more of the front. This is shown
for runs of characters of one class, for decimal numbers, for words, and for lists that are
joined by a separator and ended by a character of its own.
-/

namespace DictionaryDdl.Text

/-- What a reader gets back, and what it leaves, is determined by the whole text. -/
theorem cancel_of_read {α : Type} {read : List Char → Option (α × List Char)} {x y : α}
    {a b r s : List Char} (ha : read (a ++ r) = some (x, r)) (hb : read (b ++ s) = some (y, s))
    (h : a ++ r = b ++ s) : x = y ∧ r = s := by
  rw [h, hb] at ha
  obtain ⟨hvalue, hrest⟩ := Prod.mk.inj (Option.some.inj ha)
  exact ⟨hvalue.symm, hrest.symm⟩

/-- The characters at which a run of characters of a class ends. -/
def EndsRun (p : Char → Bool) (rest : List Char) : Prop :=
  ∀ c ∈ rest.head?, p c = false

theorem takeWhile_run {p : Char → Bool} {run rest : List Char} (hrun : ∀ c ∈ run, p c = true)
    (hrest : EndsRun p rest) : (run ++ rest).takeWhile p = run := by
  rw [List.takeWhile_append_of_pos hrun]
  cases rest with
  | nil => simp
  | cons c more =>
      have hc : p c = false := hrest c rfl
      simp [hc]

theorem dropWhile_run {p : Char → Bool} {run rest : List Char} (hrun : ∀ c ∈ run, p c = true)
    (hrest : EndsRun p rest) : (run ++ rest).dropWhile p = rest := by
  rw [List.dropWhile_append_of_pos hrun]
  cases rest with
  | nil => rfl
  | cons c more =>
      have hc : p c = false := hrest c rfl
      simp [hc]

theorem run_cancel {p : Char → Bool} {a b r s : List Char} (ha : ∀ c ∈ a, p c = true)
    (hb : ∀ c ∈ b, p c = true) (hr : EndsRun p r) (hs : EndsRun p s)
    (h : a ++ r = b ++ s) : a = b ∧ r = s := by
  have hab : a = b := by
    rw [← takeWhile_run ha hr, ← takeWhile_run hb hs, h]
  subst hab
  exact ⟨rfl, List.append_cancel_left h⟩

theorem decimal_cancel {m n : Nat} {r s : List Char} (hr : EndsRun Char.isDigit r)
    (hs : EndsRun Char.isDigit s)
    (h : (toString m).toList ++ r = (toString n).toList ++ s) : m = n ∧ r = s := by
  have hdigits (k : Nat) : ∀ c ∈ (toString k).toList, c.isDigit = true := by
    intro c hc
    rw [Nat.toString_eq_repr, Nat.toList_repr] at hc
    exact Nat.isDigit_of_mem_toDigits (by omega) (by omega) hc
  obtain ⟨hmn, hrs⟩ := run_cancel (hdigits m) (hdigits n) hr hs h
  rw [Nat.toString_eq_repr, Nat.toList_repr, Nat.toString_eq_repr, Nat.toList_repr] at hmn
  have hvalue := congrArg (Nat.ofDigitChars 10 · 0) hmn
  simp only [Nat.ofDigitChars_ten_toDigits] at hvalue
  exact ⟨hvalue, hrs⟩

theorem ofUInt64_cancel {m n : UInt64} {r s : List Char} (hr : EndsRun Char.isDigit r)
    (hs : EndsRun Char.isDigit s)
    (h : (ofUInt64 m).toList ++ r = (ofUInt64 n).toList ++ s) : m = n ∧ r = s := by
  obtain ⟨hnumber, hrest⟩ := decimal_cancel hr hs h
  exact ⟨UInt64.toNat_inj.mp hnumber, hrest⟩

/-- The characters of a word: letters, digits and underscores. Beyond ASCII every character
counts as a letter. -/
def isWordChar (c : Char) : Bool :=
  c.isAlphanum || c == '_' || 128 ≤ c.toNat

def IsWord (s : String) : Prop :=
  ∀ c ∈ s.toList, isWordChar c = true

instance (s : String) : Decidable (IsWord s) :=
  List.decidableBAll (isWordChar · = true) s.toList

theorem word_cancel {a b : String} {r s : List Char} (ha : IsWord a) (hb : IsWord b)
    (hr : EndsRun isWordChar r) (hs : EndsRun isWordChar s)
    (h : a.toList ++ r = b.toList ++ s) : a = b ∧ r = s := by
  obtain ⟨hab, hrs⟩ := run_cancel ha hb hr hs h
  exact ⟨String.toList_injective hab, hrs⟩

/-- What a list goes on with after its first text. -/
def continued (separator : String) : List String → String
  | [] => ""
  | text :: more => separator ++ joined separator (text :: more)

theorem joined_cons (separator text : String) (more : List String) :
    joined separator (text :: more) = text ++ continued separator more := by
  cases more with
  | nil => simp [joined, continued]
  | cons next rest => simp [joined, continued, String.append_assoc]

theorem joined_cons_of_ne_nil {separator text : String} {more : List String} (h : more ≠ []) :
    joined separator (text :: more) = text ++ separator ++ joined separator more := by
  obtain ⟨next, others, rfl⟩ := List.exists_cons_of_ne_nil h
  rfl

theorem joined_append {separator : String} {xs ys : List String} (hxs : xs ≠ []) (hys : ys ≠ []) :
    joined separator (xs ++ ys) = joined separator xs ++ separator ++ joined separator ys := by
  induction xs with
  | nil => exact absurd rfl hxs
  | cons x more ih =>
      by_cases hmore : more = []
      · subst hmore
        exact joined_cons_of_ne_nil hys
      · rw [List.cons_append, joined_cons_of_ne_nil (by simp [hmore]), ih hmore,
          joined_cons_of_ne_nil hmore]
        simp only [String.append_assoc]

/-- What stands behind an entry of a list: the separator, or the character that ends the list. -/
def EndsEntry (separator stop : Char) (rest : List Char) : Prop :=
  rest.head? = some separator ∨ rest.head? = some stop

theorem EndsEntry.endsRun {separator stop : Char} {rest : List Char} {p : Char → Bool}
    (h : EndsEntry separator stop rest) (hseparator : p separator = false)
    (hstop : p stop = false) : EndsRun p rest := by
  intro c hc
  rcases h with hhead | hhead
  all_goals
    rw [hhead, Option.mem_some_iff] at hc
    rw [← hc]
    assumption

theorem EndsEntry.head_ne {separator stop c : Char} {rest : List Char}
    (h : EndsEntry separator stop rest) (hseparator : separator ≠ c) (hstop : stop ≠ c) :
    rest.head? ≠ some c := by
  rcases h with hhead | hhead
  all_goals
    rw [hhead, ne_eq, Option.some.injEq]
    assumption

theorem endsEntry_continued {separator : String} {first stop : Char} {tail : List Char}
    (hseparator : separator.toList = first :: tail) (more : List String) (r : List Char) :
    EndsEntry first stop ((continued separator more).toList ++ stop :: r) := by
  cases more with
  | nil => simp [EndsEntry, continued]
  | cons next rest => simp [EndsEntry, continued, String.toList_append, hseparator]

/-- Two joined lists that are equal up to what follows have entries that belong together, if
that is so for any two of their entries. The relation `R` is what the text of an entry says
about it; it is equality where the text says everything. -/
theorem joined_cancel_of_head {α : Type} {f : α → String} {R : α → α → Prop} {separator : String}
    {first stop : Char} {tail : List Char}
    (hseparator : separator.toList = first :: tail) (hfirst : first ≠ stop)
    {xs ys : List α} {r s : List Char}
    (hopen : ∀ x, ∃ opening ≠ stop, (f x).toList.head? = some opening)
    (hread : ∀ x ∈ xs, ∀ y ∈ ys, ∀ r s, EndsEntry first stop r → EndsEntry first stop s →
      (f x).toList ++ r = (f y).toList ++ s → R x y ∧ r = s)
    (h : (joined separator (xs.map f)).toList ++ stop :: r =
      (joined separator (ys.map f)).toList ++ stop :: s) :
    List.Forall₂ R xs ys ∧ r = s := by
  have hstop (x : α) (more : List String) (r s : List Char) :
      (joined separator (f x :: more)).toList ++ r ≠ stop :: s := by
    intro heq
    obtain ⟨opening, hopening, hx⟩ := hopen x
    have hhead := congrArg List.head? heq
    rw [joined_cons, String.toList_append, List.append_assoc, List.head?_append, hx] at hhead
    exact hopening (Option.some.inj hhead)
  induction xs generalizing ys with
  | nil =>
      cases ys with
      | nil => exact ⟨.nil, by simpa [joined] using h⟩
      | cons y ys => exact absurd h.symm (hstop y _ _ _)
  | cons x xs ih =>
      cases ys with
      | nil => exact absurd h (hstop x _ _ _)
      | cons y ys =>
          simp only [List.map_cons, joined_cons, String.toList_append, List.append_assoc] at h
          obtain ⟨hxy, hrest⟩ := hread x (by simp) y (by simp) _ _
            (endsEntry_continued hseparator _ _) (endsEntry_continued hseparator _ _) h
          have htails : List.Forall₂ R xs ys ∧ r = s := by
            cases xs with
            | nil =>
                cases ys with
                | nil => exact ⟨.nil, by simpa [continued] using hrest⟩
                | cons y' ys =>
                    simp [continued, String.toList_append, hseparator, hfirst.symm] at hrest
            | cons x' xs =>
                cases ys with
                | nil => simp [continued, String.toList_append, hseparator, hfirst] at hrest
                | cons y' ys =>
                    simp only [List.map_cons, continued, String.toList_append,
                      List.append_assoc, List.append_cancel_left_eq] at hrest
                    apply ih
                    · intro a ha b hb
                      exact hread a (by simp [ha]) b (by simp [hb])
                    · exact hrest
          exact ⟨.cons hxy htails.1, htails.2⟩

/-- The same for entries that all start with one character. -/
theorem joined_cancel {α : Type} {f : α → String} {R : α → α → Prop} {separator : String}
    {first opening stop : Char} {tail : List Char}
    (hseparator : separator.toList = first :: tail) (hfirst : first ≠ stop)
    (hopening : opening ≠ stop) {xs ys : List α} {r s : List Char}
    (hopen : ∀ x, (f x).toList.head? = some opening)
    (hread : ∀ x ∈ xs, ∀ y ∈ ys, ∀ r s, EndsEntry first stop r → EndsEntry first stop s →
      (f x).toList ++ r = (f y).toList ++ s → R x y ∧ r = s)
    (h : (joined separator (xs.map f)).toList ++ stop :: r =
      (joined separator (ys.map f)).toList ++ stop :: s) :
    List.Forall₂ R xs ys ∧ r = s := by
  apply joined_cancel_of_head hseparator hfirst _ hread h
  intro x
  exact ⟨opening, hopening, hopen x⟩

end DictionaryDdl.Text
