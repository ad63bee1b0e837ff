import DictionaryDdl.Json.Printer
import DictionaryDdl.Json.Reader
import DictionaryDdl.Proofs.Text.Delimited
import DictionaryDdl.Proofs.Text.Numerals

/-!
Strings and integers that are read back. A string may hold any characters, and a reader that is
given enough fuel gets it back whatever follows its closing quote. An integer must not be followed
by what could go on with it; it is read back exactly if it fits sixty-four bits. Of doubles nothing
is said here.
-/

namespace DictionaryDdl

namespace Json

variable {fuel limit : Nat} {c : Char} {rest : List Char}

/-! ### Strings -/

theorem toList_quoted (s : String) :
    (quoted s).toList = '"' :: ((s.toList.flatMap fun c => (escapedChar c).toList) ++ ['"']) := by
  have hfold (cs : List Char) (shown : String) :
      (cs.foldl (fun shown c => shown ++ escapedChar c) shown).toList =
        shown.toList ++ cs.flatMap fun c => (escapedChar c).toList := by
    induction cs generalizing shown with
    | nil => simp
    | cons c more ih => rw [List.foldl_cons, ih]; simp [String.toList_append]
  simp [quoted, String.toList_append, hfold]

theorem one_le_length_escapedChar (c : Char) : 1 ≤ (escapedChar c).toList.length := by
  have hshape : ∃ first more, (escapedChar c).toList = first :: more := by
    unfold escapedChar
    split_ifs
    · exact ⟨_, _, rfl⟩
    · exact ⟨_, _, rfl⟩
    · exact ⟨_, _, rfl⟩
    · exact ⟨_, _, rfl⟩
    · exact ⟨_, _, rfl⟩
    · exact ⟨_, _, rfl⟩
    · exact ⟨_, _, rfl⟩
    · rw [String.toList_append]
      exact ⟨_, _, rfl⟩
    · rw [Char.toString_eq_singleton, String.toList_singleton]
      exact ⟨_, _, rfl⟩
  obtain ⟨first, more, hlist⟩ := hshape
  rw [hlist, List.length_cons]
  omega

/-- A string is shorter than its text. -/
theorem length_lt_quoted (s : String) : s.length < (quoted s).toList.length := by
  have hbody (cs : List Char) :
      cs.length ≤ (cs.flatMap fun c => (escapedChar c).toList).length := by
    induction cs with
    | nil => exact Nat.zero_le _
    | cons c more ih =>
        have hchar := one_le_length_escapedChar c
        rw [List.flatMap_cons, List.length_append, List.length_cons]
        omega
  have hlength := hbody s.toList
  rw [String.length_toList] at hlength
  rw [toList_quoted, List.length_cons, List.length_append, List.length_singleton]
  omega

/-- An escape is read as its character. -/
theorem stringBody_escape {cs : List Char} (h : escape cs = .ok (c, rest)) :
    stringBody escape (fuel + 1) ('\\' :: cs) =
      (stringBody escape fuel rest).map fun (body, rest) => (c :: body, rest) := by
  rw [stringBody, if_neg (by decide), if_pos rfl, h]
  simp only [bind, Except.bind]
  cases stringBody escape fuel rest with
  | error reason => rfl
  | ok found => rfl

theorem stringBody_plain (hquote : c ≠ '"') (hbackslash : c ≠ '\\') (hcontrol : ¬ c.toNat < 0x20) :
    stringBody escape (fuel + 1) (c :: rest) =
      (stringBody escape fuel rest).map fun (body, rest) => (c :: body, rest) := by
  rw [stringBody, if_neg hquote, if_neg hbackslash, if_neg hcontrol]
  cases stringBody escape fuel rest with
  | error reason => rfl
  | ok found => rfl

theorem map_hexDigit?_twoDigits :
    ∀ n < 0x20, (twoDigits n).toList.map Text.hexDigit? = [some (n / 16), some (n % 16)] := by
  decide +kernel

/-- A control character is read from its two digits. -/
theorem escape_twoDigits (h : c.toNat < 0x20) :
    escape ('u' :: '0' :: '0' :: ((twoDigits c.toNat).toList ++ rest)) = .ok (c, rest) := by
  obtain ⟨high, more, hdigits, hhigh, hmore⟩ :=
    List.map_eq_cons_iff.mp (map_hexDigit?_twoDigits c.toNat h)
  obtain ⟨low, none, rfl, hlow, hnone⟩ := List.map_eq_cons_iff.mp hmore
  obtain rfl := List.map_eq_nil_iff.mp hnone
  have hzero : Text.hexDigit? '0' = some 0 := by decide
  have hvalue : ((0 * 16 + 0) * 16 + c.toNat / 16) * 16 + c.toNat % 16 = c.toNat := by omega
  rw [hdigits]
  simp only [escape, unicodeEscape, hexUnit, List.cons_append, List.nil_append, hzero, hhigh, hlow,
    hvalue, bind, Except.bind]
  rw [if_neg (by omega), if_neg (by omega), Char.ofNat_toNat]

/-- A character as it stands in a string is read as that character. -/
theorem stringBody_escapedChar :
    stringBody escape (fuel + 1) ((escapedChar c).toList ++ rest) =
      (stringBody escape fuel rest).map fun (body, rest) => (c :: body, rest) := by
  unfold escapedChar
  split_ifs with hquote hbackslash hback hfeed hline hreturn htab hcontrol
  · subst hquote
    exact stringBody_escape rfl
  · subst hbackslash
    exact stringBody_escape rfl
  · subst hback
    exact stringBody_escape rfl
  · subst hfeed
    exact stringBody_escape rfl
  · subst hline
    exact stringBody_escape rfl
  · subst hreturn
    exact stringBody_escape rfl
  · subst htab
    exact stringBody_escape rfl
  · have hstart : "\\u00".toList = ['\\', 'u', '0', '0'] := by decide
    rw [String.toList_append, hstart]
    exact stringBody_escape (escape_twoDigits hcontrol)
  · rw [Char.toString_eq_singleton, String.toList_singleton]
    exact stringBody_plain hquote hbackslash hcontrol

theorem stringBody_quoted (cs : List Char) (h : cs.length < fuel) :
    stringBody escape fuel ((cs.flatMap fun c => (escapedChar c).toList) ++ '"' :: rest) =
      .ok (cs, rest) := by
  induction cs generalizing fuel with
  | nil =>
      obtain ⟨more, rfl⟩ := Nat.exists_eq_add_one_of_ne_zero (by omega : fuel ≠ 0)
      rfl
  | cons c more ih =>
      obtain ⟨less, rfl⟩ := Nat.exists_eq_add_one_of_ne_zero (by omega : fuel ≠ 0)
      rw [List.flatMap_cons, List.append_assoc, stringBody_escapedChar, ih (by simpa using h)]
      rfl

/-- A string is read back, whatever characters it has. -/
theorem scanString_quoted (s : String) (h : s.length < limit) :
    scanString limit ((s.toList.flatMap fun c => (escapedChar c).toList) ++ '"' :: rest) =
      .ok (s, rest) := by
  rw [scanString, stringBody_quoted s.toList (by rwa [String.length_toList])]
  simp [bind, Except.bind]

/-! ### Integers -/

/-- What can stand behind a number. -/
def EndsNumber (rest : List Char) : Prop :=
  ∀ c ∈ rest.head?, Text.isDigit c = false ∧ c ≠ '.' ∧ c ≠ 'e' ∧ c ≠ 'E'

theorem EndsNumber.no_digit (h : EndsNumber rest) : Text.EndsRun Text.isDigit rest :=
  fun c hc => (h c hc).1

theorem scanFraction_of_ends (h : EndsNumber rest) : scanFraction rest = .ok ([], rest) := by
  cases rest with
  | nil => rfl
  | cons c more =>
      obtain ⟨-, hpoint, -⟩ := h c rfl
      unfold scanFraction
      split
      · rename_i heq
        exact absurd (List.cons.inj heq).1 hpoint
      · rfl

theorem scanExponent_of_ends (h : EndsNumber rest) : scanExponent rest = .ok (none, rest) := by
  cases rest with
  | nil => rfl
  | cons c more =>
      obtain ⟨-, -, hsmall, hlarge⟩ := h c rfl
      rw [scanExponent, if_neg (by simp [hsmall, hlarge])]

theorem scanWhole_toDigits (n : Nat) (h : EndsNumber rest) :
    scanWhole (Nat.toDigits 10 n ++ rest) = .ok (Nat.toDigits 10 n, rest) := by
  have hdigits : ∀ c ∈ Nat.toDigits 10 n, Text.isDigit c = true :=
    fun c => Text.isDigit_of_mem_toDigits
  have htake := Text.takeWhile_run hdigits h.no_digit
  have hdrop := Text.dropWhile_run hdigits h.no_digit
  by_cases hzero : n = 0
  · subst hzero
    cases rest with
    | nil => rfl
    | cons c more =>
        have hc : Text.isDigit c = false := (h c rfl).1
        have hdigits : Nat.toDigits 10 0 = ['0'] := rfl
        rw [hdigits, List.singleton_append, scanWhole, if_neg (by simp [hc])]
  · have hhead := Text.head?_toDigits_ne_zero (Nat.pos_of_ne_zero hzero)
    cases hdigits : Nat.toDigits 10 n with
    | nil => exact absurd hdigits Nat.toDigits_ne_nil
    | cons first more =>
        rw [hdigits] at hhead htake hdrop
        rw [List.cons_append] at htake hdrop ⊢
        unfold scanWhole
        split
        · rename_i heq
          obtain ⟨rfl, -⟩ := List.cons.inj heq
          exact absurd rfl hhead
        · rw [htake, hdrop]

/-- The numeral of an integer. -/
def Numeral.ofInt (n : Int) : Numeral :=
  ⟨decide (n < 0), Nat.toDigits 10 n.natAbs, [], none⟩

theorem toList_toString_int (n : Int) :
    (toString n).toList = (if n < 0 then ['-'] else []) ++ Nat.toDigits 10 n.natAbs := by
  cases n with
  | ofNat m =>
      have hpos : ¬ Int.ofNat m < 0 := by simp
      rw [if_neg hpos]
      exact Nat.toList_repr
  | negSucc m =>
      have hneg : Int.negSucc m < 0 := Int.negSucc_lt_zero m
      rw [if_pos hneg]
      change ("-" ++ Nat.repr (m + 1)).toList = _
      rw [String.toList_append, Nat.toList_repr]
      rfl

/-- An integer starts with its sign or with a digit. -/
theorem exists_toString_int_eq_cons (n : Int) :
    ∃ c more, (toString n).toList = c :: more ∧ (c = '-' ∨ Text.isDigit c = true) := by
  rw [toList_toString_int]
  split_ifs with hneg
  · exact ⟨'-', _, rfl, .inl rfl⟩
  · cases hdigits : Nat.toDigits 10 n.natAbs with
    | nil => exact absurd hdigits Nat.toDigits_ne_nil
    | cons first more =>
        refine ⟨first, more, rfl, .inr (Text.isDigit_of_mem_toDigits (n := n.natAbs) ?_)⟩
        rw [hdigits]
        exact List.mem_cons_self

theorem scanNumeral_toString (n : Int) (h : EndsNumber rest) :
    scanNumeral ((toString n).toList ++ rest) = .ok (Numeral.ofInt n, rest) := by
  have hwhole := scanWhole_toDigits n.natAbs h
  rw [toList_toString_int, Numeral.ofInt]
  unfold scanNumeral
  split_ifs with hneg
  · simp only [List.cons_append, List.nil_append, hwhole, scanFraction_of_ends h,
      scanExponent_of_ends h, hneg, bind, Except.bind, pure, Except.pure, decide_true]
  · have hsign : ∀ c ∈ (Nat.toDigits 10 n.natAbs).head?, c ≠ '-' := by
      intro c hc hminus
      have hdigit := Text.isDigit_of_mem_toDigits (List.mem_of_mem_head? hc)
      rw [hminus] at hdigit
      exact absurd hdigit (by decide)
    cases hdigits : Nat.toDigits 10 n.natAbs with
    | nil => exact absurd hdigits Nat.toDigits_ne_nil
    | cons first more =>
        rw [hdigits] at hsign hwhole
        rw [List.cons_append] at hwhole
        simp only [List.nil_append, List.cons_append]
        split
        · rename_i heq
          exact absurd (List.cons.inj heq).1 (hsign first rfl)
        · simp only [hwhole, scanFraction_of_ends h, scanExponent_of_ends h, hneg, bind,
            Except.bind, pure, Except.pure, decide_false]

theorem natural_toDigits (n : Nat) : natural (Nat.toDigits 10 n) = n := by
  rw [natural, Text.readDigits?_eq fun c => Nat.isDigit_of_mem_toDigits (by omega) (by omega),
    Nat.ofDigitChars_ten_toDigits]
  rfl

/-- Whether an integer fits sixty-four bits, with or without sign. -/
def Fits (n : Int) : Prop :=
  -(UInt64.size / 2 : Int) ≤ n ∧ n < UInt64.size

theorem number?_ofInt {n : Int} (h : Fits n) : (Numeral.ofInt n).number? = some (.integer n) := by
  have hsize : UInt64.size = 18446744073709551616 := rfl
  obtain ⟨hlow, hhigh⟩ := h
  rw [hsize] at hlow hhigh
  simp only [Numeral.number?, Numeral.ofInt, natural_toDigits, List.isEmpty_nil, Option.isNone_none,
    true_and, decide_eq_false_iff_not, decide_eq_true_eq, hsize]
  by_cases hneg : n < 0
  · rw [if_neg (by omega), if_pos ⟨hneg, by omega, by omega⟩]
    congr 2
    omega
  · rw [if_pos ⟨hneg, by omega⟩]
    congr 2
    omega

/-- An integer that fits sixty-four bits is read back. -/
theorem scanNumber_toString {n : Int} (hfits : Fits n) (h : EndsNumber rest) :
    scanNumber ((toString n).toList ++ rest) = .ok (.integer n, rest) := by
  rw [scanNumber, scanNumeral_toString n h]
  simp only [bind, Except.bind, number?_ofInt hfits]

end Json

end DictionaryDdl
