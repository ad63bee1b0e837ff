import DictionaryDdl.Text.Decimal
import Mathlib.Data.List.Forall2

/-!
Which texts are numbers, and which numbers they are. A number is read from a text exactly if the
text is a run of digits, with or without a plus sign before it, and the value of the digits lies
below the bound, however many zeros the run starts with. What is written is the one run of digits
of the number that has no sign and no zero to spare.
-/

namespace DictionaryDdl.Text

variable {value bound n : Nat} {cs : List Char}

/-! ### Digits -/

theorem isDigit_eq (c : Char) : isDigit c = c.isDigit := by
  rw [Bool.eq_iff_iff, isDigit, digit?, Char.isDigit]
  split_ifs with h
  · simp only [Option.isSome_some, true_iff, Bool.and_eq_true, decide_eq_true_eq]
    exact h
  · simp only [Option.isSome_none, Bool.false_eq_true, false_iff, Bool.and_eq_true,
      decide_eq_true_eq]
    exact h

theorem digit?_of_isDigit {c : Char} (h : c.isDigit = true) :
    digit? c = some (c.toNat - '0'.toNat) := by
  rw [← isDigit_eq, isDigit, digit?] at h
  split_ifs at h with hrange
  · rw [digit?, if_pos hrange]
  · cases h

theorem readDigits?_eq {value : Nat} {digits : List Char} (h : ∀ c ∈ digits, c.isDigit = true) :
    readDigits? value digits = some (Nat.ofDigitChars 10 digits value) := by
  induction digits generalizing value with
  | nil => rfl
  | cons c rest ih =>
      rw [List.forall_mem_cons] at h
      rw [readDigits?, digit?_of_isDigit h.1]
      exact ih h.2

/-- Nothing but digits is read. -/
theorem isDigit_of_readDigits? (h : readDigits? value cs = some n) :
    ∀ c ∈ cs, c.isDigit = true := by
  induction cs generalizing value with
  | nil => exact List.forall_mem_nil _
  | cons c rest ih =>
      obtain ⟨d, hd, hrest⟩ := Option.bind_eq_some_iff.mp h
      have hdigit : c.isDigit = true := by
        rw [← isDigit_eq, isDigit, hd]
        rfl
      exact List.forall_mem_cons.mpr ⟨hdigit, ih hrest⟩

theorem readDigits?_eq_some :
    readDigits? value cs = some n ↔
      (∀ c ∈ cs, c.isDigit = true) ∧ Nat.ofDigitChars 10 cs value = n := by
  constructor
  · intro h
    have hdigits := isDigit_of_readDigits? h
    rw [readDigits?_eq hdigits] at h
    exact ⟨hdigits, Option.some.inj h⟩
  · rintro ⟨hdigits, rfl⟩
    exact readDigits?_eq hdigits

theorem isDigit_of_mem_toDigits {n : Nat} {c : Char} (h : c ∈ Nat.toDigits 10 n) :
    isDigit c = true := by
  rw [isDigit_eq]
  exact Nat.isDigit_of_mem_toDigits (by omega) (by omega) h

/-- The digits of a positive number do not start with a zero. -/
theorem head?_toDigits_ne_zero {n : Nat} (h : 0 < n) : (Nat.toDigits 10 n).head? ≠ some '0' := by
  induction n using Nat.strongRecOn with
  | _ n ih =>
      by_cases hsmall : n < 10
      · rw [Nat.toDigits_of_lt_base hsmall]
        have hall : ∀ d < 10, 0 < d → [Nat.digitChar d].head? ≠ some '0' := by decide
        exact hall n hsmall h
      · rw [Nat.toDigits_of_base_le (by omega) (by omega), List.head?_append_of_ne_nil _
          Nat.toDigits_ne_nil]
        exact ih (n / 10) (by omega) (by omega)

/-! ### Numbers that are read -/

/-- A run of digits with a value. -/
structure IsRun (cs : List Char) (n : Nat) : Prop where
  ne_nil : cs ≠ []
  digits : ∀ c ∈ cs, c.isDigit = true
  value : Nat.ofDigitChars 10 cs 0 = n

/-- A text that is a number: digits, with or without a plus sign before them. -/
def IsNumeral (cs : List Char) (n : Nat) : Prop :=
  IsRun cs n ∨ ∃ digits, cs = '+' :: digits ∧ IsRun digits n

theorem readNatural?_eq_some : readNatural? cs = some n ↔ IsRun cs n := by
  cases cs with
  | nil => exact iff_of_false (by simp [readNatural?]) fun h => h.ne_nil rfl
  | cons c rest =>
      rw [readNatural?, readDigits?_eq_some]
      · exact ⟨fun h => ⟨List.cons_ne_nil c rest, h.1, h.2⟩, fun h => ⟨h.digits, h.value⟩⟩
      · exact List.cons_ne_nil c rest

/-- A sign is no digit, so a text is a number in one way only. -/
theorem readUnsigned?_eq_some :
    readUnsigned? bound cs = some n ↔ IsNumeral cs n ∧ n < bound := by
  unfold readUnsigned?
  rw [Option.filter_eq_some_iff, decide_eq_true_eq]
  refine and_congr_left fun _ => ?_
  split
  · next digits =>
      rw [readNatural?_eq_some]
      constructor
      · intro h
        exact .inr ⟨digits, rfl, h⟩
      · rintro (h | ⟨digits', hsame, h⟩)
        · exact absurd (h.digits '+' List.mem_cons_self) (by decide)
        · rwa [(List.cons.inj hsame).2]
  · next hsign =>
      rw [readNatural?_eq_some]
      constructor
      · exact .inl
      · rintro (h | ⟨digits, rfl, -⟩)
        · exact h
        · exact absurd rfl (hsign digits)

theorem readUInt64?_eq_some {s : String} {n : UInt64} :
    readUInt64? s = some n ↔ IsNumeral s.toList n.toNat := by
  unfold readUInt64?
  rw [Option.map_eq_some_iff]
  constructor
  · rintro ⟨m, hm, rfl⟩
    obtain ⟨hnumeral, hbound⟩ := readUnsigned?_eq_some.mp hm
    rwa [UInt64.toNat_ofNat_of_lt' hbound]
  · intro h
    refine ⟨n.toNat, readUnsigned?_eq_some.mpr ⟨h, n.toNat_lt⟩, ?_⟩
    exact UInt64.ofNat_toNat

/-! ### Numbers that are written -/

/-- The digits of a number, without a sign and without zeros to spare. -/
structure IsDecimal (cs : List Char) (n : Nat) : Prop extends IsRun cs n where
  no_spare_zero : cs.head? = some '0' → cs = ['0']

theorem isDecimal_toDigits (n : Nat) : IsDecimal (Nat.toDigits 10 n) n := by
  refine ⟨⟨Nat.toDigits_ne_nil, fun c => ?_, Nat.ofDigitChars_ten_toDigits⟩, ?_⟩
  · exact Nat.isDigit_of_mem_toDigits (by omega) (by omega)
  · intro hzero
    cases n with
    | zero => rfl
    | succ m => exact absurd hzero (head?_toDigits_ne_zero m.succ_pos)

theorem isDecimal_ofUInt64 (n : UInt64) : IsDecimal (ofUInt64 n).toList n.toNat := by
  rw [ofUInt64, Nat.toString_eq_repr, Nat.toList_repr]
  exact isDecimal_toDigits n.toNat

end DictionaryDdl.Text
