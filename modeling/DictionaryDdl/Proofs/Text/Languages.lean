import DictionaryDdl.Text.DecimalDigit
import Mathlib.Computability.Language

/-!
Languages that are put together from fixed texts and classes of characters, as a regular expression
puts them together, and the functions that take their words off the front of a text. Where such
functions follow one another they take the words of the product, so that a text is recognised part
by part without going back.
-/

namespace DictionaryDdl.Text

open scoped Computability

variable {words words' : Language Char} {chars : Set Char} {cs word : List Char} {n : Nat}

/-! ### Classes of characters -/

/-- The characters of ranges of code points. -/
def CodePoints.characters (points : CodePoints) : Set Char :=
  {c | ∃ range ∈ points, range.1 ≤ c.toNat ∧ c.toNat ≤ range.2}

/-- Ranges that hold something, stand in their order and do not overlap. -/
def CodePoints.IsAscending (points : CodePoints) : Prop :=
  (∀ range ∈ points, range.1 ≤ range.2) ∧ points.Pairwise fun range next => range.2 < next.1

instance (points : CodePoints) : Decidable points.IsAscending :=
  inferInstanceAs (Decidable (_ ∧ _))

/-- The search stops early, and this loses nothing as long as the ranges ascend. -/
theorem CodePoints.contains_iff {points : CodePoints} (h : points.IsAscending) :
    points.contains n = true ↔ ∃ range ∈ points, range.1 ≤ n ∧ n ≤ range.2 := by
  induction points with
  | nil => simp [CodePoints.contains]
  | cons range more ih =>
      obtain ⟨first, last⟩ := range
      obtain ⟨⟨hrange, hranges⟩, hapart⟩ := And.imp_left List.forall_mem_cons.mp h
      obtain ⟨habove, hmore⟩ := List.pairwise_cons.mp hapart
      rw [CodePoints.contains, List.exists_mem_cons_iff]
      split_ifs with hbelow hinside
      · refine iff_of_false (by simp) ?_
        rintro (hin | ⟨next, hnext, hin⟩)
        · exact absurd hin.1 (by omega)
        · exact absurd (habove next hnext) (by omega)
      · exact iff_of_true rfl (.inl ⟨by omega, hinside⟩)
      · rw [ih ⟨hranges, hmore⟩, or_iff_right fun hin => hinside hin.2]

theorem isDecimalDigit_iff {c : Char} :
    isDecimalDigit c = true ↔ c ∈ decimalDigits.characters :=
  CodePoints.contains_iff (by decide)

/-! ### Words -/

/-- A text and no other one. -/
def only (text : String) : Language Char :=
  {text.toList}

/-- The single characters of a class. -/
def oneOf (chars : Set Char) : Language Char :=
  {word | ∃ c ∈ chars, word = [c]}

/-- One or more characters of a class. -/
def someOf (chars : Set Char) : Language Char :=
  oneOf chars * (oneOf chars)∗

theorem mem_only {text : String} : word ∈ only text ↔ word = text.toList :=
  Iff.rfl

theorem mem_oneOf_mul : cs ∈ oneOf chars * words ↔ ∃ c ∈ chars, ∃ rest ∈ words, cs = c :: rest := by
  rw [Language.mem_mul]
  constructor
  · rintro ⟨word, ⟨c, hc, rfl⟩, rest, hrest, rfl⟩
    exact ⟨c, hc, rest, hrest, rfl⟩
  · rintro ⟨c, hc, rest, hrest, rfl⟩
    exact ⟨[c], ⟨c, hc, rfl⟩, rest, hrest, rfl⟩

theorem mem_oneOf_pow : cs ∈ oneOf chars ^ n ↔ cs.length = n ∧ ∀ c ∈ cs, c ∈ chars := by
  induction n generalizing cs with
  | zero =>
      rw [pow_zero, Language.mem_one, List.length_eq_zero_iff]
      exact ⟨fun h => ⟨h, by simp [h]⟩, And.left⟩
  | succ n ih =>
      rw [pow_succ', mem_oneOf_mul]
      constructor
      · rintro ⟨c, hc, rest, hrest, rfl⟩
        obtain ⟨hlength, hall⟩ := ih.mp hrest
        exact ⟨congrArg (· + 1) hlength, List.forall_mem_cons.mpr ⟨hc, hall⟩⟩
      · rintro ⟨hlength, hall⟩
        obtain ⟨c, rest, rfl⟩ := List.exists_cons_of_length_eq_add_one hlength
        obtain ⟨hc, hrest⟩ := List.forall_mem_cons.mp hall
        exact ⟨c, hc, rest, ih.mpr ⟨Nat.succ.inj hlength, hrest⟩, rfl⟩

theorem mem_oneOf_kstar : cs ∈ (oneOf chars)∗ ↔ ∀ c ∈ cs, c ∈ chars := by
  rw [Language.kstar_eq_iSup_pow, Language.mem_iSup]
  constructor
  · rintro ⟨n, hn⟩
    exact (mem_oneOf_pow.mp hn).2
  · intro h
    exact ⟨cs.length, mem_oneOf_pow.mpr ⟨rfl, h⟩⟩

theorem mem_someOf : cs ∈ someOf chars ↔ cs ≠ [] ∧ ∀ c ∈ cs, c ∈ chars := by
  rw [someOf, mem_oneOf_mul]
  constructor
  · rintro ⟨c, hc, rest, hrest, rfl⟩
    exact ⟨List.cons_ne_nil c rest, List.forall_mem_cons.mpr ⟨hc, mem_oneOf_kstar.mp hrest⟩⟩
  · rintro ⟨hne, hall⟩
    obtain ⟨c, rest, rfl⟩ := List.exists_cons_of_ne_nil hne
    obtain ⟨hc, hrest⟩ := List.forall_mem_cons.mp hall
    exact ⟨c, hc, rest, mem_oneOf_kstar.mpr hrest, rfl⟩

theorem toList_mem_only {text other : String} : text.toList ∈ only other ↔ text = other :=
  String.toList_inj

/-- The parts of a word as strings. -/
theorem toList_mem_mul {text : String} :
    text.toList ∈ words * words' ↔
      ∃ a b : String, a.toList ∈ words ∧ b.toList ∈ words' ∧ text = a ++ b := by
  rw [Language.mem_mul]
  constructor
  · rintro ⟨a, ha, b, hb, htext⟩
    refine ⟨String.ofList a, String.ofList b, ?_, ?_, ?_⟩
    · rwa [String.toList_ofList]
    · rwa [String.toList_ofList]
    · rw [← String.toList_inj, String.toList_append, String.toList_ofList, String.toList_ofList,
        htext]
  · rintro ⟨a, b, ha, hb, rfl⟩
    exact ⟨a.toList, ha, b.toList, hb, String.toList_append.symm⟩

/-! ### Taking words off a text -/

/-- What takes exactly the words of a language off the front of a text, and gives what follows. As
it gives one answer only, no text starts with two words of the language. -/
def Takes (take : List Char → Option (List Char)) (words : Language Char) : Prop :=
  ∀ cs rest, take cs = some rest ↔ ∃ word ∈ words, word ++ rest = cs

variable {take take' : List Char → Option (List Char)} {accept : List Char → Bool}

theorem Takes.bind (h : Takes take words) (h' : Takes take' words') :
    Takes (fun cs => (take cs).bind take') (words * words') := by
  intro cs rest
  rw [Option.bind_eq_some_iff]
  constructor
  · rintro ⟨mid, hmid, hrest⟩
    obtain ⟨word, hword, rfl⟩ := (h cs mid).mp hmid
    obtain ⟨word', hword', rfl⟩ := (h' mid rest).mp hrest
    exact ⟨word ++ word', Language.append_mem_mul hword hword', List.append_assoc word word' rest⟩
  · rintro ⟨_, ⟨word, hword, word', hword', rfl⟩, rfl⟩
    refine ⟨word' ++ rest, (h _ _).mpr ⟨word, hword, ?_⟩, (h' _ _).mpr ⟨word', hword', rfl⟩⟩
    exact (List.append_assoc word word' rest).symm

/-- What follows is left to be recognised. -/
theorem Takes.any_iff (h : Takes take words)
    (haccept : ∀ rest, accept rest = true ↔ rest ∈ words') :
    (take cs).any accept = true ↔ cs ∈ words * words' := by
  rw [Option.any_eq_true, Language.mem_mul]
  constructor
  · rintro ⟨rest, hrest, haccepted⟩
    obtain ⟨word, hword, hcs⟩ := (h cs rest).mp hrest
    exact ⟨word, hword, rest, (haccept rest).mp haccepted, hcs⟩
  · rintro ⟨word, hword, rest, hrest, hcs⟩
    exact ⟨rest, (h cs rest).mpr ⟨word, hword, hcs⟩, (haccept rest).mpr hrest⟩

end DictionaryDdl.Text
