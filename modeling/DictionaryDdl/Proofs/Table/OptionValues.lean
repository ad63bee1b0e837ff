import DictionaryDdl.Proofs.Sdi.KeyValues
import DictionaryDdl.Table.Options
import Mathlib.Data.Option.Basic

/-!
What the options of a table say, key by key. Every option has the value of the last pair of its key,
and no value where that pair gives none that the option can have. So a pair that is to be skipped
leaves the list as it is without the pair if another pair of its key follows or none came before;
otherwise it takes away what was set.
-/

namespace DictionaryDdl

/-- A value of an option, whichever it is. -/
inductive OptionValue where
  | number (n : UInt64)
  | flag (isSet : Bool)
  | text (s : String)
  deriving DecidableEq, Repr

namespace TableOptions

variable {key value : String} {a b p : String}

/-- The keys of the options. -/
def keys : List String :=
  ["avg_row_length", "key_block_size", "stats_sample_pages", "stats_auto_recalc", "encrypt_type"]

/-- The value of the option of a key. -/
def get? (options : TableOptions) (key : String) : Option OptionValue :=
  match key with
  | "avg_row_length" => options.avgRowLength.map .number
  | "key_block_size" => options.keyBlockSize.map .number
  | "stats_sample_pages" => options.statsSamplePages.map .number
  | "stats_auto_recalc" => options.statsAutoRecalc.map .flag
  | "encrypt_type" => options.encryption.map .text
  | _ => none

/-- The value of an option that a text stands for. -/
def valueOf (key value : String) : Option OptionValue :=
  match key with
  | "avg_row_length" => (Text.readUInt64? value).map .number
  | "key_block_size" => (Text.readUInt64? value).map .number
  | "stats_sample_pages" => (Text.readUInt64? value).map .number
  | "stats_auto_recalc" => (recalcOf value).map .flag
  | "encrypt_type" => some (.text value)
  | _ => none

theorem get?_of_not_mem (options : TableOptions) (h : key ∉ keys) : options.get? key = none := by
  unfold get?
  split
  all_goals first
    | rfl
    | exact absurd (by decide) h

theorem valueOf_of_not_mem (h : key ∉ keys) : valueOf key value = none := by
  unfold valueOf
  split
  all_goals first
    | rfl
    | exact absurd (by decide) h

/-- A pair sets the option of its key to the value that its text stands for, if any. -/
theorem get?_assign_self (options : TableOptions) (key value : String) :
    (options.assign key value).get? key = valueOf key value := by
  by_cases hmem : key ∈ keys
  · simp only [keys, List.mem_cons, List.not_mem_nil, or_false] at hmem
    rcases hmem with rfl | rfl | rfl | rfl | rfl
    all_goals rfl
  · rw [get?_of_not_mem _ hmem, valueOf_of_not_mem hmem]

theorem get?_assign_of_ne (options : TableOptions) {other : String} (h : key ≠ other) :
    (options.assign key value).get? other = options.get? other := by
  -- every branch of the assignment writes to one option, and the other one is read from another
  unfold assign get?
  split
  case h_6 => rfl
  all_goals
    split
    all_goals first
      | rfl
      | exact absurd rfl h

/-- Options with the same values are the same. -/
theorem eq_of_get? {first second : TableOptions} (h : ∀ key, first.get? key = second.get? key) :
    first = second := by
  have hnumber {x y : Option UInt64}
      (hxy : x.map OptionValue.number = y.map OptionValue.number) : x = y :=
    Option.map_injective (fun _ _ => OptionValue.number.inj) hxy
  have hflag {x y : Option Bool} (hxy : x.map OptionValue.flag = y.map OptionValue.flag) : x = y :=
    Option.map_injective (fun _ _ => OptionValue.flag.inj) hxy
  have htext {x y : Option String} (hxy : x.map OptionValue.text = y.map OptionValue.text) :
      x = y :=
    Option.map_injective (fun _ _ => OptionValue.text.inj) hxy
  have hlength := hnumber (h "avg_row_length")
  have hblock := hnumber (h "key_block_size")
  have hpages := hnumber (h "stats_sample_pages")
  have hrecalc := hflag (h "stats_auto_recalc")
  have hencryption := htext (h "encrypt_type")
  cases first
  cases second
  simp_all

/-! ### The last pair of a key -/

theorem get?_step (options : TableOptions) (element : Sdi.KeyValue) (key : String) :
    (options.step element).get? key =
      match element.value? key with
      | some value => valueOf key value
      | none => options.get? key := by
  cases element with
  | malformed text => rfl
  | pair other value =>
      rw [step, Sdi.KeyValue.value?]
      by_cases h : other = key
      · rw [if_pos h, ← h, get?_assign_self]
      · rw [if_neg h, get?_assign_of_ne options h]

theorem get?_foldl_step (options : TableOptions) (elements : List Sdi.KeyValue) (key : String) :
    (elements.foldl step options).get? key =
      match Sdi.lastValue? key elements with
      | some value => valueOf key value
      | none => options.get? key := by
  induction elements generalizing options with
  | nil => rfl
  | cons element more ih =>
      have hlast : Sdi.lastValue? key (element :: more) =
          (Sdi.lastValue? key more).or (Sdi.lastValue? key [element]) :=
        Sdi.lastValue?_append key [element] more
      rw [List.foldl_cons, ih, get?_step, hlast, Sdi.lastValue?_singleton]
      cases Sdi.lastValue? key more with
      | none => rfl
      | some value => rfl

/-- An option has the value that the last pair of its key gives, and none if that pair gives none. -/
theorem get?_ofText (text key : String) :
    (ofText text).get? key = (Sdi.lastValue? key (Sdi.keyValues text)).bind (valueOf key) := by
  have hunset : (({} : TableOptions).get? key) = none := by
    unfold get?
    split
    all_goals rfl
  rw [ofText, get?_foldl_step, hunset]
  cases Sdi.lastValue? key (Sdi.keyValues text) with
  | none => rfl
  | some value => rfl

/-! ### Pairs that are to be skipped -/

/-- An element that is to be skipped: it is malformed, its key is not the one of an option, or its
value is not one that the option can have. -/
def IsBad : Sdi.KeyValue → Prop
  | .malformed _ => True
  | .pair key value =>
      key ∉ keys ∨ (isNumeric key = true ∧ Text.readUInt64? value = none) ∨
        (key = "stats_auto_recalc" ∧ value ≠ "0" ∧ value ≠ "1" ∧ value ≠ "2")

theorem valueOf_of_isBad (h : IsBad (.pair key value)) : valueOf key value = none := by
  rcases h with hkey | ⟨hnumeric, hvalue⟩ | ⟨rfl, -, hon, hoff⟩
  · exact valueOf_of_not_mem hkey
  · simp only [isNumeric, Bool.or_eq_true, beq_iff_eq, or_assoc] at hnumeric
    rcases hnumeric with rfl | rfl | rfl
    all_goals rw [valueOf, hvalue, Option.map_none]
  · have hrecalc : recalcOf value = none := by
      unfold recalcOf
      split
      · exact absurd rfl hon
      · exact absurd rfl hoff
      · rfl
    rw [valueOf, hrecalc, Option.map_none]

/-- What bad elements between two lists of options do to the option of a key. -/
theorem get?_ofText_between_iff (hbad : ∀ element ∈ Sdi.keyValues p, IsBad element)
    (key : String) :
    (ofText (a ++ ";" ++ p ++ ";" ++ b)).get? key = (ofText (a ++ ";" ++ b)).get? key ↔
      ∀ value, .pair key value ∈ Sdi.keyValues p →
        (ofText a).get? key = none ∨ ∃ later, .pair key later ∈ Sdi.keyValues b := by
  simp only [get?_ofText, Sdi.keyValues_append, Sdi.lastValue?_append]
  cases hlater : Sdi.lastValue? key (Sdi.keyValues b) with
  | some later =>
      have hmem := Sdi.mem_of_lastValue? hlater
      exact iff_of_true rfl fun value _ => .inr ⟨later, hmem⟩
  | none =>
      have hnone := Sdi.lastValue?_eq_none.mp hlater
      cases hvalue : Sdi.lastValue? key (Sdi.keyValues p) with
      | none =>
          have hunset := Sdi.lastValue?_eq_none.mp hvalue
          exact iff_of_true rfl fun value hmem => absurd hmem (hunset value)
      | some value =>
          have hmem := Sdi.mem_of_lastValue? hvalue
          have htaken : valueOf key value = none := valueOf_of_isBad (hbad _ hmem)
          simp only [Option.none_or, Option.some_or, Option.bind_some, htaken]
          constructor
          · intro h value' _
            exact .inl h.symm
          · intro h
            rcases h value hmem with hunset | ⟨later, hlater⟩
            · exact hunset.symm
            · exact absurd hlater (hnone later)

/-- Bad elements between two lists of options can be left out if, and only if, what they are pairs
of is not set before them or is set again after them. So malformed elements and pairs of unknown
keys can always be left out. -/
theorem ofText_between_iff (a b : String) (hbad : ∀ element ∈ Sdi.keyValues p, IsBad element) :
    (ofText (a ++ ";" ++ p ++ ";" ++ b) = ofText (a ++ ";" ++ b) ↔
        ∀ key value, .pair key value ∈ Sdi.keyValues p →
          (ofText a).get? key = none ∨ ∃ later, .pair key later ∈ Sdi.keyValues b) ∧
      ((∀ key ∈ keys, ∀ value, .pair key value ∉ Sdi.keyValues p) →
        ofText (a ++ ";" ++ p ++ ";" ++ b) = ofText (a ++ ";" ++ b)) := by
  have hiff : ofText (a ++ ";" ++ p ++ ";" ++ b) = ofText (a ++ ";" ++ b) ↔
      ∀ key value, .pair key value ∈ Sdi.keyValues p →
        (ofText a).get? key = none ∨ ∃ later, .pair key later ∈ Sdi.keyValues b := by
    constructor
    · intro h key
      apply (get?_ofText_between_iff hbad key).mp
      rw [h]
    · intro h
      apply eq_of_get?
      intro key
      exact (get?_ofText_between_iff hbad key).mpr (h key)
  refine ⟨hiff, fun hunknown => hiff.mpr fun key value hmem => .inl ?_⟩
  apply get?_of_not_mem
  intro hkey
  exact hunknown key hkey value hmem

/-- A later pair of the same key makes up for the bad one. -/
theorem ofText_between_iff_laterPages :
    (∀ element ∈ Sdi.keyValues "stats_sample_pages=many", IsBad element) ∧
      ofText ("stats_sample_pages=4;key_block_size=8" ++ ";" ++ "stats_sample_pages=many" ++ ";" ++
          "stats_sample_pages=32") =
        { keyBlockSize := some 8, statsSamplePages := some 32 } := by
  have hmiddle : Sdi.keyValues "stats_sample_pages=many" =
      [.pair "stats_sample_pages" "many"] := by decide +kernel
  have hlater : .pair "stats_sample_pages" "32" ∈ Sdi.keyValues "stats_sample_pages=32" := by
    decide +kernel
  have hbad : ∀ element ∈ Sdi.keyValues "stats_sample_pages=many", IsBad element := by
    intro element hmem
    rw [hmiddle, List.mem_singleton] at hmem
    subst hmem
    exact .inr (.inl ⟨by decide, by decide +kernel⟩)
  refine ⟨hbad, ?_⟩
  have hskipped := (ofText_between_iff "stats_sample_pages=4;key_block_size=8"
    "stats_sample_pages=32" hbad).1.mpr (by
      intro key value hmem
      rw [hmiddle, List.mem_singleton] at hmem
      cases hmem
      exact .inr ⟨"32", hlater⟩)
  rw [hskipped]
  decide +kernel

/-- A number that cannot be read takes away the one that was set before it. -/
theorem ofText_loses_blockSize :
    ';' ∉ "key_block_size=x".toList ∧
      (∀ element ∈ Sdi.keyValues "key_block_size=x", IsBad element) ∧
      ofText ("key_block_size=8" ++ ";" ++ "key_block_size=x" ++ ";" ++ "") ≠
        ofText ("key_block_size=8" ++ ";" ++ "") := by
  have helements : Sdi.keyValues "key_block_size=x" = [.pair "key_block_size" "x"] := by
    decide +kernel
  refine ⟨by decide +kernel, ?_, by decide +kernel⟩
  intro element hmem
  rw [helements, List.mem_singleton] at hmem
  subst hmem
  exact .inr (.inl ⟨by decide, by decide +kernel⟩)

end TableOptions

end DictionaryDdl
