import DictionaryDdl.Text.Utf8
import Mathlib.Data.String.Basic

/-!
The order of texts and the order of their octets. A character is a lead octet and sextets after it,
the most significant first, and the lead octet tells how many there are. So the octets of a greater
character come later, and texts that ascend character by character ascend octet by octet.
-/

namespace DictionaryDdl.Text

variable {lead count a b : Nat} {c d : Char}

/-- The octets of a number: what is left of it before `count` sextets is in the lead octet. -/
def spread (lead : Nat) : Nat → Nat → List UInt8
  | 0, n => [UInt8.ofNat (n + lead)]
  | count + 1, n => spread lead count (n / 64) ++ [UInt8.ofNat (n % 64 + 128)]

theorem octet_lt (h : a < b) (hb : b < 256) : UInt8.ofNat a < UInt8.ofNat b :=
  (UInt8.ofNat_lt_iff_lt (Nat.lt_trans h hb) hb).mpr h

theorem exists_spread_eq_cons (lead count n : Nat) :
    ∃ more, spread lead count n = UInt8.ofNat (n / 64 ^ count + lead) :: more := by
  induction count generalizing n with
  | zero => exact ⟨[], by rw [spread, Nat.pow_zero, Nat.div_one]⟩
  | succ count ih =>
      obtain ⟨more, hmore⟩ := ih (n / 64)
      refine ⟨more ++ [UInt8.ofNat (n % 64 + 128)], ?_⟩
      rw [spread, hmore, List.cons_append, Nat.div_div_eq_div_mul, ← Nat.pow_succ']

theorem spread_lt_of_lead {lead' count' : Nat}
    (h : a / 64 ^ count + lead < b / 64 ^ count' + lead')
    (hlead : b / 64 ^ count' + lead' < 256) (rest rest' : List UInt8) :
    spread lead count a ++ rest < spread lead' count' b ++ rest' := by
  obtain ⟨more, hmore⟩ := exists_spread_eq_cons lead count a
  obtain ⟨more', hmore'⟩ := exists_spread_eq_cons lead' count' b
  rw [hmore, hmore']
  exact List.cons_lt_cons_iff.mpr (.inl (octet_lt h hlead))

/-- The first digit in which two numbers differ decides, whatever follows them. -/
theorem spread_lt (h : a < b) (hlead : b / 64 ^ count + lead < 256) (rest rest' : List UInt8) :
    spread lead count a ++ rest < spread lead count b ++ rest' := by
  induction count generalizing a b rest rest' with
  | zero =>
      rw [Nat.pow_zero, Nat.div_one] at hlead
      exact List.cons_lt_cons_iff.mpr (.inl (octet_lt (by omega) hlead))
  | succ count ih =>
      rw [Nat.pow_succ', ← Nat.div_div_eq_div_mul] at hlead
      simp only [spread, List.append_assoc, List.singleton_append]
      rcases Nat.lt_or_eq_of_le (Nat.div_le_div_right (c := 64) (Nat.le_of_lt h)) with hhigh | hhigh
      · exact ih hhigh hlead _ _
      · rw [hhigh]
        refine List.append_left_lt (List.cons_lt_cons_iff.mpr (.inl (octet_lt ?_ ?_)))
        · omega
        · omega

theorem toNat_lt (c : Char) : c.toNat < 1114112 := by
  rcases c.valid with h | ⟨-, h⟩
  · exact Nat.lt_trans h (by decide)
  · exact h

/-- The lead octet and the number of sextets of a character. -/
theorem utf8EncodeChar_eq (c : Char) :
    String.utf8EncodeChar c =
      if c.toNat ≤ 127 then spread 0 0 c.toNat
      else if c.toNat ≤ 2047 then spread 192 1 c.toNat
      else if c.toNat ≤ 65535 then spread 224 2 c.toNat
      else spread 240 3 c.toNat := by
  have hbound : c.toNat < 1114112 := toNat_lt c
  have hvalue : c.val.toNat = c.toNat := rfl
  simp only [String.utf8EncodeChar, hvalue, spread, List.cons_append, List.nil_append,
    Nat.div_div_eq_div_mul, Nat.reduceMul]
  split_ifs
  · rfl
  · rw [Nat.mod_eq_of_lt (show c.toNat / 64 < 32 by omega)]
  · rw [Nat.mod_eq_of_lt (show c.toNat / 4096 < 16 by omega)]
  · rw [Nat.mod_eq_of_lt (show c.toNat / 262144 < 8 by omega)]

/-- The octets of a greater character come later, whatever follows them. -/
theorem utf8EncodeChar_lt (h : c < d) (rest rest' : List UInt8) :
    String.utf8EncodeChar c ++ rest < String.utf8EncodeChar d ++ rest' := by
  have hvalue : c.toNat < d.toNat := h
  have hbound : d.toNat < 1114112 := toNat_lt d
  rw [utf8EncodeChar_eq, utf8EncodeChar_eq]
  split_ifs
  all_goals first
    | omega
    | exact spread_lt hvalue (by omega) rest rest'
    | exact spread_lt_of_lead (by omega) (by omega) rest rest'

theorem octets_toList (s : String) :
    (octets s).data.toList = s.toList.flatMap String.utf8EncodeChar := by
  conv_lhs => rw [← String.ofList_toList (s := s)]
  rw [octets, String.toUTF8, String.toByteArray_ofList, List.utf8Encode, List.data_toByteArray]

theorem flatMap_utf8EncodeChar_lt {cs ds : List Char} (h : cs < ds) :
    cs.flatMap String.utf8EncodeChar < ds.flatMap String.utf8EncodeChar := by
  induction cs generalizing ds with
  | nil =>
      obtain ⟨d, others, rfl⟩ := List.exists_cons_of_ne_nil (show ds ≠ [] by rintro rfl; cases h)
      obtain ⟨octet, more, hoctets⟩ :=
        List.exists_cons_of_ne_nil (String.utf8EncodeChar_ne_nil (c := d))
      rw [List.flatMap_cons, hoctets]
      exact List.nil_lt_cons _ _
  | cons c more ih =>
      cases ds with
      | nil => exact absurd h (List.not_lt_nil _)
      | cons d others =>
          rw [List.flatMap_cons, List.flatMap_cons]
          rcases List.cons_lt_cons_iff.mp h with hfirst | ⟨rfl, hmore⟩
          · exact utf8EncodeChar_lt hfirst _ _
          · exact List.append_left_lt (ih hmore)

/-- Texts that ascend character by character ascend octet by octet. -/
theorem octets_lt {s t : String} (h : s < t) : (octets s).data.toList < (octets t).data.toList := by
  rw [octets_toList, octets_toList]
  exact flatMap_utf8EncodeChar_lt (String.lt_iff_toList_lt.mp h)

end DictionaryDdl.Text
