import DictionaryDdl.Collation.OfJson
import DictionaryDdl.Proofs.Collation.Entries
import DictionaryDdl.Proofs.Json.Fields
import DictionaryDdl.Proofs.Json.Reading

/-!
Catalogues that are read in one pass over their text. A collation may stand there as an object of its
fields in any order or as an array of them; it is read whatever the layout of the text, and so is
a list of collations. Members that name no field are not considered here.
-/

namespace DictionaryDdl.Collation

open Json

variable {layout : Layout} {limit level fuel : Nat} {c : Collation} {name : String} {v : Json}
  {names : List String} {given : List (String × Json)} {first : Char}
  {cs blanks after rest : List Char}

/-! ### The values of fields -/

theorem readUInt32_of_scan {n : Number} {x : UInt32}
    (hstart : first = '-' ∨ Text.isDigit first = true)
    (hscan : scanNumber (first :: cs) = .ok (n, rest)) (hvalue : asUInt32 (.number n) = .ok x) :
    readUInt32 limit (first :: cs) = .ok (x, rest) := by
  unfold readUInt32
  rw [skipBlanks_of_not_blank (not_blank_of_number hstart)]
  simp only [List.head?_cons, Option.any_some, hstart, decide_true, if_true, bind, Except.bind,
    hscan, hvalue, Except.mapError]

theorem readUInt32_append (h : ∀ c ∈ blanks, isBlank c = true) :
    readUInt32 limit (blanks ++ cs) = readUInt32 limit cs := by
  unfold readUInt32
  rw [skipBlanks_append h]

theorem scansAs_readUInt32 (n : UInt32) :
    ScansAs (readUInt32 limit) layout limit level (.ofNat n.toNat) n := by
  intro blanks rest hblanks _ hrest
  have hscan := scanNumber_toString (fits_ofUInt32 n) hrest
  obtain ⟨first, more, hlist, hstart⟩ := exists_toString_int_eq_cons (n.toNat : Int)
  rw [hlist, List.cons_append] at hscan
  rw [readUInt32_append hblanks, ofNat, spelt, Number.text, hlist, List.cons_append]
  exact readUInt32_of_scan hstart hscan (asUInt32_ofNat n)

theorem scansAs_readString (s : String) :
    ScansAs (readString limit) layout limit level (.string s) s := by
  intro blanks rest hblanks hlimit _
  have hlength := length_lt_quoted s
  rw [spelt] at hlimit ⊢
  unfold readString
  rw [skipBlanks_append hblanks, toList_quoted, List.cons_append, List.append_assoc,
    List.singleton_append, skipBlanks_of_not_blank (by decide)]
  exact scanString_quoted s (by omega)

/-! ### Objects -/

/-- The fields of a collation with their names. -/
def fields (c : Collation) : List (String × Json) :=
  [("id", .ofNat c.id.toNat), ("collation_name", .string c.name),
    ("charset_name", .string c.charset), ("max_bytes_per_char", .ofNat c.maxBytesPerChar.toNat)]

/-- What is known of a collation when the fields with some names have been read. -/
def known (c : Collation) (names : List String) : Partial where
  id := if "id" ∈ names then some c.id else none
  name := if "collation_name" ∈ names then some c.name else none
  charset := if "charset_name" ∈ names then some c.charset else none
  width := if "max_bytes_per_char" ∈ names then some c.maxBytesPerChar else none

theorem known_nil (c : Collation) : c.known [] = {} := rfl

theorem finish_known (h : ∀ field ∈ c.fields, field.1 ∈ names) :
    (c.known names).finish = .ok c := by
  simp only [fields, List.forall_mem_cons] at h
  obtain ⟨hid, hname, hcharset, hwidth, -⟩ := h
  rw [known, if_pos hid, if_pos hname, if_pos hcharset, if_pos hwidth]
  rfl

theorem readField_none {α : Type} {field : Scanner α} {x : α}
    (hscan : ScansAs field layout limit level v x)
    (hlimit : (spelt layout level v).length < limit) (hrest : EndsNumber rest) :
    readField name none field (':' :: (layout.gap ++ (spelt layout level v ++ rest))) =
      .ok (x, rest) := by
  unfold readField
  rw [colon_cons]
  exact hscan layout.gap rest layout.gap_blank hlimit hrest

/-- A field that has not been read yet is read. -/
theorem readMember_spelt (hfield : (name, v) ∈ c.fields) (hnew : name ∉ names)
    (hlimit : (quoted name).toList.length + (spelt layout level v).length < limit)
    (hblanks : ∀ c ∈ blanks, isBlank c = true) (hrest : EndsNumber rest) :
    readMember limit (c.known names) (blanks ++ ((quoted name).toList ++
        ':' :: (layout.gap ++ (spelt layout level v ++ rest)))) =
      .ok (c.known (name :: names), rest) := by
  have hlength := length_lt_quoted name
  have hname : name.length < limit := by omega
  have hvalue : (spelt layout level v).length < limit := by omega
  unfold readMember
  rw [nameQuote_quoted hblanks]
  simp only [bind, Except.bind, scanString_quoted name hname]
  simp only [fields, List.mem_cons, List.not_mem_nil, or_false, Prod.mk.injEq] at hfield
  -- the value goes to the place of its name, which is still empty
  rcases hfield with ⟨rfl, rfl⟩ | ⟨rfl, rfl⟩ | ⟨rfl, rfl⟩ | ⟨rfl, rfl⟩
  · have hunknown : (c.known names).id = none := if_neg hnew
    rw [hunknown]
    simp only [readField_none (scansAs_readUInt32 c.id) hvalue hrest]
    simp [known]
  · have hunknown : (c.known names).name = none := if_neg hnew
    rw [hunknown]
    simp only [readField_none (scansAs_readString c.name) hvalue hrest]
    simp [known]
  · have hunknown : (c.known names).charset = none := if_neg hnew
    rw [hunknown]
    simp only [readField_none (scansAs_readString c.charset) hvalue hrest]
    simp [known]
  · have hunknown : (c.known names).width = none := if_neg hnew
    rw [hunknown]
    simp only [readField_none (scansAs_readUInt32 c.maxBytesPerChar) hvalue hrest]
    simp [known]

/-- The fields after the first one, whichever have been read. -/
theorem readMembers_spelt (hgiven : ∀ field ∈ given, field ∈ c.fields)
    (hnodup : (given.map (·.1)).Nodup) (hnew : ∀ field ∈ given, field.1 ∉ names)
    (hall : ∀ field ∈ c.fields, field.1 ∈ names ∨ field ∈ given)
    (hfuel : (speltMembers layout level given).length < fuel) (hlimit : fuel ≤ limit)
    (hblanks : ∀ c ∈ blanks, isBlank c = true) :
    readMembers limit fuel (c.known names)
        (speltMembers layout level given ++ (blanks ++ '\x7d' :: rest)) = .ok (c, rest) := by
  -- what has been read depends on the names so far only, so the order of the fields does not matter
  induction given generalizing fuel names with
  | nil =>
      obtain ⟨less, rfl⟩ := Nat.exists_eq_add_one_of_ne_zero (by omega : fuel ≠ 0)
      have hfinish : (c.known names).finish = .ok c :=
        finish_known fun field hfield => (hall field hfield).resolve_right List.not_mem_nil
      rw [speltMembers, List.nil_append, readMembers, skipBlanks_append hblanks,
        skipBlanks_of_not_blank (by decide)]
      simp only [hfinish, bind, Except.bind]
  | cons field more ih =>
      obtain ⟨name, v⟩ := field
      rw [List.forall_mem_cons] at hgiven hnew
      rw [List.map_cons, List.nodup_cons] at hnodup
      simp only [speltMembers, List.length_cons, List.length_append] at hfuel
      obtain ⟨less, rfl⟩ := Nat.exists_eq_add_one_of_ne_zero (by omega : fuel ≠ 0)
      have hends : EndsNumber (speltMembers layout level more ++ (blanks ++ '\x7d' :: rest)) :=
        endsNumber_members more hblanks
      have hfield := readMember_spelt hgiven.1 hnew.1
        (by omega : (quoted name).toList.length + (spelt layout level v).length < limit)
        (layout.line_blank level) hends
      have hlater : ∀ field ∈ more, field.1 ∉ name :: names := by
        intro field hmem hread
        rcases List.mem_cons.mp hread with hsame | hread
        · have hlisted : field.1 ∈ more.map (·.1) := List.mem_map_of_mem hmem
          rw [hsame] at hlisted
          exact hnodup.1 hlisted
        · exact hnew.2 field hmem hread
      have hrest : ∀ field ∈ c.fields, field.1 ∈ name :: names ∨ field ∈ more := by
        intro field hmem
        rcases hall field hmem with hread | hlisted
        · exact .inl (List.mem_cons_of_mem name hread)
        · rcases List.mem_cons.mp hlisted with rfl | hlisted
          · exact .inl List.mem_cons_self
          · exact .inr hlisted
      have hmore := ih hgiven.2 hnodup.2 hlater hrest
        (by omega : (speltMembers layout level more).length < less) (by omega)
      rw [speltMembers, List.cons_append, readMembers, skipBlanks_of_not_blank (by decide)]
      simp only [List.append_assoc, List.cons_append]
      rw [hfield]
      exact hmore

theorem nodup_fields (c : Collation) : (c.fields.map (·.1)).Nodup := by
  have hnames : record.fields.Nodup := by decide
  exact hnames

/-- A collation is read from an object of its fields in any order. -/
theorem readEntry_object (hperm : given.Perm c.fields) :
    ScansAs (readEntry limit) layout limit level (.object given) c := by
  intro blanks rest hblanks hlimit hrest
  cases given with
  | nil => exact absurd hperm.symm.eq_nil (List.cons_ne_nil _ _)
  | cons field more =>
      obtain ⟨name, v⟩ := field
      have hnodup : (((name, v) :: more).map (·.1)).Nodup :=
        (hperm.map _).nodup_iff.mpr c.nodup_fields
      have hgiven : ∀ field ∈ (name, v) :: more, field ∈ c.fields :=
        fun field hmem => hperm.mem_iff.mp hmem
      rw [List.map_cons, List.nodup_cons] at hnodup
      rw [List.forall_mem_cons] at hgiven
      simp only [spelt, List.length_cons, List.length_append] at hlimit
      have hends : EndsNumber (speltMembers layout (level + 1) more ++
          (layout.line level ++ '\x7d' :: rest)) :=
        endsNumber_members more (layout.line_blank level)
      have hlength : (quoted name).toList.length +
          (spelt layout (level + 1) v).length < limit := by omega
      have hfirst := readMember_spelt hgiven.1 (List.not_mem_nil (a := name)) hlength
        (List.forall_mem_nil _) hends
      have hmore : readMembers limit limit (c.known [name])
          (speltMembers layout (level + 1) more ++ (layout.line level ++ '\x7d' :: rest)) =
            .ok (c, rest) := by
        apply readMembers_spelt hgiven.2 hnodup.2 ?_ ?_ (by omega) (Nat.le_refl limit)
          (layout.line_blank level)
        · intro field hmem hread
          have hlisted : field.1 ∈ more.map (·.1) := List.mem_map_of_mem hmem
          rw [List.mem_singleton.mp hread] at hlisted
          exact hnodup.1 hlisted
        · intro field hmem
          rcases List.mem_cons.mp (hperm.mem_iff.mpr hmem) with rfl | hlisted
          · exact .inl List.mem_cons_self
          · exact .inr hlisted
      obtain ⟨cs, hquote⟩ : ∃ cs, (quoted name).toList = '"' :: cs := ⟨_, toList_quoted name⟩
      rw [spelt]
      unfold readEntry
      rw [skipBlanks_append hblanks, List.cons_append, skipBlanks_of_not_blank (by decide)]
      simp only [List.append_assoc, List.cons_append, List.nil_append] at hfirst ⊢
      rw [hquote, List.cons_append] at hfirst ⊢
      unfold readObject
      rw [skipBlanks_append (layout.line_blank (level + 1)), skipBlanks_of_not_blank (by decide)]
      rw [known_nil] at hfirst
      split
      · rename_i heq
        exact absurd (List.cons.inj heq).1 (by decide)
      · rw [hfirst]
        exact hmore

/-! ### Arrays -/

/-- The fields of a collation without their names. -/
def cells (c : Collation) : List Json :=
  [.ofNat c.id.toNat, .string c.name, .string c.charset, .ofNat c.maxBytesPerChar.toNat]

theorem readPosition_zero {α : Type} {field : Scanner α} (hblanks : ∀ c ∈ blanks, isBlank c = true)
    (hstart : first = '-' ∨ Text.isDigit first = true) :
    readPosition 0 field (blanks ++ first :: cs) = field (first :: cs) := by
  have hother (x : Char) (hx : ¬ (x = '-' ∨ Text.isDigit x = true)) : first ≠ x := by
    rintro rfl
    exact hx hstart
  unfold readPosition
  rw [skipBlanks_append hblanks, skipBlanks_of_not_blank (not_blank_of_number hstart)]
  split
  · rename_i heq
    cases heq
  · rename_i heq
    exact absurd (List.cons.inj heq).1 (hother _ (by decide))
  · rename_i heq
    exact absurd (List.cons.inj heq).1 (hother _ (by decide))
  · rfl

theorem readPosition_succ {α : Type} {field : Scanner α} (position : Nat) :
    readPosition (position + 1) field (',' :: cs) = field cs := by
  unfold readPosition
  rw [skipBlanks_of_not_blank (by decide)]
  rfl

/-- A collation is read from an array of its fields. -/
theorem readEntry_array (c : Collation) :
    ScansAs (readEntry limit) layout limit level (.array c.cells) c := by
  intro blanks rest hblanks hlimit hrest
  simp only [cells, spelt, speltItems, List.length_cons, List.length_append] at hlimit
  have hcomma {after : List Char} : EndsNumber (',' :: after) :=
    endsNumber_cons (by decide) (by decide) (by decide) (by decide)
  have hclose : EndsNumber (layout.line level ++ ']' :: rest) :=
    endsNumber_append (layout.line_blank level)
      (endsNumber_cons (by decide) (by decide) (by decide) (by decide))
  have hline := layout.line_blank (level + 1)
  have hid (after : List Char) : readUInt32 limit
      (spelt layout (level + 1) (.ofNat c.id.toNat) ++ ',' :: after) = .ok (c.id, ',' :: after) :=
    scansAs_readUInt32 c.id [] _ (List.forall_mem_nil _) (by omega) hcomma
  have hname (after : List Char) : readString limit (layout.line (level + 1) ++
      (spelt layout (level + 1) (.string c.name) ++ ',' :: after)) = .ok (c.name, ',' :: after) :=
    scansAs_readString c.name _ _ hline (by rw [spelt]; omega) hcomma
  have hcharset (after : List Char) : readString limit (layout.line (level + 1) ++
      (spelt layout (level + 1) (.string c.charset) ++ ',' :: after)) =
        .ok (c.charset, ',' :: after) :=
    scansAs_readString c.charset _ _ hline (by rw [spelt]; omega) hcomma
  have hwidth : readUInt32 limit (layout.line (level + 1) ++
      (spelt layout (level + 1) (.ofNat c.maxBytesPerChar.toNat) ++
        (layout.line level ++ ']' :: rest))) =
        .ok (c.maxBytesPerChar, layout.line level ++ ']' :: rest) :=
    scansAs_readUInt32 c.maxBytesPerChar _ _ hline (by omega) hclose
  obtain ⟨first, more, hlist, hstart⟩ := exists_toString_int_eq_cons (c.id.toNat : Int)
  have hfirst : spelt layout (level + 1) (.ofNat c.id.toNat) = first :: more := by
    rw [ofNat, spelt, Number.text, hlist]
  rw [cells, spelt, speltItems, speltItems, speltItems, speltItems]
  unfold readEntry
  rw [skipBlanks_append hblanks, List.cons_append, skipBlanks_of_not_blank (by decide)]
  simp only [List.append_assoc, List.cons_append, List.nil_append]
  rw [hfirst] at hid ⊢
  rw [List.cons_append]
  unfold readArray
  rw [readPosition_zero hline hstart, ← List.cons_append, hid]
  simp only [bind, Except.bind, readPosition_succ, hname, hcharset, hwidth]
  rw [skipBlanks_append (layout.line_blank level), skipBlanks_of_not_blank (by decide)]
  rfl

/-! ### Catalogues -/

/-- Whether a value is a collation, as an object of its fields or as an array of them. -/
def Gives (v : Json) (c : Collation) : Prop :=
  (∃ given, v = .object given ∧ given.Perm c.fields) ∨ v = .array c.cells

theorem gives_toJson (c : Collation) : Gives c.toJson c :=
  .inl ⟨c.fields, rfl, .refl _⟩

theorem Gives.scansAs (h : Gives v c) : ScansAs (readEntry limit) layout limit level v c := by
  rcases h with ⟨given, rfl, hperm⟩ | rfl
  · exact readEntry_object hperm
  · exact readEntry_array c

theorem Gives.exact (h : Gives v c) : v.IsExact := by
  have hcells : ∀ cell ∈ c.cells, cell.IsExact := by
    simp [cells, IsExact.string, exact_ofUInt32]
  rcases h with ⟨given, rfl, hperm⟩ | rfl
  · refine .object ((hperm.map _).nodup_iff.mpr c.nodup_fields) fun field hfield => ?_
    exact hcells field.2 (List.mem_map_of_mem (hperm.mem_iff.mp hfield))
  · exact .array hcells

theorem exact_of_forall₂_gives {items : List Json} {entries : List Collation}
    (h : List.Forall₂ Gives items entries) : ∀ item ∈ items, item.IsExact := by
  induction h with
  | nil => exact List.forall_mem_nil _
  | cons hfirst _ ih => exact List.forall_mem_cons.mpr ⟨hfirst.exact, ih⟩

/-- Whether a text is one of some collations: an array of values that give them, in a layout and
with blanks around it. -/
def Spells (text : String) (entries : List Collation) : Prop :=
  ∃ items layout level before after, List.Forall₂ Gives items entries ∧
    (∀ c ∈ before, isBlank c = true) ∧ (∀ c ∈ after, isBlank c = true) ∧
    text.toList = before ++ (spelt layout level (.array items) ++ after)

/-- A text of some collations is read as their catalogue. -/
theorem Spells.read {text : String} {entries : List Collation} (h : Spells text entries) :
    Catalog.read text = .ok (.ofList entries) := by
  obtain ⟨items, layout, level, before, after, hgives, hbefore, hafter, htext⟩ := h
  have hlimit : (spelt layout level (.array items)).length < text.toList.length + 1 := by
    rw [htext, List.length_append, List.length_append]
    omega
  have hscans : List.Forall₂ (ScansAs (readEntry (text.toList.length + 1)) layout
      (text.toList.length + 1) (level + 1)) items entries := hgives.imp fun _ _ h => h.scansAs
  obtain ⟨inside, hinside, hitems⟩ := items_spelt (exact_of_forall₂_gives hgives) hscans hlimit
  have hend : skipBlanks after = [] := by
    rw [← List.append_nil after, skipBlanks_append hafter]
    rfl
  unfold Catalog.read
  dsimp only
  generalize text.toList.length + 1 = limit at hitems
  rw [htext, skipBlanks_append hbefore, hinside, List.cons_append,
    skipBlanks_of_not_blank (by decide)]
  simp only [hitems, complete, hend]
  rfl

end DictionaryDdl.Collation
