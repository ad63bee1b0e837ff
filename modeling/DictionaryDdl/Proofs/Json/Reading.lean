import DictionaryDdl.Proofs.Json.Layouts
import DictionaryDdl.Proofs.Json.Ordering
import Mathlib.Data.List.Forall2

/-!
Values that are read back. A value without doubles, whose integers fit sixty-four bits and whose
objects have no two members of one name, is read from its text exactly, up to the order of the
members, whatever the layout; it must not be nested deeper than a reader goes. A value that was read
is one of these again, and the order of its members stays.
-/

namespace DictionaryDdl.Json

variable {layout : Layout} {limit fuel depth level : Nat} {v : Json} {c : Char} {name : String}
  {cs blanks after rest : List Char}

/-- Whether a value can be read back exactly. -/
inductive IsExact : Json → Prop
  | null : IsExact .null
  | bool (b : Bool) : IsExact (.bool b)
  | integer {n : Int} (fits : Fits n) : IsExact (.number (.integer n))
  | string (s : String) : IsExact (.string s)
  | array {items : List Json} (exact : ∀ item ∈ items, IsExact item) : IsExact (.array items)
  | object {members : List (String × Json)} (nodup : (members.map (·.1)).Nodup)
      (exact : ∀ member ∈ members, IsExact member.2) : IsExact (.object members)

theorem fits_ofUInt32 (n : UInt32) : Fits n.toNat := by
  have hsize : UInt64.size = 18446744073709551616 := rfl
  have hlt := n.toNat_lt
  constructor
  · omega
  · omega

theorem exact_ofUInt32 (n : UInt32) : (ofNat n.toNat).IsExact :=
  .integer (fits_ofUInt32 n)

theorem exact_ofUInt64 (n : UInt64) : (ofNat n.toNat).IsExact := by
  have hsize : UInt64.size = 18446744073709551616 := rfl
  have hlt := n.toNat_lt
  refine .integer ⟨?_, ?_⟩
  · omega
  · omega

/-! ### Blanks -/

theorem skipBlanks_append (h : ∀ c ∈ blanks, isBlank c = true) :
    skipBlanks (blanks ++ cs) = skipBlanks cs :=
  List.dropWhile_append_of_pos h

theorem skipBlanks_of_not_blank (h : isBlank c = false) : skipBlanks (c :: cs) = c :: cs :=
  List.dropWhile_cons_of_neg (by simp [h])

/-- A value is read behind blanks as without them. -/
theorem value_append (h : ∀ c ∈ blanks, isBlank c = true) :
    value limit depth (blanks ++ cs) = value limit depth cs := by
  unfold value
  rw [skipBlanks_append h]

theorem endsNumber_append (hblanks : ∀ c ∈ blanks, isBlank c = true)
    (h : EndsNumber (c :: rest)) : EndsNumber (blanks ++ c :: rest) := by
  cases blanks with
  | nil => exact h
  | cons blank more =>
      intro first hfirst
      obtain rfl : blank = first := Option.some.inj hfirst
      have hblank := hblanks blank List.mem_cons_self
      simp only [isBlank, Bool.or_eq_true, beq_iff_eq, or_assoc] at hblank
      rcases hblank with rfl | rfl | rfl | rfl
      all_goals decide

theorem endsNumber_cons (hdigit : Text.isDigit c = false) (hpoint : c ≠ '.') (hsmall : c ≠ 'e')
    (hlarge : c ≠ 'E') : EndsNumber (c :: rest) := by
  intro first hfirst
  obtain rfl : c = first := Option.some.inj hfirst
  exact ⟨hdigit, hpoint, hsmall, hlarge⟩

/-! ### Values without parts -/

theorem word_append (letters : List Char) : word letters (letters ++ rest) = .ok rest := by
  induction letters with
  | nil => rfl
  | cons letter more ih => rw [List.cons_append, word, if_pos rfl, ih]

theorem value_null : value limit depth ("null".toList ++ rest) = .ok (.null, rest) := by
  have hskip : skipBlanks ("null".toList ++ rest) = 'n' :: ("ull".toList ++ rest) := rfl
  unfold value
  rw [hskip]
  simp only [word_append]
  rfl

theorem value_bool (b : Bool) :
    value limit depth ((toString b).toList ++ rest) = .ok (.bool b, rest) := by
  cases b with
  | false =>
      have hskip : skipBlanks ((toString false).toList ++ rest) = 'f' :: ("alse".toList ++ rest) :=
        rfl
      unfold value
      rw [hskip]
      simp only [word_append]
      rfl
  | true =>
      have hskip : skipBlanks ((toString true).toList ++ rest) = 't' :: ("rue".toList ++ rest) :=
        rfl
      unfold value
      rw [hskip]
      simp only [word_append]
      rfl

theorem value_string (s : String) (h : (quoted s).toList.length < limit) :
    value limit depth ((quoted s).toList ++ rest) = .ok (.string s, rest) := by
  have hlength := length_lt_quoted s
  rw [toList_quoted, List.cons_append, List.append_assoc, List.singleton_append]
  unfold value
  rw [skipBlanks_of_not_blank (by decide)]
  simp only [scanString_quoted s (by omega : s.length < limit)]
  rfl

theorem not_blank_of_number (h : c = '-' ∨ Text.isDigit c = true) : isBlank c = false := by
  rw [Bool.eq_false_iff]
  intro hblank
  simp only [isBlank, Bool.or_eq_true, beq_iff_eq, or_assoc] at hblank
  rcases hblank with rfl | rfl | rfl | rfl
  all_goals exact absurd h (by decide)

theorem value_integer {n : Int} (hfits : Fits n) (hrest : EndsNumber rest) :
    value limit depth ((toString n).toList ++ rest) = .ok (.number (.integer n), rest) := by
  have hscan := scanNumber_toString hfits hrest
  obtain ⟨c, more, hlist, hstart⟩ := exists_toString_int_eq_cons n
  rw [hlist, List.cons_append] at hscan ⊢
  unfold value
  rw [skipBlanks_of_not_blank (not_blank_of_number hstart)]
  have hother (x : Char) (hx : ¬ (x = '-' ∨ Text.isDigit x = true)) : c ≠ x := by
    rintro rfl
    exact hx hstart
  split
  · rename_i heq
    cases heq
  · rename_i heq
    exact absurd (List.cons.inj heq).1 (hother _ (by decide))
  · rename_i heq
    exact absurd (List.cons.inj heq).1 (hother _ (by decide))
  · rename_i heq
    exact absurd (List.cons.inj heq).1 (hother _ (by decide))
  · rename_i heq
    exact absurd (List.cons.inj heq).1 (hother _ (by decide))
  · rename_i heq
    exact absurd (List.cons.inj heq).1 (hother _ (by decide))
  · rename_i heq
    exact absurd (List.cons.inj heq).1 (hother _ (by decide))
  · rename_i heq
    obtain ⟨rfl, rfl⟩ := List.cons.inj heq
    rw [if_pos hstart, hscan]
    rfl

/-! ### Arrays and objects -/

/-- Whether a value is read back from its text at any level. -/
def Reads (layout : Layout) (limit : Nat) (v : Json) : Prop :=
  ∀ level depth rest, v.depth ≤ depth → (spelt layout level v).length < limit → EndsNumber rest →
    value limit depth (spelt layout level v ++ rest) = .ok (v.ordered, rest)

/-- The text of a value starts with something else than a blank or the end of an array. -/
theorem exists_spelt_eq_cons (hexact : v.IsExact) :
    ∃ c more, spelt layout level v = c :: more ∧ isBlank c = false ∧ c ≠ ']' := by
  cases hexact with
  | null => exact ⟨'n', _, rfl, by decide, by decide⟩
  | bool b =>
      cases b with
      | false => exact ⟨'f', _, rfl, by decide, by decide⟩
      | true => exact ⟨'t', _, rfl, by decide, by decide⟩
  | @integer n fits =>
      obtain ⟨c, more, hlist, hstart⟩ := exists_toString_int_eq_cons n
      refine ⟨c, more, hlist, not_blank_of_number hstart, ?_⟩
      rintro rfl
      exact absurd hstart (by decide)
  | string s => exact ⟨'"', _, toList_quoted s, by decide, by decide⟩
  | @array items exact =>
      cases items with
      | nil => exact ⟨'[', _, rfl, by decide, by decide⟩
      | cons item more => exact ⟨'[', _, rfl, by decide, by decide⟩
  | @object members nodup exact =>
      cases members with
      | nil => exact ⟨'\x7b', _, rfl, by decide, by decide⟩
      | cons member more => exact ⟨'\x7b', _, rfl, by decide, by decide⟩

theorem endsNumber_items (items : List Json) (hblanks : ∀ c ∈ blanks, isBlank c = true) :
    EndsNumber (speltItems layout level items ++ (blanks ++ ']' :: rest)) := by
  cases items with
  | nil =>
      exact endsNumber_append hblanks
        (endsNumber_cons (by decide) (by decide) (by decide) (by decide))
  | cons item more => exact endsNumber_cons (by decide) (by decide) (by decide) (by decide)

theorem endsNumber_members (members : List (String × Json))
    (hblanks : ∀ c ∈ blanks, isBlank c = true) :
    EndsNumber (speltMembers layout level members ++ (blanks ++ '\x7d' :: rest)) := by
  cases members with
  | nil =>
      exact endsNumber_append hblanks
        (endsNumber_cons (by decide) (by decide) (by decide) (by decide))
  | cons item more => exact endsNumber_cons (by decide) (by decide) (by decide) (by decide)

/-- Whether a scanner reads a value out of its text at a level. -/
def ScansAs {α : Type} (scan : Scanner α) (layout : Layout) (limit level : Nat) (v : Json)
    (x : α) : Prop :=
  ∀ blanks rest, (∀ c ∈ blanks, isBlank c = true) → (spelt layout level v).length < limit →
    EndsNumber rest → scan (blanks ++ (spelt layout level v ++ rest)) = .ok (x, rest)

theorem Reads.scansAs (h : Reads layout limit v) (hdepth : v.depth ≤ depth) (level : Nat) :
    ScansAs (value limit depth) layout limit level v v.ordered := by
  intro blanks rest hblanks hlimit hrest
  rw [value_append hblanks]
  exact h level depth rest hdepth hlimit hrest

/-- The items after the first one. -/
theorem moreItems_spelt {α : Type} {scan : Scanner α} {items : List Json} {xs : List α}
    (hscans : List.Forall₂ (ScansAs scan layout limit level) items xs)
    (hfuel : (speltItems layout level items).length < fuel) (hlimit : fuel ≤ limit)
    (hblanks : ∀ c ∈ blanks, isBlank c = true) :
    moreItems scan fuel (speltItems layout level items ++ (blanks ++ ']' :: rest)) =
      .ok (xs, rest) := by
  induction hscans generalizing fuel with
  | nil =>
      obtain ⟨less, rfl⟩ := Nat.exists_eq_add_one_of_ne_zero (by omega : fuel ≠ 0)
      rw [speltItems, List.nil_append, moreItems, skipBlanks_append hblanks,
        skipBlanks_of_not_blank (by decide)]
      rfl
  | @cons item x more xs hscan _ ih =>
      rw [speltItems, List.length_cons, List.length_append, List.length_append] at hfuel
      obtain ⟨less, rfl⟩ := Nat.exists_eq_add_one_of_ne_zero (by omega : fuel ≠ 0)
      have hends : EndsNumber (speltItems layout level more ++ (blanks ++ ']' :: rest)) :=
        endsNumber_items more hblanks
      have hitem := hscan (layout.line level) _ (layout.line_blank level) (by omega) hends
      have hmore := ih (by omega : (speltItems layout level more).length < less) (by omega)
      rw [speltItems, List.cons_append, moreItems, skipBlanks_of_not_blank (by decide)]
      simp only [List.append_assoc]
      rw [hitem]
      simp only [bind, Except.bind, hmore]

theorem items_eq_ok {α : Type} {item : Scanner α} {x : α} {xs : List α}
    (hblanks : ∀ c ∈ blanks, isBlank c = true) (hblank : isBlank c = false) (hclose : c ≠ ']')
    (hitem : item (c :: cs) = .ok (x, after))
    (hmore : moreItems item limit after = .ok (xs, rest)) :
    items limit item (blanks ++ c :: cs) = .ok (x :: xs, rest) := by
  unfold items
  rw [skipBlanks_append hblanks, skipBlanks_of_not_blank hblank]
  split
  · rename_i heq
    exact absurd (List.cons.inj heq).1 hclose
  · rw [hitem]
    simp only [bind, Except.bind, hmore]

/-- The text of an array is a bracket and what its items are read from. -/
theorem items_spelt {α : Type} {scan : Scanner α} {items : List Json} {xs : List α}
    (hexact : ∀ item ∈ items, item.IsExact)
    (hscans : List.Forall₂ (ScansAs scan layout limit (level + 1)) items xs)
    (hlimit : (spelt layout level (.array items)).length < limit) :
    ∃ inside, spelt layout level (.array items) = '[' :: inside ∧
      ∀ rest, Json.items limit scan (inside ++ rest) = .ok (xs, rest) := by
  cases hscans with
  | nil => exact ⟨[']'], by rw [spelt], fun rest => rfl⟩
  | @cons item x more xs hscan hmore =>
      rw [List.forall_mem_cons] at hexact
      simp only [spelt, List.length_cons, List.length_append] at hlimit
      refine ⟨_, by rw [spelt], fun rest => ?_⟩
      obtain ⟨c, text, htext, hblank, hclose⟩ : ∃ c text,
          spelt layout (level + 1) item = c :: text ∧ isBlank c = false ∧ c ≠ ']' :=
        exists_spelt_eq_cons hexact.1
      have hends : EndsNumber (speltItems layout (level + 1) more ++
          (layout.line level ++ ']' :: rest)) := endsNumber_items more (layout.line_blank level)
      have hitem := hscan [] _ (List.forall_mem_nil _) (by omega) hends
      have hitems : moreItems scan limit
          (speltItems layout (level + 1) more ++ (layout.line level ++ ']' :: rest)) =
            .ok (xs, rest) :=
        moreItems_spelt hmore (by omega) (Nat.le_refl limit) (layout.line_blank level)
      simp only [List.append_assoc, List.singleton_append, List.nil_append] at hitem ⊢
      rw [htext, List.cons_append] at hitem ⊢
      exact items_eq_ok (layout.line_blank (level + 1)) hblank hclose hitem hitems

/-- An array is read from its items. -/
theorem reads_array {items : List Json} (hexact : ∀ item ∈ items, item.IsExact)
    (hreads : ∀ item ∈ items, Reads layout limit item) : Reads layout limit (.array items) := by
  intro level depth rest hdepth hlimit hrest
  cases depth with
  | zero => exact absurd hdepth (by simp [Json.depth])
  | succ inner =>
      rw [Json.depth, Nat.add_le_add_iff_right, depthOfItems_le_iff] at hdepth
      have hscans : List.Forall₂ (ScansAs (value limit inner) layout limit (level + 1)) items
          (items.map Json.ordered) := by
        rw [List.forall₂_map_right_iff, List.forall₂_same]
        intro item hitem
        exact (hreads item hitem).scansAs (hdepth item hitem) (level + 1)
      obtain ⟨inside, hinside, hitems⟩ := items_spelt hexact hscans hlimit
      unfold value
      rw [hinside, List.cons_append, skipBlanks_of_not_blank (by decide)]
      simp only [hitems, bind, Except.bind]
      rw [Json.ordered, orderedItems_eq_map]

/-- The name of a member starts behind its opening quote. -/
theorem nameQuote_quoted (hblanks : ∀ c ∈ blanks, isBlank c = true) :
    nameQuote (blanks ++ ((quoted name).toList ++ cs)) =
      .ok ((name.toList.flatMap fun c => (escapedChar c).toList) ++ '"' :: cs) := by
  rw [toList_quoted, List.cons_append, List.append_assoc, List.singleton_append, nameQuote,
    skipBlanks_append hblanks, skipBlanks_of_not_blank (by decide)]
  rfl

theorem colon_cons : colon (':' :: cs) = .ok cs := by
  rw [colon, skipBlanks_of_not_blank (by decide)]
  rfl

/-- A member is read from its name and its value. -/
theorem member_spelt {value : Json} (hreads : Reads layout limit value)
    (hdepth : value.depth ≤ depth)
    (hlimit : (quoted name).toList.length + (spelt layout level value).length < limit)
    (hblanks : ∀ c ∈ blanks, isBlank c = true) (hrest : EndsNumber rest) :
    member limit (Json.value limit depth) (blanks ++ ((quoted name).toList ++
        ':' :: (layout.gap ++ (spelt layout level value ++ rest)))) =
      .ok ((name, value.ordered), rest) := by
  have hlength := length_lt_quoted name
  have hname : name.length < limit := by omega
  have hvalue := hreads level depth rest hdepth (by omega) hrest
  unfold member
  rw [nameQuote_quoted hblanks]
  simp only [bind, Except.bind, scanString_quoted name hname, colon_cons,
    value_append layout.gap_blank, hvalue]

/-- The members after the first one. -/
theorem moreMembers_speltMembers {members : List (String × Json)}
    (hreads : ∀ member ∈ members, Reads layout limit member.2)
    (hdepth : ∀ member ∈ members, member.2.depth ≤ depth)
    (hfuel : (speltMembers layout level members).length < fuel) (hlimit : fuel ≤ limit)
    (hblanks : ∀ c ∈ blanks, isBlank c = true) :
    moreMembers (member limit (value limit depth)) fuel
        (speltMembers layout level members ++ (blanks ++ '\x7d' :: rest)) =
      .ok (orderedMembers members, rest) := by
  induction members generalizing fuel with
  | nil =>
      obtain ⟨less, rfl⟩ := Nat.exists_eq_add_one_of_ne_zero (by omega : fuel ≠ 0)
      rw [speltMembers, List.nil_append, moreMembers, skipBlanks_append hblanks,
        skipBlanks_of_not_blank (by decide)]
      rfl
  | cons first more ih =>
      obtain ⟨name, inner⟩ := first
      rw [List.forall_mem_cons] at hreads hdepth
      simp only [speltMembers, List.length_cons, List.length_append] at hfuel
      obtain ⟨less, rfl⟩ := Nat.exists_eq_add_one_of_ne_zero (by omega : fuel ≠ 0)
      have hends : EndsNumber (speltMembers layout level more ++ (blanks ++ '\x7d' :: rest)) :=
        endsNumber_members more hblanks
      have hmember := member_spelt hreads.1 hdepth.1
        (by omega : (quoted name).toList.length + (spelt layout level inner).length < limit)
        (layout.line_blank level) hends
      have hmore := ih hreads.2 hdepth.2
        (by omega : (speltMembers layout level more).length < less) (by omega)
      rw [speltMembers, List.cons_append, moreMembers, skipBlanks_of_not_blank (by decide)]
      simp only [List.append_assoc, List.cons_append]
      rw [hmember]
      simp only [bind, Except.bind, hmore]
      rfl

theorem members_eq_ok {member : Scanner (String × Json)} {x : String × Json}
    {xs : List (String × Json)} (hblanks : ∀ c ∈ blanks, isBlank c = true)
    (hmember : member ('"' :: cs) = .ok (x, after))
    (hmore : moreMembers member limit after = .ok (xs, rest)) :
    members limit member (blanks ++ '"' :: cs) = .ok (x :: xs, rest) := by
  unfold members
  rw [skipBlanks_append hblanks, skipBlanks_of_not_blank (by decide)]
  split
  · rename_i heq
    exact absurd (List.cons.inj heq).1 (by decide)
  · rw [hmember]
    simp only [bind, Except.bind, hmore]

/-- An object is read from its members. -/
theorem reads_object {members : List (String × Json)}
    (hreads : ∀ member ∈ members, Reads layout limit member.2) :
    Reads layout limit (.object members) := by
  intro level depth rest hdepth hlimit hrest
  cases depth with
  | zero => exact absurd hdepth (by simp [Json.depth])
  | succ inner =>
      rw [Json.depth, Nat.add_le_add_iff_right, depthOfMembers_le_iff] at hdepth
      unfold value
      cases members with
      | nil => rfl
      | cons first more =>
          obtain ⟨name, found⟩ := first
          rw [List.forall_mem_cons] at hreads hdepth
          simp only [spelt, List.length_cons, List.length_append] at hlimit
          have hends : EndsNumber (speltMembers layout (level + 1) more ++
              (layout.line level ++ '\x7d' :: rest)) :=
            endsNumber_members more (layout.line_blank level)
          have hmore : moreMembers (member limit (value limit inner)) limit
              (speltMembers layout (level + 1) more ++ (layout.line level ++ '\x7d' :: rest)) =
                .ok (orderedMembers more, rest) :=
            moreMembers_speltMembers hreads.2 hdepth.2 (by omega) (Nat.le_refl limit)
              (layout.line_blank level)
          have hlength : (quoted name).toList.length +
              (spelt layout (level + 1) found).length < limit := by omega
          have hmember := member_spelt hreads.1 hdepth.1 hlength (List.forall_mem_nil _) hends
          obtain ⟨cs, hquote⟩ : ∃ cs, (quoted name).toList = '"' :: cs := ⟨_, toList_quoted name⟩
          rw [spelt, List.cons_append, skipBlanks_of_not_blank (by decide)]
          simp only [List.append_assoc, List.cons_append, List.nil_append] at hmember ⊢
          rw [hquote, List.cons_append] at hmember ⊢
          rw [members_eq_ok (layout.line_blank (level + 1)) hmember hmore]
          rfl

/-- An exact value is read back up to the order of its members. -/
theorem IsExact.reads (h : v.IsExact) (layout : Layout) (limit : Nat) : Reads layout limit v := by
  induction h with
  | null => exact fun _ _ _ _ _ _ => value_null
  | bool b => exact fun _ _ _ _ _ _ => value_bool b
  | integer fits => exact fun _ _ _ _ _ hrest => value_integer fits hrest
  | string s => exact fun _ _ _ _ hlimit _ => value_string s hlimit
  | array exact ih => exact reads_array exact ih
  | object nodup exact ih => exact reads_object ih

theorem parse_spelt (h : v.IsExact) (hdepth : v.depth ≤ maxDepth) {text : String}
    (htext : text.toList = spelt layout level v) : parse text = .ok v.ordered := by
  have hends : EndsNumber [] := fun c hc => absurd hc (by simp)
  have hread := h.reads layout (text.toList.length + 1) level maxDepth [] hdepth
    (by rw [htext]; omega) hends
  rw [← htext, List.append_nil] at hread
  change complete (value (text.toList.length + 1) maxDepth text.toList) = _
  rw [hread]
  rfl

/-- What is written without blanks is read back. -/
theorem parse_compact (h : v.IsExact) (hdepth : v.depth ≤ maxDepth) :
    parse v.compact = .ok v.ordered :=
  parse_spelt h hdepth (toList_compact v 0)

/-- What is written on several lines is read back. -/
theorem parse_pretty (h : v.IsExact) (hdepth : v.depth ≤ maxDepth) :
    parse v.pretty = .ok v.ordered :=
  parse_spelt h hdepth (toList_prettyAt v 0)

/-! ### Members of exact values -/

theorem IsExact.of_get? {inner : Json} (h : v.IsExact) (hget : v.get? name = some inner) :
    inner.IsExact := by
  cases h with
  | object nodup exact =>
      obtain ⟨before, after, rfl, -⟩ := List.lookup_eq_some_iff.mp hget
      exact exact (name, inner) (by simp)
  | _ => cases hget

theorem IsExact.get?_ordered (h : v.IsExact) (name : String) :
    v.ordered.get? name = (v.get? name).map Json.ordered := by
  cases h with
  | object nodup exact => exact Json.get?_ordered rfl nodup name
  | _ => rfl

/-! ### Values that were read -/

theorem ordered_ordered (h : v.IsExact) : v.ordered.ordered = v.ordered := by
  induction h with
  | null => rfl
  | bool b => rfl
  | integer fits => rfl
  | string s => rfl
  | @array items exact ih =>
      rw [ordered, orderedItems_eq_map, ordered, orderedItems_eq_map, List.map_map]
      exact congrArg Json.array (List.map_congr_left ih)
  | @object members nodup exact ih =>
      have hmembers : orderedMembers (sortedMembers (orderedMembers members)) =
          sortedMembers (orderedMembers members) := by
        rw [orderedMembers_eq_map (sortedMembers _)]
        refine (List.map_congr_left fun member hmember => ?_).trans (List.map_id _)
        have hfound := mem_sortedMembers hmember
        rw [orderedMembers_eq_map] at hfound
        obtain ⟨⟨name, inner⟩, hinner, rfl⟩ := List.mem_map.mp hfound
        exact Prod.ext rfl (ih _ hinner)
      rw [ordered, ofMembers, ordered, ofMembers, hmembers,
        sortedMembers_of_pairwise (pairwise_sortedMembers _)]

theorem IsExact.ordered (h : v.IsExact) : v.ordered.IsExact := by
  induction h with
  | null => exact .null
  | bool b => exact .bool b
  | integer fits => exact .integer fits
  | string s => exact .string s
  | @array items exact ih =>
      rw [Json.ordered, orderedItems_eq_map]
      exact .array (List.forall_mem_map.mpr ih)
  | @object members nodup exact ih =>
      rw [Json.ordered, ofMembers]
      refine .object (nodup_sortedMembers _) fun member hmember => ?_
      have hfound := mem_sortedMembers hmember
      rw [orderedMembers_eq_map] at hfound
      obtain ⟨⟨name, inner⟩, hinner, rfl⟩ := List.mem_map.mp hfound
      exact ih _ hinner

theorem depth_ordered_le (h : v.IsExact) : v.ordered.depth ≤ v.depth := by
  induction h with
  | null => exact Nat.le_refl _
  | bool b => exact Nat.le_refl _
  | integer fits => exact Nat.le_refl _
  | string s => exact Nat.le_refl _
  | @array items exact ih =>
      have hitems := depthOfItems_le_iff.mp (Nat.le_refl (depthOfItems items))
      rw [Json.ordered, orderedItems_eq_map, depth, depth, Nat.add_le_add_iff_right,
        depthOfItems_le_iff]
      exact List.forall_mem_map.mpr fun item hitem => (ih item hitem).trans (hitems item hitem)
  | @object members nodup exact ih =>
      have hmembers := depthOfMembers_le_iff.mp (Nat.le_refl (depthOfMembers members))
      rw [Json.ordered, ofMembers, depth, depth, Nat.add_le_add_iff_right, depthOfMembers_le_iff]
      intro member hmember
      have hfound := mem_sortedMembers hmember
      rw [orderedMembers_eq_map] at hfound
      obtain ⟨⟨name, inner⟩, hinner, rfl⟩ := List.mem_map.mp hfound
      exact (ih _ hinner).trans (hmembers _ hinner)

end DictionaryDdl.Json
