import DictionaryDdl.Proofs.Sdi.KeyValues
import DictionaryDdl.Proofs.Text.Trimming

/-!
How lists of pairs are written. Every text between semicolons is blank or holds one pair, with
blanks around the key and around the value. Such texts read as their pairs, in their order, and no
other texts read as those pairs. A value may have further equals signs, and keys and values may be
empty.
-/

namespace DictionaryDdl.Sdi

open Text (AllBlank IsTrimmed)

variable {text key value : String} {texts : List String} {pairs : List (String × String)}

/-- What can be read back as a key. -/
structure IsKey (key : String) : Prop where
  no_semicolon : ';' ∉ key.toList
  no_equals : '=' ∉ key.toList
  trimmed : IsTrimmed key.toList

/-- What can be read back as a value. -/
structure IsValue (value : String) : Prop where
  no_semicolon : ';' ∉ value.toList
  trimmed : IsTrimmed value.toList

/-- A text that holds a pair: the key, an equals sign and the value, with blanks around them. -/
def HoldsPair (text key value : String) : Prop :=
  ∃ a b c d : List Char, AllBlank a ∧ AllBlank b ∧ AllBlank c ∧ AllBlank d ∧
    text.toList = a ++ key.toList ++ b ++ '=' :: (c ++ value.toList ++ d)

/-- Texts that hold pairs, with any number of blank texts anywhere among them. -/
inductive ListsPairs : List String → List (String × String) → Prop
  | nil : ListsPairs [] []
  | blank {text : String} {texts : List String} {pairs : List (String × String)}
      (htext : AllBlank text.toList) (hrest : ListsPairs texts pairs) :
      ListsPairs (text :: texts) pairs
  | pair {text : String} {pair : String × String} {texts : List String}
      {pairs : List (String × String)}
      (htext : HoldsPair text pair.1 pair.2) (hrest : ListsPairs texts pairs) :
      ListsPairs (text :: texts) (pair :: pairs)

/-! ### One text -/

theorem keyValues_of_no_semicolon (h : ';' ∉ text.toList) :
    keyValues text =
      if Text.trim text.toList = [] then [] else [KeyValue.ofElement (Text.trim text.toList)] := by
  unfold keyValues
  rw [Text.pieces_of_not_mem h]
  by_cases hblank : Text.trim text.toList = []
  · simp [hblank]
  · simp [hblank, List.isEmpty_eq_false_iff.mpr hblank]

theorem keyValues_of_allBlank (h : AllBlank text.toList) : keyValues text = [] := by
  have hsemicolon : ';' ∉ text.toList := h.not_mem (by decide)
  rw [keyValues_of_no_semicolon hsemicolon, if_pos (Text.trim_eq_nil_iff.mpr h)]

theorem no_semicolon_of_holds (hkey : IsKey key) (hvalue : IsValue value)
    (h : HoldsPair text key value) : ';' ∉ text.toList := by
  obtain ⟨a, b, c, d, ha, hb, hc, hd, htext⟩ := h
  have hblank : Text.isBlank ';' = false := by decide
  simp [htext, ha.not_mem hblank, hb.not_mem hblank, hc.not_mem hblank, hd.not_mem hblank,
    hkey.no_semicolon, hvalue.no_semicolon]

/-- A pair is cut at its own equals sign, since neither the key nor a blank is one. -/
theorem ofElement_of_holds (hkey : IsKey key) (hvalue : IsValue value)
    (h : HoldsPair text key value) :
    Text.trim text.toList ≠ [] ∧ KeyValue.ofElement (Text.trim text.toList) = .pair key value := by
  obtain ⟨a, b, c, d, ha, hb, hc, hd, htext⟩ := h
  have hequals : Text.isBlank '=' = false := by decide
  have hbefore : '=' ∉ a ++ key.toList ++ b := by
    simp [ha.not_mem hequals, hb.not_mem hequals, hkey.no_equals]
  have hfront : '=' ∉ (a ++ key.toList ++ b).dropWhile Text.isBlank :=
    fun hmem => hbefore ((List.dropWhile_sublist _).mem hmem)
  rw [htext, Text.trim_append_cons hequals]
  refine ⟨by simp, ?_⟩
  rw [KeyValue.ofElement, Text.cutAt_append_cons hfront]
  dsimp only
  rw [Text.trim_dropWhile, Text.trim_trimEnd, Text.trim_padded ha hkey.trimmed hb,
    Text.trim_padded hc hvalue.trimmed hd, String.ofList_toList, String.ofList_toList]

theorem keyValues_of_holds (hkey : IsKey key) (hvalue : IsValue value)
    (h : HoldsPair text key value) : keyValues text = [.pair key value] := by
  obtain ⟨hsome, hpair⟩ := ofElement_of_holds hkey hvalue h
  rw [keyValues_of_no_semicolon (no_semicolon_of_holds hkey hvalue h), if_neg hsome, hpair]

/-- What a text is read as if its trimmed form is cut in two. -/
theorem holds_of_trim {before after : List Char}
    (htrim : Text.trim text.toList = before ++ '=' :: after) :
    HoldsPair text (String.ofList (Text.trim before)) (String.ofList (Text.trim after)) := by
  obtain ⟨a, d, ha, hd, htext⟩ := Text.exists_eq_append_trim text.toList
  obtain ⟨a', b, ha', hb, hbefore⟩ := Text.exists_eq_append_trim before
  obtain ⟨c, d', hc, hd', hafter⟩ := Text.exists_eq_append_trim after
  refine ⟨a ++ a', b, c, d' ++ d, ha.append ha', hb, hc, hd'.append hd, ?_⟩
  rw [String.toList_ofList, String.toList_ofList]
  calc text.toList
      = a ++ (before ++ '=' :: after) ++ d := by rw [← htrim, ← htext]
    _ = a ++ (a' ++ Text.trim before ++ b ++ '=' :: (c ++ Text.trim after ++ d')) ++ d := by
        rw [← hbefore, ← hafter]
    _ = a ++ a' ++ Text.trim before ++ b ++ '=' :: (c ++ Text.trim after ++ (d' ++ d)) := by
        simp only [List.append_assoc, List.cons_append]

theorem holds_of_ofElement (h : ';' ∉ text.toList)
    (hpair : KeyValue.ofElement (Text.trim text.toList) = .pair key value) :
    IsKey key ∧ IsValue value ∧ HoldsPair text key value := by
  unfold KeyValue.ofElement at hpair
  split at hpair
  · next before after hcut =>
      cases hpair
      obtain ⟨hequals, htrim⟩ := Text.eq_append_cons_of_cutAt hcut
      have hbefore : ∀ c ∈ before, c ∈ text.toList := by
        intro c hc
        apply Text.mem_of_mem_trim
        rw [htrim]
        exact List.mem_append_left _ hc
      have hafter : ∀ c ∈ after, c ∈ text.toList := by
        intro c hc
        apply Text.mem_of_mem_trim
        rw [htrim]
        exact List.mem_append_right _ (List.mem_cons_of_mem _ hc)
      refine ⟨⟨?_, ?_, ?_⟩, ⟨?_, ?_⟩, holds_of_trim htrim⟩
      all_goals rw [String.toList_ofList]
      · exact fun hmem => h (hbefore _ (Text.mem_of_mem_trim hmem))
      · exact fun hmem => hequals (Text.mem_of_mem_trim hmem)
      · exact Text.isTrimmed_trim before
      · exact fun hmem => h (hafter _ (Text.mem_of_mem_trim hmem))
      · exact Text.isTrimmed_trim after
  · cases hpair

/-! ### Several texts -/

theorem keyValues_joined_cons (text : String) (texts : List String) :
    keyValues (Text.joined ";" (text :: texts)) =
      keyValues text ++ keyValues (Text.joined ";" texts) := by
  cases texts with
  | nil =>
      have hnone : keyValues "" = [] := keyValues_of_allBlank (by decide)
      rw [Text.joined, Text.joined, hnone, List.append_nil]
  | cons next more => exact keyValues_append text (Text.joined ";" (next :: more))

theorem keyValues_of_lists (h : ListsPairs texts pairs)
    (hpairs : ∀ pair ∈ pairs, IsKey pair.1 ∧ IsValue pair.2) :
    keyValues (Text.joined ";" texts) = pairs.map fun pair => .pair pair.1 pair.2 := by
  induction h with
  | nil => exact keyValues_of_allBlank (by decide)
  | blank htext _ ih => rw [keyValues_joined_cons, keyValues_of_allBlank htext, ih hpairs,
      List.nil_append]
  | pair htext _ ih =>
      obtain ⟨hpair, hmore⟩ := List.forall_mem_cons.mp hpairs
      rw [keyValues_joined_cons, keyValues_of_holds hpair.1 hpair.2 htext, ih hmore]
      rfl

theorem lists_of_keyValues (htexts : ∀ text ∈ texts, ';' ∉ text.toList)
    (h : keyValues (Text.joined ";" texts) = pairs.map fun pair => .pair pair.1 pair.2) :
    (∀ pair ∈ pairs, IsKey pair.1 ∧ IsValue pair.2) ∧ ListsPairs texts pairs := by
  induction texts generalizing pairs with
  | nil =>
      cases pairs with
      | nil => exact ⟨fun pair hmem => absurd hmem List.not_mem_nil, .nil⟩
      | cons pair more => cases h
  | cons text more ih =>
      obtain ⟨htext, hmore⟩ := List.forall_mem_cons.mp htexts
      rw [keyValues_joined_cons, keyValues_of_no_semicolon htext] at h
      split at h
      · next hblank =>
          obtain ⟨hpairs, hrest⟩ := ih hmore h
          exact ⟨hpairs, .blank (Text.trim_eq_nil_iff.mp hblank) hrest⟩
      · cases pairs with
        | nil => cases h
        | cons pair rest =>
            obtain ⟨hfirst, hothers⟩ := List.cons.inj h
            obtain ⟨hkey, hvalue, hholds⟩ := holds_of_ofElement htext hfirst
            obtain ⟨hpairs, hrest⟩ := ih hmore hothers
            exact ⟨List.forall_mem_cons.mpr ⟨⟨hkey, hvalue⟩, hpairs⟩, .pair hholds hrest⟩

/-- A semicolon between two texts joins their elements, malformed ones included. And a text reads as
pairs, in their order and with nothing malformed, if, and only if, these are pairs of keys and
values and the text lists them with semicolons. -/
theorem keyValues_append_and_lists_iff :
    (∀ a b : String, keyValues (a ++ ";" ++ b) = keyValues a ++ keyValues b) ∧
      ∀ (text : String) (pairs : List (String × String)),
        keyValues text = pairs.map (fun pair => .pair pair.1 pair.2) ↔
          (∀ pair ∈ pairs, IsKey pair.1 ∧ IsValue pair.2) ∧
            ∃ texts, text = Text.joined ";" texts ∧ ListsPairs texts pairs := by
  refine ⟨keyValues_append, fun text pairs => ⟨?_, ?_⟩⟩
  · intro h
    have htext : text = Text.joined ";" ((Text.pieces ';' text.toList).map String.ofList) := by
      apply String.toList_injective
      exact (Text.joined_pieces (by decide) text.toList).symm
    have hpieces : ∀ part ∈ (Text.pieces ';' text.toList).map String.ofList, ';' ∉ part.toList := by
      intro part hpart
      obtain ⟨piece, hpiece, rfl⟩ := List.mem_map.mp hpart
      rw [String.toList_ofList]
      exact (Text.not_mem_of_mem_pieces hpiece).1
    rw [htext] at h
    obtain ⟨hpairs, hlists⟩ := lists_of_keyValues hpieces h
    exact ⟨hpairs, _, htext, hlists⟩
  · rintro ⟨hpairs, texts, rfl, hlists⟩
    exact keyValues_of_lists hlists hpairs

/-- Blanks and empty texts are passed over, and a value may have an equals sign. -/
example : keyValues ";\tautoinc = 17 ;; \x0c;=;version=a=b" =
    [.pair "autoinc" "17", .pair "" "", .pair "version" "a=b"] := by decide +kernel

end DictionaryDdl.Sdi
