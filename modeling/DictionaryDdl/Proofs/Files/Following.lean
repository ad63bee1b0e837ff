import DictionaryDdl.Proofs.Files.Locations

/-!
Where a path leads in a tree. A path that leads anywhere leads to a folder with all its pieces but
the last one, and from there one step on; what it leads to stays what it is when the tree grows.
Whether a path is followed at all depends on its text alone.
-/

namespace DictionaryDdl

/-- A path whose text can be followed in some tree. -/
structure Path.IsLegal (path : Path) : Prop where
  ne_empty : path.text ≠ ""
  no_nul : '\x00' ∉ path.text.toList
  short : path.text.utf8ByteSize ≤ Tree.longestPath

instance (path : Path) : Decidable path.IsLegal :=
  decidable_of_iff (path.text ≠ "" ∧ '\x00' ∉ path.text.toList ∧
      path.text.utf8ByteSize ≤ Tree.longestPath)
    ⟨fun h => ⟨h.1, h.2.1, h.2.2⟩, fun h => ⟨h.ne_empty, h.no_nul, h.short⟩⟩

theorem Text.strictText?_octets (text : String) :
    Text.strictText? (Text.octets text) = some text := by
  unfold Text.strictText? Text.octets String.fromUTF8?
  rw [String.toUTF8_eq_toByteArray, dif_pos text.isValidUTF8]
  rfl

theorem Text.lenientText_octets (text : String) : Text.lenientText (Text.octets text) = text := by
  rw [Text.lenientText, Text.strictText?_octets]

/-- The path that goes down from another one by some names. -/
def Path.below (base : Path) (names : List String) : Path :=
  names.foldl Path.join base

namespace Tree

variable {top before after : Tree} {here pieces rest location names : List String}
  {name piece : String}
  {path base : Path} {entries : List (String × Tree)} {content : ByteArray} {found : Place}
  {node : Tree}

/-! ### Pieces -/

theorem follow_cons_of_folder (h : top.at? here.reverse = some (.folder entries)) :
    follow top here (piece :: rest) =
      if piece = "" ∨ piece = "." then follow top here rest
      else if piece = ".." then follow top here.tail rest
      else if longestName < piece.utf8ByteSize then .error .invalidFilename
      else if (entries.lookup piece).isSome then follow top (piece :: here) rest
      else if rest.isEmpty then .ok (.free (piece :: here).reverse)
      else .error .notFound := by
  simp [follow, h]

theorem folder_of_follow_cons (h : follow top here (piece :: rest) = .ok found) :
    ∃ entries, top.at? here.reverse = some (.folder entries) := by
  unfold follow at h
  split at h
  · cases h
  · cases h
  · exact ⟨_, ‹_›⟩

theorem follow_nil_eq_ok :
    follow top here [] = .ok found ↔
      ∃ node, top.at? here.reverse = some node ∧ found = .taken here.reverse node := by
  unfold follow
  cases top.at? here.reverse with
  | none => simp
  | some node => simp [eq_comm]

/-- What a path is found to lead to stands there. -/
theorem at?_of_follow (h : follow top here pieces = .ok (.taken location node)) :
    top.at? location = some node := by
  induction pieces generalizing here with
  | nil =>
      obtain ⟨child, hchild, hfound⟩ := follow_nil_eq_ok.mp h
      cases hfound
      exact hchild
  | cons piece rest ih =>
      obtain ⟨entries, hhere⟩ := folder_of_follow_cons h
      rw [follow_cons_of_folder hhere] at h
      split_ifs at h
      · exact ih h
      · exact ih h
      · exact ih h
      · cases h

/-- The pieces of a path may be followed in two parts. -/
theorem follow_append (h : follow top here pieces = .ok (.taken location (.folder entries))) :
    follow top here (pieces ++ rest) = follow top location.reverse rest := by
  induction pieces generalizing here with
  | nil =>
      obtain ⟨child, -, hfound⟩ := follow_nil_eq_ok.mp h
      cases hfound
      rw [List.nil_append, List.reverse_reverse]
  | cons piece more ih =>
      obtain ⟨found, hhere⟩ := folder_of_follow_cons h
      rw [follow_cons_of_folder hhere] at h
      rw [List.cons_append, follow_cons_of_folder hhere]
      split_ifs at h ⊢ with hstay hup hlong hsome hlast
      · exact ih h
      · exact ih h
      · exact ih h
      · cases h
      · cases h

/-- A path that leads anywhere leads to a folder with the pieces before its last ones. -/
theorem folder_of_follow_append (h : follow top here (pieces ++ rest) = .ok found)
    (hrest : rest ≠ []) :
    ∃ location entries, follow top here pieces = .ok (.taken location (.folder entries)) ∧
      follow top location.reverse rest = .ok found := by
  induction pieces generalizing here with
  | nil =>
      obtain ⟨first, more, rfl⟩ := List.exists_cons_of_ne_nil hrest
      obtain ⟨entries, hhere⟩ := folder_of_follow_cons h
      refine ⟨here.reverse, entries, follow_nil_eq_ok.mpr ⟨_, hhere, rfl⟩, ?_⟩
      rwa [List.reverse_reverse]
  | cons piece more ih =>
      rw [List.cons_append] at h
      obtain ⟨entries, hhere⟩ := folder_of_follow_cons h
      rw [follow_cons_of_folder hhere] at h ⊢
      have hmore : (more ++ rest).isEmpty = false := by simp [hrest]
      simp only [hmore, Bool.false_eq_true, if_false] at h
      split_ifs at h ⊢ with hstay hup hlong hsome
      · exact ih h
      · exact ih h
      · exact ih h

/-- One more step from a folder. -/
theorem follow_singleton_eq_ok (hlocation : top.at? location = some (.folder entries))
    (hempty : name ≠ "") (hhere : name ≠ ".") (hup : name ≠ "..") :
    follow top location.reverse [name] = .ok found ↔
      name.utf8ByteSize ≤ longestName ∧
        found = match entries.lookup name with
          | some node => .taken (location ++ [name]) node
          | none => .free (location ++ [name]) := by
  have hplace : top.at? location.reverse.reverse = some (.folder entries) := by
    rwa [List.reverse_reverse]
  rw [follow_cons_of_folder hplace, if_neg (by simp [hempty, hhere]), if_neg hup]
  by_cases hlong : longestName < name.utf8ByteSize
  · simp [hlong, Nat.not_le.mpr hlong]
  · rw [if_neg hlong, and_iff_right (Nat.le_of_not_lt hlong)]
    cases hname : entries.lookup name with
    | none => simp [eq_comm]
    | some node =>
        have hnode : top.at? (location ++ [name]) = some node := by
          simp [at?_append, hlocation, at?, hname]
        simp [follow, hnode, eq_comm]

/-- A path that leads to a free place leads to a folder with all pieces but the last one, and that
is a name that the folder does not have. -/
theorem follow_eq_free (h : follow top here pieces = .ok (.free location)) :
    ∃ before name above entries, pieces = before ++ [name] ∧ location = above ++ [name] ∧
      follow top here before = .ok (.taken above (.folder entries)) ∧
      entries.lookup name = none ∧ name ≠ "" ∧ name ≠ "." ∧ name ≠ ".." ∧
      name.utf8ByteSize ≤ longestName := by
  rcases List.eq_nil_or_concat pieces with rfl | ⟨before, name, rfl⟩
  · obtain ⟨node, -, hfound⟩ := follow_nil_eq_ok.mp h
    cases hfound
  · rw [List.concat_eq_append] at h
    obtain ⟨above, entries, habove, hlast⟩ := folder_of_follow_append h (by simp)
    have hfolder : top.at? above.reverse.reverse = some (.folder entries) := by
      rw [List.reverse_reverse]
      exact at?_of_follow habove
    refine ⟨before, name, above, entries, by simp, ?_⟩
    rw [follow_cons_of_folder hfolder] at hlast
    split_ifs at hlast with hstay hup hlong hsome
    · obtain ⟨node, -, hfound⟩ := follow_nil_eq_ok.mp hlast
      cases hfound
    · obtain ⟨node, -, hfound⟩ := follow_nil_eq_ok.mp hlast
      cases hfound
    · obtain ⟨node, -, hfound⟩ := follow_nil_eq_ok.mp hlast
      cases hfound
    · cases hlast
      rw [not_or] at hstay
      exact ⟨by simp, habove, Option.not_isSome_iff_eq_none.mp hsome, hstay.1, hstay.2, hup,
        Nat.le_of_not_lt hlong⟩

theorem kindAt_of_follow_free (h : follow top here pieces = .ok (.free location)) :
    top.kindAt location = none := by
  obtain ⟨before, name, above, entries, -, rfl, habove, hname, -⟩ := follow_eq_free h
  rw [kindAt_entry (at?_of_follow habove), hname, Option.map_none]

theorem room_of_follow_free (hplain : ∀ piece ∈ pieces, '/' ∉ piece.toList ∧ '\x00' ∉ piece.toList)
    (h : follow top here pieces = .ok (.free location)) : top.Room location := by
  obtain ⟨before, name, above, entries, hpieces, hlocation, habove, -, hempty, hhere, hup,
    hshort⟩ :=
    follow_eq_free h
  obtain ⟨hslash, hnul⟩ := hplain name (by simp [hpieces])
  refine ⟨above, name, hlocation, kindAt_eq_folder.mpr ⟨entries, at?_of_follow habove⟩, ?_,
    fun _ => ⟨⟨hempty, hhere, hup, hslash⟩, hnul, hshort⟩⟩
  simp [kindAt_of_follow_free h]

/-- Above a file that a path leads to there is a folder. -/
theorem room_of_follow_file (hpieces : pieces ≠ [])
    (h : follow top here pieces = .ok (.taken location (.file content))) : top.Room location := by
  obtain ⟨piece, rest, rfl⟩ := List.exists_cons_of_ne_nil hpieces
  obtain ⟨entries, hhere⟩ := folder_of_follow_cons h
  have hfile := at?_of_follow h
  refine room_of_file hfile ?_
  rintro rfl
  obtain rfl : top = .file content := Option.some.inj hfile
  cases hreverse : here.reverse with
  | nil => simp [hreverse, at?] at hhere
  | cons name more => simp [hreverse, at?] at hhere

/-- Empty pieces and those that stay in place may be left out, but for the last ones. -/
theorem follow_skip (hpiece : piece = "" ∨ piece = ".") (hrest : rest ≠ []) :
    follow top here (pieces ++ piece :: rest) = follow top here (pieces ++ rest) := by
  have hstay (here : List String) : follow top here (piece :: rest) = follow top here rest := by
    obtain ⟨first, more, rfl⟩ := List.exists_cons_of_ne_nil hrest
    cases hhere : top.at? here.reverse with
    | none => simp [follow, hhere]
    | some node =>
        cases node with
        | file content => simp [follow, hhere]
        | folder entries => rw [follow_cons_of_folder hhere, if_pos hpiece]
  induction pieces generalizing here with
  | nil => exact hstay here
  | cons first more ih =>
      have hmore : (more ++ piece :: rest).isEmpty = (more ++ rest).isEmpty := by
        rw [Bool.eq_iff_iff]
        simp [hrest]
      rw [List.cons_append, List.cons_append]
      cases hhere : top.at? here.reverse with
      | none => simp [follow, hhere]
      | some node =>
          cases node with
          | file content => simp [follow, hhere]
          | folder entries => simp only [follow_cons_of_folder hhere, ih, hmore]

/-- What a path leads to stays what it is when a tree grows. -/
theorem follow_of_grown
    (hgrown : ∀ location kind, before.kindAt location = some kind →
      after.kindAt location = some kind)
    (h : follow before here pieces = .ok (.taken location node)) :
    ∃ child, follow after here pieces = .ok (.taken location child) ∧ child.kind = node.kind := by
  have hfolder (place : List String) (entries : List (String × Tree))
      (hplace : before.at? place = some (.folder entries)) :
      ∃ entries, after.at? place = some (.folder entries) :=
    kindAt_eq_folder.mp (hgrown _ _ (kindAt_eq_folder.mpr ⟨entries, hplace⟩))
  induction pieces generalizing here with
  | nil =>
      obtain ⟨found, hfound, hplace⟩ := follow_nil_eq_ok.mp h
      cases hplace
      have hkind : after.kindAt here.reverse = some node.kind :=
        hgrown _ _ (by simp [kindAt, hfound])
      obtain ⟨child, hchild, hsame⟩ := Option.map_eq_some_iff.mp hkind
      exact ⟨child, follow_nil_eq_ok.mpr ⟨child, hchild, rfl⟩, hsame⟩
  | cons piece rest ih =>
      obtain ⟨entries, hhere⟩ := folder_of_follow_cons h
      obtain ⟨entries', hhere'⟩ := hfolder _ _ hhere
      rw [follow_cons_of_folder hhere] at h
      rw [follow_cons_of_folder hhere']
      split_ifs at h with hstay hup hlong hsome hlast
      · rw [if_pos hstay]
        exact ih h
      · rw [if_neg hstay, if_pos hup]
        exact ih h
      · have hsome' : (entries'.lookup piece).isSome := by
          obtain ⟨child, hchild⟩ := Option.isSome_iff_exists.mp hsome
          have hkind : after.kindAt (here.reverse ++ [piece]) = some child.kind :=
            hgrown _ _ (by rw [kindAt_entry hhere, hchild, Option.map_some])
          rw [kindAt_entry hhere', Option.map_eq_some_iff] at hkind
          obtain ⟨other, hother, -⟩ := hkind
          exact Option.isSome_iff_exists.mpr ⟨other, hother⟩
        rw [if_neg hstay, if_neg hup, if_neg hlong, if_pos hsome']
        exact ih h
      · cases h

/-! ### Paths -/

theorem checkText_eq_ok : checkText path = .ok () ↔ path.IsLegal := by
  unfold checkText
  constructor
  · intro h
    split_ifs at h with hempty hnul hlong
    refine ⟨?_, ?_, Nat.le_of_not_lt hlong⟩
    · simpa using hempty
    · simpa using hnul
  · intro hlegal
    have hempty : ¬ path.text.isEmpty = true := by simpa using hlegal.ne_empty
    have hnul : ¬ path.text.toList.contains '\x00' = true := by simpa using hlegal.no_nul
    rw [if_neg hempty, if_neg hnul, if_neg (Nat.not_lt.mpr hlegal.short)]

/-- A path that cannot be followed for its text fails in the same way everywhere. -/
theorem exists_checkText_eq_error (h : ¬ path.IsLegal) :
    ∃ reason, checkText path = .error reason := by
  cases hcheck : checkText path with
  | ok _ => exact absurd (checkText_eq_ok.mp hcheck) h
  | error reason => exact ⟨reason, rfl⟩

theorem place_of_legal (h : path.IsLegal) : top.place path = follow top [] path.pieces := by
  unfold place
  rw [checkText_eq_ok.mpr h]
  rfl

theorem place_eq_ok :
    top.place path = .ok found ↔ path.IsLegal ∧ follow top [] path.pieces = .ok found := by
  by_cases hlegal : path.IsLegal
  · rw [place_of_legal hlegal, and_iff_right hlegal]
  · obtain ⟨reason, hreason⟩ := exists_checkText_eq_error hlegal
    simp [place, hreason, bind, Except.bind, hlegal]

theorem at?_of_place (h : top.place path = .ok (.taken location node)) :
    top.at? location = some node :=
  at?_of_follow (place_eq_ok.mp h).2

theorem room_of_place_file (h : top.place path = .ok (.taken location (.file content))) :
    top.Room location :=
  room_of_follow_file (Path.pieces_ne_nil path) (place_eq_ok.mp h).2

theorem isFolder_iff :
    top.isFolder path = true ↔
      ∃ location entries, top.place path = .ok (.taken location (.folder entries)) := by
  unfold isFolder Tree.node
  cases h : top.place path with
  | error reason => simp [bind, Except.bind]
  | ok found =>
      cases found with
      | free location => simp [bind, Except.bind]
      | taken location node => cases node <;> simp [bind, Except.bind]

theorem entriesAt_eq_ok :
    top.entriesAt path = .ok entries ↔
      ∃ location, top.place path = .ok (.taken location (.folder entries)) := by
  unfold entriesAt Tree.node
  cases h : top.place path with
  | error reason => simp [bind, Except.bind]
  | ok found =>
      cases found with
      | free location => simp [bind, Except.bind]
      | taken location node => cases node <;> simp [bind, Except.bind]

theorem readBytes_eq_ok :
    top.readBytes path = .ok content ↔
      ∃ location, top.place path = .ok (.taken location (.file content)) := by
  unfold readBytes Tree.node
  cases h : top.place path with
  | error reason => simp [bind, Except.bind]
  | ok found =>
      cases found with
      | free location => simp [bind, Except.bind]
      | taken location node => cases node <;> simp [bind, Except.bind]

/-- The content of a file is decided by where its path leads. -/
theorem readBytes_congr (h : follow before [] path.pieces = follow after [] path.pieces) :
    before.readBytes path = after.readBytes path := by
  unfold readBytes Tree.node place
  rw [h]

/-- A path that cannot be followed for its text is read in the same way everywhere. -/
theorem readBytes_of_not_legal (h : ¬ path.IsLegal) (before after : Tree) :
    before.readBytes path = after.readBytes path := by
  obtain ⟨reason, hreason⟩ := exists_checkText_eq_error h
  unfold readBytes Tree.node place
  rw [hreason]
  rfl

theorem readText_of_place (h : top.place path = .ok (.taken location (.file content))) :
    top.readText path = match Text.strictText? content with
      | some text => .ok text
      | none => .error .invalidData := by
  unfold readText
  rw [readBytes_eq_ok.mpr ⟨location, h⟩]
  rfl

theorem readText_of_readBytes {text : String}
    (h : top.readBytes path = .ok (Text.octets text)) : top.readText path = .ok text := by
  obtain ⟨location, hplace⟩ := readBytes_eq_ok.mp h
  rw [readText_of_place hplace, Text.strictText?_octets]

theorem readText_eq_ok {text : String} :
    top.readText path = .ok text ↔ ∃ location content,
      top.place path = .ok (.taken location (.file content)) ∧
        Text.strictText? content = some text := by
  constructor
  · intro h
    cases hbytes : top.readBytes path with
    | error reason => simp [readText, hbytes, bind, Except.bind] at h
    | ok content =>
        obtain ⟨location, hplace⟩ := readBytes_eq_ok.mp hbytes
        rw [readText_of_place hplace] at h
        refine ⟨location, content, hplace, ?_⟩
        cases hstrict : Text.strictText? content with
        | none => simp [hstrict] at h
        | some found => simpa [hstrict] using h
  · rintro ⟨location, content, hplace, hstrict⟩
    rw [readText_of_place hplace, hstrict]

theorem place_of_grown {touched : List String → Prop} (hgrown : Grown touched before after)
    (h : before.place path = .ok (.taken location node)) :
    ∃ child, after.place path = .ok (.taken location child) ∧ child.kind = node.kind := by
  obtain ⟨hlegal, hfollow⟩ := place_eq_ok.mp h
  obtain ⟨child, hchild, hkind⟩ := follow_of_grown hgrown.kinds hfollow
  exact ⟨child, place_eq_ok.mpr ⟨hlegal, hchild⟩, hkind⟩

theorem place_folder_of_grown {touched : List String → Prop} (hgrown : Grown touched before after)
    (h : before.place path = .ok (.taken location (.folder entries))) :
    ∃ entries, after.place path = .ok (.taken location (.folder entries)) := by
  obtain ⟨child, hchild, hkind⟩ := place_of_grown hgrown h
  cases child with
  | file content => cases hkind
  | folder entries => exact ⟨entries, hchild⟩

theorem place_file_of_grown {touched : List String → Prop} (hgrown : Grown touched before after)
    (h : before.place path = .ok (.taken location (.file content))) :
    ∃ content, after.place path = .ok (.taken location (.file content)) := by
  obtain ⟨child, hchild, hkind⟩ := place_of_grown hgrown h
  cases child with
  | file content => exact ⟨content, hchild⟩
  | folder entries => cases hkind

theorem isFolder_of_grown {touched : List String → Prop} (hgrown : Grown touched before after)
    (h : before.isFolder path = true) : after.isFolder path = true := by
  obtain ⟨location, entries, hplace⟩ := isFolder_iff.mp h
  exact isFolder_iff.mpr ⟨location, place_folder_of_grown hgrown hplace⟩

/-- Whether a path leads to something at a location. -/
def Reaches (path : Path) (location : List String) (tree : Tree) : Prop :=
  ∃ node, tree.place path = .ok (.taken location node)

instance (path : Path) (location : List String) (tree : Tree) :
    Decidable (tree.Reaches path location) :=
  match h : tree.place path with
  | .ok (.taken found node) =>
      decidable_of_iff (found = location) (by simp [Reaches, h, eq_comm])
  | .ok (.free found) => .isFalse (by simp [Reaches, h])
  | .error reason => .isFalse (by simp [Reaches, h])

theorem Reaches.unique {location' : List String} (h : top.Reaches path location)
    (h' : top.Reaches path location') : location = location' := by
  obtain ⟨node, hnode⟩ := h
  obtain ⟨node', hnode'⟩ := h'
  cases hnode.symm.trans hnode'
  rfl

theorem Reaches.of_grown {touched : List String → Prop} (h : before.Reaches path location)
    (hgrown : Grown touched before after) : after.Reaches path location := by
  obtain ⟨node, hnode⟩ := h
  obtain ⟨child, hchild, -⟩ := place_of_grown hgrown hnode
  exact ⟨child, hchild⟩

/-- The path of a file does not end in a slash. -/
theorem endsInSlash_of_place (h : top.place path = .ok (.taken location (.file content))) :
    path.endsInSlash = false := by
  rw [Bool.eq_false_iff]
  intro hslash
  obtain ⟨before, hpieces⟩ := Path.pieces_of_endsInSlash hslash
  have hfollow := (place_eq_ok.mp h).2
  rw [hpieces] at hfollow
  obtain ⟨above, entries, habove, hlast⟩ := folder_of_follow_append hfollow (by simp)
  have hplace : top.at? above.reverse.reverse = some (.folder entries) := by
    rw [List.reverse_reverse]
    exact at?_of_follow habove
  rw [follow_cons_of_folder hplace, if_pos (.inl rfl)] at hlast
  obtain ⟨node, hnode, hfound⟩ := follow_nil_eq_ok.mp hlast
  cases hfound
  cases hplace.symm.trans hnode

theorem utf8ByteSize_join_le (base : Path) (text : String) :
    (base.join text).text.utf8ByteSize ≤ base.text.utf8ByteSize + 1 + text.utf8ByteSize := by
  have hone : "/".utf8ByteSize = 1 := by decide
  rcases Path.text_join base text with htext | htext | htext
  · rw [htext]
    omega
  · rw [htext, String.utf8ByteSize_append]
    omega
  · rw [htext, String.utf8ByteSize_append, String.utf8ByteSize_append, hone]

theorem isLegal_join (hbase : base.IsLegal) (hname : IsEntryName name)
    (hshort : (base.join name).text.utf8ByteSize ≤ longestPath) : (base.join name).IsLegal := by
  have hslash : '\x00' ∉ "/".toList := by decide
  have hnul := hbase.no_nul
  have hnul' := hname.no_nul
  rcases Path.text_join base name with htext | htext | htext
  · exact ⟨by rw [htext]; exact hname.ne_empty, by rw [htext]; exact hnul', hshort⟩
  · refine ⟨by simp [htext, hname.ne_empty], ?_, hshort⟩
    simp [htext, String.toList_append, hnul, hnul']
  · refine ⟨by simp [htext, hname.ne_empty], ?_, hshort⟩
    simp only [htext, String.toList_append, List.mem_append, not_or]
    exact ⟨⟨hnul, hslash⟩, hnul'⟩

/-- What a path can be followed to goes down from a path that can be followed. -/
theorem isLegal_of_join (hne : base.text ≠ "") (hname : Path.IsName name)
    (h : (base.join name).IsLegal) : base.IsLegal := by
  have hnul := h.no_nul
  have hshort := h.short
  rcases Path.text_join_name hne hname with htext | htext
  · rw [htext, String.toList_append, List.mem_append, not_or] at hnul
    rw [htext, String.utf8ByteSize_append] at hshort
    exact ⟨hne, hnul.1, by omega⟩
  · rw [htext, String.toList_append, String.toList_append, List.mem_append, List.mem_append,
      not_or, not_or] at hnul
    rw [htext, String.utf8ByteSize_append, String.utf8ByteSize_append] at hshort
    exact ⟨hne, hnul.1.1, by omega⟩

theorem join_ne_empty (base : Path) (hname : Path.IsName name) : (base.join name).text ≠ "" := by
  rcases Path.text_join base name with htext | htext | htext
  · rw [htext]
    exact hname.ne_empty
  · simp [htext, hname.ne_empty]
  · simp [htext, hname.ne_empty]

theorem isLegal_of_below (hne : base.text ≠ "") (hnames : ∀ name ∈ names, Path.IsName name)
    (h : (base.below names).IsLegal) : base.IsLegal := by
  induction names generalizing base with
  | nil => exact h
  | cons name more ih =>
      rw [List.forall_mem_cons] at hnames
      exact isLegal_of_join hne hnames.1 (ih (join_ne_empty base hnames.1) hnames.2 h)

theorem add_le_utf8ByteSize_join (hne : base.text ≠ "") (hname : Path.IsName name) :
    base.text.utf8ByteSize + name.utf8ByteSize ≤ (base.join name).text.utf8ByteSize := by
  rcases Path.text_join_name hne hname with htext | htext
  · rw [htext, String.utf8ByteSize_append]
  · rw [htext, String.utf8ByteSize_append, String.utf8ByteSize_append]
    omega

theorem utf8ByteSize_le_below (hne : base.text ≠ "") (hnames : ∀ name ∈ names, Path.IsName name) :
    base.text.utf8ByteSize ≤ (base.below names).text.utf8ByteSize := by
  induction names generalizing base with
  | nil => exact Nat.le_refl _
  | cons name more ih =>
      rw [List.forall_mem_cons] at hnames
      have hjoin := add_le_utf8ByteSize_join hne hnames.1
      exact (Nat.le_of_add_right_le hjoin).trans (ih (join_ne_empty base hnames.1) hnames.2)

/-- A path that goes down from one that can be followed can be followed too, unless it is too
long. -/
theorem isLegal_below_iff (hbase : base.IsLegal) (hnames : ∀ name ∈ names, IsEntryName name) :
    (base.below names).IsLegal ↔ (base.below names).text.utf8ByteSize ≤ longestPath := by
  refine ⟨fun h => h.short, fun hshort => ?_⟩
  induction names generalizing base with
  | nil => exact hbase
  | cons name more ih =>
      rw [List.forall_mem_cons] at hnames
      have hle := utf8ByteSize_le_below (join_ne_empty base hnames.1.toIsName)
        fun other hother => (hnames.2 other hother).toIsName
      exact ih (isLegal_join hbase hnames.1 (hle.trans hshort)) hnames.2 hshort

/-! ### Names below a path -/

/-- A name joined to a path is one more step on the way. -/
theorem follow_join_name (h : Path.IsName name) :
    follow top here (base.join name).pieces = follow top here (base.pieces ++ [name]) := by
  rcases Path.pieces_join_name base h with hpieces | ⟨before, hbase, hpieces⟩
  · rw [hpieces]
  · rw [hpieces, hbase, List.append_assoc]
    exact (follow_skip (.inl rfl) (by simp)).symm

theorem follow_join_eq_ok (hname : Path.IsName name) :
    follow top [] (base.join name).pieces = .ok found ↔
      ∃ above entries, follow top [] base.pieces = .ok (.taken above (.folder entries)) ∧
        name.utf8ByteSize ≤ longestName ∧
        found = match entries.lookup name with
          | some node => .taken (above ++ [name]) node
          | none => .free (above ++ [name]) := by
  rw [follow_join_name hname]
  constructor
  · intro h
    obtain ⟨above, entries, habove, hlast⟩ := folder_of_follow_append h (by simp)
    rw [follow_singleton_eq_ok (at?_of_follow habove) hname.ne_empty hname.ne_here hname.ne_up]
      at hlast
    exact ⟨above, entries, habove, hlast⟩
  · rintro ⟨above, entries, habove, hlast⟩
    rw [follow_append habove]
    exact (follow_singleton_eq_ok (at?_of_follow habove) hname.ne_empty hname.ne_here
      hname.ne_up).mpr hlast

/-- Nothing joined to a path of a folder leads to the same folder. -/
theorem follow_join_empty (hbase : base.text ≠ "")
    (h : follow top [] (base.join "").pieces = .ok (.taken location (.folder entries))) :
    follow top [] base.pieces = .ok (.taken location (.folder entries)) := by
  unfold Path.join at h
  split_ifs at h with hempty hslash
  · simp [hbase] at hempty
  · rwa [String.append_empty] at h
  · rw [Path.pieces_append_slash] at h
    obtain ⟨place, inner, hplace, hlast⟩ := folder_of_follow_append h (Path.pieces_ne_nil _)
    have hhere : top.at? place.reverse.reverse = some (.folder inner) := by
      rw [List.reverse_reverse]
      exact at?_of_follow hplace
    change follow top place.reverse [""] = _ at hlast
    rw [follow_cons_of_folder hhere, if_pos (.inl rfl)] at hlast
    obtain ⟨node, hnode, hfound⟩ := follow_nil_eq_ok.mp hlast
    cases hfound
    rw [hhere] at hnode
    cases hnode
    rwa [List.reverse_reverse]

/-- A path that goes down by names leads to a location that ends in them. -/
theorem follow_below (hnames : ∀ name ∈ names, Path.IsName name)
    (h : follow top [] (base.below names).pieces = .ok (.taken location node)) :
    ∃ above child, follow top [] base.pieces = .ok (.taken above child) ∧
      location = above ++ names := by
  induction names generalizing base with
  | nil => exact ⟨location, node, h, (List.append_nil location).symm⟩
  | cons name more ih =>
      obtain ⟨above, child, habove, rfl⟩ :=
        ih (fun other hother => hnames other (List.mem_cons_of_mem name hother)) h
      obtain ⟨place, entries, hplace, -, hfound⟩ :=
        (follow_join_eq_ok (hnames name List.mem_cons_self)).mp habove
      refine ⟨place, _, hplace, ?_⟩
      cases hlookup : entries.lookup name with
      | none => simp [hlookup] at hfound
      | some found =>
          simp only [hlookup, Place.taken.injEq] at hfound
          rw [hfound.1, List.append_assoc, List.singleton_append]

/-- Where something stands below what a path leads to, the path that goes down there leads to
it. -/
theorem follow_below_of_at? (hnames : ∀ name ∈ names, IsEntryName name) {child : Tree}
    (hbase : follow top [] base.pieces = .ok (.taken location child))
    (h : child.at? names = some node) :
    follow top [] (base.below names).pieces = .ok (.taken (location ++ names) node) := by
  induction names generalizing base location child with
  | nil =>
      obtain rfl : child = node := Option.some.inj h
      rwa [List.append_nil]
  | cons name more ih =>
      cases child with
      | file content => simp [at?] at h
      | folder entries =>
          obtain ⟨next, hnext, hmore⟩ := Option.bind_eq_some_iff.mp h
          have hname := hnames name List.mem_cons_self
          have hjoin : follow top [] (base.join name).pieces =
              .ok (.taken (location ++ [name]) next) :=
            (follow_join_eq_ok hname.toIsName).mpr
              ⟨location, entries, hbase, hname.short, by simp [hnext]⟩
          have hbelow := ih (fun other hother => hnames other (List.mem_cons_of_mem name hother))
            hjoin hmore
          simpa [Path.below] using hbelow

end Tree

end DictionaryDdl
