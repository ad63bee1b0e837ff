import DictionaryDdl.Proofs.Files.Following

/-!
Folders that a path leads to only after a tree has grown. Where the path goes up only from folders
that were there before, the folder it leads to is new: there was nothing in its place. A path that
goes up from a new folder may lead to an old one instead.
-/

namespace DictionaryDdl.Tree

variable {touched : List String → Prop} {top before after node : Tree}
  {here pieces location : List String} {name : String} {path base : Path}
  {entries : List (String × Tree)}

/-- Whether every step up among some pieces starts from a folder that is there. -/
def AnchoredFrom (top : Tree) (here pieces : List String) : Prop :=
  ∀ first rest, pieces = first ++ ".." :: rest →
    ∃ location entries, follow top here first = .ok (.taken location (.folder entries))

/-- Whether every step up that a path takes starts from a folder that is there. -/
def Anchored (path : Path) (tree : Tree) : Prop :=
  tree.AnchoredFrom [] path.pieces

theorem anchored_of_not_mem (h : ".." ∉ path.pieces) (tree : Tree) : tree.Anchored path := by
  intro first rest hpieces
  rw [hpieces] at h
  simp at h

/-- Without steps up a path leads down. -/
theorem follow_prefix (hup : ".." ∉ pieces)
    (h : follow top here pieces = .ok (.taken location node)) : here.reverse <+: location := by
  induction pieces generalizing here with
  | nil =>
      obtain ⟨found, -, hfound⟩ := follow_nil_eq_ok.mp h
      cases hfound
      exact List.prefix_rfl
  | cons piece rest ih =>
      rw [List.mem_cons, not_or] at hup
      obtain ⟨entries, hhere⟩ := folder_of_follow_cons h
      rw [follow_cons_of_folder hhere] at h
      split_ifs at h with hstay hpiece hlong hsome hlast
      · exact ih hup.2 h
      · exact absurd hpiece.symm hup.1
      · have hmore := ih hup.2 h
        rw [List.reverse_cons] at hmore
        exact (List.prefix_append here.reverse [piece]).trans hmore
      · cases h

theorem folder_tail (h : top.at? here.reverse = some (.folder entries)) :
    ∃ entries, top.at? here.tail.reverse = some (.folder entries) := by
  cases here with
  | nil => exact ⟨entries, h⟩
  | cons name more =>
      rw [List.reverse_cons] at h
      obtain ⟨above, habove, -⟩ := folder_of_at?_append_cons h
      exact ⟨above, habove⟩

/-- A name leads to something if it is there and what follows leads there. -/
theorem follow_name_eq_taken (hhere : top.at? here.reverse = some (.folder entries))
    (hstay : ¬ (name = "" ∨ name = ".")) (hup : name ≠ "..") :
    follow top here (name :: pieces) = .ok (.taken location node) ↔
      name.utf8ByteSize ≤ longestName ∧ (entries.lookup name).isSome ∧
        follow top (name :: here) pieces = .ok (.taken location node) := by
  rw [follow_cons_of_folder hhere, if_neg hstay, if_neg hup]
  constructor
  · intro h
    split_ifs at h with hlong hsome hlast
    · exact ⟨Nat.le_of_not_lt hlong, hsome, h⟩
    · cases h
  · rintro ⟨hshort, hsome, h⟩
    rwa [if_neg (Nat.not_lt.mpr hshort), if_pos hsome]

theorem at?_cons_of_lookup (hhere : top.at? here.reverse = some (.folder entries)) :
    top.at? (name :: here).reverse = entries.lookup name := by
  rw [List.reverse_cons, at?_append, hhere, Option.bind_some]
  cases hlookup : entries.lookup name <;> simp [at?, hlookup]

/-- No folder is found below a file. -/
theorem follow_of_file {content : ByteArray} (hhere : top.at? here.reverse = some (.file content)) :
    follow top here pieces ≠ .ok (.taken location (.folder entries)) := by
  intro h
  cases pieces with
  | nil =>
      obtain ⟨node, hnode, hfound⟩ := follow_nil_eq_ok.mp h
      cases hfound
      rw [hhere] at hnode
      cases hnode
  | cons piece rest =>
      obtain ⟨inner, hinner⟩ := folder_of_follow_cons h
      rw [hhere] at hinner
      cases hinner

theorem AnchoredFrom.next {there : List String} (h : top.AnchoredFrom here (name :: pieces))
    (hnext : ∀ place node rest, follow top here (name :: rest) = .ok (.taken place node) →
      follow top there rest = .ok (.taken place node)) : top.AnchoredFrom there pieces := by
  intro first rest hsplit
  obtain ⟨place, inner, hplace⟩ := h (name :: first) rest (by rw [hsplit, List.cons_append])
  exact ⟨place, inner, hnext place _ first hplace⟩

/-- What follows a name that is free goes down only. -/
theorem AnchoredFrom.not_mem (h : top.AnchoredFrom here (name :: pieces))
    (hhere : top.at? here.reverse = some (.folder entries))
    (hstay : ¬ (name = "" ∨ name = ".")) (hup : name ≠ "..") (hfree : entries.lookup name = none) :
    ".." ∉ pieces := by
  intro hmem
  obtain ⟨first, rest, hsplit⟩ := List.append_of_mem hmem
  obtain ⟨place, inner, hplace⟩ := h (name :: first) rest (by rw [hsplit, List.cons_append])
  have hsome := ((follow_name_eq_taken hhere hstay hup).mp hplace).2.1
  rw [hfree] at hsome
  cases hsome

/-- A folder that is found in a tree that has grown was found before or is new. -/
theorem follow_folder_of_grown (hgrown : Grown touched before after)
    (hhere : before.at? here.reverse = some (.folder entries))
    (hanchored : before.AnchoredFrom here pieces) {found : List (String × Tree)}
    (h : follow after here pieces = .ok (.taken location (.folder found))) :
    (∃ found, follow before here pieces = .ok (.taken location (.folder found))) ∨
      before.at? location = none := by
  induction pieces generalizing here entries with
  | nil =>
      obtain ⟨node, -, hfound⟩ := follow_nil_eq_ok.mp h
      cases hfound
      exact .inl ⟨entries, follow_nil_eq_ok.mpr ⟨_, hhere, rfl⟩⟩
  | cons piece rest ih =>
      obtain ⟨entries', hhere'⟩ := folder_of_follow_cons h
      by_cases hstay : piece = "" ∨ piece = "."
      · rw [follow_cons_of_folder hhere', if_pos hstay] at h
        rw [follow_cons_of_folder hhere, if_pos hstay]
        refine ih hhere (hanchored.next fun place node pieces hplace => ?_) h
        rwa [follow_cons_of_folder hhere, if_pos hstay] at hplace
      by_cases hup : piece = ".."
      · rw [follow_cons_of_folder hhere', if_neg hstay, if_pos hup] at h
        rw [follow_cons_of_folder hhere, if_neg hstay, if_pos hup]
        obtain ⟨above, habove⟩ := folder_tail hhere
        refine ih habove (hanchored.next fun place node pieces hplace => ?_) h
        rwa [follow_cons_of_folder hhere, if_neg hstay, if_pos hup] at hplace
      obtain ⟨hshort, -, hrest⟩ := (follow_name_eq_taken hhere' hstay hup).mp h
      have hchild : before.at? (piece :: here).reverse = entries.lookup piece :=
        at?_cons_of_lookup hhere
      cases hlookup : entries.lookup piece with
      | none =>
          -- The name was free, so the folder is below the new one that has the name.
          obtain ⟨more, rfl⟩ := follow_prefix (hanchored.not_mem hhere hstay hup hlookup) hrest
          right
          rw [at?_append, hchild, hlookup]
          rfl
      | some child =>
          rw [hlookup] at hchild
          have hkind := hgrown.kinds (piece :: here).reverse child.kind
            (by rw [kindAt, hchild]; rfl)
          cases child with
          | file content =>
              obtain ⟨content', hfile⟩ := kindAt_eq_file.mp hkind
              exact absurd hrest (follow_of_file hfile)
          | folder inner =>
              have hinner : before.AnchoredFrom (piece :: here) rest :=
                hanchored.next fun place node pieces hplace =>
                  ((follow_name_eq_taken hhere hstay hup).mp hplace).2.2
              rcases ih hchild hinner hrest with ⟨old, hold⟩ | hnew
              · have hsome : (entries.lookup piece).isSome := by rw [hlookup]; rfl
                exact .inl ⟨old, (follow_name_eq_taken hhere hstay hup).mpr
                  ⟨hshort, hsome, hold⟩⟩
              · exact .inr hnew

theorem at?_of_new_folder (hgrown : Grown touched before after) (hanchored : before.Anchored path)
    (h : after.place path = .ok (.taken location (.folder entries)))
    (hnew : before.isFolder path = false) : before.at? location = none := by
  obtain ⟨hlegal, hfollow⟩ := place_eq_ok.mp h
  have htop : ∃ found, before.at? (List.reverse []) = some (.folder found) := by
    obtain ⟨piece, rest, hpieces⟩ := List.exists_cons_of_ne_nil (Path.pieces_ne_nil path)
    rw [hpieces] at hfollow
    obtain ⟨found, hfound⟩ := folder_of_follow_cons hfollow
    cases before with
    | folder found' => exact ⟨found', rfl⟩
    | file content =>
        have hkind : after.kindAt (List.reverse []) = some .file := hgrown.kinds [] .file rfl
        rw [kindAt, hfound] at hkind
        cases hkind
  obtain ⟨found, hfound⟩ := htop
  rcases follow_folder_of_grown hgrown hfound hanchored hfollow with ⟨inner, hinner⟩ | hnone
  · rw [isFolder_iff.mpr ⟨location, inner, place_eq_ok.mpr ⟨hlegal, hinner⟩⟩] at hnew
    cases hnew
  · exact hnone

/-- A name joined to the path of a folder goes up only where that path does. -/
theorem anchored_join (hfolder : top.isFolder base = true) (hname : Path.IsName name) :
    top.Anchored (base.join name) := by
  obtain ⟨location, entries, hplace⟩ := isFolder_iff.mp hfolder
  have hbase := (place_eq_ok.mp hplace).2
  obtain ⟨first, last, hpieces, hjoined⟩ : ∃ first last,
      base.pieces = first ++ last ∧ (base.join name).pieces = first ++ [name] := by
    rcases Path.pieces_join_name base hname with hpieces | ⟨first, hempty, hpieces⟩
    · exact ⟨base.pieces, [], (List.append_nil _).symm, hpieces⟩
    · exact ⟨first, [""], hempty, hpieces⟩
  intro above rest hsplit
  have hrest : rest ≠ [] := by
    rintro rfl
    rw [hjoined] at hsplit
    exact hname.ne_up (List.singleton_inj.mp (List.append_inj' hsplit rfl).2)
  rw [hjoined, ← List.dropLast_append_getLast hrest, ← List.cons_append, ← List.append_assoc]
    at hsplit
  obtain ⟨hfirst, -⟩ := List.append_inj' hsplit rfl
  rw [hpieces, hfirst, List.append_assoc] at hbase
  obtain ⟨place, inner, hinner, -⟩ := folder_of_follow_append hbase (by simp)
  exact ⟨place, inner, hinner⟩

end DictionaryDdl.Tree
