import DictionaryDdl.Proofs.Files.Following

/-!
What writing does to a tree. Every step makes an empty folder in a free place or a file at one
location, so a tree only grows; a file that is written is where its path leads afterwards.
-/

namespace DictionaryDdl

namespace Tree

variable {touched touched' : List String → Prop} {first second third top after node : Tree}
  {here pieces location : List String} {path : Path} {content : ByteArray}

/-- What writing makes of a tree: empty folders come in free places, and files come or are replaced
at the touched locations. -/
inductive Written (touched : List String → Prop) (before : Tree) : Tree → Prop
  | refl : Written touched before before
  | folder {tree : Tree} {location : List String} (h : Written touched before tree)
      (hroom : tree.Room location) (hfree : tree.kindAt location = none) :
      Written touched before (put location empty tree)
  | file {tree : Tree} {location : List String} {content : ByteArray}
      (h : Written touched before tree) (hroom : tree.Room location) (htouched : touched location) :
      Written touched before (put location (.file content) tree)

theorem Written.trans (h : Written touched first second) (h' : Written touched second third) :
    Written touched first third := by
  induction h' with
  | refl => exact h
  | folder _ hroom hfree ih => exact ih.folder hroom hfree
  | file _ hroom htouched ih => exact ih.file hroom htouched

theorem Written.mono (h : Written touched first second) (himp : ∀ l, touched l → touched' l) :
    Written touched' first second := by
  induction h with
  | refl => exact .refl
  | folder _ hroom hfree ih => exact ih.folder hroom hfree
  | file _ hroom htouched ih => exact ih.file hroom (himp _ htouched)

theorem Written.grown (h : Written touched first second) : Grown touched first second := by
  induction h with
  | refl => exact Grown.refl touched first
  | folder _ hroom hfree ih =>
      exact ih.trans ((hroom.grown_folder hfree).mono fun _ => False.elim)
  | file _ hroom htouched ih =>
      refine ih.trans ((hroom.grown_file _).mono ?_)
      rintro l rfl
      exact htouched

/-! ### Single steps -/

theorem plain_of_mem_pieces (h : path.IsLegal) :
    ∀ piece ∈ path.pieces, '/' ∉ piece.toList ∧ '\x00' ∉ piece.toList := by
  intro piece hpiece
  obtain ⟨hslash, hmem⟩ := Path.mem_pieces hpiece
  exact ⟨hslash, fun hnul => h.no_nul (hmem _ hnul)⟩

/-- A free place is taken once something is put there. -/
theorem follow_put_of_free (h : follow top here pieces = .ok (.free location))
    (hkinds : ∀ place kind, top.kindAt place = some kind →
      (put location node top).kindAt place = some kind) :
    follow (put location node top) here pieces = .ok (.taken location node) := by
  obtain ⟨before, name, above, entries, rfl, rfl, habove, -, hempty, hhere, hup, hshort⟩ :=
    follow_eq_free h
  obtain ⟨child, hchild, hkind⟩ := follow_of_grown hkinds habove
  cases child with
  | file content => cases hkind
  | folder entries' =>
      have hlast : ∃ found, entries'.lookup name = some found ∧ found = node := by
        have hnode : (put (above ++ [name]) node top).at? (above ++ [name]) = some node :=
          at?_put_self _ _ _
        rw [at?_append, at?_of_follow hchild, Option.bind_some] at hnode
        simpa [at?, Option.bind_eq_some_iff] using hnode
      obtain ⟨found, hfound, rfl⟩ := hlast
      rw [follow_append hchild, follow_singleton_eq_ok (at?_of_follow hchild) hempty hhere hup,
        hfound]
      exact ⟨hshort, rfl⟩

/-- Whether a file can be written by a path, and where it is then: the path leads to a file or to a
free place. -/
def Accepts (path : Path) (location : List String) (top : Tree) : Prop :=
  path.endsInSlash = false ∧ (top.place path = .ok (.free location) ∨
    ∃ old, top.place path = .ok (.taken location (.file old)))

theorem writeBytes_iff : top.writeBytes path content = .ok after ↔
    ∃ location, top.Accepts path location ∧ after = put location (.file content) top := by
  unfold writeBytes Accepts
  cases hslash : path.endsInSlash with
  | true =>
      cases hholder : top.entriesAt path.holder <;>
        simp [discard, Functor.mapConst, Except.map, bind, Except.bind]
  | false =>
      cases hplace : top.place path with
      | error reason => simp [bind, Except.bind]
      | ok found =>
          cases found with
          | free location => simp [bind, Except.bind, eq_comm]
          | taken location node => cases node <;> simp [bind, Except.bind, eq_comm]

theorem Accepts.room (h : top.Accepts path location) : top.Room location := by
  obtain ⟨-, hfree | ⟨old, hfile⟩⟩ := h
  · obtain ⟨hlegal, hfollow⟩ := place_eq_ok.mp hfree
    exact room_of_follow_free (plain_of_mem_pieces hlegal) hfollow
  · exact room_of_place_file hfile

/-- A file that is written is where its path leads afterwards. -/
theorem Accepts.place_put (h : top.Accepts path location) (content : ByteArray) :
    (put location (.file content) top).place path = .ok (.taken location (.file content)) := by
  have hgrown := h.room.grown_file content
  obtain ⟨-, hfree | ⟨old, hfile⟩⟩ := h
  · obtain ⟨hlegal, hfollow⟩ := place_eq_ok.mp hfree
    exact place_eq_ok.mpr ⟨hlegal, follow_put_of_free hfollow hgrown.kinds⟩
  · obtain ⟨new, hnew⟩ := place_file_of_grown hgrown hfile
    have hcontent := at?_of_place hnew
    rw [at?_put_self] at hcontent
    cases hcontent
    exact hnew

theorem Accepts.put_file (h : top.Accepts path location) (content : ByteArray) :
    (put location (.file content) top).Accepts path location :=
  ⟨h.1, .inr ⟨content, h.place_put content⟩⟩

theorem writeBytes_eq_ok (h : top.writeBytes path content = .ok after) :
    ∃ location, top.Room location ∧ after = put location (.file content) top ∧
      after.place path = .ok (.taken location (.file content)) := by
  obtain ⟨location, haccepts, rfl⟩ := writeBytes_iff.mp h
  exact ⟨location, haccepts.room, rfl, haccepts.place_put content⟩

theorem writeBytes_of_place {old : ByteArray}
    (h : top.place path = .ok (.taken location (.file old))) :
    top.writeBytes path content = .ok (put location (.file content) top) := by
  simp [writeBytes, endsInSlash_of_place h, h, bind, Except.bind]

/-- A file is written into a folder that is there, if no folder has its name. -/
theorem writeBytes_join (content : ByteArray) {base : Path} {name : String}
    {entries : List (String × Tree)}
    (hname : IsEntryName name) (hlegal : (base.join name).IsLegal)
    (hbase : follow top [] base.pieces = .ok (.taken location (.folder entries)))
    (hfree : top.kindAt (location ++ [name]) ≠ some .folder) :
    top.Room (location ++ [name]) ∧ top.writeBytes (base.join name) content =
      .ok (put (location ++ [name]) (.file content) top) := by
  have hfolder := at?_of_follow hbase
  have hroom : top.Room (location ++ [name]) :=
    ⟨location, name, rfl, kindAt_eq_folder.mpr ⟨entries, hfolder⟩, hfree, fun _ => hname⟩
  refine ⟨hroom, ?_⟩
  have hplace := (follow_join_eq_ok hname.toIsName).mpr ⟨location, entries, hbase, hname.short, rfl⟩
  rw [← place_of_legal hlegal] at hplace
  cases hlookup : entries.lookup name with
  | none =>
      rw [hlookup] at hplace
      simp [writeBytes, Path.endsInSlash_join hname.toIsName, hplace, bind, Except.bind]
  | some node =>
      rw [hlookup] at hplace
      cases node with
      | file old => exact writeBytes_of_place hplace
      | folder inner =>
          exact absurd (kindAt_eq_folder.mpr ⟨inner, at?_of_place hplace⟩) hfree

end Tree

end DictionaryDdl
