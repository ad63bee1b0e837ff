import DictionaryDdl.Proofs.Files.Writing
import Mathlib.Data.List.TakeWhile

/-!
Making folders. A folder that is there is not made again. Making a folder with all folders above
it may fail after some of these were made, and then it fails again and makes no more: none of the
paths above a path can be missing where the path itself can be made.
-/

namespace DictionaryDdl

namespace Tree

variable {top after : Tree} {here pieces location : List String} {path : Path} {chain : List Path}
  {reason : IoError} {found : Place}

theorem pieces_eq_trimmedPieces (path : Path) :
    ∃ empties, path.pieces = path.trimmedPieces ++ empties ∧ ∀ piece ∈ empties, piece = "" := by
  refine ⟨(path.pieces.reverse.takeWhile (·.isEmpty)).reverse, ?_, ?_⟩
  · rw [Path.trimmedPieces, ← List.reverse_append, List.takeWhile_append_dropWhile,
      List.reverse_reverse]
  · intro piece hpiece
    simpa using List.mem_takeWhile_imp (List.mem_reverse.mp hpiece)

/-- Empty pieces lead nowhere else. -/
theorem follow_empties {entries : List (String × Tree)} (hempties : ∀ piece ∈ pieces, piece = "")
    (h : top.at? location = some (.folder entries)) :
    follow top location.reverse pieces = .ok (.taken location (.folder entries)) := by
  have hplace : top.at? location.reverse.reverse = some (.folder entries) := by
    rwa [List.reverse_reverse]
  induction pieces with
  | nil => simp [follow, h]
  | cons piece rest ih =>
      rw [follow_cons_of_folder hplace, if_pos (.inl (hempties piece (by simp)))]
      exact ih fun piece hpiece => hempties piece (by simp [hpiece])

/-! ### One folder -/

theorem makeFolder_eq_ok (h : top.makeFolder path = .ok after) :
    ∃ location, path.IsLegal ∧ follow top [] path.trimmedPieces = .ok (.free location) ∧
      after = put location empty top := by
  unfold makeFolder at h
  cases hcheck : checkText path with
  | error reason => simp [hcheck, bind, Except.bind] at h
  | ok _ =>
      cases hfollow : follow top [] path.trimmedPieces with
      | error reason => simp [hcheck, hfollow, bind, Except.bind] at h
      | ok found =>
          cases found with
          | taken location node => simp [hcheck, hfollow, bind, Except.bind] at h
          | free location =>
              refine ⟨location, checkText_eq_ok.mp hcheck, rfl, ?_⟩
              simpa [hcheck, hfollow, bind, Except.bind, eq_comm] using h

theorem room_of_trimmedPieces (hlegal : path.IsLegal)
    (hfree : follow top [] path.trimmedPieces = .ok (.free location)) : top.Room location := by
  obtain ⟨empties, hpieces, -⟩ := pieces_eq_trimmedPieces path
  refine room_of_follow_free (fun piece hpiece => ?_) hfree
  exact plain_of_mem_pieces hlegal piece (by simp [hpieces, hpiece])

/-- A folder is there already or is made in a free place. -/
theorem ensureFolder_cases (h : top.ensureFolder path = .ok after) :
    (after = top ∧ top.isFolder path = true) ∨
      ∃ location, path.IsLegal ∧ follow top [] path.trimmedPieces = .ok (.free location) ∧
        after = put location empty top := by
  unfold ensureFolder at h
  cases hmake : top.makeFolder path with
  | error reason =>
      simp only [hmake] at h
      split_ifs at h with hfolder
      cases h
      exact .inl ⟨rfl, hfolder⟩
  | ok made =>
      obtain rfl : made = after := by simpa [hmake] using h
      exact .inr (makeFolder_eq_ok hmake)

theorem ensureFolder_eq_ok (h : top.ensureFolder path = .ok after) :
    Written (fun _ => False) top after ∧ after.isFolder path = true := by
  rcases ensureFolder_cases h with ⟨rfl, hfolder⟩ | ⟨location, hlegal, hfree, rfl⟩
  · exact ⟨.refl, hfolder⟩
  · obtain ⟨empties, hpieces, hempties⟩ := pieces_eq_trimmedPieces path
    have hroom := room_of_trimmedPieces hlegal hfree
    have hkind := kindAt_of_follow_free hfree
    have htaken := follow_put_of_free hfree (hroom.grown_folder hkind).kinds
    refine ⟨Written.refl.folder hroom hkind, isFolder_iff.mpr ⟨location, [], ?_⟩⟩
    refine place_eq_ok.mpr ⟨hlegal, ?_⟩
    rw [hpieces, follow_append htaken]
    exact follow_empties hempties (at?_put_self _ _ _)

/-- Slashes at the end of the path of a folder are not needed. -/
theorem follow_trimmedPieces (h : top.isFolder path = true) :
    ∃ location node, follow top [] path.trimmedPieces = .ok (.taken location node) := by
  obtain ⟨location, entries, hplace⟩ := isFolder_iff.mp h
  have hfollow := (place_eq_ok.mp hplace).2
  obtain ⟨empties, hpieces, -⟩ := pieces_eq_trimmedPieces path
  rw [hpieces] at hfollow
  by_cases hempties : empties = []
  · rw [hempties, List.append_nil] at hfollow
    exact ⟨location, _, hfollow⟩
  · obtain ⟨location, entries, htaken, -⟩ := folder_of_follow_append hfollow hempties
    exact ⟨location, _, htaken⟩

theorem isLegal_of_isFolder (h : top.isFolder path = true) : path.IsLegal := by
  obtain ⟨location, entries, hplace⟩ := isFolder_iff.mp h
  exact (place_eq_ok.mp hplace).1

/-- A folder that is there is not made again. -/
theorem ensureFolder_of_isFolder (h : top.isFolder path = true) :
    top.ensureFolder path = .ok top := by
  obtain ⟨location, node, htaken⟩ := follow_trimmedPieces h
  simp [ensureFolder, makeFolder, checkText_eq_ok.mpr (isLegal_of_isFolder h), htaken, h, bind,
    Except.bind]

/-- The path of a folder that is there or can be made leads somewhere. -/
theorem follow_of_ensureFolder (h : top.ensureFolder path = .ok after) :
    path.IsLegal ∧ ∃ found, follow top [] path.trimmedPieces = .ok found := by
  cases hmake : top.makeFolder path with
  | ok made =>
      obtain ⟨location, hlegal, hfree, -⟩ := makeFolder_eq_ok hmake
      exact ⟨hlegal, _, hfree⟩
  | error reason =>
      have hfolder : top.isFolder path = true := by
        by_contra hno
        simp [ensureFolder, hmake, hno] at h
      obtain ⟨location, node, htaken⟩ := follow_trimmedPieces hfolder
      exact ⟨isLegal_of_isFolder hfolder, _, htaken⟩

theorem trimmedPieces_join {base : Path} {name : String} (h : Path.IsName name) :
    (base.join name).trimmedPieces = (base.join name).pieces := by
  have hlast : ∃ before, (base.join name).pieces = before ++ [name] := by
    rcases Path.pieces_join_name base h with hpieces | ⟨before, -, hpieces⟩
    · exact ⟨_, hpieces⟩
    · exact ⟨_, hpieces⟩
  obtain ⟨before, hpieces⟩ := hlast
  have hne : name.isEmpty = false := by simpa using h.ne_empty
  simp [Path.trimmedPieces, hpieces, hne]

/-- A folder can be made in a folder that is there, if no file has its name. -/
theorem ensureFolder_join {base : Path} {name : String} {entries : List (String × Tree)}
    (hname : IsEntryName name) (hlegal : (base.join name).IsLegal)
    (hbase : follow top [] base.pieces = .ok (.taken location (.folder entries)))
    (hfree : top.kindAt (location ++ [name]) ≠ some .file) :
    ∃ after, top.ensureFolder (base.join name) = .ok after ∧
      (after = top ∨ top.kindAt (location ++ [name]) = none ∧
        after = put (location ++ [name]) empty top) ∧
      after.kindAt (location ++ [name]) = some .folder := by
  have hfollow := (follow_join_eq_ok hname.toIsName).mpr
    ⟨location, entries, hbase, hname.short, rfl⟩
  cases hlookup : entries.lookup name with
  | none =>
      rw [hlookup] at hfollow
      refine ⟨put (location ++ [name]) empty top, ?_, .inr ⟨kindAt_of_follow_free hfollow, rfl⟩, ?_⟩
      · simp [ensureFolder, makeFolder, checkText_eq_ok.mpr hlegal,
          trimmedPieces_join hname.toIsName, hfollow, bind, Except.bind]
      · rw [kindAt, at?_put_self]
        rfl
  | some node =>
      rw [hlookup] at hfollow
      cases node with
      | file content =>
          exact absurd (kindAt_eq_file.mpr ⟨content, at?_of_follow hfollow⟩) hfree
      | folder inner =>
          have hfolder : top.isFolder (base.join name) = true :=
            isFolder_iff.mpr ⟨_, inner, place_eq_ok.mpr ⟨hlegal, hfollow⟩⟩
          exact ⟨top, ensureFolder_of_isFolder hfolder, .inl rfl,
            kindAt_eq_folder.mpr ⟨inner, at?_of_follow hfollow⟩⟩

/-! ### A chain of folders -/

theorem makeFolders_eq_ok (h : top.makeFolders (path :: chain) = (.ok (), after)) :
    top.ensureFolder path = .ok after ∨
      ∃ made, top.makeFolders chain = (.ok (), made) ∧ made.ensureFolder path = .ok after := by
  unfold makeFolders at h
  cases hensure : top.ensureFolder path with
  | ok made => exact .inl (by simpa [hensure] using h)
  | error reason =>
      cases reason with
      | notFound =>
          cases hmake : top.makeFolders chain with
          | mk outcome made =>
              cases outcome with
              | error reason => simp [hensure, hmake] at h
              | ok _ =>
                  cases hagain : made.ensureFolder path with
                  | error reason => simp [hensure, hmake, hagain] at h
                  | ok final => exact .inr ⟨made, rfl, by simpa [hensure, hmake, hagain] using h⟩
      | _ => simp [hensure] at h

theorem makeFolders_eq_error (h : top.makeFolders (path :: chain) = (.error reason, after)) :
    after = top ∨ top.makeFolders chain = (.error reason, after) ∨
      top.makeFolders chain = (.ok (), after) ∧ after.ensureFolder path = .error reason := by
  unfold makeFolders at h
  cases hensure : top.ensureFolder path with
  | ok made => simp [hensure] at h
  | error reason' =>
      cases reason' with
      | notFound =>
          cases hmake : top.makeFolders chain with
          | mk outcome made =>
              cases outcome with
              | error reason' => exact .inr (.inl (by simpa [hensure, hmake] using h))
              | ok _ =>
                  cases hagain : made.ensureFolder path with
                  | ok final => simp [hensure, hmake, hagain] at h
                  | error reason' =>
                      obtain ⟨rfl, rfl⟩ : reason' = reason ∧ made = after := by
                        simpa [hensure, hmake, hagain] using h
                      exact .inr (.inr ⟨rfl, hagain⟩)
      | _ =>
          simp only [hensure, Prod.mk.injEq] at h
          exact .inl h.2.symm

/-- Where a folder cannot be made and those above it change nothing, nothing is made. -/
theorem makeFolders_stuck (h : top.ensureFolder path = .error reason)
    (hchain : (top.makeFolders chain).2 = top) :
    ∃ reason, top.makeFolders (path :: chain) = (.error reason, top) := by
  unfold makeFolders
  cases reason with
  | notFound =>
      cases hmake : top.makeFolders chain with
      | mk outcome made =>
          obtain rfl : made = top := by simpa [hmake] using hchain
          cases outcome with
          | error reason => exact ⟨reason, by simp [h]⟩
          | ok _ => exact ⟨.notFound, by simp [h]⟩
  | _ => exact ⟨_, by rw [h]⟩

/-- What each folder of a chain keeps when it is made is kept when all of them are, also where one
of them cannot be made. -/
theorem makeFolders_keeps (kept : Tree → Prop) (hstart : kept top)
    (hstep : ∀ path ∈ chain, ∀ tree next, kept tree → tree.ensureFolder path = .ok next →
      kept next) : kept (top.makeFolders chain).2 := by
  induction chain with
  | nil => exact hstart
  | cons path above ih =>
      rw [List.forall_mem_cons] at hstep
      have hmade := ih hstep.2
      cases hmake : top.makeFolders (path :: above) with
      | mk outcome after =>
          cases outcome with
          | ok _ =>
              rcases makeFolders_eq_ok hmake with hensure | ⟨made, habove, hensure⟩
              · exact hstep.1 top after hstart hensure
              · rw [habove] at hmade
                exact hstep.1 made after hmade hensure
          | error reason =>
              rcases makeFolders_eq_error hmake with rfl | habove | ⟨habove, -⟩
              · exact hstart
              · rwa [habove] at hmade
              · rwa [habove] at hmade

theorem written_makeFolders (top : Tree) (chain : List Path) :
    Written (fun _ => False) top (top.makeFolders chain).2 :=
  makeFolders_keeps (Written (fun _ => False) top) .refl fun _ _ _ _ hwritten hensure =>
    hwritten.trans (ensureFolder_eq_ok hensure).1

theorem isFolder_of_makeFolders (h : top.makeFolders (path :: chain) = (.ok (), after)) :
    after.isFolder path = true := by
  rcases makeFolders_eq_ok h with hensure | ⟨made, -, hensure⟩
  · exact (ensureFolder_eq_ok hensure).2
  · exact (ensureFolder_eq_ok hensure).2

theorem makeFolders_of_isFolder (h : top.isFolder path = true) :
    top.makeFolders (path :: chain) = (.ok (), top) := by
  simp [makeFolders, ensureFolder_of_isFolder h]

/-- Folders that were made are not made again. -/
theorem makeFolders_repeated (h : top.makeFolders chain = (.ok (), after)) :
    after.makeFolders chain = (.ok (), after) := by
  cases chain with
  | nil => rfl
  | cons path above => exact makeFolders_of_isFolder (isFolder_of_makeFolders h)

/-- Whether a path can be made or is there only where another one is a folder. -/
def NeedsFolder (path above : Path) : Prop :=
  ∀ top after : Tree, top.ensureFolder path = .ok after → top.isFolder above = true

/-- Where the folders of a chain cannot be made, some may have been made by then; the next time it
fails again and makes nothing. -/
theorem makeFolders_again (hchain : chain.Pairwise NeedsFolder)
    (h : top.makeFolders chain = (.error reason, after)) :
    ∃ reason, after.makeFolders chain = (.error reason, after) := by
  induction chain with
  | nil => simp [makeFolders] at h
  | cons path above ih =>
      rcases makeFolders_eq_error h with rfl | habove | ⟨habove, hlast⟩
      · exact ⟨reason, h⟩
      · obtain ⟨again, hagain⟩ := ih hchain.of_cons habove
        cases hensure : after.ensureFolder path with
        | error reason => exact makeFolders_stuck hensure (by rw [hagain])
        | ok final =>
            -- What is above the path would be there, and then it could be made.
            cases above with
            | nil => simp [makeFolders] at hagain
            | cons next more =>
                have hnext := List.rel_of_pairwise_cons hchain List.mem_cons_self _ _ hensure
                rw [makeFolders_of_isFolder hnext] at hagain
                cases hagain
      · exact makeFolders_stuck hlast (by rw [makeFolders_repeated habove])

/-! ### The folders above a path -/

/-- Pieces that lead nowhere may be left out. -/
theorem follow_filter (h : follow top here pieces = .ok found) :
    follow top here (pieces.filter fun piece => piece != "" && piece != ".") = .ok found := by
  induction pieces generalizing here with
  | nil => exact h
  | cons piece rest ih =>
      obtain ⟨entries, hhere⟩ := folder_of_follow_cons h
      rw [follow_cons_of_folder hhere] at h
      by_cases hstay : piece = "" ∨ piece = "."
      · rw [if_pos hstay] at h
        rw [List.filter_cons_of_neg (by simpa [or_iff_not_imp_left] using hstay)]
        exact ih h
      · rw [if_neg hstay] at h
        rw [List.filter_cons_of_pos (by simpa [not_or] using hstay), follow_cons_of_folder hhere,
          if_neg hstay]
        by_cases hlast : rest = []
        · subst hlast
          exact h
        · have hmore : rest.isEmpty = false := by simpa using hlast
          simp only [hmore, Bool.false_eq_true, if_false] at h
          split_ifs at h ⊢ with hup hlong hsome
          · exact ih h
          · exact ih h

theorem filter_trimmedPieces (path : Path) :
    (path.trimmedPieces.filter fun piece => piece != "" && piece != ".") = path.steps := by
  obtain ⟨empties, hpieces, hempties⟩ := pieces_eq_trimmedPieces path
  have hnone : (empties.filter fun piece => piece != "" && piece != ".") = [] := by
    rw [List.filter_eq_nil_iff]
    intro piece hpiece
    simp [hempties piece hpiece]
  rw [Path.steps, hpieces, List.filter_append, hnone, List.append_nil]

end Tree

namespace Path

variable {path : Path} {absolute : Bool} {steps rest : List String}

theorem mem_steps {step : String} : step ∈ path.steps ↔
    step ∈ path.pieces ∧ step ≠ "" ∧ step ≠ "." := by
  simp [Path.steps]

theorem isAbsolute_iff : path.isAbsolute = true ↔ ∃ rest, path.text.toList = '/' :: rest := by
  unfold isAbsolute
  cases path.text.toList with
  | nil => simp
  | cons c rest => simp

/-- What a shorter path is written with stands in the longer one, in the same order. -/
theorem ofSteps_sublist (hsteps : steps.Sublist path.steps)
    (habsolute : path.isAbsolute = absolute) :
    (ofSteps absolute steps).text.toList.Sublist path.text.toList := by
  cases absolute with
  | false =>
      have hpieces : steps.Sublist path.pieces := hsteps.trans List.filter_sublist
      simpa [ofSteps, pieces, Text.joined_pieces] using Text.joined_sublist "/" hpieces
  | true =>
      obtain ⟨rest, hrest⟩ := isAbsolute_iff.mp habsolute
      have hpieces : steps.Sublist ((Text.pieces '/' rest).map String.ofList) := by
        refine hsteps.trans ?_
        rw [Path.steps, pieces, hrest]
        simp only [Text.pieces, if_true, List.map_cons]
        rw [List.filter_cons_of_neg (by decide)]
        exact List.filter_sublist
      simpa [ofSteps, hrest, Text.joined_pieces, String.toList_append] using
        Text.joined_sublist "/" hpieces

theorem isLegal_ofSteps (hlegal : path.IsLegal) (hsteps : steps.Sublist path.steps)
    (habsolute : path.isAbsolute = absolute) (hne : (ofSteps absolute steps).text ≠ "") :
    (ofSteps absolute steps).IsLegal := by
  have hsublist := ofSteps_sublist hsteps habsolute
  refine ⟨hne, fun hnul => hlegal.no_nul (hsublist.subset hnul), ?_⟩
  exact (Text.utf8ByteSize_le_of_sublist hsublist).trans hlegal.short

theorem no_slash_of_mem_steps {step : String} (h : step ∈ path.steps) : '/' ∉ step.toList :=
  (mem_pieces (mem_steps.mp h).1).1

theorem pieces_ofSteps (absolute : Bool) (hsteps : steps.Sublist path.steps) (hne : steps ≠ []) :
    (ofSteps absolute steps).pieces = (if absolute then [""] else []) ++ steps := by
  have hjoined := Text.pieces_joined
    (fun step hstep => no_slash_of_mem_steps (hsteps.subset hstep)) hne
  cases absolute with
  | false => simpa [ofSteps, pieces] using hjoined
  | true => simpa [ofSteps, pieces, String.toList_append, Text.pieces] using hjoined

theorem pieces_ofSteps_nil : ∀ piece ∈ (ofSteps absolute []).pieces, piece = "" := by
  cases absolute <;> decide

theorem steps_ofSteps (hsteps : steps.Sublist path.steps) :
    (ofSteps absolute steps).steps = steps := by
  have hfilter : (steps.filter fun piece => piece != "" && piece != ".") = steps := by
    rw [List.filter_eq_self]
    intro step hstep
    simpa using (mem_steps.mp (hsteps.subset hstep)).2
  by_cases hne : steps = []
  · subst hne
    rw [Path.steps, List.filter_eq_nil_iff]
    intro piece hpiece
    simp [pieces_ofSteps_nil piece hpiece]
  · rw [Path.steps, pieces_ofSteps absolute hsteps hne, List.filter_append, hfilter]
    cases absolute <;> rfl

/-- A path above another one takes some of its first steps. -/
theorem steps_prefix_of_mem_parents {above : Path} (h : above ∈ path.parents) :
    above.steps <+: path.steps := by
  obtain ⟨hmem, -⟩ := List.mem_filter.mp h
  obtain ⟨n, -, rfl⟩ := List.mem_map.mp hmem
  rw [steps_ofSteps (List.take_sublist n path.steps)]
  exact List.take_prefix n path.steps

theorem isAbsolute_ofSteps (hsteps : steps.Sublist path.steps)
    (hne : (ofSteps absolute steps).text ≠ "") :
    (ofSteps absolute steps).isAbsolute = absolute := by
  cases absolute with
  | true =>
      rw [isAbsolute_iff]
      exact ⟨(Text.joined "/" steps).toList, by simp [ofSteps, String.toList_append]⟩
  | false =>
      rw [Bool.eq_false_iff]
      intro habsolute
      obtain ⟨rest, hrest⟩ := isAbsolute_iff.mp habsolute
      have hnil : steps ≠ [] := by
        rintro rfl
        exact hne rfl
      have hpieces := pieces_ofSteps false hsteps hnil
      rw [pieces, hrest] at hpieces
      have hempty : "" ∈ steps := by
        simp only [Text.pieces, if_true, List.map_cons, Bool.false_eq_true, if_false,
          List.nil_append] at hpieces
        simp [← hpieces]
      exact (mem_steps.mp (hsteps.subset hempty)).2.1 rfl

end Path

namespace Tree

variable {top : Tree} {path : Path} {absolute : Bool} {steps rest : List String}

/-- A path that is there or can be made has a folder at each path with fewer steps. -/
theorem needsFolder_ofSteps (hsteps : path.steps = steps ++ rest) (hrest : rest ≠ [])
    (habsolute : path.isAbsolute = absolute) (hne : (Path.ofSteps absolute steps).text ≠ "") :
    NeedsFolder path (Path.ofSteps absolute steps) := by
  intro top after hensure
  obtain ⟨hlegal, found, hfollow⟩ := follow_of_ensureFolder hensure
  have hall := follow_filter hfollow
  rw [filter_trimmedPieces, hsteps] at hall
  obtain ⟨location, entries, hfolder, -⟩ := folder_of_follow_append hall hrest
  have hsublist : steps.Sublist path.steps := by
    rw [hsteps]
    exact List.sublist_append_left steps rest
  refine isFolder_iff.mpr ⟨location, entries, place_eq_ok.mpr
    ⟨Path.isLegal_ofSteps hlegal hsublist habsolute hne, ?_⟩⟩
  by_cases hnil : steps = []
  · subst hnil
    obtain ⟨node, htop, hplace⟩ := follow_nil_eq_ok.mp hfolder
    cases hplace
    exact follow_empties Path.pieces_ofSteps_nil htop
  · obtain ⟨first, more, rfl⟩ := List.exists_cons_of_ne_nil hnil
    obtain ⟨top, htop⟩ := folder_of_follow_cons hfolder
    rw [Path.pieces_ofSteps absolute hsublist hnil]
    cases absolute with
    | false => exact hfolder
    | true =>
        change follow _ [] ("" :: first :: more) = _
        rw [follow_cons_of_folder htop, if_pos (.inl rfl), hfolder]

theorem pairwise_parents (path : Path) : (path :: path.parents).Pairwise NeedsFolder := by
  have hsublist (n : Nat) : (path.steps.take n).Sublist path.steps := List.take_sublist n _
  rw [List.pairwise_cons]
  constructor
  · intro above habove
    obtain ⟨hmem, hne⟩ := List.mem_filter.mp habove
    obtain ⟨n, hn, rfl⟩ := List.mem_map.mp hmem
    rw [List.mem_reverse, List.mem_range] at hn
    exact needsFolder_ofSteps (List.take_append_drop n path.steps).symm
      (by simpa [List.drop_eq_nil_iff] using hn) rfl (by simpa using hne)
  · simp only [Path.parents, List.pairwise_filter, List.pairwise_map, List.pairwise_reverse]
    refine List.pairwise_lt_range.imp_of_mem fun {n m} hn hm hlt hne' hne => ?_
    rw [List.mem_range] at hm
    have hsplit : path.steps.take m = path.steps.take n ++ (path.steps.take m).drop n := by
      conv_lhs => rw [← List.take_append_drop n (path.steps.take m)]
      rw [List.take_take, Nat.min_eq_left hlt.le]
    refine needsFolder_ofSteps ((Path.steps_ofSteps (hsublist m)).trans hsplit) ?_
      (Path.isAbsolute_ofSteps (hsublist m) (by simpa using hne')) (by simpa using hne)
    rw [← List.length_pos_iff, List.length_drop, List.length_take]
    omega

end Tree

namespace Disk

variable {path : Path} {tree after : Tree} {reason : IoError}

/-- A path of a folder that is there; an empty path asks for none. -/
def HasFolder (path : Path) (tree : Tree) : Prop :=
  path.text = "" ∨ tree.isFolder path = true

theorem HasFolder.of_grown {touched : List String → Prop} (h : HasFolder path tree)
    (hgrown : Tree.Grown touched tree after) : HasFolder path after :=
  h.imp_right (Tree.isFolder_of_grown hgrown)

theorem makeFolders_of_hasFolder (h : HasFolder path tree) :
    makeFolders path tree = .ok () tree := by
  unfold makeFolders
  rcases h with hempty | hfolder
  · rw [if_pos (String.isEmpty_iff.mpr hempty)]
  · split_ifs
    · rfl
    · rw [Tree.makeFolders_of_isFolder hfolder]

theorem makeFolders_eq_ok (h : makeFolders path tree = .ok () after) :
    Tree.Written (fun _ => False) tree after ∧ HasFolder path after := by
  unfold makeFolders at h
  split_ifs at h with hempty
  · cases h
    exact ⟨.refl, .inl (String.isEmpty_iff.mp hempty)⟩
  · have hwritten := Tree.written_makeFolders tree (path :: path.parents)
    cases hmake : tree.makeFolders (path :: path.parents) with
    | mk outcome made =>
        cases outcome with
        | error reason => simp [hmake] at h
        | ok _ =>
            obtain rfl : made = after := by simpa [hmake] using h
            rw [hmake] at hwritten
            exact ⟨hwritten, .inr (Tree.isFolder_of_makeFolders hmake)⟩

/-- What each folder on the way keeps when it is made is kept when all of them are. -/
theorem makeFolders_keeps (kept : Tree → Prop) (hstart : kept tree)
    (hstep : ∀ above ∈ path :: path.parents, ∀ tree next, kept tree →
      tree.ensureFolder above = .ok next → kept next)
    (h : makeFolders path tree = .ok () after) : kept after := by
  have hkept := Tree.makeFolders_keeps kept hstart hstep
  unfold makeFolders at h
  split_ifs at h with hempty
  · cases h
    exact hstart
  · cases hmake : tree.makeFolders (path :: path.parents) with
    | mk outcome made =>
        cases outcome with
        | error reason => simp [hmake] at h
        | ok _ =>
            obtain rfl : made = after := by simpa [hmake] using h
            rwa [hmake] at hkept

theorem makeFolders_of_ensureFolder (h : tree.ensureFolder path = .ok after) :
    makeFolders path tree = .ok () after := by
  have hne := (Tree.follow_of_ensureFolder h).1.ne_empty
  simp [makeFolders, hne, Tree.makeFolders, h]

/-- Folders that cannot be made cannot be made the next time either, and then none is. -/
theorem makeFolders_eq_error (h : makeFolders path tree = .error reason after) :
    Tree.Written (fun _ => False) tree after ∧
      ∃ reason, makeFolders path after = .error reason after := by
  unfold makeFolders at h ⊢
  split_ifs at h ⊢ with hempty
  have hwritten := Tree.written_makeFolders tree (path :: path.parents)
  cases hmake : tree.makeFolders (path :: path.parents) with
  | mk outcome made =>
      cases outcome with
      | ok _ => simp [hmake] at h
      | error reason =>
          simp only [hmake, EStateM.Result.error.injEq] at h
          obtain ⟨-, rfl⟩ := h
          rw [hmake] at hwritten
          obtain ⟨again, hagain⟩ := Tree.makeFolders_again (Tree.pairwise_parents path) hmake
          exact ⟨hwritten, again, by rw [hagain]⟩

end Disk

end DictionaryDdl
