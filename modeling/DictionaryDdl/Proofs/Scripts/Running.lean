import DictionaryDdl.Proofs.Files.Folders
import DictionaryDdl.Scripts

/-!
Running a list of actions on a tree. A run makes folders and touches the files its writes lead to,
and nothing else; of several writes to one file the last one counts. A run that went well, made
again on the tree it left or on one with more folders, finds its folders and files there and leaves
the tree as it is; a run that failed fails again in the same place.
-/

namespace DictionaryDdl

/-- The tree that an action leaves, whether it fails or not. -/
def Disk.treeAfter {ε α : Type} (action : Disk ε α) (tree : Tree) : Tree :=
  match action tree with
  | .ok _ after => after
  | .error _ after => after

/-- Why an action fails, if it does. -/
def Disk.failure? {ε α : Type} (action : Disk ε α) (tree : Tree) : Option ε :=
  match action tree with
  | .ok _ _ => none
  | .error reason _ => some reason

theorem Disk.failure?_eq_none {ε α : Type} {action : Disk ε α} {tree : Tree} :
    action.failure? tree = none ↔ ∃ result after, action tree = .ok result after := by
  unfold failure?
  cases action tree <;> simp

theorem Disk.failure?_eq_some {ε α : Type} {action : Disk ε α} {tree : Tree} {reason : ε} :
    action.failure? tree = some reason ↔ ∃ after, action tree = .error reason after := by
  unfold failure?
  cases action tree <;> simp

namespace Scripts

open DictionaryDdl.Tree

variable {action : Action} {actions before after more : List Action} {tree next final later : Tree}
  {touched : List String → Prop} {path : Path} {text : String} {location : List String}
  {content : ByteArray} {reason : IoError}

/-- Whether some of the writes lead to a location. -/
def Touches (actions : List Action) (tree : Tree) (location : List String) : Prop :=
  ∃ path text, .write path text ∈ actions ∧ tree.Reaches path location

theorem Touches.of_grown (h : Touches actions tree location) (hgrown : Grown touched tree next) :
    Touches actions next location := by
  obtain ⟨path, text, hmem, hreaches⟩ := h
  exact ⟨path, text, hmem, hreaches.of_grown hgrown⟩

theorem Touches.of_subset (h : Touches actions tree location) (hsubset : actions ⊆ more) :
    Touches more tree location := by
  obtain ⟨path, text, hmem, hreaches⟩ := h
  exact ⟨path, text, hsubset hmem, hreaches⟩

theorem Touches.of_cons_makeFolders
    (h : Touches (.makeFolders path :: actions) tree location) :
    Touches actions tree location := by
  obtain ⟨target, text, hmem, hreaches⟩ := h
  rcases List.mem_cons.mp hmem with heq | hmem
  · cases heq
  · exact ⟨target, text, hmem, hreaches⟩

theorem room_of_touches (hfile : tree.at? location = some (.file content))
    (h : Touches actions tree location) : tree.Room location := by
  obtain ⟨path, text, -, node, hplace⟩ := h
  have hnode := at?_of_place hplace
  rw [hfile] at hnode
  cases hnode
  exact room_of_place_file hplace

/-- An action that finds its folder or its file there. -/
def Action.Settled (tree : Tree) : Action → Prop
  | .makeFolders path => Disk.HasFolder path tree
  | .write path _ => ∃ location content, tree.place path = .ok (.taken location (.file content))

theorem Action.Settled.of_grown (h : action.Settled tree) (hgrown : Grown touched tree next) :
    action.Settled next := by
  cases action with
  | makeFolders path => exact Disk.HasFolder.of_grown h hgrown
  | write path text =>
      obtain ⟨location, content, hplace⟩ := h
      exact ⟨location, place_file_of_grown hgrown hplace⟩

/-! ### One action -/

theorem run_write_eq_ok (h : (Action.write path text).run tree = .ok () next) :
    ∃ location, tree.Room location ∧ next = put location (.file (Text.octets text)) tree ∧
      next.place path = .ok (.taken location (.file (Text.octets text))) := by
  cases hwrite : tree.writeBytes path (Text.octets text) with
  | error reason =>
      simp [Action.run, Disk.writeText, Disk.write, Disk.ofStep, hwrite] at h
  | ok written =>
      obtain rfl : written = next := by
        simpa [Action.run, Disk.writeText, Disk.write, Disk.ofStep, hwrite] using h
      exact writeBytes_eq_ok hwrite

theorem run_write_eq_error (h : (Action.write path text).run tree = .error reason next) :
    next = tree := by
  cases hwrite : tree.writeBytes path (Text.octets text) with
  | error reason =>
      simp only [Action.run, Disk.writeText, Disk.write, Disk.ofStep, hwrite,
        EStateM.Result.error.injEq] at h
      exact h.2.symm
  | ok written => simp [Action.run, Disk.writeText, Disk.write, Disk.ofStep, hwrite] at h

theorem run_write_of_writeBytes (h : tree.writeBytes path (Text.octets text) = .ok next) :
    (Action.write path text).run tree = .ok () next := by
  simp [Action.run, Disk.writeText, Disk.write, Disk.ofStep, h]

theorem run_write_of_place (h : tree.place path = .ok (.taken location (.file content))) :
    (Action.write path text).run tree = .ok () (put location (.file (Text.octets text)) tree) :=
  run_write_of_writeBytes (writeBytes_of_place h)

theorem run_action_eq_ok (h : action.run tree = .ok () next) :
    Written (Touches [action] next) tree next ∧ action.Settled next := by
  cases action with
  | makeFolders path =>
      obtain ⟨hwritten, hfolder⟩ := Disk.makeFolders_eq_ok h
      exact ⟨hwritten.mono fun _ => False.elim, hfolder⟩
  | write path text =>
      obtain ⟨location, hroom, rfl, hplace⟩ := run_write_eq_ok h
      refine ⟨Written.refl.file hroom ?_, location, _, hplace⟩
      exact ⟨path, text, List.mem_cons_self, _, hplace⟩

/-- An action that fails makes folders at most, and then it fails again. -/
theorem run_action_eq_error (h : action.run tree = .error reason next) :
    Written (fun _ => False) tree next ∧ ∃ reason, action.run next = .error reason next := by
  cases action with
  | makeFolders path => exact Disk.makeFolders_eq_error h
  | write path text =>
      obtain rfl := run_write_eq_error h
      exact ⟨.refl, reason, h⟩

/-! ### A run -/

theorem run_cons (action : Action) (more : List Action) (tree : Tree) :
    (action :: more).forM Action.run tree =
      match action.run tree with
      | .ok _ next => more.forM Action.run next
      | .error reason next => .error reason next := by
  change EStateM.bind action.run (fun _ => more.forM Action.run) tree = _
  unfold EStateM.bind
  cases action.run tree <;> rfl

theorem run_cons_eq_ok (h : (action :: more).forM Action.run tree = .ok () final) :
    ∃ next, action.run tree = .ok () next ∧ more.forM Action.run next = .ok () final := by
  rw [run_cons] at h
  cases haction : action.run tree with
  | error reason next => simp [haction] at h
  | ok _ next => exact ⟨next, rfl, by simpa [haction] using h⟩

theorem run_append_eq_ok (h : (before ++ after).forM Action.run tree = .ok () final) :
    ∃ next, before.forM Action.run tree = .ok () next ∧
      after.forM Action.run next = .ok () final := by
  induction before generalizing tree with
  | nil => exact ⟨tree, rfl, h⟩
  | cons action more ih =>
      obtain ⟨next, hnext, hmore⟩ := run_cons_eq_ok h
      obtain ⟨middle, hmiddle, hafter⟩ := ih hmore
      exact ⟨middle, by rw [run_cons, hnext]; exact hmiddle, hafter⟩

theorem run_append_of_eq_ok (h : before.forM Action.run tree = .ok () next) :
    (before ++ after).forM Action.run tree = after.forM Action.run next := by
  induction before generalizing tree with
  | nil =>
      cases h
      rfl
  | cons action more ih =>
      obtain ⟨middle, hmiddle, hmore⟩ := run_cons_eq_ok h
      rw [List.cons_append, run_cons, hmiddle]
      exact ih hmore

/-- A run that fails goes well up to the action that fails. -/
theorem run_eq_error (h : actions.forM Action.run tree = .error reason final) :
    ∃ before action after next, actions = before ++ action :: after ∧
      before.forM Action.run tree = .ok () next ∧ action.run next = .error reason final := by
  induction actions generalizing tree with
  | nil => cases h
  | cons action more ih =>
      rw [run_cons] at h
      cases haction : action.run tree with
      | error reason' next =>
          rw [haction] at h
          cases h
          exact ⟨[], action, more, tree, rfl, rfl, haction⟩
      | ok _ next =>
          rw [haction] at h
          obtain ⟨before, failing, after, last, rfl, hbefore, hfailing⟩ := ih h
          refine ⟨action :: before, failing, after, last, rfl, ?_, hfailing⟩
          rw [run_cons, haction]
          exact hbefore

theorem run_eq_ok (h : actions.forM Action.run tree = .ok () final) :
    Written (Touches actions final) tree final ∧ ∀ action ∈ actions, action.Settled final := by
  induction actions generalizing tree with
  | nil =>
      cases h
      exact ⟨.refl, by simp⟩
  | cons action more ih =>
      obtain ⟨next, haction, hmore⟩ := run_cons_eq_ok h
      obtain ⟨hfirst, hsettled⟩ := run_action_eq_ok haction
      obtain ⟨hrest, hall⟩ := ih hmore
      constructor
      · have hstep : Written (Touches (action :: more) final) tree next :=
          hfirst.mono fun _ htouched =>
            (htouched.of_grown hrest.grown).of_subset (by simp)
        exact hstep.trans (hrest.mono fun _ htouched =>
          htouched.of_subset (List.subset_cons_self action more))
      · intro other hother
        rcases List.mem_cons.mp hother with rfl | hother
        · exact hsettled.of_grown hrest.grown
        · exact hall other hother

/-- Whether it fails or not, a run makes folders and touches the files of its writes. -/
theorem written_run (actions : List Action) (tree : Tree) :
    Written (Touches actions (Disk.treeAfter (actions.forM Action.run) tree)) tree
      (Disk.treeAfter (actions.forM Action.run) tree) := by
  unfold Disk.treeAfter
  cases hrun : actions.forM Action.run tree with
  | ok _ final => exact (run_eq_ok hrun).1
  | error reason final =>
      obtain ⟨before, action, after, next, rfl, hbefore, haction⟩ := run_eq_error hrun
      have hlast := (run_action_eq_error haction).1
      have hfirst := (run_eq_ok hbefore).1.mono fun location htouched =>
        (htouched.of_grown hlast.grown).of_subset (List.subset_append_left before (action :: after))
      exact hfirst.trans (hlast.mono fun _ => False.elim)

/-- A file has the text of the last write that leads to it. -/
theorem readBytes_of_last_write
    (h : (before ++ .write path text :: after).forM Action.run tree = .ok () final)
    (hlast : ∀ location, final.Reaches path location → ¬ Touches after final location) :
    final.readBytes path = .ok (Text.octets text) := by
  obtain ⟨middle, -, hrest⟩ := run_append_eq_ok h
  obtain ⟨next, hwrite, hafter⟩ := run_cons_eq_ok hrest
  obtain ⟨location, -, -, hplace⟩ := run_write_eq_ok hwrite
  have hgrown := (run_eq_ok hafter).1.grown
  obtain ⟨content, hcontent⟩ := place_file_of_grown hgrown hplace
  have huntouched := hgrown.files location (hlast location ⟨_, hcontent⟩) (Text.octets text)
  have hfile := huntouched.mpr (at?_of_place hplace)
  rw [at?_of_place hcontent] at hfile
  cases hfile
  exact readBytes_eq_ok.mpr ⟨location, hcontent⟩

/-! ### A second run -/

/-- Where all folders and files are there already, what a file that is written had before does not
count. -/
theorem run_put_of_touches (hsettled : ∀ action ∈ actions, action.Settled tree)
    (hfile : tree.kindAt location = some .file) (htouches : Touches actions tree location) :
    actions.forM Action.run (put location (.file content) tree) = actions.forM Action.run tree := by
  induction actions generalizing tree with
  | nil =>
      obtain ⟨path, text, hmem, -⟩ := htouches
      simp at hmem
  | cons action more ih =>
      obtain ⟨old, hold⟩ := kindAt_eq_file.mp hfile
      have hgrown : Grown (· = location) tree (put location (.file content) tree) :=
        (room_of_touches hold htouches).grown_file content
      have hhead := hsettled action List.mem_cons_self
      have hmore (other : Action) (hother : other ∈ more) : other.Settled tree :=
        hsettled other (List.mem_cons_of_mem action hother)
      rw [run_cons, run_cons]
      cases action with
      | makeFolders path =>
          have hfolder : Disk.HasFolder path tree := hhead
          simp only [Action.run, Disk.makeFolders_of_hasFolder hfolder,
            Disk.makeFolders_of_hasFolder (hfolder.of_grown hgrown)]
          exact ih hmore hfile (htouches.of_cons_makeFolders)
      | write path text =>
          obtain ⟨place, found, hplace⟩ := hhead
          obtain ⟨found', hplace'⟩ := place_file_of_grown hgrown hplace
          simp only [run_write_of_place hplace, run_write_of_place hplace']
          by_cases hsame : place = location
          · rw [hsame, put_put]
          · have hother := at?_of_place hplace
            rw [put_comm (by simp [hother]) (by simp [hold])
              (not_prefix_of_file hother (by simp [hold]) hsame)
              (not_prefix_of_file hold (by simp [hother]) (Ne.symm hsame))]
            have hgrown' : Grown (· = place) tree (put place (.file (Text.octets text)) tree) :=
              (room_of_place_file hplace).grown_file _
            refine ih (fun other hother => (hmore other hother).of_grown hgrown')
              (hgrown'.kinds _ _ hfile) ?_
            obtain ⟨path', text', hmem, hreaches⟩ := htouches
            rcases List.mem_cons.mp hmem with heq | hmem
            · cases heq
              exact absurd (Reaches.unique ⟨_, hplace⟩ hreaches) hsame
            · exact ⟨path', text', hmem, hreaches.of_grown hgrown'⟩

/-- What a run has done is not done again, also where more folders have come since. -/
theorem run_again (h : actions.forM Action.run tree = .ok () final)
    (hgrown : Grown (fun _ => False) final later) :
    actions.forM Action.run later = .ok () later := by
  induction actions generalizing tree with
  | nil => rfl
  | cons action more ih =>
      obtain ⟨next, haction, hmore⟩ := run_cons_eq_ok h
      obtain ⟨hwritten, hall⟩ := run_eq_ok hmore
      have hlater (other : Action) (hother : other ∈ more) : other.Settled later :=
        (hall other hother).of_grown hgrown
      rw [run_cons]
      cases action with
      | makeFolders path =>
          have hfolder : Disk.HasFolder path next := (run_action_eq_ok haction).2
          simp only [Action.run,
            Disk.makeFolders_of_hasFolder ((hfolder.of_grown hwritten.grown).of_grown hgrown)]
          exact ih hmore
      | write path text =>
          obtain ⟨location, -, -, hplace⟩ := run_write_eq_ok haction
          obtain ⟨content, hfinal⟩ := place_file_of_grown hwritten.grown hplace
          obtain ⟨content', hplace'⟩ := place_file_of_grown hgrown hfinal
          simp only [run_write_of_place hplace']
          by_cases htouches : Touches more later location
          · rw [run_put_of_touches hlater
              (kindAt_eq_file.mpr ⟨_, at?_of_place hplace'⟩) htouches]
            exact ih hmore
          · have huntouched : ¬ Touches more final location := fun htouched =>
              htouches (htouched.of_grown hgrown)
            have hfile := (hwritten.grown.files location huntouched _).mpr (at?_of_place hplace)
            have hlast := (hgrown.files location not_false _).mpr hfile
            rw [put_of_at? hlast]
            exact ih hmore

/-- A second run leaves the tree as the first one left it, and it fails exactly if that one did. -/
theorem run_twice (actions : List Action) (tree : Tree) :
    let first := Disk.treeAfter (actions.forM Action.run) tree
    (actions.forM Action.run tree = .ok () first ∧
        actions.forM Action.run first = .ok () first) ∨
      ∃ reason reason', actions.forM Action.run tree = .error reason first ∧
        actions.forM Action.run first = .error reason' first := by
  unfold Disk.treeAfter
  cases hrun : actions.forM Action.run tree with
  | ok _ final => exact .inl ⟨rfl, run_again hrun (.refl _ _)⟩
  | error reason final =>
      obtain ⟨before, action, after, next, rfl, hbefore, haction⟩ := run_eq_error hrun
      obtain ⟨hwritten, reason', hagain⟩ := run_action_eq_error haction
      refine .inr ⟨reason, reason', rfl, ?_⟩
      rw [run_append_of_eq_ok (run_again hbefore hwritten.grown), run_cons, hagain]

end Scripts

end DictionaryDdl
