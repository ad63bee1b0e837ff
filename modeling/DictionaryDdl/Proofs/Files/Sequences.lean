import DictionaryDdl.Proofs.Files.Writing

/-!
Actions on a tree, as `do` blocks put them together. A sequence ends well if its steps do one after
another, each on the tree that the one before it left; what only looks at the tree leaves it alone,
and an error in other words is an error. A file is copied as its content is written, as long as it
is not copied onto itself.
-/

namespace DictionaryDdl.Disk

open DictionaryDdl.Tree

variable {ε ε' α β : Type} {tree next final : Tree} {path source target : Path}
  {content : ByteArray} {location : List String}

theorem pure_eq_ok {a b : α} : (pure a : Disk ε α) tree = .ok b final ↔ a = b ∧ tree = final := by
  change EStateM.Result.ok a tree = .ok b final ↔ _
  rw [EStateM.Result.ok.injEq]

theorem bind_eq_ok {action : Disk ε α} {more : α → Disk ε β} {b : β} :
    (action >>= more) tree = .ok b final ↔
      ∃ a next, action tree = .ok a next ∧ more a next = .ok b final := by
  change EStateM.bind action more tree = _ ↔ _
  unfold EStateM.bind
  cases action tree with
  | ok a next =>
      constructor
      · intro h
        exact ⟨a, next, rfl, h⟩
      · rintro ⟨a, next, hfirst, h⟩
        cases hfirst
        exact h
  | error reason next =>
      constructor
      · intro h
        cases h
      · rintro ⟨a, next, hfirst, -⟩
        cases hfirst

theorem look_eq_ok {view : Tree → Except ε α} {a : α} :
    look view tree = .ok a final ↔ view tree = .ok a ∧ tree = final := by
  unfold look
  cases view tree with
  | ok found => simp
  | error reason => simp

/-- What is looked at first leaves the tree to the rest. -/
theorem look_bind_eq_ok {view : Tree → Except ε α} {more : α → Disk ε β} {b : β} :
    (look view >>= more) tree = .ok b final ↔
      ∃ a, view tree = .ok a ∧ more a tree = .ok b final := by
  rw [bind_eq_ok]
  simp only [look_eq_ok]
  constructor
  · rintro ⟨a, _, ⟨hview, rfl⟩, h⟩
    exact ⟨a, hview, h⟩
  · rintro ⟨a, hview, h⟩
    exact ⟨a, tree, ⟨hview, rfl⟩, h⟩

/-- What is given after an action leaves the tree to the action. -/
theorem bind_pure_eq_ok {action : Disk ε Unit} {given b : β} :
    (action >>= fun _ => pure given) tree = .ok b final ↔
      action tree = .ok () final ∧ b = given := by
  rw [bind_eq_ok]
  simp only [pure_eq_ok]
  constructor
  · rintro ⟨_, _, h, rfl, rfl⟩
    exact ⟨h, rfl⟩
  · rintro ⟨h, rfl⟩
    exact ⟨(), final, h, rfl, rfl⟩

theorem discard_look_eq_ok {view : Tree → Except ε α} :
    (discard (look view)) tree = .ok () final ↔ ∃ a, tree = final ∧ view tree = .ok a := by
  change EStateM.map (fun _ => ()) (look view) tree = .ok () final ↔ _
  unfold EStateM.map look
  dsimp only
  cases view tree with
  | ok found => simp
  | error reason => simp

theorem mapError_eq_ok {rephrase : ε → ε'} {action : Disk ε α} {a : α} :
    action.mapError rephrase tree = .ok a final ↔ action tree = .ok a final := by
  unfold mapError
  cases action tree with
  | ok found next => simp
  | error reason next => simp

theorem write_eq_ok : write path content tree = .ok () final ↔
    tree.writeBytes path content = .ok final := by
  unfold write ofStep
  dsimp only
  cases tree.writeBytes path content with
  | ok written => simp
  | error reason => simp

/-! ### Lists of actions -/

theorem forM_cons_eq_ok {run : α → Disk ε Unit} {first : α} {more : List α} :
    (first :: more).forM run tree = .ok () final ↔
      ∃ next, run first tree = .ok () next ∧ more.forM run next = .ok () final := by
  change (run first >>= fun _ => more.forM run) tree = .ok () final ↔ _
  rw [bind_eq_ok]
  constructor
  · rintro ⟨_, next, hfirst, hmore⟩
    exact ⟨next, hfirst, hmore⟩
  · rintro ⟨next, hfirst, hmore⟩
    exact ⟨(), next, hfirst, hmore⟩

theorem forM_nil_eq_ok {run : α → Disk ε Unit} :
    ([] : List α).forM run tree = .ok () final ↔ tree = final := by
  change (pure () : Disk ε Unit) tree = .ok () final ↔ _
  rw [pure_eq_ok, and_iff_right rfl]

/-- What does nothing comes to what it gives. -/
theorem pure_eq_ok_iff_forM_nil {run : α → Disk ε Unit} {given b : β} :
    (pure given : Disk ε β) tree = .ok b final ↔
      ([] : List α).forM run tree = .ok () final ∧ b = given := by
  rw [pure_eq_ok, forM_nil_eq_ok]
  exact and_comm.trans (and_congr_right fun _ => eq_comm)

theorem forM_singleton_eq_ok {run : α → Disk ε Unit} {only : α} :
    [only].forM run tree = .ok () final ↔ run only tree = .ok () final := by
  simp only [forM_cons_eq_ok, forM_nil_eq_ok, exists_eq_right]

theorem forM_append_eq_ok {run : α → Disk ε Unit} {before after : List α} :
    (before ++ after).forM run tree = .ok () final ↔
      ∃ next, before.forM run tree = .ok () next ∧ after.forM run next = .ok () final := by
  induction before generalizing tree with
  | nil =>
      constructor
      · intro h
        exact ⟨tree, rfl, h⟩
      · rintro ⟨next, hnil, h⟩
        cases hnil
        exact h
  | cons first more ih =>
      rw [List.cons_append, forM_cons_eq_ok]
      constructor
      · rintro ⟨next, hfirst, hrest⟩
        obtain ⟨middle, hmore, hafter⟩ := ih.mp hrest
        exact ⟨middle, forM_cons_eq_ok.mpr ⟨next, hfirst, hmore⟩, hafter⟩
      · rintro ⟨middle, hbefore, hafter⟩
        obtain ⟨next, hfirst, hmore⟩ := forM_cons_eq_ok.mp hbefore
        exact ⟨next, hfirst, ih.mpr ⟨middle, hmore, hafter⟩⟩

theorem foldlM_cons_eq_ok {step : β → α → Disk ε β} {start last : β} {first : α} {more : List α} :
    (first :: more).foldlM step start tree = .ok last final ↔
      ∃ between next, step start first tree = .ok between next ∧
        more.foldlM step between next = .ok last final := by
  rw [List.foldlM_cons, bind_eq_ok]

/-! ### Copying -/

theorem copy_eq_ok (happart : ∀ location, tree.Reaches source location →
      ¬ tree.Accepts target location) :
    copy source target tree = .ok () final ↔
      ∃ content, tree.readBytes source = .ok content ∧
        tree.writeBytes target content = .ok final := by
  -- The source is read once more after the target was emptied, with the same content.
  have hagain {content : ByteArray} {location : List String}
      (hread : tree.readBytes source = .ok content) (haccepts : tree.Accepts target location) :
      (put location (.file .empty) tree).readBytes source = .ok content := by
    obtain ⟨place, hplace⟩ := readBytes_eq_ok.mp hread
    have hgrown := haccepts.room.grown_file .empty
    obtain ⟨found, hfound⟩ := place_file_of_grown hgrown hplace
    have hne : place ≠ location := by
      rintro rfl
      exact happart _ ⟨_, hplace⟩ haccepts
    have hsame := (hgrown.files place hne found).mp (at?_of_place hfound)
    rw [at?_of_place hplace] at hsame
    cases hsame
    exact readBytes_eq_ok.mpr ⟨place, hfound⟩
  have htwice {content : ByteArray} {location : List String}
      (haccepts : tree.Accepts target location) :
      (put location (.file .empty) tree).writeBytes target content =
        .ok (put location (.file content) tree) := by
    rw [← put_put location (.file content) (.file .empty) tree]
    exact writeBytes_iff.mpr ⟨location, haccepts.put_file .empty, rfl⟩
  unfold copy
  constructor
  · intro h
    obtain ⟨_, start, hlook, h⟩ := bind_eq_ok.mp h
    obtain ⟨content, rfl, hread⟩ := discard_look_eq_ok.mp hlook
    obtain ⟨_, emptied, hwrite, h⟩ := bind_eq_ok.mp h
    obtain ⟨location, haccepts, rfl⟩ := writeBytes_iff.mp (write_eq_ok.mp hwrite)
    obtain ⟨content', hread', h⟩ := look_bind_eq_ok.mp h
    rw [hagain hread haccepts] at hread'
    cases hread'
    rw [write_eq_ok, htwice haccepts] at h
    cases h
    exact ⟨content, hread, writeBytes_iff.mpr ⟨location, haccepts, rfl⟩⟩
  · rintro ⟨content, hread, hwrite⟩
    obtain ⟨location, haccepts, rfl⟩ := writeBytes_iff.mp hwrite
    have hemptied : tree.writeBytes target .empty = .ok (put location (.file .empty) tree) :=
      writeBytes_iff.mpr ⟨location, haccepts, rfl⟩
    refine bind_eq_ok.mpr ⟨(), tree, discard_look_eq_ok.mpr ⟨content, rfl, hread⟩, ?_⟩
    refine bind_eq_ok.mpr ⟨(), _, write_eq_ok.mpr hemptied, ?_⟩
    refine look_bind_eq_ok.mpr ⟨content, hagain hread haccepts, ?_⟩
    exact write_eq_ok.mpr (htwice haccepts)

end DictionaryDdl.Disk
