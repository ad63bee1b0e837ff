import DictionaryDdl.Proofs.Extraction.Site
import DictionaryDdl.Proofs.Files.Sequences

/-!
An extraction as a list of steps. What is written can be told from the tree as it was in the
beginning: the folders that are made, and the documents that are put into them with their content.
A run does these steps one after another, and its summary counts what the files came to; a source
that cannot be read ends it. Only the steps can fail for the tree as it is by then.
-/

namespace DictionaryDdl.Extraction

open DictionaryDdl.Tree Discovery

/-- What becomes of a file. An auxiliary tablespace is passed over. -/
inductive Outcome where
  | copied
  | extracted
  | empty
  | failed
  | passed
  deriving DecidableEq

/-- The summary with one more file. -/
def Summary.after (summary : Summary) : Outcome → Summary
  | .copied => { summary with copied := summary.copied + 1 }
  | .extracted => { summary with extracted := summary.extracted + 1 }
  | .empty => { summary with empty := summary.empty + 1 }
  | .failed => { summary with failed := summary.failed + 1 }
  | .passed => summary

theorem foldl_after (outcomes : List Outcome) (summary : Summary) :
    outcomes.foldl Summary.after summary =
      { copied := summary.copied + outcomes.count .copied
        extracted := summary.extracted + outcomes.count .extracted
        empty := summary.empty + outcomes.count .empty
        failed := summary.failed + outcomes.count .failed } := by
  induction outcomes generalizing summary with
  | nil => rfl
  | cons outcome more ih =>
      rw [List.foldl_cons, ih]
      cases outcome <;> simp [Summary.after, Nat.add_assoc, Nat.add_comm 1]

/-- A document that is put into the output. -/
structure Delivery where
  target : Path
  content : ByteArray

/-- One change of the output. -/
inductive Step where
  | folder (path : Path)
  | deliver (delivery : Delivery)

namespace Step

variable {step : Step} {steps before after : List Step} {tree next final : Tree}
  {delivery : Delivery} {location : List String} {touched : List String → Prop}

def run : Step → Disk AccessError Unit
  | folder path => (Disk.makeFolders path).mapError (.io path)
  | deliver delivery =>
      (Disk.write delivery.target delivery.content).mapError (.io delivery.target)

/-- Whether some of the documents go to a location. -/
def Touches (steps : List Step) (tree : Tree) (location : List String) : Prop :=
  ∃ delivery, .deliver delivery ∈ steps ∧ tree.Reaches delivery.target location

theorem Touches.of_grown (h : Touches steps tree location) (hgrown : Grown touched tree next) :
    Touches steps next location := by
  obtain ⟨delivery, hmem, hreaches⟩ := h
  exact ⟨delivery, hmem, hreaches.of_grown hgrown⟩

theorem Touches.of_subset (h : Touches before tree location) (hsubset : before ⊆ after) :
    Touches after tree location := by
  obtain ⟨delivery, hmem, hreaches⟩ := h
  exact ⟨delivery, hsubset hmem, hreaches⟩

theorem run_deliver_eq_ok : (deliver delivery).run tree = .ok () final ↔
    tree.writeBytes delivery.target delivery.content = .ok final := by
  rw [run, Disk.mapError_eq_ok, Disk.write_eq_ok]

theorem mapError_writeText_eq_run (target : Path) (text : String) :
    (Disk.writeText target text).mapError (.io target) =
      (deliver ⟨target, Text.octets text⟩).run := rfl

theorem written_of_run (h : step.run tree = .ok () next) :
    Written (Touches [step] next) tree next := by
  cases step with
  | folder path =>
      obtain ⟨hwritten, -⟩ := Disk.makeFolders_eq_ok (Disk.mapError_eq_ok.mp h)
      exact hwritten.mono fun _ => False.elim
  | deliver delivery =>
      obtain ⟨location, haccepts, rfl⟩ := writeBytes_iff.mp (run_deliver_eq_ok.mp h)
      refine Written.refl.file haccepts.room ?_
      exact ⟨delivery, List.mem_cons_self, _, haccepts.place_put delivery.content⟩

/-- A run makes folders and touches the files of its documents. -/
theorem written_of_forM (h : steps.forM run tree = .ok () final) :
    Written (Touches steps final) tree final := by
  induction steps generalizing tree with
  | nil =>
      cases h
      exact .refl
  | cons step more ih =>
      obtain ⟨next, hstep, hmore⟩ := Disk.forM_cons_eq_ok.mp h
      have hrest := ih hmore
      have hfirst : Written (Touches (step :: more) final) tree next :=
        (written_of_run hstep).mono fun location htouched =>
          (htouched.of_grown hrest.grown).of_subset (by simp)
      exact hfirst.trans (hrest.mono fun location htouched =>
        htouched.of_subset (List.subset_cons_self step more))

/-- A file has the content of the last document that goes there. -/
theorem readBytes_of_last (h : (before ++ .deliver delivery :: after).forM run tree = .ok () final)
    (hlast : ∀ location, final.Reaches delivery.target location → ¬ Touches after final location) :
    final.readBytes delivery.target = .ok delivery.content := by
  obtain ⟨middle, -, hrest⟩ := Disk.forM_append_eq_ok.mp h
  obtain ⟨next, hdeliver, hafter⟩ := Disk.forM_cons_eq_ok.mp hrest
  obtain ⟨location, haccepts, rfl⟩ := writeBytes_iff.mp (run_deliver_eq_ok.mp hdeliver)
  have hplace := haccepts.place_put delivery.content
  have hgrown := (written_of_forM hafter).grown
  obtain ⟨content, hcontent⟩ := place_file_of_grown hgrown hplace
  have hfile := (hgrown.files location (hlast location ⟨_, hcontent⟩) delivery.content).mpr
    (at?_of_place hplace)
  rw [at?_of_place hcontent] at hfile
  cases hfile
  exact readBytes_eq_ok.mpr ⟨location, hcontent⟩

/-- A fold that does the steps of one item after another, and counts what they came to, does the
steps of all items. -/
theorem foldlM_eq_ok {α : Type} {items : List α}
    {gather : Summary → α → Disk AccessError Summary} {ready : α → Prop}
    {steps : α → List Step} {outcomes : α → List Outcome} {kept : Tree → Prop}
    {summary summary' : Summary} (hkept : kept tree)
    (hitem : ∀ item ∈ items, ∀ tree, kept tree → ∀ summary summary' next,
      gather summary item tree = .ok summary' next ↔
        ready item ∧ (steps item).forM run tree = .ok () next ∧
          summary' = (outcomes item).foldl Summary.after summary)
    (hnext : ∀ item ∈ items, ∀ tree next, kept tree →
      (steps item).forM run tree = .ok () next → kept next) :
    items.foldlM gather summary tree = .ok summary' final ↔
      (∀ item ∈ items, ready item) ∧ (items.flatMap steps).forM run tree = .ok () final ∧
        summary' = (items.flatMap outcomes).foldl Summary.after summary := by
  induction items generalizing tree summary with
  | nil =>
      change (pure summary : Disk AccessError Summary) tree = .ok summary' final ↔
        _ ∧ (pure () : Disk AccessError Unit) tree = .ok () final ∧ _
      rw [Disk.pure_eq_ok, Disk.pure_eq_ok]
      simp [eq_comm, and_comm]
  | cons item more ih =>
      rw [List.forall_mem_cons] at hitem hnext
      rw [Disk.foldlM_cons_eq_ok, List.forall_mem_cons, List.flatMap_cons, List.flatMap_cons,
        List.foldl_append, Disk.forM_append_eq_ok]
      constructor
      · rintro ⟨between, next, hfirst, hmore⟩
        obtain ⟨hready, hsteps, rfl⟩ := (hitem.1 tree hkept _ _ _).mp hfirst
        obtain ⟨hall, hrest, hsummary⟩ :=
          (ih (hnext.1 _ _ hkept hsteps) hitem.2 hnext.2).mp hmore
        exact ⟨⟨hready, hall⟩, ⟨next, hsteps, hrest⟩, hsummary⟩
      · rintro ⟨⟨hready, hall⟩, ⟨next, hsteps, hrest⟩, hsummary⟩
        refine ⟨_, next, (hitem.1 tree hkept _ _ _).mpr ⟨hready, hsteps, rfl⟩, ?_⟩
        exact (ih (hnext.1 _ _ hkept hsteps) hitem.2 hnext.2).mpr ⟨hall, hrest, hsummary⟩

end Step

end DictionaryDdl.Extraction
