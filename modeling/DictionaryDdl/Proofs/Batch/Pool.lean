import DictionaryDdl.Batch
import Mathlib.Data.List.Perm.Basic
import Mathlib.Logic.Relation

/-!
Documents that are compiled several at a time. They are taken up in their order as long as there
is room, and any of those that are being compiled may be finished next. A run hands over the
result of every document once; with room for all documents every order of the results is
possible, and with room for one only theirs. Nothing is said of how long a document takes.
-/

namespace DictionaryDdl.Batch

/-- What a document comes to by itself. -/
def resultOf (catalog : Collation.Catalog) (document : Document) : CompileResult :=
  CompiledTable.ofText catalog document.text

/-- The results of some documents in an order in which they may come in. -/
def Completion (catalog : Collation.Catalog) (documents : List Document)
    (results : List CompileResult) : Prop :=
  results.Perm (documents.map (resultOf catalog))

/-- The documents that wait and that are being compiled, and the results that have come in. -/
structure Pool where
  waiting : List Document
  running : List Document
  results : List CompileResult

namespace Pool

variable {catalog : Collation.Catalog} {jobs : Nat} {documents : List Document}
  {results : List CompileResult} {pool pool' : Pool}

/-- There is room for `jobs` documents, and for one in any case. -/
inductive Step (catalog : Collation.Catalog) (jobs : Nat) : Pool → Pool → Prop
  | start {document : Document} {waiting running : List Document} {results : List CompileResult}
      (hroom : running.length < max jobs 1) :
      Step catalog jobs ⟨document :: waiting, running, results⟩
        ⟨waiting, running ++ [document], results⟩
  | finish {document : Document} {waiting before after : List Document}
      {results : List CompileResult} :
      Step catalog jobs ⟨waiting, before ++ document :: after, results⟩
        ⟨waiting, before ++ after, results ++ [resultOf catalog document]⟩

/-- A run that takes up some documents and ends with some results. -/
def Yields (catalog : Collation.Catalog) (jobs : Nat) (documents : List Document)
    (results : List CompileResult) : Prop :=
  Relation.ReflTransGen (Step catalog jobs) ⟨documents, [], []⟩ ⟨[], [], results⟩

/-- The results that have come in, followed by those that are still to come. -/
def outlook (catalog : Collation.Catalog) (pool : Pool) : List CompileResult :=
  pool.results ++ (pool.running ++ pool.waiting).map (resultOf catalog)

theorem Step.outlook_perm (h : Step catalog jobs pool pool') :
    (pool'.outlook catalog).Perm (pool.outlook catalog) := by
  cases h with
  | start hroom => simp [outlook]
  | finish =>
      simp only [outlook, List.map_append, List.map_cons, List.append_assoc, List.cons_append,
        List.nil_append]
      exact (List.perm_middle.symm).append_left _

theorem outlook_perm_of_run (h : Relation.ReflTransGen (Step catalog jobs) pool pool') :
    (pool'.outlook catalog).Perm (pool.outlook catalog) := by
  induction h with
  | refl => exact .rfl
  | tail _ hstep ih => exact hstep.outlook_perm.trans ih

theorem completion_of_yields (h : Yields catalog jobs documents results) :
    Completion catalog documents results := by
  simpa [Completion, outlook] using outlook_perm_of_run h

theorem Step.length_running_le (h : Step catalog jobs pool pool')
    (hpool : pool.running.length ≤ max jobs 1) : pool'.running.length ≤ max jobs 1 := by
  cases h with
  | start hroom =>
      rw [List.length_append]
      exact hroom
  | finish =>
      simp only [List.length_append, List.length_cons] at hpool ⊢
      omega

/-- With room for one document the results come in in the order of the documents. -/
theorem Step.outlook_eq (hjobs : jobs ≤ 1) (h : Step catalog jobs pool pool')
    (hpool : pool.running.length ≤ max jobs 1) : pool'.outlook catalog = pool.outlook catalog := by
  cases h with
  | start hroom => simp [outlook]
  | @finish document waiting before after results =>
      simp only [List.length_append, List.length_cons] at hpool
      obtain rfl : before = [] := List.length_eq_zero_iff.mp (by omega)
      obtain rfl : after = [] := List.length_eq_zero_iff.mp (by omega)
      simp [outlook]

theorem eq_of_yields_single (hjobs : jobs ≤ 1) (h : Yields catalog jobs documents results) :
    results = documents.map (resultOf catalog) := by
  have hrun {pool' : Pool}
      (h : Relation.ReflTransGen (Step catalog jobs) ⟨documents, [], []⟩ pool') :
      pool'.running.length ≤ max jobs 1 ∧
        pool'.outlook catalog = documents.map (resultOf catalog) := by
    induction h with
    | refl => simp [outlook]
    | tail _ hstep ih =>
        exact ⟨hstep.length_running_le ih.1, (hstep.outlook_eq hjobs ih.1).trans ih.2⟩
  simpa [outlook] using (hrun h).2

/-- Whatever the room, the documents may be finished in their order. -/
theorem yields_in_order : Yields catalog jobs documents (documents.map (resultOf catalog)) := by
  have hrun (results : List CompileResult) :
      Relation.ReflTransGen (Step catalog jobs) ⟨documents, [], results⟩
        ⟨[], [], results ++ documents.map (resultOf catalog)⟩ := by
    induction documents generalizing results with
    | nil => simpa using .refl
    | cons document more ih =>
        have hroom : 0 < max jobs 1 := Nat.lt_of_lt_of_le Nat.zero_lt_one (Nat.le_max_right jobs 1)
        have hstart : Step catalog jobs ⟨document :: more, [], results⟩
            ⟨more, [document], results⟩ := .start hroom
        have hfinish : Step catalog jobs ⟨more, [] ++ document :: [], results⟩
            ⟨more, [] ++ [], results ++ [resultOf catalog document]⟩ := .finish
        have hmore := ih (results ++ [resultOf catalog document])
        rw [List.append_assoc] at hmore
        exact .head hstart (.head hfinish hmore)
  exact hrun []

/-- With room for all documents their results may come in in any order. -/
theorem yields_of_completion (hjobs : documents.length ≤ jobs)
    (h : Completion catalog documents results) : Yields catalog jobs documents results := by
  have hstart (waiting running : List Document) (hroom : running.length + waiting.length ≤ jobs) :
      Relation.ReflTransGen (Step catalog jobs) ⟨waiting, running, []⟩
        ⟨[], running ++ waiting, []⟩ := by
    induction waiting generalizing running with
    | nil => simpa using .refl
    | cons document more ih =>
        simp only [List.length_cons] at hroom
        have hmore := ih (running ++ [document]) (by simp; omega)
        rw [List.append_assoc] at hmore
        exact .head (.start (by omega)) hmore
  have hfinish (running order : List Document) (horder : running.Perm order)
      (results : List CompileResult) :
      Relation.ReflTransGen (Step catalog jobs) ⟨[], running, results⟩
        ⟨[], [], results ++ order.map (resultOf catalog)⟩ := by
    induction order generalizing running results with
    | nil => simpa [horder.eq_nil] using .refl
    | cons document more ih =>
        obtain ⟨before, after, rfl⟩ :=
          List.append_of_mem (horder.mem_iff.mpr List.mem_cons_self)
        have hmore := ih (before ++ after)
          ((List.perm_middle.symm.trans horder).cons_inv)
          (results ++ [resultOf catalog document])
        rw [List.append_assoc] at hmore
        exact .head .finish hmore
  obtain ⟨order, hresults, horder⟩ : ∃ order : List Document,
      results = order.map (resultOf catalog) ∧ order.Perm documents := by
    have hsame : List.Forall₂ (fun result document => result = resultOf catalog document)
        (documents.map (resultOf catalog)) documents := by
      rw [List.forall₂_map_left_iff, List.forall₂_same]
      exact fun document _ => rfl
    obtain ⟨order, horder, hperm⟩ := List.perm_comp_forall₂ h hsame
    rw [← List.forall₂_map_right_iff (f := resultOf catalog), List.forall₂_eq_eq_eq] at horder
    exact ⟨order, horder, hperm⟩
  subst hresults
  exact (hstart documents [] (by simpa using hjobs)).trans (hfinish documents order horder.symm [])

end Pool

/-- Compiling documents one after another is a run with room for one. -/
theorem collect_of_yields_single {catalog : Collation.Catalog} {documents : List Document}
    {results : List CompileResult} (h : Pool.Yields catalog 1 documents results) :
    collect results = compile catalog documents := by
  rw [Pool.eq_of_yields_single (Nat.le_refl 1) h]
  rfl

end DictionaryDdl.Batch
