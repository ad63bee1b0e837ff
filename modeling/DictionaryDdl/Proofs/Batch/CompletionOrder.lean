import DictionaryDdl.Proofs.Batch.Accounts

/-!
How far a batch depends on the order in which its results come in. The counts do not, nor do the
tables and the order of their schemas and names; but tables of one schema and name stand in the
order in which they came in. So two orders give the same batch exactly if they agree on the
tables of every schema and name.
-/

namespace DictionaryDdl.Batch

/-- The tables of a schema and a name, in the order in which they come in. -/
def tablesOf (key : String ×ₗ String) (results : List CompileResult) : List CompiledTable :=
  (results.filterMap tableOf?).filter (·.key = key)

/-- Sorting leaves the tables of a schema and a name in their order. -/
theorem filter_mergeSort_key (key : String ×ₗ String) (tables : List CompiledTable) :
    (tables.mergeSort CompiledTable.le).filter (·.key = key) = tables.filter (·.key = key) := by
  have halike : (tables.filter (·.key = key)).Pairwise (·.le · = true) := by
    refine List.pairwise_of_forall_mem_list fun a ha b hb => CompiledTable.le_eq_true.mpr ?_
    rw [List.mem_filter, decide_eq_true_iff] at ha hb
    exact (ha.2.trans hb.2.symm).le
  have hsub : (tables.filter (·.key = key)).Sublist (tables.mergeSort CompiledTable.le) :=
    List.sublist_mergeSort CompiledTable.trans_le CompiledTable.total_le halike
      List.filter_sublist
  have hsame : (tables.filter (·.key = key)).Sublist
      ((tables.mergeSort CompiledTable.le).filter (·.key = key)) := by
    simpa [List.filter_filter] using hsub.filter (·.key = key)
  have hlength : (tables.filter (·.key = key)).length =
      ((tables.mergeSort CompiledTable.le).filter (·.key = key)).length :=
    ((List.mergeSort_perm tables CompiledTable.le).filter _).length_eq.symm
  exact (hsame.eq_of_length hlength).symm

/-- A table at the head of a list in order has no greater key than any table of a list with the
same tables of every key. -/
theorem key_head_le {x y : CompiledTable} {xs ys : List CompiledTable}
    (hxs : (x :: xs).Pairwise (·.key ≤ ·.key))
    (h : ∀ key, (x :: xs).filter (·.key = key) = (y :: ys).filter (·.key = key)) :
    x.key ≤ y.key := by
  have hy : y ∈ (x :: xs).filter (·.key = y.key) := by
    rw [h y.key]
    simp
  obtain rfl | hy := List.mem_cons.mp (List.mem_of_mem_filter hy)
  · exact le_rfl
  · exact List.rel_of_pairwise_cons hxs hy

/-- A list in the order of schemas and names is determined by its tables of each. -/
theorem eq_of_filter_key {xs ys : List CompiledTable} (hxs : xs.Pairwise (·.key ≤ ·.key))
    (hys : ys.Pairwise (·.key ≤ ·.key))
    (h : ∀ key, xs.filter (·.key = key) = ys.filter (·.key = key)) : xs = ys := by
  induction xs generalizing ys with
  | nil =>
      refine (List.eq_nil_iff_forall_not_mem.mpr fun y hy => ?_).symm
      have hmem : y ∈ ys.filter (·.key = y.key) := by simp [hy]
      rw [← h y.key] at hmem
      exact List.not_mem_nil hmem
  | cons x xs ih =>
      cases ys with
      | nil => simpa using h x.key
      | cons y ys =>
          have hkey : x.key = y.key :=
            (key_head_le hxs h).antisymm (key_head_le hys fun key => (h key).symm)
          have hhead : x = y := by
            have hfilter := h x.key
            simp only [List.filter_cons, hkey, decide_true, if_true] at hfilter
            exact (List.cons.inj hfilter).1
          subst hhead
          refine congrArg (x :: ·) (ih hxs.of_cons hys.of_cons fun key => ?_)
          have hfilter := h key
          by_cases hx : x.key = key <;> simpa [List.filter_cons, hx] using hfilter

theorem collect_tables_eq_iff {results results' : List CompileResult} :
    (collect results).tables = (collect results').tables ↔
      ∀ key, tablesOf key results = tablesOf key results' := by
  have hsame (key : String ×ₗ String) (results : List CompileResult) :
      (collect results).tables.filter (·.key = key) = tablesOf key results :=
    filter_mergeSort_key key _
  constructor
  · intro h key
    rw [← hsame, ← hsame, h]
  · intro h
    refine eq_of_filter_key (CompiledTable.pairwise_mergeSort_le _)
      (CompiledTable.pairwise_mergeSort_le _) fun key => ?_
    exact (hsame key results).trans ((h key).trans (hsame key results').symm)

/-- Two batches of one set of documents that differ at most in the order of tables of one schema
and name. -/
structure Alike (batch batch' : Batch) : Prop where
  skipped : batch.skipped = batch'.skipped
  failed : batch.failed = batch'.failed
  tables : batch.tables.Perm batch'.tables
  keys : batch.tables.map (·.key) = batch'.tables.map (·.key)

theorem Alike.eq {batch batch' : Batch} (h : batch.Alike batch')
    (htables : batch.tables = batch'.tables) : batch = batch' := by
  cases batch
  cases batch'
  rw [mk.injEq]
  exact ⟨htables, h.skipped, h.failed⟩

section

variable {catalog : Collation.Catalog} {documents : List Document}
  {results results' : List CompileResult}

theorem collect_alike (h : Completion catalog documents results)
    (h' : Completion catalog documents results') :
    (collect results).Alike (collect results') := by
  obtain haccounts := collect_accounts h
  obtain haccounts' := collect_accounts h'
  have hperm := haccounts.tables.trans haccounts'.tables.symm
  refine ⟨haccounts.skipped.trans haccounts'.skipped.symm,
    haccounts.failed.trans haccounts'.failed.symm, hperm, ?_⟩
  exact (hperm.map _).eq_of_pairwise (fun _ _ _ _ => le_antisymm)
    (List.pairwise_map.mpr haccounts.ascending) (List.pairwise_map.mpr haccounts'.ascending)

theorem tablesOf_eq_of_forall {key : String ×ₗ String} (h : Completion catalog documents results)
    (h' : Completion catalog documents results')
    (hsingle : ∀ a ∈ documents.filterMap (tableFrom catalog),
      ∀ b ∈ documents.filterMap (tableFrom catalog), a.key = b.key → a = b) :
    tablesOf key results = tablesOf key results' := by
  have hperm : (tablesOf key results).Perm (tablesOf key results') :=
    (h.tables_perm.trans h'.tables_perm.symm).filter _
  have hone {results : List CompileResult} (h : Completion catalog documents results) :
      (tablesOf key results).Pairwise Eq := by
    refine List.pairwise_of_forall_mem_list fun a ha b hb => ?_
    rw [tablesOf, List.mem_filter, decide_eq_true_iff, h.tables_perm.mem_iff] at ha hb
    exact hsingle a ha.1 b hb.1 (ha.2.trans hb.2.symm)
  exact hperm.eq_of_pairwise (fun _ _ _ _ heq _ => heq) (hone h) (hone h')

/-- Two orders in which the results of some documents may come in give batches that are alike;
the batches are the same exactly if the tables of every schema and name come in in one order, so
certainly if there are no two different tables of one schema and name. -/
theorem collect_eq_iff_of_completions (h : Completion catalog documents results)
    (h' : Completion catalog documents results') :
    (collect results).Alike (collect results') ∧
      (collect results = collect results' ↔
        ∀ key, tablesOf key results = tablesOf key results') ∧
      ((∀ a ∈ documents.filterMap (tableFrom catalog),
          ∀ b ∈ documents.filterMap (tableFrom catalog), a.key = b.key → a = b) →
        collect results = collect results') := by
  have halike := collect_alike h h'
  have hiff : collect results = collect results' ↔
      ∀ key, tablesOf key results = tablesOf key results' := by
    rw [← collect_tables_eq_iff]
    exact ⟨congrArg tables, halike.eq⟩
  exact ⟨halike, hiff, fun hsingle => hiff.mpr fun key => tablesOf_eq_of_forall h h' hsingle⟩

end

theorem resultOf_bareDocument_csv :
    resultOf (.ofList [.general]) (bareDocument "CSV") = .ok (some (bareTable "CSV")) :=
  resultOf_of_isBare (by decide +kernel)

theorem collect_eq_iff_of_completions_emptyDocument :
    Completion (.ofList [.general]) [bareDocument "MEMORY", emptyDocument, bareDocument "CSV"]
        [.ok (some (bareTable "MEMORY")), .error (.document .truncated),
          .ok (some (bareTable "CSV"))] ∧
      Completion (.ofList [.general]) [bareDocument "MEMORY", emptyDocument, bareDocument "CSV"]
        [.error (.document .truncated), .ok (some (bareTable "MEMORY")),
          .ok (some (bareTable "CSV"))] ∧
      collect [.ok (some (bareTable "MEMORY")), .error (.document .truncated),
          .ok (some (bareTable "CSV"))] =
        collect [.error (.document .truncated), .ok (some (bareTable "MEMORY")),
          .ok (some (bareTable "CSV"))] := by
  have hempty : resultOf (.ofList [.general]) emptyDocument = .error (.document .truncated) := rfl
  have hfirst : Completion (.ofList [.general])
      [bareDocument "MEMORY", emptyDocument, bareDocument "CSV"]
      [.ok (some (bareTable "MEMORY")), .error (.document .truncated),
        .ok (some (bareTable "CSV"))] := by
    simp [Completion, resultOf_bareDocument_memory, resultOf_bareDocument_csv, hempty]
  have hsecond : Completion (.ofList [.general])
      [bareDocument "MEMORY", emptyDocument, bareDocument "CSV"]
      [.error (.document .truncated), .ok (some (bareTable "MEMORY")),
        .ok (some (bareTable "CSV"))] :=
    (List.Perm.swap ..).trans hfirst
  have hiff := (collect_eq_iff_of_completions hfirst hsecond).2.1
  exact ⟨hfirst, hsecond, hiff.mpr fun key => rfl⟩

/-- With room for two documents, two tables of one name may come in in either order, and the
batch shows in which one. -/
theorem collect_depends_on_completion :
    Pool.Yields (.ofList [.general]) 2 [bareDocument "MEMORY", bareDocument "CSV"]
        [.ok (some (bareTable "MEMORY")), .ok (some (bareTable "CSV"))] ∧
      Pool.Yields (.ofList [.general]) 2 [bareDocument "MEMORY", bareDocument "CSV"]
        [.ok (some (bareTable "CSV")), .ok (some (bareTable "MEMORY"))] ∧
      collect [.ok (some (bareTable "MEMORY")), .ok (some (bareTable "CSV"))] ≠
        collect [.ok (some (bareTable "CSV")), .ok (some (bareTable "MEMORY"))] := by
  have hcompletion : Completion (.ofList [.general]) [bareDocument "MEMORY", bareDocument "CSV"]
      [.ok (some (bareTable "MEMORY")), .ok (some (bareTable "CSV"))] := by
    simp [Completion, resultOf_bareDocument_memory, resultOf_bareDocument_csv]
  refine ⟨Pool.yields_of_completion (by decide) hcompletion,
    Pool.yields_of_completion (by decide) ((List.Perm.swap ..).trans hcompletion), fun h => ?_⟩
  have htables := collect_tables_eq_iff.mp (congrArg tables h) (toLex ("shop", "t"))
  revert htables
  decide +kernel

end DictionaryDdl.Batch
