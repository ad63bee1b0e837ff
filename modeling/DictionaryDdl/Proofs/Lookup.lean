import Mathlib.Data.List.Nodup

/-!
Looking a name up in a list of names and values, where the first value of a name is the one that is
found. If the names differ, every value is found by its name. And of items that are taken in one
after another, the last one that gives a value is the one that counts.
-/

namespace DictionaryDdl

variable {α β : Type} {name : String} {value : α} {entries : List (String × α)}

theorem lookup_cons_eq_ite (name found : String) (kept : α) (more : List (String × α)) :
    ((found, kept) :: more).lookup name = if name = found then some kept else more.lookup name := by
  rw [List.lookup_cons]
  by_cases h : name = found
  · simp [h]
  · simp [h, beq_false_of_ne h]

theorem mem_names_of_lookup (h : entries.lookup name = some value) :
    name ∈ entries.map (·.1) := by
  obtain ⟨before, after, rfl, -⟩ := List.lookup_eq_some_iff.mp h
  simp

theorem lookup_of_mem (hnodup : (entries.map (·.1)).Nodup) (h : (name, value) ∈ entries) :
    entries.lookup name = some value := by
  obtain ⟨before, after, rfl⟩ := List.append_of_mem h
  rw [List.lookup_eq_some_iff]
  refine ⟨before, after, rfl, fun entry hentry => ?_⟩
  rw [List.map_append, List.map_cons, List.nodup_append] at hnodup
  have hne := hnodup.2.2 entry.1 (List.mem_map_of_mem hentry) name List.mem_cons_self
  simpa using hne.symm

theorem lookup_eq_some_iff_mem (hnodup : (entries.map (·.1)).Nodup) :
    entries.lookup name = some value ↔ (name, value) ∈ entries := by
  constructor
  · intro h
    obtain ⟨before, after, rfl, -⟩ := List.lookup_eq_some_iff.mp h
    simp
  · exact lookup_of_mem hnodup

/-- If the names differ, it does not matter in which order they stand. -/
theorem lookup_eq_of_perm {entries' : List (String × α)} (hperm : entries.Perm entries')
    (hnodup : (entries.map (·.1)).Nodup) (name : String) :
    entries.lookup name = entries'.lookup name := by
  have hnodup' : (entries'.map (·.1)).Nodup := (hperm.map _).nodup_iff.mp hnodup
  ext value
  rw [lookup_eq_some_iff_mem hnodup, lookup_eq_some_iff_mem hnodup', hperm.mem_iff]

theorem lookup_map (f : α → β) (entries : List (String × α)) (name : String) :
    (entries.map fun entry => (entry.1, f entry.2)).lookup name = (entries.lookup name).map f := by
  induction entries with
  | nil => rfl
  | cons entry more ih =>
      rw [List.map_cons, lookup_cons_eq_ite, lookup_cons_eq_ite, ih]
      split_ifs
      · rfl
      · rfl

/-! ### The last value that is given -/

variable {give : α → Option β} {items first second skipped : List α} {result : β}

/-- The value of the last item that gives one. -/
def lastGiven? (give : α → Option β) (items : List α) : Option β :=
  items.reverse.findSome? give

theorem lastGiven?_append (give : α → Option β) (first second : List α) :
    lastGiven? give (first ++ second) = (lastGiven? give second).or (lastGiven? give first) := by
  unfold lastGiven?
  rw [List.reverse_append, List.findSome?_append]

theorem lastGiven?_cons (give : α → Option β) (item : α) (more : List α) :
    lastGiven? give (item :: more) = (lastGiven? give more).or (give item) := by
  have hsingle : lastGiven? give [item] = give item := by
    rw [lastGiven?, List.reverse_singleton, List.findSome?_singleton]
  rw [← hsingle]
  exact lastGiven?_append give [item] more

theorem lastGiven?_eq_none : lastGiven? give items = none ↔ ∀ item ∈ items, give item = none := by
  simp only [lastGiven?, List.findSome?_eq_none_iff, List.mem_reverse]

theorem lastGiven?_eq_some :
    lastGiven? give items = some result ↔
      ∃ before item after, items = before ++ item :: after ∧ give item = some result ∧
        ∀ later ∈ after, give later = none := by
  constructor
  · intro h
    obtain ⟨after, item, before, hsplit, hitem, hafter⟩ := List.findSome?_eq_some_iff.mp h
    refine ⟨before.reverse, item, after.reverse, ?_, hitem, fun later hlater => ?_⟩
    · rw [← items.reverse_reverse, hsplit]
      simp
    · exact hafter later (List.mem_reverse.mp hlater)
  · rintro ⟨before, item, after, rfl, hitem, hafter⟩
    rw [lastGiven?_append, lastGiven?_cons, lastGiven?_eq_none.mpr hafter, hitem]
    rfl

/-- Items that give nothing can be left out. -/
theorem lastGiven?_skip (h : ∀ item ∈ skipped, give item = none) :
    lastGiven? give (first ++ skipped ++ second) = lastGiven? give (first ++ second) := by
  rw [lastGiven?_append, lastGiven?_append, lastGiven?_eq_none.mpr h, Option.none_or,
    ← lastGiven?_append]

/-- What is left when every item that gives a value puts it in the place of the one before. -/
theorem foldl_lastGiven? (give : α → Option β) (start : Option β) (items : List α) :
    items.foldl (fun kept item => (give item).or kept) start =
      (lastGiven? give items).or start := by
  induction items generalizing start with
  | nil => rfl
  | cons item more ih => rw [List.foldl_cons, ih, lastGiven?_cons, Option.or_assoc]

end DictionaryDdl
