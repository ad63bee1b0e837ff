import Mathlib.Data.List.Forall2
import Mathlib.Data.List.Perm.Basic

/-!
Computations that may fail, as `do` blocks put them together. A sequence succeeds with a result
if its steps succeed one after another, and a list is read if each of its items is. The decoders
of a table consist of nothing else, so their conditions for success are read off step by step.
-/

namespace DictionaryDdl

variable {ε α β : Type}

/-- A computation that gives a result. -/
def Succeeds (x : Except ε α) : Prop :=
  ∃ a, x = .ok a

@[simp] theorem succeeds_ok (a : α) : Succeeds (.ok a : Except ε α) :=
  ⟨a, rfl⟩

@[simp] theorem succeeds_pure (a : α) : Succeeds (pure a : Except ε α) :=
  ⟨a, rfl⟩

@[simp] theorem not_succeeds_error (e : ε) : ¬Succeeds (.error e : Except ε α) := by
  rintro ⟨a, h⟩
  cases h

@[simp] theorem succeeds_map {x : Except ε α} {f : α → β} : Succeeds (x.map f) ↔ Succeeds x := by
  cases x <;> simp [Except.map]

theorem bind_eq_ok {x : Except ε α} {f : α → Except ε β} {b : β} :
    (x >>= f) = .ok b ↔ ∃ a, x = .ok a ∧ f a = .ok b := by
  cases x with
  | error e => simp [bind, Except.bind]
  | ok a => simp [bind, Except.bind]

theorem toOption_map {x : Except ε α} {f : α → β} : (x.map f).toOption = x.toOption.map f := by
  cases x <;> rfl

/-- Computations with the same results differ in their errors at most. -/
theorem toOption_eq_of_ok_iff {x y : Except ε α} (h : ∀ a, x = .ok a ↔ y = .ok a) :
    x.toOption = y.toOption := by
  cases x with
  | ok a => rw [(h a).mp rfl]
  | error e =>
      cases y with
      | ok a => cases (h a).mpr rfl
      | error e' => rfl

theorem succeeds_bind {x : Except ε α} {f : α → Except ε β} :
    Succeeds (x >>= f) ↔ ∃ a, x = .ok a ∧ Succeeds (f a) := by
  cases x with
  | error e => simp [bind, Except.bind]
  | ok a => simp [bind, Except.bind]

/-- Where the condition of a step does not depend on the result before it, the two conditions
stand side by side. -/
theorem succeeds_bind_and {x : Except ε α} {f : α → Except ε β} {P : Prop}
    (h : ∀ a, Succeeds (f a) ↔ P) : Succeeds (x >>= f) ↔ Succeeds x ∧ P := by
  simp only [succeeds_bind, h]
  exact ⟨fun ⟨a, ha, hP⟩ => ⟨⟨a, ha⟩, hP⟩, fun ⟨⟨a, ha⟩, hP⟩ => ⟨a, ha, hP⟩⟩

theorem succeeds_bind_pure {x : Except ε α} {f : α → β} :
    Succeeds (x >>= fun a => pure (f a)) ↔ Succeeds x := by
  rw [succeeds_bind_and fun a => iff_true_intro (succeeds_pure (f a)), and_true]

theorem mapM_eq_ok {f : α → Except ε β} {xs : List α} {ys : List β} :
    xs.mapM f = .ok ys ↔ List.Forall₂ (fun x y => f x = .ok y) xs ys := by
  induction xs generalizing ys with
  | nil => cases ys <;> simp [pure, Except.pure]
  | cons x xs ih =>
      rw [List.mapM_cons, bind_eq_ok]
      constructor
      · rintro ⟨y, hy, hrest⟩
        obtain ⟨zs, hzs, hys⟩ := bind_eq_ok.mp hrest
        cases hys
        exact .cons hy (ih.mp hzs)
      · rintro (_ | ⟨hy, hrest⟩)
        exact ⟨_, hy, bind_eq_ok.mpr ⟨_, ih.mpr hrest, rfl⟩⟩

theorem succeeds_mapM {f : α → Except ε β} {xs : List α} :
    Succeeds (xs.mapM f) ↔ ∀ x ∈ xs, Succeeds (f x) := by
  induction xs with
  | nil => simp [pure, Except.pure]
  | cons x xs ih =>
      rw [List.mapM_cons, succeeds_bind, List.forall_mem_cons, ← ih]
      constructor
      · rintro ⟨y, hy, hrest⟩
        obtain ⟨ys, hys, -⟩ := succeeds_bind.mp hrest
        exact ⟨⟨y, hy⟩, ⟨ys, hys⟩⟩
      · rintro ⟨⟨y, hy⟩, ⟨ys, hys⟩⟩
        exact ⟨y, hy, succeeds_bind.mpr ⟨ys, hys, succeeds_ok _⟩⟩

/-- Every result of reading a list is the result of one of its items. -/
theorem exists_of_mem_mapM {f : α → Except ε β} {xs : List α} {ys : List β}
    (h : xs.mapM f = .ok ys) {y : β} (hy : y ∈ ys) : ∃ x ∈ xs, f x = .ok y := by
  replace h := mapM_eq_ok.mp h
  induction h with
  | nil => cases hy
  | cons hxy _ ih =>
      rcases List.mem_cons.mp hy with rfl | hy
      · exact ⟨_, List.mem_cons_self, hxy⟩
      · obtain ⟨x, hx, hread⟩ := ih hy
        exact ⟨x, List.mem_cons_of_mem _ hx, hread⟩

/-- What reading an item keeps, reading a list keeps. -/
theorem map_of_mapM_eq_ok {γ : Type} {f : α → Except ε β} {xs : List α} {ys : List β}
    {g : α → γ} {g' : β → γ} (hitem : ∀ x y, f x = .ok y → g' y = g x)
    (h : xs.mapM f = .ok ys) : ys.map g' = xs.map g := by
  replace h := mapM_eq_ok.mp h
  induction h with
  | nil => rfl
  | cons hxy _ ih => simp [hitem _ _ hxy, ih]

theorem mapM_eq_ok_map {f : α → Except ε β} {P : α → Prop} {g : α → β}
    (hitem : ∀ x y, f x = .ok y ↔ P x ∧ y = g x) {xs : List α} {ys : List β} :
    xs.mapM f = .ok ys ↔ (∀ x ∈ xs, P x) ∧ ys = xs.map g := by
  rw [mapM_eq_ok]
  constructor
  · intro h
    induction h with
    | nil => simp
    | cons hxy _ ih =>
        obtain ⟨hx, rfl⟩ := (hitem _ _).mp hxy
        obtain ⟨hxs, rfl⟩ := ih
        exact ⟨by simpa using ⟨hx, hxs⟩, rfl⟩
  · rintro ⟨hxs, rfl⟩
    rw [List.forall₂_map_right_iff, List.forall₂_same]
    exact fun x hx => (hitem x (g x)).mpr ⟨hxs x hx, rfl⟩

/-- Reading a list in another order gives the results in another order. -/
theorem exists_perm_mapM {f : α → Except ε β} {xs xs' : List α} {ys : List β}
    (hperm : xs'.Perm xs) (h : xs.mapM f = .ok ys) :
    ∃ ys', xs'.mapM f = .ok ys' ∧ ys'.Perm ys := by
  obtain ⟨ys', hread, hys⟩ := List.perm_comp_forall₂ hperm (mapM_eq_ok.mp h)
  exact ⟨ys', mapM_eq_ok.mpr hread, hys⟩

/-- Reading a list in another way may be a second reading of what was read. -/
theorem mapM_of_mapM_eq_ok {γ : Type} {f : α → Except ε β} {f' : α → Except ε γ}
    {g : β → Except ε γ} (hitem : ∀ x y, f x = .ok y → f' x = g y) {xs : List α} {ys : List β}
    (h : xs.mapM f = .ok ys) : xs.mapM f' = ys.mapM g := by
  replace h := mapM_eq_ok.mp h
  induction h with
  | nil => rfl
  | cons hxy _ ih => rw [List.mapM_cons, List.mapM_cons, hitem _ _ hxy, ih]

/-- Two ways of reading a list that agree on its items agree on the list. -/
theorem mapM_congr {f f' : α → Except ε β} {xs : List α} (h : ∀ x ∈ xs, f x = f' x) :
    xs.mapM f = xs.mapM f' := by
  induction xs with
  | nil => rfl
  | cons x xs ih =>
      rw [List.forall_mem_cons] at h
      rw [List.mapM_cons, List.mapM_cons, h.1, ih h.2]

/-- What is made of every item that was read can be made of them afterwards. -/
theorem mapM_map_result {γ : Type} {f : α → Except ε β} {g : β → γ} (xs : List α) :
    (xs.mapM fun x => g <$> f x) = List.map g <$> xs.mapM f := by
  induction xs with
  | nil => rfl
  | cons x xs ih =>
      rw [List.mapM_cons, List.mapM_cons, ih]
      simp only [map_bind, bind_map_left, map_pure, List.map_cons]

theorem mapM_append {f : α → Except ε β} (xs xs' : List α) :
    (xs ++ xs').mapM f = (xs.mapM f).bind fun ys => (xs'.mapM f).map (ys ++ ·) := by
  rw [List.mapM_append]
  cases xs.mapM f with
  | error e => rfl
  | ok ys => cases xs'.mapM f <;> rfl

theorem mapM_flatten {f : α → Except ε β} (xss : List (List α)) :
    xss.flatten.mapM f = (xss.mapM (List.mapM f)).map List.flatten := by
  induction xss with
  | nil => rfl
  | cons xs more ih =>
      rw [List.flatten_cons, mapM_append, ih, List.mapM_cons]
      cases xs.mapM f with
      | error e => rfl
      | ok ys => cases more.mapM (List.mapM f) <;> rfl

/-- A list that cannot be read has an item that cannot, and it is reported. -/
theorem exists_of_mapM_eq_error {f : α → Except ε β} {xs : List α} {e : ε}
    (h : xs.mapM f = .error e) : ∃ x ∈ xs, f x = .error e := by
  induction xs with
  | nil => cases h
  | cons x xs ih =>
      rw [List.mapM_cons] at h
      cases hx : f x with
      | error e' =>
          rw [hx] at h
          cases h
          exact ⟨x, List.mem_cons_self, hx⟩
      | ok y =>
          cases hxs : xs.mapM f with
          | error e' =>
              rw [hx, hxs] at h
              cases h
              obtain ⟨x', hx', herror⟩ := ih hxs
              exact ⟨x', List.mem_cons_of_mem x hx', herror⟩
          | ok ys =>
              rw [hx, hxs] at h
              cases h

/-- What reads as nothing adds nothing to the parts of a list. -/
theorem exists_mapM_of_filter {f : α → Except ε (List β)} {kept : α → Bool} {xs : List α}
    {yss : List (List β)} (hrest : ∀ x ∈ xs, kept x = false → f x = .ok [])
    (h : (xs.filter kept).mapM f = .ok yss) :
    ∃ zss, xs.mapM f = .ok zss ∧ zss.flatten = yss.flatten := by
  induction xs generalizing yss with
  | nil => exact ⟨yss, h, rfl⟩
  | cons x xs ih =>
      rw [List.forall_mem_cons] at hrest
      cases hx : kept x with
      | true =>
          rw [List.filter_cons_of_pos hx, List.mapM_cons, bind_eq_ok] at h
          obtain ⟨ys, hys, hmore⟩ := h
          obtain ⟨more, hread, heq⟩ := bind_eq_ok.mp hmore
          cases heq
          obtain ⟨zss, hzss, hflat⟩ := ih hrest.2 hread
          refine ⟨ys :: zss, ?_, by rw [List.flatten_cons, List.flatten_cons, hflat]⟩
          rw [List.mapM_cons, hys, hzss]
          rfl
      | false =>
          rw [List.filter_cons_of_neg (by simp [hx])] at h
          obtain ⟨zss, hzss, hflat⟩ := ih hrest.2 h
          refine ⟨[] :: zss, ?_, hflat⟩
          rw [List.mapM_cons, hrest.1 hx, hzss]
          rfl

theorem not_forall_of_find?_eq_some {p : α → Bool} {xs : List α} {x : α}
    (h : xs.find? p = some x) : ¬∀ y ∈ xs, p y = false := by
  intro hall
  have hfound := List.find?_some h
  rw [hall x (List.mem_of_find?_eq_some h)] at hfound
  cases hfound

end DictionaryDdl
