import DictionaryDdl.Json.Basic
import DictionaryDdl.Proofs.Lookup
import Mathlib.Data.List.Induction
import Mathlib.Data.String.Basic

/-!
The order in which a reader gives the members of objects. Of several members of one name it keeps
the last one, so nothing is lost of an object whose names differ: each member is found by its name,
and its value is the same up to the order of the members inside. Members that are in ascending
order stay as they are.
-/

namespace DictionaryDdl.Json

variable {name other : String} {value : Json} {member : String × Json}
  {members sorted : List (String × Json)} {bound : Nat}

mutual

/-- The value with the members of all its objects in the order in which a reader gives them. -/
def ordered : Json → Json
  | .array items => .array (orderedItems items)
  | .object members => ofMembers (orderedMembers members)
  | .null => .null
  | .bool b => .bool b
  | .number n => .number n
  | .string s => .string s

def orderedItems : List Json → List Json
  | [] => []
  | item :: more => ordered item :: orderedItems more

def orderedMembers : List (String × Json) → List (String × Json)
  | [] => []
  | (name, value) :: more => (name, ordered value) :: orderedMembers more

end

theorem orderedItems_eq_map (items : List Json) : orderedItems items = items.map ordered := by
  induction items with
  | nil => rfl
  | cons item more ih => rw [orderedItems, ih, List.map_cons]

theorem orderedMembers_eq_map (members : List (String × Json)) :
    orderedMembers members = members.map fun member => (member.1, member.2.ordered) := by
  induction members with
  | nil => rfl
  | cons member more ih => rw [orderedMembers, ih, List.map_cons]

theorem names_orderedMembers (members : List (String × Json)) :
    (orderedMembers members).map (·.1) = members.map (·.1) := by
  rw [orderedMembers_eq_map, List.map_map]
  rfl

theorem depthOfItems_le_iff {items : List Json} :
    depthOfItems items ≤ bound ↔ ∀ item ∈ items, item.depth ≤ bound := by
  induction items with
  | nil => simp [depthOfItems]
  | cons item more ih => rw [depthOfItems, Nat.max_le, ih, List.forall_mem_cons]

theorem depthOfMembers_le_iff :
    depthOfMembers members ≤ bound ↔ ∀ member ∈ members, member.2.depth ≤ bound := by
  induction members with
  | nil => simp [depthOfMembers]
  | cons member more ih => rw [depthOfMembers, Nat.max_le, ih, List.forall_mem_cons]

theorem depth_string (s : String) : (Json.string s).depth = 0 := rfl

theorem depth_bool (b : Bool) : (Json.bool b).depth = 0 := rfl

theorem depth_ofNat (n : Nat) : (ofNat n).depth = 0 := rfl

theorem depth_array_le_iff {items : List Json} :
    (array items).depth ≤ bound + 1 ↔ ∀ item ∈ items, item.depth ≤ bound := by
  rw [depth, Nat.add_le_add_iff_right, depthOfItems_le_iff]

theorem depth_object_le_iff :
    (object members).depth ≤ bound + 1 ↔ ∀ member ∈ members, member.2.depth ≤ bound := by
  rw [depth, Nat.add_le_add_iff_right, depthOfMembers_le_iff]

/-- What stands in an object is not nested as deep as the object. -/
theorem depth_lt_of_get? {inner : Json} (h : value.get? name = some inner) :
    inner.depth < value.depth := by
  cases value with
  | object members =>
      obtain ⟨before, after, rfl, -⟩ := List.lookup_eq_some_iff.mp h
      rw [depth, Nat.lt_add_one_iff]
      exact depthOfMembers_le_iff.mp (Nat.le_refl _) (name, inner) (by simp)
  | _ => cases h

theorem depth_lt_of_mem {items : List Json} {item : Json} (h : item ∈ items) :
    item.depth < (array items).depth := by
  rw [depth, Nat.lt_add_one_iff]
  exact depthOfItems_le_iff.mp (Nat.le_refl _) item h

/-! ### Members in ascending order -/

theorem mem_insertMember (h : member ∈ insertMember name value sorted) :
    member = (name, value) ∨ member ∈ sorted := by
  induction sorted with
  | nil => exact .inl (List.mem_singleton.mp h)
  | cons first more ih =>
      obtain ⟨found, kept⟩ := first
      rw [insertMember] at h
      split_ifs at h with hbefore hsame
      · exact List.mem_cons.mp h
      · exact (List.mem_cons.mp h).imp_right (List.mem_cons_of_mem _)
      · rcases List.mem_cons.mp h with rfl | h
        · exact .inr List.mem_cons_self
        · exact (ih h).imp_right (List.mem_cons_of_mem _)

theorem pairwise_insertMember (h : sorted.Pairwise (·.1 < ·.1)) :
    (insertMember name value sorted).Pairwise (·.1 < ·.1) := by
  induction sorted with
  | nil => exact List.pairwise_singleton _ _
  | cons first more ih =>
      obtain ⟨found, kept⟩ := first
      obtain ⟨hfirst, hmore⟩ := List.pairwise_cons.mp h
      rw [insertMember]
      split_ifs with hbefore hsame
      · refine List.pairwise_cons.mpr ⟨fun member hmember => ?_, h⟩
        rcases List.mem_cons.mp hmember with rfl | hmember
        · exact hbefore
        · exact lt_trans hbefore (hfirst member hmember)
      · subst hsame
        exact List.pairwise_cons.mpr ⟨hfirst, hmore⟩
      · refine List.pairwise_cons.mpr ⟨fun member hmember => ?_, ih hmore⟩
        rcases mem_insertMember hmember with rfl | hmember
        · exact lt_of_le_of_ne (not_lt.mp hbefore) (Ne.symm hsame)
        · exact hfirst member hmember

theorem insertMember_of_last (h : ∀ member ∈ sorted, member.1 < name) :
    insertMember name value sorted = sorted ++ [(name, value)] := by
  induction sorted with
  | nil => rfl
  | cons first more ih =>
      obtain ⟨found, kept⟩ := first
      rw [List.forall_mem_cons] at h
      rw [insertMember, if_neg (lt_asymm h.1), if_neg (ne_of_gt h.1), ih h.2, List.cons_append]

theorem lookup_insertMember :
    (insertMember name value sorted).lookup other =
      if other = name then some value else sorted.lookup other := by
  induction sorted with
  | nil => exact lookup_cons_eq_ite other name value []
  | cons first more ih =>
      obtain ⟨found, kept⟩ := first
      rw [insertMember]
      by_cases hbefore : name < found
      · rw [if_pos hbefore]
        exact lookup_cons_eq_ite other name value _
      rw [if_neg hbefore]
      by_cases hsame : name = found
      · subst hsame
        rw [if_pos rfl, lookup_cons_eq_ite, lookup_cons_eq_ite]
        split_ifs
        · rfl
        · rfl
      · rw [if_neg hsame, lookup_cons_eq_ite, lookup_cons_eq_ite, ih]
        split_ifs with hfound hname
        · exact absurd (hname.symm.trans hfound) hsame
        · rfl
        · rfl
        · rfl

/-- The members after some more have been put into their order. -/
theorem sortedMembers_append (first second : List (String × Json)) :
    sortedMembers (first ++ second) =
      second.foldl (fun sorted (name, value) => insertMember name value sorted)
        (sortedMembers first) :=
  List.foldl_append

theorem mem_sortedMembers (h : member ∈ sortedMembers members) : member ∈ members := by
  induction members using List.reverseRecOn with
  | nil => exact h
  | append_singleton first last ih =>
      rw [sortedMembers_append] at h
      rcases mem_insertMember h with rfl | h
      · exact List.mem_append_right first List.mem_cons_self
      · exact List.mem_append_left _ (ih h)

theorem pairwise_sortedMembers (members : List (String × Json)) :
    (sortedMembers members).Pairwise (·.1 < ·.1) := by
  induction members using List.reverseRecOn with
  | nil => exact List.Pairwise.nil
  | append_singleton first last ih =>
      rw [sortedMembers_append]
      exact pairwise_insertMember ih

theorem nodup_sortedMembers (members : List (String × Json)) :
    ((sortedMembers members).map (·.1)).Nodup :=
  List.pairwise_map.mpr ((pairwise_sortedMembers members).imp ne_of_lt)

theorem sortedMembers_of_pairwise (h : members.Pairwise (·.1 < ·.1)) :
    sortedMembers members = members := by
  induction members using List.reverseRecOn with
  | nil => rfl
  | append_singleton first last ih =>
      obtain ⟨hfirst, -, hlast⟩ := List.pairwise_append.mp h
      rw [sortedMembers_append, ih hfirst]
      exact insertMember_of_last fun member hmember =>
        hlast member hmember last List.mem_cons_self

/-- The last member of a name is the one that is found. -/
theorem lookup_sortedMembers (members : List (String × Json)) (name : String) :
    (sortedMembers members).lookup name = members.reverse.lookup name := by
  induction members using List.reverseRecOn with
  | nil => rfl
  | append_singleton first last ih =>
      obtain ⟨found, kept⟩ := last
      rw [sortedMembers_append, List.foldl_cons, List.foldl_nil, lookup_insertMember, ih,
        List.reverse_append, List.reverse_singleton, List.singleton_append, lookup_cons_eq_ite]

/-- If the names differ, each member is found with its value. -/
theorem lookup_ordered (hnodup : (members.map (·.1)).Nodup) (name : String) :
    (sortedMembers (orderedMembers members)).lookup name = (members.lookup name).map ordered := by
  have hnames : ((orderedMembers members).map (·.1)).Nodup := by rwa [names_orderedMembers]
  rw [lookup_sortedMembers, ← lookup_eq_of_perm (List.reverse_perm _).symm hnames,
    orderedMembers_eq_map, lookup_map]

/-- A member is found in the ordered object as in the object. -/
theorem get?_ordered (hvalue : value = .object members) (hnodup : (members.map (·.1)).Nodup)
    (name : String) : value.ordered.get? name = (value.get? name).map ordered := by
  subst hvalue
  exact lookup_ordered hnodup name

end DictionaryDdl.Json
