import DictionaryDdl.Proofs.Lookup
import DictionaryDdl.Proofs.Text.Pieces
import DictionaryDdl.Sdi.KeyValues

/-!
Lists of keys and values, put together from shorter ones. The elements of two lists with a semicolon
between them are those of the first and then those of the second, whatever the lists are. What
counts of several values of one key is the last one.
-/

namespace DictionaryDdl.Sdi

variable {key value : String} {elements : List KeyValue}

theorem keyValues_append (a b : String) :
    keyValues (a ++ ";" ++ b) = keyValues a ++ keyValues b := by
  have htext : (a ++ ";" ++ b).toList = a.toList ++ ';' :: b.toList := by
    rw [String.toList_append, String.toList_append, List.append_assoc]
    rfl
  unfold keyValues
  rw [htext, Text.pieces_append_cons, List.map_append, List.filter_append, List.map_append]

/-- The value that an element gives for a key. -/
def KeyValue.value? (key : String) : KeyValue → Option String
  | .pair other value => if other = key then some value else none
  | .malformed _ => none

theorem KeyValue.value?_eq_some {element : KeyValue} :
    element.value? key = some value ↔ element = .pair key value := by
  cases element with
  | malformed text => simp [value?]
  | pair other found =>
      rw [value?]
      split
      · next h => simp [h]
      · next h => simp [h]

/-- The last value that the elements give for a key. -/
def lastValue? (key : String) (elements : List KeyValue) : Option String :=
  elements.reverse.findSome? (KeyValue.value? key)

theorem lastValue?_append (key : String) (first second : List KeyValue) :
    lastValue? key (first ++ second) = (lastValue? key second).or (lastValue? key first) :=
  lastGiven?_append (KeyValue.value? key) first second

theorem lastValue?_singleton (key : String) (element : KeyValue) :
    lastValue? key [element] = element.value? key :=
  lastGiven?_cons (KeyValue.value? key) element []

theorem mem_of_lastValue? (h : lastValue? key elements = some value) :
    .pair key value ∈ elements := by
  obtain ⟨element, hmem, hvalue⟩ := List.exists_of_findSome?_eq_some h
  rw [← KeyValue.value?_eq_some.mp hvalue]
  exact List.mem_reverse.mp hmem

theorem lastValue?_eq_none :
    lastValue? key elements = none ↔ ∀ value, .pair key value ∉ elements := by
  rw [lastValue?, ← lastGiven?, lastGiven?_eq_none]
  constructor
  · intro h value hmem
    have hnone := h _ hmem
    rw [KeyValue.value?_eq_some.mpr rfl] at hnone
    cases hnone
  · intro h element hmem
    cases hvalue : element.value? key with
    | none => rfl
    | some value =>
        rw [KeyValue.value?_eq_some.mp hvalue] at hmem
        exact absurd hmem (h value)

end DictionaryDdl.Sdi
