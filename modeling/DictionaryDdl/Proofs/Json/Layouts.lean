import DictionaryDdl.Proofs.Json.Lexemes

/-!
Where blanks stand in the text of a value. The two printers differ only in what they put at the
beginning of a line and behind the colon of a member, so both are one printer with a layout. What a
layout puts there is blank; how long it is does not matter to a reader.
-/

namespace DictionaryDdl.Json

/-- What stands before the items and members of a level and before the bracket that closes them, and
what stands behind the colon of a member. -/
structure Layout where
  line : Nat → List Char
  gap : List Char
  line_blank : ∀ level, ∀ c ∈ line level, isBlank c = true
  gap_blank : ∀ c ∈ gap, isBlank c = true

namespace Layout

/-- The layout without any blanks. -/
def compact : Layout where
  line _ := []
  gap := []
  line_blank := by simp
  gap_blank := by simp

/-- The layout on several lines. -/
def pretty : Layout where
  line level := (newLine level).toList
  gap := [' ']
  line_blank := by
    intro level c hc
    rw [newLine, String.toList_ofList, List.mem_cons] at hc
    rcases hc with rfl | hc
    · rfl
    · rw [List.eq_of_mem_replicate hc]
      rfl
  gap_blank := by
    intro c hc
    rw [List.mem_singleton.mp hc]
    rfl

end Layout

variable {layout : Layout}

mutual

/-- The text of a value that stands at a level. -/
def spelt (layout : Layout) (level : Nat) : Json → List Char
  | .null => "null".toList
  | .bool b => (toString b).toList
  | .number n => n.text.toList
  | .string s => (quoted s).toList
  | .array [] => ['[', ']']
  | .array (item :: more) =>
      '[' :: (layout.line (level + 1) ++ spelt layout (level + 1) item ++
        speltItems layout (level + 1) more ++ layout.line level ++ [']'])
  | .object [] => ['{', '}']
  | .object ((name, value) :: more) =>
      '{' :: (layout.line (level + 1) ++ (quoted name).toList ++
        ':' :: (layout.gap ++ spelt layout (level + 1) value) ++
        speltMembers layout (level + 1) more ++ layout.line level ++ ['}'])

/-- The items after the first one. -/
def speltItems (layout : Layout) (level : Nat) : List Json → List Char
  | [] => []
  | item :: more =>
      ',' :: (layout.line level ++ spelt layout level item ++ speltItems layout level more)

/-- The members after the first one. -/
def speltMembers (layout : Layout) (level : Nat) : List (String × Json) → List Char
  | [] => []
  | (name, value) :: more =>
      ',' :: (layout.line level ++ (quoted name).toList ++
        ':' :: (layout.gap ++ spelt layout level value) ++ speltMembers layout level more)

end

/-! ### The two printers -/

mutual

theorem toList_compact (value : Json) (level : Nat) :
    value.compact.toList = value.spelt .compact level := by
  cases value with
  | null => rfl
  | bool b => rfl
  | number n => rfl
  | string s => rfl
  | array items =>
      cases items with
      | nil => rfl
      | cons item more =>
          have htext : compact (.array (item :: more)) =
              "[" ++ compactItems (item :: more) ++ "]" := rfl
          rw [htext, String.toList_append, String.toList_append,
            toList_compactItems item more (level + 1), spelt]
          simp [Layout.compact]
  | object members =>
      cases members with
      | nil => rfl
      | cons member more =>
          obtain ⟨name, inner⟩ := member
          have htext : compact (.object ((name, inner) :: more)) =
              "\x7b" ++ compactMembers ((name, inner) :: more) ++ "\x7d" := rfl
          rw [htext, String.toList_append, String.toList_append,
            toList_compactMembers name inner more (level + 1), spelt]
          simp [Layout.compact]
termination_by sizeOf value

theorem toList_compactItems (item : Json) (more : List Json) (level : Nat) :
    (compactItems (item :: more)).toList =
      item.spelt .compact level ++ speltItems .compact level more := by
  cases more with
  | nil => rw [compactItems, toList_compact item level, speltItems, List.append_nil]
  | cons next rest =>
      have htext : compactItems (item :: next :: rest) =
          compact item ++ "," ++ compactItems (next :: rest) := rfl
      rw [htext, String.toList_append, String.toList_append, toList_compact item level,
        toList_compactItems next rest level, speltItems]
      simp [Layout.compact]
termination_by sizeOf (item :: more)

theorem toList_compactMembers (name : String) (value : Json) (more : List (String × Json))
    (level : Nat) :
    (compactMembers ((name, value) :: more)).toList =
      (quoted name).toList ++ ':' :: value.spelt .compact level ++
        speltMembers .compact level more := by
  cases more with
  | nil =>
      rw [compactMembers, String.toList_append, String.toList_append, toList_compact value level,
        speltMembers]
      simp
  | cons next rest =>
      obtain ⟨other, kept⟩ := next
      have htext : compactMembers ((name, value) :: (other, kept) :: rest) =
          quoted name ++ ":" ++ compact value ++ "," ++
            compactMembers ((other, kept) :: rest) := rfl
      rw [htext, String.toList_append, String.toList_append, String.toList_append,
        String.toList_append, toList_compact value level,
        toList_compactMembers other kept rest level, speltMembers]
      simp [Layout.compact]
termination_by sizeOf ((name, value) :: more)

end

mutual

theorem toList_prettyAt (value : Json) (level : Nat) :
    (prettyAt level value).toList = value.spelt .pretty level := by
  cases value with
  | null => rfl
  | bool b => rfl
  | number n => rfl
  | string s => rfl
  | array items =>
      cases items with
      | nil => simp [prettyAt, spelt]
      | cons item more =>
          have htext : prettyAt level (.array (item :: more)) =
              "[" ++ prettyItems (level + 1) (item :: more) ++ newLine level ++ "]" := rfl
          rw [htext, String.toList_append, String.toList_append, String.toList_append,
            toList_prettyItems item more (level + 1), spelt]
          simp [Layout.pretty]
  | object members =>
      cases members with
      | nil => simp [prettyAt, spelt]
      | cons member more =>
          obtain ⟨name, inner⟩ := member
          have htext : prettyAt level (.object ((name, inner) :: more)) =
              "\x7b" ++ prettyMembers (level + 1) ((name, inner) :: more) ++ newLine level ++
                "\x7d" := rfl
          rw [htext, String.toList_append, String.toList_append, String.toList_append,
            toList_prettyMembers name inner more (level + 1), spelt]
          simp [Layout.pretty]
termination_by sizeOf value

theorem toList_prettyItems (item : Json) (more : List Json) (level : Nat) :
    (prettyItems level (item :: more)).toList =
      Layout.pretty.line level ++ item.spelt .pretty level ++ speltItems .pretty level more := by
  cases more with
  | nil =>
      have htext : prettyItems level [item] = newLine level ++ prettyAt level item := rfl
      rw [htext, String.toList_append, toList_prettyAt item level, speltItems]
      simp [Layout.pretty]
  | cons next rest =>
      have htext : prettyItems level (item :: next :: rest) =
          newLine level ++ prettyAt level item ++ "," ++ prettyItems level (next :: rest) := rfl
      rw [htext, String.toList_append, String.toList_append, String.toList_append,
        toList_prettyAt item level, toList_prettyItems next rest level, speltItems]
      simp [Layout.pretty]
termination_by sizeOf (item :: more)

theorem toList_prettyMembers (name : String) (value : Json) (more : List (String × Json))
    (level : Nat) :
    (prettyMembers level ((name, value) :: more)).toList =
      Layout.pretty.line level ++ (quoted name).toList ++
        ':' :: (Layout.pretty.gap ++ value.spelt .pretty level) ++
          speltMembers .pretty level more := by
  cases more with
  | nil =>
      have htext : prettyMembers level [(name, value)] =
          newLine level ++ quoted name ++ ": " ++ prettyAt level value := rfl
      rw [htext, String.toList_append, String.toList_append, String.toList_append,
        toList_prettyAt value level, speltMembers]
      simp [Layout.pretty]
  | cons next rest =>
      obtain ⟨other, kept⟩ := next
      have htext : prettyMembers level ((name, value) :: (other, kept) :: rest) =
          newLine level ++ quoted name ++ ": " ++ prettyAt level value ++ "," ++
            prettyMembers level ((other, kept) :: rest) := rfl
      rw [htext, String.toList_append, String.toList_append, String.toList_append,
        String.toList_append, String.toList_append, toList_prettyAt value level,
        toList_prettyMembers other kept rest level, speltMembers]
      simp [Layout.pretty]
termination_by sizeOf ((name, value) :: more)

end

end DictionaryDdl.Json
