/-!
Collations and the catalogue that finds them by their number. The catalogue holds its entries in
strictly ascending order of their numbers, so two catalogues that find the same are the same.
-/

namespace DictionaryDdl

/-- A row of the server's table of collations. -/
structure Collation where
  id : UInt32
  name : String
  charset : String
  maxBytesPerChar : UInt32
  deriving DecidableEq, Repr

namespace Collation

/-- Whether the character set is the one of uninterpreted octets. -/
def isBinary (c : Collation) : Bool :=
  c.charset == "binary"

/-- How many characters a prefix of so many octets holds, rounded up; a width of zero counts as
one. -/
def bytesToChars (c : Collation) (bytes : UInt64) : UInt64 :=
  let width := (max c.maxBytesPerChar 1).toUInt64
  if bytes % width = 0 then bytes / width else bytes / width + 1

/-- Puts a collation into a list in ascending order of numbers, in the place of one with its
number. -/
def insertInto (c : Collation) : List Collation → List Collation
  | [] => [c]
  | d :: more =>
      if c.id < d.id then c :: d :: more
      else if c.id = d.id then c :: more
      else d :: insertInto c more

theorem mem_insertInto {c x : Collation} {cs : List Collation} (h : x ∈ c.insertInto cs) :
    x = c ∨ x ∈ cs := by
  induction cs with
  | nil => simpa [insertInto] using h
  | cons d more ih =>
      unfold insertInto at h
      split at h
      · simpa using h
      · split at h
        · rcases List.mem_cons.1 h with h | h
          · exact Or.inl h
          · exact Or.inr (List.mem_cons_of_mem _ h)
        · rcases List.mem_cons.1 h with h | h
          · exact Or.inr (h ▸ List.mem_cons_self)
          · exact (ih h).imp (fun e => e) (List.mem_cons_of_mem _)

theorem pairwise_insertInto {c : Collation} {cs : List Collation}
    (h : cs.Pairwise (·.id < ·.id)) : (c.insertInto cs).Pairwise (·.id < ·.id) := by
  induction cs with
  | nil => simp [insertInto]
  | cons d more ih =>
      obtain ⟨first, rest⟩ := List.pairwise_cons.1 h
      unfold insertInto
      split
      · next lt =>
          refine List.pairwise_cons.2 ⟨fun x hx => ?_, h⟩
          rcases List.mem_cons.1 hx with hx | hx
          · exact hx ▸ lt
          · exact UInt32.lt_trans lt (first x hx)
      · split
        · next eq => exact List.pairwise_cons.2 ⟨fun x hx => eq ▸ first x hx, rest⟩
        · next notLt notEq =>
            refine List.pairwise_cons.2 ⟨fun x hx => ?_, ih rest⟩
            rcases mem_insertInto hx with hx | hx
            · subst hx
              exact UInt32.lt_of_le_of_ne (UInt32.not_lt.1 notLt) (fun e => notEq e.symm)
            · exact first x hx

/-- The collations that a server knows. -/
structure Catalog where
  entries : List Collation
  ascending : entries.Pairwise (·.id < ·.id)
  deriving DecidableEq

namespace Catalog

def empty : Catalog := ⟨[], .nil⟩

/-- Adds a collation, in the place of one with its number. -/
def insert (catalog : Catalog) (c : Collation) : Catalog :=
  ⟨c.insertInto catalog.entries, pairwise_insertInto catalog.ascending⟩

/-- The catalogue of some collations; of several with one number the last one stays. -/
def ofList (cs : List Collation) : Catalog :=
  cs.foldl insert empty

/-- The collation with a number. -/
def lookup? (catalog : Catalog) (id : UInt32) : Option Collation :=
  catalog.entries.find? (·.id == id)

def size (catalog : Catalog) : Nat :=
  catalog.entries.length

def isEmpty (catalog : Catalog) : Bool :=
  catalog.entries.isEmpty

end Catalog

end Collation

end DictionaryDdl
