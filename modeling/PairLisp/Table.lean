/-!
# Tables of names

A table holds one value for each of finitely many names. Its entries are kept in increasing
order of the names, code point by code point, so that a listing of the table needs no sorting
and two tables with the same contents are the same table.

The operations are described by what they do to `get?`: see `get?_insert` and `get?_erase`.
-/

namespace PairLisp

/-- Values under names, in increasing order of the names. -/
structure Table (α : Type) where
  entries : List (String × α) := []
  sorted : (entries.map Prod.fst).Pairwise (· < ·) := by exact List.Pairwise.nil
deriving DecidableEq

namespace Table

variable {α : Type}

instance : EmptyCollection (Table α) := ⟨{}⟩

instance : Inhabited (Table α) := ⟨∅⟩

/-- The value under a name. -/
def get? (t : Table α) (name : String) : Option α := t.entries.lookup name

/-- Whether there is a value under the name. -/
def contains (t : Table α) (name : String) : Bool := (t.get? name).isSome

/-- How many names have a value. -/
def size (t : Table α) : Nat := t.entries.length

/-- The values in the order of their names. -/
def values (t : Table α) : List α := t.entries.map Prod.snd

/-! ## Insertion -/

/-- Puts an entry into its place in a sorted list, over the entry of the same name. -/
def insertEntry (name : String) (value : α) : List (String × α) → List (String × α)
  | [] => [(name, value)]
  | entry :: rest =>
    if name < entry.1 then (name, value) :: entry :: rest
    else if name = entry.1 then (name, value) :: rest
    else entry :: insertEntry name value rest

/-- An insertion adds no name but the one that is inserted. -/
theorem mem_keys_insertEntry {name key : String} {value : α} {entries : List (String × α)}
    (h : key ∈ (insertEntry name value entries).map Prod.fst) :
    key = name ∨ key ∈ entries.map Prod.fst := by
  induction entries with
  | nil => simpa [insertEntry] using h
  | cons entry rest ih =>
    unfold insertEntry at h
    split at h
    · simpa using h
    · split at h
      · simp only [List.map_cons, List.mem_cons] at h ⊢
        exact h.imp id Or.inr
      · simp only [List.map_cons, List.mem_cons] at h ⊢
        rcases h with rfl | h
        · exact Or.inr (Or.inl rfl)
        · exact (ih h).imp id Or.inr

/-- Names are totally ordered. -/
theorem lt_of_not_lt_of_ne {a b : String} (h : ¬ a < b) (hne : a ≠ b) : b < a := by
  by_cases hba : b < a
  · exact hba
  · exact absurd (String.le_antisymm (String.not_lt.1 hba) (String.not_lt.1 h)) hne

/-- An insertion keeps the names in their order, each of them once. -/
theorem sorted_insertEntry {name : String} {value : α} {entries : List (String × α)}
    (h : (entries.map Prod.fst).Pairwise (· < ·)) :
    ((insertEntry name value entries).map Prod.fst).Pairwise (· < ·) := by
  induction entries with
  | nil => simp [insertEntry]
  | cons entry rest ih =>
    rw [List.map_cons, List.pairwise_cons] at h
    unfold insertEntry
    split
    · next hlt =>
      -- the new name comes before all others
      simp only [List.map_cons, List.pairwise_cons]
      refine ⟨fun key hkey => ?_, h⟩
      rcases List.mem_cons.1 hkey with rfl | hkey
      · exact hlt
      · exact String.lt_trans hlt (h.1 key hkey)
    · next hnlt =>
      split
      · next heq =>
        rw [List.map_cons, List.pairwise_cons]
        exact ⟨fun key hkey => heq ▸ h.1 key hkey, h.2⟩
      · next hne =>
        -- the new name comes after the first one
        rw [List.map_cons, List.pairwise_cons]
        refine ⟨fun key hkey => ?_, ih h.2⟩
        rcases mem_keys_insertEntry hkey with rfl | hkey
        · exact lt_of_not_lt_of_ne hnlt hne
        · exact h.1 key hkey

/-- The table with a value under the name, whatever was under it before. -/
def insert (t : Table α) (name : String) (value : α) : Table α where
  entries := insertEntry name value t.entries
  sorted := sorted_insertEntry t.sorted

/-- The table after the given insertions, from left to right. -/
def insertAll (t : Table α) (entries : List (String × α)) : Table α :=
  entries.foldl (fun t entry => t.insert entry.1 entry.2) t

/-- The first entry of a name is the one that counts. -/
theorem lookup_cons_ite (entry : String × α) (rest : List (String × α)) (name : String) :
    (entry :: rest).lookup name = if name = entry.1 then some entry.2 else rest.lookup name := by
  obtain ⟨key, value⟩ := entry
  rw [List.lookup_cons]
  by_cases h : name = key
  · simp [h]
  · have hb : (name == key) = false := by simpa using h
    simp [h, hb]

/-- An insertion sets the value of one name and leaves the others as they are. -/
theorem get?_insert (t : Table α) (name : String) (value : α) (other : String) :
    (t.insert name value).get? other = if other = name then some value else t.get? other := by
  unfold get? insert
  simp only
  induction t.entries with
  | nil => simp [insertEntry, lookup_cons_ite]
  | cons entry rest ih =>
    unfold insertEntry
    split
    · rw [lookup_cons_ite]
    · split
      · next heq =>
        rw [lookup_cons_ite, lookup_cons_ite]
        by_cases h : other = name <;> simp [h, ← heq]
      · next hne =>
        rw [lookup_cons_ite, lookup_cons_ite, ih]
        by_cases h : other = name <;> simp [h, hne]

/-! ## Removal -/

/-- The table without the name. -/
def erase (t : Table α) (name : String) : Table α where
  entries := t.entries.filter (·.1 ≠ name)
  sorted := t.sorted.sublist (List.filter_sublist.map _)

/-- A removal takes the value from one name and leaves the others as they are. -/
theorem get?_erase (t : Table α) (name other : String) :
    (t.erase name).get? other = if other = name then none else t.get? other := by
  unfold get? erase
  simp only
  induction t.entries with
  | nil => simp
  | cons entry rest ih =>
    by_cases he : entry.1 = name
    · rw [List.filter_cons_of_neg (by simpa using he), ih, lookup_cons_ite]
      by_cases h : other = name <;> simp [h, he]
    · rw [List.filter_cons_of_pos (by simpa using he), lookup_cons_ite, lookup_cons_ite, ih]
      by_cases h : other = name
      · simp [h, Ne.symm he]
      · simp [h]

end Table

end PairLisp
