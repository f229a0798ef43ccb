import Mathlib.Data.List.Forall2
import PairLisp.Table

/-!
# Contents of a table

A table says one thing about a name, however one asks: the value that is found under the name is
the one that stands beside it in the list of entries (`Table.get?_eq_some_iff`), and the listing of
the values has each of them (`Table.mem_values_iff`). An insertion makes the table longer exactly if
the name is new.
-/

namespace PairLisp.Table

variable {α : Type} {t : Table α} {name key : String} {a : α}

@[simp] theorem get?_empty (name : String) : (∅ : Table α).get? name = none := rfl

/-- What is under a name after some insertions was inserted or was there before. -/
theorem mem_or_get?_of_insertAll {entries : List (String × α)}
    (h : (t.insertAll entries).get? name = some a) :
    (name, a) ∈ entries ∨ t.get? name = some a := by
  unfold insertAll at h
  induction entries generalizing t with
  | nil => exact .inr h
  | cons entry entries ih =>
    rw [List.foldl_cons] at h
    rcases ih h with hmem | hget
    · exact .inl (List.mem_cons_of_mem entry hmem)
    · rw [get?_insert] at hget
      split at hget
      · next hname =>
        obtain rfl := Option.some.inj hget
        rw [hname]
        exact .inl List.mem_cons_self
      · exact .inr hget

/-- Two tables in which the entries under a name match go on to match there when entries that match
are put in under the same names. -/
theorem rel_get?_insertAll {β : Type} {R : α → β → Prop} {t : Table α} {u : Table β} {xs : List α}
    {ys : List β} (h : Option.Rel R (t.get? name) (u.get? name)) (names : List String)
    (hxs : List.Forall₂ R xs ys) : Option.Rel R ((t.insertAll (names.zip xs)).get? name)
      ((u.insertAll (names.zip ys)).get? name) := by
  induction hxs generalizing names t u with
  | nil =>
    rw [List.zip_nil_right, List.zip_nil_right]
    exact h
  | @cons x y xs ys hxy _ ih =>
    cases names with
    | nil => exact h
    | cons other names =>
      refine ih ?_ names
      rw [get?_insert, get?_insert]
      split
      · exact .some hxy
      · exact h

theorem lookup_eq_some_iff {entries : List (String × α)}
    (h : (entries.map Prod.fst).Pairwise (· < ·)) :
    entries.lookup name = some a ↔ (name, a) ∈ entries := by
  induction entries with
  | nil => simp
  | cons entry rest ih =>
    rw [List.map_cons, List.pairwise_cons] at h
    rw [lookup_cons_ite, List.mem_cons]
    split
    · next hname =>
      -- no later entry has the name
      have hrest : (name, a) ∉ rest := fun hmem =>
        absurd (h.1 name (List.mem_map_of_mem hmem)) (hname ▸ String.lt_irrefl name)
      rw [hname, Option.some.injEq]
      constructor
      · rintro rfl
        exact .inl rfl
      · rintro (heq | hmem)
        · exact (congrArg Prod.snd heq).symm
        · exact absurd (hname ▸ hmem) hrest
    · next hname =>
      rw [ih h.2]
      constructor
      · exact .inr
      · rintro (heq | hmem)
        · exact absurd (congrArg Prod.fst heq) hname
        · exact hmem

/-- The value under a name is the one beside it in the list of entries. -/
theorem get?_eq_some_iff : t.get? name = some a ↔ (name, a) ∈ t.entries :=
  lookup_eq_some_iff t.sorted

/-- The listing has the values under all names. -/
theorem mem_values_iff : a ∈ t.values ↔ ∃ name, t.get? name = some a := by
  unfold values
  rw [List.mem_map]
  constructor
  · rintro ⟨⟨name, a⟩, hmem, rfl⟩
    exact ⟨name, get?_eq_some_iff.2 hmem⟩
  · rintro ⟨name, hget⟩
    exact ⟨(name, a), get?_eq_some_iff.1 hget, rfl⟩

theorem contains_iff : t.contains name = true ↔ ∃ a, t.get? name = some a :=
  Option.isSome_iff_exists

/-- An insertion adds one name. -/
theorem contains_insert (t : Table α) (name : String) (a : α) (key : String) :
    (t.insert name a).contains key = (decide (key = name) || t.contains key) := by
  unfold contains
  rw [get?_insert]
  by_cases h : key = name <;> simp [h]

/-- A new name makes the table longer by one. -/
theorem size_insert (h : t.contains name = false) (a : α) :
    (t.insert name a).size = t.size + 1 := by
  have hkeys : name ∉ t.entries.map Prod.fst := by
    intro hmem
    obtain ⟨⟨key, b⟩, hentry, rfl⟩ := List.mem_map.1 hmem
    rw [contains_iff.2 ⟨b, get?_eq_some_iff.2 hentry⟩] at h
    exact Bool.noConfusion h
  have hlength : ∀ entries : List (String × α), name ∉ entries.map Prod.fst →
      (insertEntry name a entries).length = entries.length + 1 := by
    intro entries hname
    induction entries with
    | nil => rfl
    | cons entry rest ih =>
      rw [List.map_cons, List.mem_cons, not_or] at hname
      unfold insertEntry
      rw [if_neg hname.1]
      split
      · rfl
      · rw [List.length_cons, ih hname.2, List.length_cons]
  exact hlength t.entries hkeys

end PairLisp.Table
