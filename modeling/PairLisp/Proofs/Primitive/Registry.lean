import Mathlib.Data.List.Nodup
import PairLisp.Proofs.Result
import PairLisp.Proofs.Table
import PairLisp.Primitive.Registry

/-!
# Names of operations

A registry is built from a list of operations if and only if no name is repeated in the list, be it
within an operation or across two. If one is, the error tells the first that is, with the operation
that had it before and the one that repeats it. In a registry that has been built a name leads to
the one operation that goes by it, and to none if there is no such operation; the search through the
operations finds what stands at the position under the name (`Registry.build_iff`).

The names are entered one after the other. So the lemmas are about rows of entries in front of any
index: new names that differ from each other are all entered (`Registry.foldlM_enter_of_nodup`), and
the first that is not new ends the row (`Registry.index_eq_error_iff`).
-/

namespace PairLisp.Registry

variable {r : Registry} {ops : List Operation} {op : Operation} {t u : Table Nat}
  {row before : List (String × Nat)} {name : String} {i j : Nat} {e : DefinitionError}

/-! ## Looking a name up -/

/-- What is found under a name is an operation with this name. -/
theorem mem_of_find? (h : r.find? name = some op) : op ∈ r.operations ∧ name ∈ op.aliases := by
  unfold find? at h
  exact ⟨List.mem_of_find?_eq_some h, by simpa using List.find?_some h⟩

/-- Nothing is found under a name that no operation has. -/
theorem find?_eq_none_iff : r.find? name = none ↔ ∀ op ∈ r.operations, name ∉ op.aliases := by
  simp [find?]

/-- The registry has a name if some operation goes by it. -/
theorem contains_iff : r.contains name = true ↔ ∃ op ∈ r.operations, name ∈ op.aliases := by
  simp [contains, find?]

/-- A name is reserved if the operation that goes by it is. -/
theorem isReserved_iff :
    r.isReserved name = true ↔ ∃ op, r.find? name = some op ∧ op.reserved = true := by
  unfold isReserved
  split <;> simp [*]

/-! ## The names in order -/

/-- There is an entry for each name of the operation at each place. -/
theorem mem_entries : (name, i) ∈ entries ops ↔ ∃ op, ops[i]? = some op ∧ name ∈ op.aliases := by
  unfold entries
  rw [List.mem_flatMap]
  constructor
  · rintro ⟨⟨op, k⟩, hop, hname⟩
    obtain ⟨other, hother, heq⟩ := List.mem_map.1 hname
    obtain ⟨rfl, rfl⟩ := Prod.mk.inj heq
    exact ⟨op, List.mem_zipIdx_iff_getElem?.1 hop, hother⟩
  · rintro ⟨op, hop, hname⟩
    exact ⟨(op, i), List.mem_zipIdx_iff_getElem?.2 hop, List.mem_map_of_mem hname⟩

/-- Among distinct names each has one position. -/
theorem position_unique (h : (row.map Prod.fst).Nodup) (hi : (name, i) ∈ row)
    (hj : (name, j) ∈ row) : i = j :=
  congrArg Prod.snd (List.inj_on_of_nodup_map h hi hj rfl)

theorem nameAt_of_getElem? (h : ops[i]? = some op) : nameAt ops i = op.name := by
  unfold nameAt
  rw [h]
  rfl

/-! ## Entering names -/

variable (ops) in
/-- New names that differ from each other are all entered. -/
theorem foldlM_enter_of_nodup (h : (row.map Prod.fst).Nodup)
    (hnew : ∀ name ∈ row.map Prod.fst, t.get? name = none) :
    ∃ u, row.foldlM (enter ops) t = .ok u ∧
      ∀ name i, u.get? name = some i ↔ (name, i) ∈ row ∨ t.get? name = some i := by
  induction row generalizing t with
  | nil => exact ⟨t, rfl, by simp⟩
  | cons entry row ih =>
    obtain ⟨key, k⟩ := entry
    obtain ⟨hdistinct, hnodup⟩ := List.nodup_cons.1 h
    obtain ⟨hkey, hrow⟩ := List.forall_mem_cons.1 hnew
    have hrest : ∀ name ∈ row.map Prod.fst, (t.insert key k).get? name = none := by
      intro name hname
      have hne : name ≠ key := fun heq => hdistinct (heq ▸ hname)
      rw [Table.get?_insert, if_neg hne]
      exact hrow name hname
    obtain ⟨u, hu, hget⟩ := ih hnodup hrest
    refine ⟨u, ?_, fun name i => ?_⟩
    · rw [List.foldlM_cons, enter_eq_ok_iff.2 ⟨hkey, rfl⟩]
      exact hu
    · rw [hget, Table.get?_insert, List.mem_cons, Prod.mk.injEq]
      by_cases hname : name = key
      · -- the name is not in the index before
        subst hname
        have hold : t.get? name = none := hkey
        simp [hold, eq_comm, or_comm]
      · simp [hname]

/-- An index has just the entries that were made. -/
theorem get?_of_foldlM_enter (h : row.foldlM (enter ops) ∅ = .ok t) (name : String) (i : Nat) :
    t.get? name = some i ↔ (name, i) ∈ row := by
  obtain ⟨hnodup, hnew⟩ := nodup_of_foldlM_enter h
  obtain ⟨u, hu, hget⟩ := foldlM_enter_of_nodup ops hnodup hnew
  obtain rfl := Except.ok.inj (hu.symm.trans h)
  simpa using hget name i

/-- A name cannot be entered again, and the error shows both operations that have it. -/
theorem enter_eq_error_iff : enter ops t (name, i) = .error e ↔
    ∃ j, t.get? name = some j ∧ e = .sharedAlias name (nameAt ops j) (nameAt ops i) := by
  unfold enter
  split <;> simp [*, eq_comm]

/-- The entering ends at the first name that is repeated. -/
theorem index_eq_error_iff : index ops = .error e ↔ ∃ before name i after j,
    entries ops = before ++ (name, i) :: after ∧ (before.map Prod.fst).Nodup ∧
      (name, j) ∈ before ∧ e = .sharedAlias name (nameAt ops j) (nameAt ops i) := by
  unfold index
  rw [foldlM_eq_error_iff]
  constructor
  · rintro ⟨before, ⟨name, i⟩, after, t, hrow, hbefore, herror⟩
    obtain ⟨j, hj, he⟩ := enter_eq_error_iff.1 herror
    exact ⟨before, name, i, after, j, hrow, (nodup_of_foldlM_enter hbefore).1,
      (get?_of_foldlM_enter hbefore name j).1 hj, he⟩
  · rintro ⟨before, name, i, after, j, hrow, hnodup, hj, he⟩
    obtain ⟨t, ht, -⟩ := foldlM_enter_of_nodup ops (t := ∅) hnodup (by simp)
    have hget := (get?_of_foldlM_enter ht name j).2 hj
    exact ⟨before, (name, i), after, t, hrow, ht, enter_eq_error_iff.2 ⟨j, hget, he⟩⟩

/-! ## Building -/

/-- A registry cannot be built exactly if its index cannot. -/
theorem build_eq_error_iff : build ops = .error e ↔ index ops = .error e := by
  unfold build
  split <;> simp [*]

/-- A registry that is built has the operations and an index of their names. -/
theorem exists_index_of_build (h : build ops = .ok r) :
    r.operations = ops ∧ ∃ t, index ops = .ok t := by
  unfold build at h
  split at h
  · simp at h
  · next t ht => exact ⟨congrArg operations (Except.ok.inj h).symm, t, ht⟩

/-- A registry can be built exactly if the names of its operations differ. -/
theorem exists_build_iff : (∃ r, build ops = .ok r) ↔ (ops.flatMap Operation.aliases).Nodup := by
  constructor
  · rintro ⟨r, hr⟩
    obtain ⟨-, t, ht⟩ := exists_index_of_build hr
    exact nodup_of_index ht
  · intro h
    cases hbuild : build ops with
    | ok r => exact ⟨r, rfl⟩
    | error e =>
      obtain ⟨before, name, i, after, j, hrow, -, hj, -⟩ :=
        index_eq_error_iff.1 (build_eq_error_iff.1 hbuild)
      rw [← map_fst_entries, hrow, List.map_append, List.nodup_append] at h
      exact absurd rfl (h.2.2 _ (List.mem_map_of_mem hj) name (by simp))

/-- The operation at a position goes by a name if and only if the index gives the position and the
search the operation. -/
theorem position_iff (h : (ops.flatMap Operation.aliases).Nodup) (ht : index ops = .ok t)
    (hr : r.operations = ops) : (ops[i]? = some op ∧ name ∈ op.aliases) ↔
      (t.get? name = some i ∧ r.find? name = some op) := by
  have hget := get?_of_foldlM_enter ht name
  rw [← map_fst_entries] at h
  constructor
  · rintro ⟨hop, hname⟩
    have hi : (name, i) ∈ entries ops := mem_entries.2 ⟨op, hop, hname⟩
    refine ⟨(hget i).2 hi, ?_⟩
    cases hfind : r.find? name with
    | none =>
      exact absurd hname (find?_eq_none_iff.1 hfind op (hr ▸ List.mem_of_getElem? hop))
    | some other =>
      obtain ⟨hmem, hother⟩ := mem_of_find? hfind
      obtain ⟨j, hj⟩ := List.getElem?_of_mem (hr ▸ hmem)
      obtain rfl := position_unique h hi (mem_entries.2 ⟨other, hj, hother⟩)
      exact hj.symm.trans hop
  · rintro ⟨hi, hfind⟩
    obtain ⟨hmem, hname⟩ := mem_of_find? hfind
    obtain ⟨j, hj⟩ := List.getElem?_of_mem (hr ▸ hmem)
    obtain rfl := position_unique h ((hget i).1 hi) (mem_entries.2 ⟨op, hj, hname⟩)
    exact ⟨hj, hname⟩

/-- The search gives the operation at the position that the index has. -/
theorem find?_eq_index (h : (ops.flatMap Operation.aliases).Nodup) (ht : index ops = .ok t)
    (hr : r.operations = ops) (name : String) : r.find? name = (t.get? name).bind (ops[·]?) := by
  cases hfind : r.find? name with
  | some op =>
    obtain ⟨hmem, hname⟩ := mem_of_find? hfind
    obtain ⟨i, hi⟩ := List.getElem?_of_mem (hr ▸ hmem)
    rw [((position_iff h ht hr).1 ⟨hi, hname⟩).1]
    exact hi.symm
  | none =>
    cases hget : t.get? name with
    | none => rfl
    | some i =>
      -- a position in the index is one of an operation that the search would find
      obtain ⟨op, hop, hname⟩ := mem_entries.1 ((get?_of_foldlM_enter ht name i).1 hget)
      exact absurd hname (find?_eq_none_iff.1 hfind op (hr ▸ List.mem_of_getElem? hop))

/-- A registry is built if and only if no name is repeated. In it the index and the search lead from
a name to the one position whose operation goes by it, and from other names nowhere. If a name is
repeated, the error is about the first that is, in the order of the table. -/
theorem build_iff (ops : List Operation) :
    ((∃ r, build ops = .ok r) ↔ (ops.flatMap Operation.aliases).Nodup) ∧
    (∀ r, build ops = .ok r → ∃ t, index ops = .ok t ∧ ∀ name,
      (∀ i op, (ops[i]? = some op ∧ name ∈ op.aliases) ↔
        (t.get? name = some i ∧ r.find? name = some op)) ∧
      (r.find? name = none ↔ ∀ op ∈ ops, name ∉ op.aliases) ∧
      r.find? name = (t.get? name).bind (ops[·]?) ∧
      (r.contains name = true ↔ ∃ op, r.find? name = some op) ∧
      (r.isReserved name = true ↔ ∃ op, r.find? name = some op ∧ op.reserved = true)) ∧
    ∀ e, build ops = .error e ↔ ∃ before name i after j first second,
      entries ops = before ++ (name, i) :: after ∧ (before.map Prod.fst).Nodup ∧
        (name, j) ∈ before ∧ ops[j]? = some first ∧ ops[i]? = some second ∧
          e = .sharedAlias name first.name second.name := by
  refine ⟨exists_build_iff, fun r hbuild => ?_, fun e => ?_⟩
  · have hnodup := exists_build_iff.1 ⟨r, hbuild⟩
    obtain ⟨hr, t, ht⟩ := exists_index_of_build hbuild
    refine ⟨t, ht, fun name => ⟨fun i op => position_iff hnodup ht hr, ?_,
      find?_eq_index hnodup ht hr name, Option.isSome_iff_exists, isReserved_iff⟩⟩
    rw [find?_eq_none_iff, hr]
  · rw [build_eq_error_iff, index_eq_error_iff]
    constructor
    · rintro ⟨before, name, i, after, j, hrow, hnodup, hj, rfl⟩
      obtain ⟨first, hfirst, -⟩ := mem_entries.1 (hrow ▸ List.mem_append_left _ hj)
      obtain ⟨second, hsecond, -⟩ : ∃ op, ops[i]? = some op ∧ name ∈ op.aliases :=
        mem_entries.1 (by simp [hrow])
      rw [nameAt_of_getElem? hfirst, nameAt_of_getElem? hsecond]
      exact ⟨before, name, i, after, j, first, second, hrow, hnodup, hj, hfirst, hsecond, rfl⟩
    · rintro ⟨before, name, i, after, j, first, second, hrow, hnodup, hj, hfirst, hsecond, rfl⟩
      refine ⟨before, name, i, after, j, hrow, hnodup, hj, ?_⟩
      rw [nameAt_of_getElem? hfirst, nameAt_of_getElem? hsecond]

/-- The operations of the language make a registry, and a synonym leads to its operation. A list of
two operations that share a synonym makes none. -/
theorem build_iff_standard :
    (∃ r, build standardOperations = .ok r ∧ r.find? "endp" = standardOperations[16]? ∧
      r.find? "cadr" = none) ∧
    build [{ name := "plus", synonyms := ["+"], arity := .atLeast 1, meaning := .form .quote },
        { name := "add", synonyms := ["+"], arity := .atLeast 1, meaning := .form .quote }] =
      .error (.sharedAlias "+" "plus" "add") := by
  constructor
  · obtain ⟨hexists, hlookup, -⟩ := build_iff standardOperations
    obtain ⟨r, hr⟩ := hexists.2 (by decide)
    obtain ⟨t, -, hfind⟩ := hlookup r hr
    have hendp := ((hfind "endp").1 16 standardOperations[16]).1 ⟨rfl, by decide⟩
    exact ⟨r, hr, hendp.2, (hfind "cadr").2.1.2 (by decide)⟩
  · exact ((build_iff _).2.2 _).2 ⟨[("plus", 0), ("+", 0), ("add", 1)], "+", 1, [], 0, _, _, rfl,
      by decide, by decide, rfl, rfl, rfl⟩

end PairLisp.Registry
