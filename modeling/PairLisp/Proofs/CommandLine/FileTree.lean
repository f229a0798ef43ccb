import Mathlib.Data.List.Infix
import PairLisp.CommandLine.FileTree
import PairLisp.Proofs.CommandLine.OutputPath

/-!
# Paths in a file tree

Whatever the working directory is and whatever path is asked for, the path that a report goes to is
the first free one of the path and its siblings (`isFirstFree_freshPath`). There are more paths
than places, as a place has many; but the siblings of a path all lie in one directory, under names
that differ, so no two of them lead to one place (`eq_of_resolve_sibling`), and there are only so
many places where there is anything (`places`).

A new entry changes nothing at other places (`item?_put`), so whatever paths led to before, they
still lead to (`Keeps.find?`).
-/

namespace PairLisp.CommandLine.FileTree

open OutputPath

variable {tree tree' : FileTree} {place other : Place} {content : Option String} {path : String}

/-! ## Places -/

/-- All places where there is anything. -/
def places (tree : FileTree) : List Place :=
  tree.directory.inits ++ tree.entries.map (tree.directory ++ ·.1) ++ tree.elsewhere.map Prod.fst

theorem length_places (tree : FileTree) : tree.places.length = tree.size := by
  simp [places, size, Nat.add_assoc]

/-- The way to a place below the working directory is what stands behind the directory in it. -/
theorem below?_eq_some_iff {names : List String} :
    tree.below? place = some names ↔ place = tree.directory ++ names := by
  unfold below?
  constructor
  · intro h
    split at h
    · next hbelow =>
      obtain ⟨names', rfl⟩ := hbelow
      simpa using h
    · cases h
  · rintro rfl
    simp

theorem mem_map_fst_of_lookup {entries : List (List String × Option String)} {names : List String}
    (h : entries.lookup names = some content) : names ∈ entries.map Prod.fst := by
  obtain ⟨front, back, rfl, -⟩ := List.lookup_eq_some_iff.1 h
  simp

/-- Where there is something, there is one of the places of the tree. -/
theorem mem_places (h : tree.item? place = some content) : place ∈ tree.places := by
  unfold item? at h
  unfold places
  simp only [List.mem_append, List.mem_inits]
  split at h
  · next habove => exact .inl (.inl habove)
  · split at h
    · next names hnames =>
      obtain ⟨entry, hentry, rfl⟩ := List.mem_map.1 (mem_map_fst_of_lookup h)
      exact .inl (.inr (List.mem_map.2 ⟨entry, hentry, (below?_eq_some_iff.1 hnames).symm⟩))
    · exact .inr (mem_map_fst_of_lookup h)

/-! ## New entries -/

@[simp] theorem directory_put (tree : FileTree) (place : Place) (content : Option String) :
    (tree.put place content).directory = tree.directory := by
  unfold put
  split <;> rfl

/-- A new entry is found under its names, and the others are found as before. -/
theorem lookup_putEntry (entries : List (List String × Option String)) (names : List String)
    (content : Option String) (other : List String) :
    (putEntry entries names content).lookup other =
      if other = names then some content else entries.lookup other := by
  unfold putEntry
  by_cases h : other = names
  · simp [h]
  · have hne : (other == names) = false := by simpa using h
    rw [List.lookup_cons, hne, if_neg h]
    simp only
    induction entries with
    | nil => rfl
    | cons entry entries ih =>
      by_cases hentry : entry.1 = names
      · have hother : (other == entry.1) = false := by simpa [hentry] using h
        rw [List.filter_cons_of_neg (by simpa using hentry), ih, List.lookup_cons, hother]
      · rw [List.filter_cons_of_pos (by simpa using hentry), List.lookup_cons, List.lookup_cons, ih]

/-- A new entry is at its place, and what is at other places is the same. -/
theorem item?_put (h : ¬ place <+: tree.directory) (content : Option String) (other : Place) :
    (tree.put place content).item? other =
      if other = place then some content else tree.item? other := by
  have hbelow : (tree.put place content).below? other = tree.below? other := by
    unfold below?
    rw [directory_put]
  unfold item?
  rw [directory_put, hbelow]
  by_cases habove : other <+: tree.directory
  · have hne : other ≠ place := fun heq => h (heq ▸ habove)
    rw [if_pos habove, if_pos habove, if_neg hne]
  · rw [if_neg habove, if_neg habove]
    unfold put
    cases hplace : tree.below? place with
    | some names =>
      obtain rfl := below?_eq_some_iff.1 hplace
      cases hother : tree.below? other with
      | some names' =>
        obtain rfl := below?_eq_some_iff.1 hother
        simp [lookup_putEntry]
      | none =>
        have hne : other ≠ tree.directory ++ names := by
          rintro rfl
          simp [hother] at hplace
        simp [hne]
    | none =>
      cases hother : tree.below? other with
      | some names' =>
        have hne : other ≠ place := by
          rintro rfl
          simp [hother] at hplace
        simp [hne]
      | none => simp [lookup_putEntry]

/-- A place with nothing in it is not on the way to the directory. -/
theorem not_prefix_of_item? (h : tree.item? place = none) : ¬ place <+: tree.directory := by
  intro hprefix
  simp [item?, hprefix] at h

/-- A write goes to a place that is no directory and puts the text there. -/
theorem exists_of_write? {text : String} (h : tree.write? path text = some tree') :
    ∃ place, tree.resolve path = some place ∧ tree.item? place ≠ some none ∧
      tree.put place (some text) = tree' := by
  unfold write? at h
  split at h
  · cases h
  · split at h
    · cases h
    · next place hplace =>
      split at h
      · cases h
      · next hentry => exact ⟨place, hplace, hentry, Option.some.inj h⟩

/-! ## Walks -/

/-- A walk goes on from where it has come to, if this is a directory. -/
theorem walk_append (tree : FileTree) (place : Place) (parts : List String) (name : String) :
    tree.walk place (parts ++ [name]) = (tree.walk place parts).bind fun directory =>
      if tree.item? directory = some none then some (step directory name) else none := by
  induction parts generalizing place with
  | nil => simp [walk]
  | cons part parts ih =>
    rw [List.cons_append, walk, walk]
    split
    · exact ih _
    · rfl

/-! ## Trees with more in them -/

/-- Everything of the first tree is in the second one, and the working directory is the same. -/
structure Keeps (tree tree' : FileTree) : Prop where
  directory : tree'.directory = tree.directory
  items : ∀ place content, tree.item? place = some content → tree'.item? place = some content

theorem Keeps.refl (tree : FileTree) : Keeps tree tree := ⟨rfl, fun _ _ h => h⟩

/-- An entry at a place where there was nothing takes nothing away. -/
theorem keeps_put (h : tree.item? place = none) (content : Option String) :
    Keeps tree (tree.put place content) := by
  refine ⟨directory_put tree place content, fun other old hother => ?_⟩
  have hne : other ≠ place := by
    rintro rfl
    simp [h] at hother
  rw [item?_put (not_prefix_of_item? h), if_neg hne, hother]

/-- A walk comes to the same place where there is more in the tree. -/
theorem Keeps.walk (h : Keeps tree tree') {parts : List String}
    (hwalk : tree.walk place parts = some other) : tree'.walk place parts = some other := by
  induction parts generalizing place with
  | nil => exact hwalk
  | cons part parts ih =>
    rw [FileTree.walk] at hwalk ⊢
    split at hwalk
    · next hplace =>
      rw [if_pos (h.items place none hplace)]
      exact ih hwalk
    · cases hwalk

/-- A path leads to the same place where there is more in the tree. -/
theorem Keeps.resolve (h : Keeps tree tree') (hresolve : tree.resolve path = some place) :
    tree'.resolve path = some place := by
  unfold FileTree.resolve at hresolve ⊢
  split at hresolve
  · cases hresolve
  · next hne =>
    rw [if_neg hne]
    unfold start at hresolve ⊢
    rw [h.directory]
    exact h.walk hresolve

/-- A path leads to what it led to. -/
theorem Keeps.find? (h : Keeps tree tree') (hfind : tree.find? path = some content) :
    tree'.find? path = some content := by
  obtain ⟨place, hplace, hcontent⟩ := Option.bind_eq_some_iff.1 hfind
  exact Option.bind_eq_some_iff.2 ⟨place, h.resolve hplace, h.items place content hcontent⟩

/-! ## The places of siblings -/

variable {directory stem : List Char} {extension : Option (List Char)}

/-- The name of a sibling leads to what has this name. -/
theorem step_numbered (place : Place) (stem : List Char) (extension : Option (List Char))
    (n : Nat) : step place (String.ofList (numbered stem extension n)) =
      place ++ [String.ofList (numbered stem extension n)] := by
  obtain ⟨⟨hnil, hdot⟩, hdots⟩ := leads_numbered stem extension n
  have hne : ∀ dots : String, numbered stem extension n ≠ dots.toList →
      String.ofList (numbered stem extension n) ≠ dots := by
    rintro _ hname rfl
    exact hname String.toList_ofList.symm
  have hleads : ¬ (String.ofList (numbered stem extension n) = "" ∨
      String.ofList (numbered stem extension n) = ".") := by
    rintro (hname | hname)
    · exact hne "" hnil hname
    · exact hne "." hdot hname
  unfold step
  rw [if_neg hleads, if_neg (hne ".." hdots)]

/-- The siblings of a path lie in one directory. -/
theorem exists_resolve_sibling (tree : FileTree)
    (h : Around path.toList directory stem extension) : ∃ start parts, ∀ n,
      tree.resolve (sibling path n) =
        tree.walk start (parts ++ [String.ofList (numbered stem extension n)]) := by
  have hresolve : ∀ n, tree.resolve (sibling path n) = tree.walk
      (if (directory ++ numbered stem extension n).head? = some '/' then [] else tree.directory)
      (((directory ++ numbered stem extension n).splitOn '/').map String.ofList) := by
    intro n
    have hne : sibling path n ≠ "" := by
      intro hempty
      have hname := h.toList_sibling n
      rw [hempty] at hname
      exact (leads_numbered stem extension n).1.1 (List.append_eq_nil_iff.1 hname.symm).2
    unfold resolve start parts
    rw [if_neg hne, h.toList_sibling]
  rcases h.slash with rfl | ⟨init, rfl⟩
  · refine ⟨tree.directory, [], fun n => ?_⟩
    have hslash := notMem_numbered h.notMem n
    have hhead : (numbered stem extension n).head? ≠ some '/' := fun heq =>
      hslash (List.mem_of_head? heq)
    rw [hresolve, List.nil_append, if_neg hhead, List.splitOn_eq_singleton hslash]
    rfl
  · refine ⟨if (init ++ ['/']).head? = some '/' then [] else tree.directory,
      (init.splitOn '/').map String.ofList, fun n => ?_⟩
    have hsplit := splitOn_append_slash init (notMem_numbered h.notMem n)
    rw [hresolve, List.head?_append_of_ne_nil _ (by simp), List.append_assoc,
      List.singleton_append, hsplit, List.map_append]
    rfl

/-- Siblings with different numbers lead to different places. -/
theorem eq_of_resolve_sibling {m n : Nat} (hm : tree.resolve (sibling path m) = some place)
    (hn : tree.resolve (sibling path n) = some place) : m = n := by
  obtain ⟨directory, stem, extension, haround⟩ := exists_around path.toList
  obtain ⟨start, parts, hresolve⟩ := exists_resolve_sibling tree haround
  rw [hresolve, walk_append] at hm hn
  cases hwalk : tree.walk start parts with
  | none => simp [hwalk] at hm
  | some directory =>
    simp only [hwalk, Option.bind_some, step_numbered] at hm hn
    split at hm
    · next hdirectory =>
      rw [if_pos hdirectory] at hn
      have hnames := List.append_cancel_left (Option.some.inj (hm.trans hn.symm))
      have hname := String.ofList_injective (List.singleton_inj.1 hnames)
      exact numbered_injective stem extension hname
    · cases hm

/-- The path of a report is the first free one of the path that is asked for and its siblings. -/
theorem isFirstFree_freshPath (tree : FileTree) (path : String) :
    IsFirstFree tree.contains path (tree.freshPath path) := by
  have hplace : ∀ {sibling : String}, tree.contains sibling = true →
      ∃ place ∈ tree.places, tree.resolve sibling = some place := by
    intro sibling hsibling
    obtain ⟨content, hfind⟩ := Option.isSome_iff_exists.1 hsibling
    obtain ⟨place, hplace, hcontent⟩ := Option.bind_eq_some_iff.1 hfind
    exact ⟨place, mem_places hcontent, hplace⟩
  refine isFirstFree_fresh (exists_free (fun n => tree.resolve (sibling path n))
    (tree.places.map some) (fun n hn => ?_) (fun m n hm _ heq => ?_) ?_ 1)
  · obtain ⟨place, hmem, hresolve⟩ := hplace hn
    exact hresolve ▸ List.mem_map_of_mem hmem
  · obtain ⟨place, -, hresolve⟩ := hplace hm
    exact eq_of_resolve_sibling hresolve (heq ▸ hresolve)
  · rw [List.length_map, length_places]
    exact Nat.lt_succ_self _

end PairLisp.CommandLine.FileTree
