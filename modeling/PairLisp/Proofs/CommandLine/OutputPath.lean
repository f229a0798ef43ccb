import Mathlib.Data.List.Nodup
import Mathlib.Data.List.Perm.Subperm
import Mathlib.Data.List.TakeWhile
import PairLisp.CommandLine.OutputPath

/-!
# Siblings of a path

What a path says is in its components: the root, if it begins there, and the names between its
slashes. The last of them is the file name if it is a name. The siblings of a path differ from it in
that alone: the number stands behind the stem, in front of the extension
(`isSibling_sibling`). If the path has no file name, the number is a name of its own in the
directory that the path leads to.

All that the search for a free sibling needs of this is that the number comes last in the path but
for a fixed text without a slash (`Around`). Siblings with different numbers have different names,
whatever digits and dots there are in the stem, so not all of them can be taken if there are more of
them than places that are taken (`exists_free`).
-/

namespace PairLisp.CommandLine.OutputPath

variable {path parent name directory stem : List Char} {extension : Option (List Char)}

/-! ## Components -/

/-- Whether a part of a path leads anywhere, be it up. -/
def Leads (part : List Char) : Prop := part ≠ [] ∧ part ≠ ['.']

instance (part : List Char) : Decidable (Leads part) := inferInstanceAs (Decidable (_ ∧ _))

@[simp] theorem not_leads_nil : ¬ Leads [] := by simp [Leads]

@[simp] theorem not_leads_dot : ¬ Leads ['.'] := by simp [Leads]

/-- The root if a path begins there, and the names between its slashes. A dot counts only at the
beginning of a path. -/
def components (path : List Char) : List (List Char) :=
  match path.splitOn '/' with
  | [] => []
  | [part] => if part = [] then [] else [part]
  | first :: rest => (if first = [] then ['/'] else first) :: rest.filter (Leads ·)

/-- The last component if it is a name and neither the root nor dots. -/
def fileName? (path : List Char) : Option (List Char) :=
  (components path).getLast?.filter (· ∉ [['/'], ['.'], ['.', '.']])

/-- A name behind a slash is one more part of the path. -/
theorem splitOn_append_slash (path : List Char) (h : '/' ∉ name) :
    (path ++ '/' :: name).splitOn '/' = path.splitOn '/' ++ [name] := by
  rw [List.splitOn_append_cons_self, List.splitOn_eq_singleton h]

/-- A name alone is the only component. -/
theorem components_of_notMem (h : '/' ∉ name) (hne : name ≠ []) : components name = [name] := by
  unfold components
  simp [List.splitOn_eq_singleton h, hne]

/-- Of the parts behind the first slash, those that lead somewhere are components. -/
theorem components_of_splitOn {first : List Char} {rest : List (List Char)}
    (hpath : path.splitOn '/' = first :: rest) (h : '/' ∉ name) :
    components (path ++ '/' :: name) =
      (if first = [] then ['/'] else first) :: (rest ++ [name]).filter (Leads ·) := by
  unfold components
  rw [splitOn_append_slash path h, hpath]
  cases rest <;> rfl

/-- The last part of a path is kept if it leads anywhere. -/
theorem filter_leads_append (parts : List (List Char)) (name : List Char) :
    (parts ++ [name]).filter (Leads ·) =
      parts.filter (Leads ·) ++ if Leads name then [name] else [] := by
  rw [List.filter_append, List.filter_singleton]
  by_cases h : Leads name <;> simp [h]

/-- A name behind a slash is a component if it leads anywhere. -/
theorem components_append_slash (path : List Char) (h : '/' ∉ name) :
    components (path ++ '/' :: name) =
      components (path ++ ['/']) ++ if Leads name then [name] else [] := by
  obtain ⟨first, rest, hpath⟩ := List.exists_cons_of_ne_nil (List.splitOn_ne_nil '/' path)
  rw [components_of_splitOn hpath h, components_of_splitOn hpath List.not_mem_nil]
  rw [filter_leads_append, filter_leads_append, if_neg not_leads_nil, List.append_nil]
  rfl

/-- A slash at the end of a path says nothing. -/
theorem components_slash (hne : path ≠ []) : components (path ++ ['/']) = components path := by
  obtain ⟨first, rest, hpath⟩ := List.exists_cons_of_ne_nil (List.splitOn_ne_nil '/' path)
  rw [components_of_splitOn hpath List.not_mem_nil]
  unfold components
  rw [hpath]
  cases rest with
  | nil =>
    -- the path is its only part
    have hfirst : first = path := by
      have hjoin : ['/'].intercalate (path.splitOn '/') = path := List.intercalate_splitOn '/'
      rwa [hpath, List.intercalate_singleton] at hjoin
    simp [hfirst, hne]
  | cons part rest => rw [filter_leads_append, if_neg not_leads_nil, List.append_nil]

/-- Neither do the slashes and dots that are left out there. -/
theorem components_trimEnd (reversed : List Char) :
    components (trimEnd reversed).reverse = components reversed.reverse := by
  fun_induction trimEnd reversed with
  | case1 c cs ih =>
    have hslash := components_slash (show (c :: cs).reverse ≠ [] by simp)
    rw [ih, ← hslash, ← List.reverse_cons]
  | case2 cs ih =>
    have hdot := components_append_slash cs.reverse (show '/' ∉ ['.'] by simp)
    rw [ih]
    simpa using hdot.symm
  | case3 => rfl

/-- Nothing more can be left out at the end. -/
theorem trimEnd_ne (reversed : List Char) (c : Char) (cs : List Char) :
    trimEnd reversed ≠ '/' :: c :: cs ∧ trimEnd reversed ≠ '.' :: '/' :: cs := by
  fun_induction trimEnd reversed with
  | case1 _ _ ih => exact ih
  | case2 _ ih => exact ih
  | case3 reversed hslash hdot => exact ⟨hslash c cs, hdot cs⟩

/-! ## The last part of a path -/

theorem notMem_takeWhile (c : Char) (cs : List Char) : c ∉ cs.takeWhile (· ≠ c) := by
  intro h
  simpa using List.mem_takeWhile_imp h

/-- What is left of a text is nothing, or it begins with the character that was looked for. -/
theorem dropWhile_eq (c : Char) (cs : List Char) :
    cs.dropWhile (· ≠ c) = [] ∨ ∃ rest, cs.dropWhile (· ≠ c) = c :: rest := by
  induction cs with
  | nil => exact .inl rfl
  | cons d cs ih =>
    by_cases h : d = c
    · exact .inr ⟨cs, by simp [h]⟩
    · simpa [List.dropWhile_cons, h] using ih

/-- The two halves of a path make up all of it but for the slashes and dots that are left out at its
end, and the cut is behind the last slash. -/
theorem splitLast_spec (h : splitLast path = (parent, name)) :
    trimEnd path.reverse = (parent ++ name).reverse ∧ '/' ∉ name ∧
      (parent = [] ∨ ∃ init, parent = init ++ ['/']) := by
  unfold splitLast at h
  obtain ⟨rfl, rfl⟩ := Prod.mk.inj h
  refine ⟨by simp, ?_, ?_⟩
  · rw [List.mem_reverse]
    exact notMem_takeWhile '/' _
  · rcases dropWhile_eq '/' (trimEnd path.reverse) with hdrop | ⟨rest, hdrop⟩
    · exact .inl (by rw [hdrop]; rfl)
    · exact .inr ⟨rest.reverse, by rw [hdrop, List.reverse_cons]⟩

/-- The last part of a path is its last component, or the path is the root, a dot or empty. -/
theorem components_of_splitLast (h : splitLast path = (parent, name)) :
    Leads name ∧ components path = components parent ++ [name] ∨
      ¬ Leads name ∧ components path ∈ [[], [['/']], [['.']]] := by
  obtain ⟨htrim, hname, hparent⟩ := splitLast_spec h
  have hcomponents : components path = components (parent ++ name) := by
    rw [← List.reverse_reverse path, ← components_trimEnd, htrim, List.reverse_reverse]
  rw [hcomponents]
  by_cases hleads : Leads name
  · refine .inl ⟨hleads, ?_⟩
    rcases hparent with rfl | ⟨init, rfl⟩
    · exact components_of_notMem hname hleads.1
    · simpa [hleads] using components_append_slash init hname
  · refine .inr ⟨hleads, ?_⟩
    -- what stands in front of such a part would have been left out with it
    have hends : name = [] ∨ name = ['.'] := by
      unfold Leads at hleads
      tauto
    rcases hparent with rfl | ⟨init, rfl⟩
    · rcases hends with rfl | rfl <;> decide
    · rcases hends with rfl | rfl
      · have hslash : trimEnd path.reverse = '/' :: init.reverse := by simpa using htrim
        cases hinit : init.reverse with
        | nil =>
          rw [List.reverse_eq_nil_iff.1 hinit]
          decide
        | cons c cs =>
          rw [hinit] at hslash
          exact absurd hslash (trimEnd_ne _ c cs).1
      · have hdot : trimEnd path.reverse = '.' :: '/' :: init.reverse := by simpa using htrim
        exact absurd hdot (trimEnd_ne _ '/' _).2

/-- The last part of a path is its file name, unless it is empty or dots. -/
theorem fileName?_of_splitLast (h : splitLast path = (parent, name)) :
    fileName? path = if name = [] ∨ name = ['.'] ∨ name = ['.', '.'] then none else some name := by
  unfold fileName?
  rcases components_of_splitLast h with ⟨hleads, hpath⟩ | ⟨hleads, hpath⟩
  · have hslash : name ≠ ['/'] := by
      rintro rfl
      exact (splitLast_spec h).2.1 (List.mem_singleton_self _)
    rw [hpath, List.getLast?_concat]
    simp [Option.filter, hslash, hleads.1, hleads.2]
  · have hends : name = [] ∨ name = ['.'] := by
      unfold Leads at hleads
      tauto
    rw [if_pos (hends.imp id .inl)]
    simp only [List.mem_cons, List.not_mem_nil, or_false] at hpath
    rcases hpath with hpath | hpath | hpath <;> rw [hpath] <;> rfl

/-! ## Stem and extension -/

/-- The extension is what stands behind the last dot, unless the dot is the first character of the
name. The stem stands in front of the dot. -/
def Splits (name stem : List Char) : Option (List Char) → Prop
  | some extension => name = stem ++ '.' :: extension ∧ stem ≠ [] ∧ '.' ∉ extension
  | none => name = stem ∧ '.' ∉ name.tail

/-- A name is cut at its last dot, if anywhere. -/
theorem splits_splitExtension (name : List Char) :
    Splits name (splitExtension name).1 (splitExtension name).2 := by
  have hname : name = (name.reverse.dropWhile (· ≠ '.')).reverse ++
      (name.reverse.takeWhile (· ≠ '.')).reverse := by
    rw [← List.reverse_append, List.takeWhile_append_dropWhile, List.reverse_reverse]
  have hdot : '.' ∉ (name.reverse.takeWhile (· ≠ '.')).reverse := by
    rw [List.mem_reverse]
    exact notMem_takeWhile '.' _
  unfold splitExtension
  rcases dropWhile_eq '.' name.reverse with hdrop | ⟨rest, hdrop⟩
  · -- there is no dot
    rw [hdrop, List.reverse_nil, List.nil_append] at hname
    rw [← hname] at hdot
    simp only [hdrop]
    exact ⟨rfl, fun hmem => hdot (List.mem_of_mem_tail hmem)⟩
  · cases rest with
    | nil =>
      -- the last dot is the first character
      rw [hdrop] at hname
      simp only [hdrop]
      refine ⟨rfl, ?_⟩
      rw [hname]
      exact hdot
    | cons c stem =>
      simp only [hdrop]
      rw [hdrop, List.reverse_cons, List.append_assoc] at hname
      exact ⟨hname, by simp, hdot⟩

/-! ## The siblings -/

/-- The inside of a directory ends with a slash, unless it is the empty path. -/
theorem inside_slash (path : List Char) :
    inside path = [] ∨ ∃ init, inside path = init ++ ['/'] := by
  unfold inside
  split
  · next h =>
    rw [List.getLast?_eq_none_iff, List.getLast?_eq_some_iff] at h
    exact h
  · exact .inr ⟨path, rfl⟩

/-- The inside of a directory has the components of the directory. -/
@[simp] theorem components_inside (path : List Char) :
    components (inside path) = components path := by
  unfold inside
  split
  · rfl
  · next h => exact components_slash fun hnil => h (.inl (List.getLast?_eq_none_iff.2 hnil))

/-- An extension with its dot. -/
def dotted : Option (List Char) → List Char
  | some extension => '.' :: extension
  | none => []

/-- The name of a sibling: the number stands behind the stem. -/
def numbered (stem : List Char) (extension : Option (List Char)) (n : Nat) : List Char :=
  stem ++ (toString n).toList ++ dotted extension

/-- A name is its stem with its extension behind it. -/
theorem Splits.eq_append (h : Splits name stem extension) : name = stem ++ dotted extension := by
  cases extension with
  | some extension => exact h.1
  | none => simpa [dotted] using h.1

/-- A path taken apart at the place of the number of its siblings. -/
structure Around (path directory stem : List Char) (extension : Option (List Char)) : Prop where
  eq : around path = (directory ++ stem, dotted extension)
  slash : directory = [] ∨ ∃ init, directory = init ++ ['/']
  notMem : '/' ∉ stem ++ dotted extension
  /-- If the path has a file name, this is the stem and the extension. -/
  named : ∀ name, fileName? path = some name →
    components directory = (components path).dropLast ∧ Splits name stem extension
  unnamed : fileName? path = none →
    components directory = components path ∧ stem = [] ∧ extension = none

/-- Every path has a place for the number of its siblings. -/
theorem exists_around (path : List Char) :
    ∃ directory stem extension, Around path directory stem extension := by
  cases hsplit : splitLast path with
  | mk parent name =>
    have hfile := fileName?_of_splitLast hsplit
    by_cases hname : name = [] ∨ name = ['.'] ∨ name = ['.', '.']
    · rw [if_pos hname] at hfile
      refine ⟨inside path, [], none, ?_, inside_slash path, by simp [dotted], ?_, ?_⟩
      · simp [around, hsplit, hname, dotted]
      · simp [hfile]
      · simp
    · rw [if_neg hname] at hfile
      have hsplits := splits_splitExtension name
      refine ⟨inside (trimEnd parent.reverse).reverse, (splitExtension name).1,
        (splitExtension name).2, ?_, inside_slash _, ?_, ?_, ?_⟩
      · unfold around
        simp only [hsplit, if_neg hname]
        rcases splitExtension name with ⟨stem, _ | extension⟩ <;> rfl
      · rw [← hsplits.eq_append]
        exact (splitLast_spec hsplit).2.1
      · intro other hother
        obtain rfl := Option.some.inj (hfile.symm.trans hother)
        refine ⟨?_, hsplits⟩
        rcases components_of_splitLast hsplit with ⟨-, hpath⟩ | ⟨hleads, -⟩
        · rw [components_inside, components_trimEnd, List.reverse_reverse, hpath,
            List.dropLast_concat]
        · exact absurd ⟨fun h => hname (.inl h), fun h => hname (.inr (.inl h))⟩ hleads
      · simp [hfile]

/-! ## Numbers in names -/

/-- A number is written with digits alone. -/
theorem isDigit_of_mem_toString {n : Nat} {c : Char} (h : c ∈ (toString n).toList) :
    c.isDigit = true :=
  Nat.isDigit_of_mem_toDigits (by decide) (by decide) (Nat.toList_repr ▸ h)

/-- Different numbers are written differently. -/
theorem toString_injective : Function.Injective fun n : Nat => (toString n).toList := by
  intro m n h
  have hdigits : Nat.toDigits 10 m = Nat.toDigits 10 n := by
    rw [← Nat.toList_repr, ← Nat.toList_repr]
    exact h
  have hvalue := congrArg (Nat.ofDigitChars 10 · 0) hdigits
  simpa only [Nat.ofDigitChars_ten_toDigits] using hvalue

/-- A number brings no slash into a name. -/
theorem notMem_numbered (h : '/' ∉ stem ++ dotted extension) (n : Nat) :
    '/' ∉ numbered stem extension n := by
  have hdigits : '/' ∉ (toString n).toList := fun hmem => by
    simpa using isDigit_of_mem_toString hmem
  simp only [numbered, List.mem_append, not_or] at h ⊢
  exact ⟨⟨h.1, hdigits⟩, h.2⟩

/-- A name with a number has a digit. -/
theorem exists_isDigit_numbered (stem : List Char) (extension : Option (List Char)) (n : Nat) :
    ∃ c ∈ numbered stem extension n, c.isDigit = true := by
  obtain ⟨c, digits, hdigits⟩ := List.exists_cons_of_ne_nil (Nat.toDigits_ne_nil (n := n) (b := 10))
  have hmem : c ∈ (toString n).toList := by
    show c ∈ n.repr.toList
    rw [Nat.toList_repr, hdigits]
    exact List.mem_cons_self
  exact ⟨c, List.mem_append_left _ (List.mem_append_right _ hmem), isDigit_of_mem_toString hmem⟩

/-- A name with a number is neither empty nor dots. -/
theorem leads_numbered (stem : List Char) (extension : Option (List Char)) (n : Nat) :
    Leads (numbered stem extension n) ∧ numbered stem extension n ≠ ['.', '.'] := by
  obtain ⟨c, hmem, hdigit⟩ := exists_isDigit_numbered stem extension n
  have hne : ∀ dots : List Char, (∀ c ∈ dots, c.isDigit = false) →
      numbered stem extension n ≠ dots := by
    intro dots hdots heq
    simp [hdots c (heq ▸ hmem)] at hdigit
  exact ⟨⟨hne [] (by simp), hne ['.'] (by simp)⟩, hne ['.', '.'] (by simp)⟩

/-- Different numbers make different names, also behind a stem that ends in digits. -/
theorem numbered_injective (stem : List Char) (extension : Option (List Char)) :
    Function.Injective (numbered stem extension) := by
  intro m n h
  exact toString_injective (List.append_cancel_left (List.append_cancel_right h))

/-! ## The siblings of a path -/

/-- A sibling has the directory of the path and the number in the name. -/
theorem Around.toList_sibling {path : String} (h : Around path.toList directory stem extension)
    (n : Nat) : (sibling path n).toList = directory ++ numbered stem extension n := by
  unfold sibling numbered
  rw [h.eq]
  simp

/-- A sibling has the components of the path, but for the file name. -/
theorem Around.components_sibling {path : String}
    (h : Around path.toList directory stem extension) (n : Nat) :
    components (sibling path n).toList = components directory ++ [numbered stem extension n] := by
  have hname := notMem_numbered h.notMem n
  have hleads := (leads_numbered stem extension n).1
  rw [h.toList_sibling]
  rcases h.slash with rfl | ⟨init, rfl⟩
  · exact components_of_notMem hname hleads.1
  · simpa [hleads] using components_append_slash init hname

/-- The other path is beside the path, under the stem of its file name, the number and the extension
if there is one. If the path has no file name, the number is a name in the directory that the path
leads to. -/
def IsSibling (path other : List Char) (n : Nat) : Prop :=
  match fileName? path with
  | some name => ∃ stem extension, Splits name stem extension ∧
      components other = (components path).dropLast ++ [numbered stem extension n]
  | none => components other = components path ++ [(toString n).toList]

/-- What is made of a path and a number is the sibling with this number. -/
theorem isSibling_sibling (path : String) (n : Nat) :
    IsSibling path.toList (sibling path n).toList n := by
  obtain ⟨directory, stem, extension, haround⟩ := exists_around path.toList
  have hsibling := haround.components_sibling n
  unfold IsSibling
  cases hfile : fileName? path.toList with
  | some name =>
    obtain ⟨hdirectory, hsplits⟩ := haround.named name hfile
    exact ⟨stem, extension, hsplits, hdirectory ▸ hsibling⟩
  | none =>
    obtain ⟨hdirectory, rfl, rfl⟩ := haround.unnamed hfile
    simpa [hdirectory, numbered, dotted] using hsibling

example : sibling "a.tar.gz" 1 = "a.tar1.gz" ∧ sibling "s//.x" 2 = "s/.x2" ∧
    sibling "s/.." 1 = "s/../1" := by
  decide +kernel

/-- Siblings with different numbers are different paths. -/
theorem sibling_injective (path : String) : Function.Injective (sibling path) := by
  obtain ⟨directory, stem, extension, haround⟩ := exists_around path.toList
  intro m n h
  have hlist := congrArg String.toList h
  rw [haround.toList_sibling, haround.toList_sibling] at hlist
  exact numbered_injective stem extension (List.append_cancel_left hlist)

/-! ## The search -/

/-- The target is the path itself if it is free, and otherwise the first of its siblings that is. -/
def IsFirstFree (taken : String → Bool) (path target : String) : Prop :=
  taken target = false ∧
    (target = path ∨ taken path = true ∧ ∃ n, 1 ≤ n ∧ target = sibling path n ∧
      ∀ k, 1 ≤ k → k < n → taken (sibling path k) = true)

section Search

variable {taken : String → Bool} {path target : String} {start tries : Nat}

/-- The search takes the first path if it is free, and goes on behind it otherwise. -/
theorem firstFree_succ (taken : String → Bool) (path : String) (start tries : Nat) :
    firstFree (m := Id) taken path start (tries + 1) =
      if taken (sibling path start) then firstFree (m := Id) taken path (start + 1) tries
      else some (sibling path start) :=
  rfl

theorem firstFree_eq_some (h : firstFree (m := Id) taken path start tries = some target) :
    taken target = false ∧ ∃ n, start ≤ n ∧ target = sibling path n ∧
      ∀ k, start ≤ k → k < n → taken (sibling path k) = true := by
  induction tries generalizing start with
  | zero => cases h
  | succ tries ih =>
    rw [firstFree_succ] at h
    split at h
    · next htaken =>
      obtain ⟨hfree, n, hn, htarget, hbefore⟩ := ih h
      refine ⟨hfree, n, by omega, htarget, fun k hk hkn => ?_⟩
      rcases Nat.eq_or_lt_of_le hk with rfl | hk
      · exact htaken
      · exact hbefore k hk hkn
    · next hfree =>
      obtain rfl := Option.some.inj h
      exact ⟨by simpa using hfree, start, le_rfl, rfl, fun k hk hkn => by omega⟩

theorem firstFree_eq_none (h : firstFree (m := Id) taken path start tries = none) :
    ∀ n, start ≤ n → n < start + tries → taken (sibling path n) = true := by
  induction tries generalizing start with
  | zero => omega
  | succ tries ih =>
    rw [firstFree_succ] at h
    split at h
    · next htaken =>
      intro n hn hlt
      rcases Nat.eq_or_lt_of_le hn with rfl | hn
      · exact htaken
      · exact ih h n hn (by omega)
    · cases h

/-- Of more siblings than there are places one is free, if different siblings that are taken have
different places. -/
theorem exists_free {β : Type} (place : Nat → β) (known : List β)
    (hknown : ∀ n, taken (sibling path n) = true → place n ∈ known)
    (hplace : ∀ m n, taken (sibling path m) = true → taken (sibling path n) = true →
      place m = place n → m = n) (htries : known.length < tries) (start : Nat) :
    ∃ n, start ≤ n ∧ n < start + tries ∧ taken (sibling path n) = false := by
  by_contra hall
  have htaken : ∀ i ∈ List.range tries, taken (sibling path (start + i)) = true := by
    intro i hi
    by_contra hfree
    exact hall ⟨start + i, by omega, by simpa using hi, by simpa using hfree⟩
  have hnodup : ((List.range tries).map fun i => place (start + i)).Nodup := by
    refine List.Nodup.map_on (fun i hi j hj heq => ?_) List.nodup_range
    have := hplace _ _ (htaken i hi) (htaken j hj) heq
    omega
  have hsubset : ((List.range tries).map fun i => place (start + i)) ⊆ known := by
    intro b hb
    obtain ⟨i, hi, rfl⟩ := List.mem_map.1 hb
    exact hknown _ (htaken i hi)
  have hlength := (hnodup.subperm hsubset).length_le
  simp at hlength
  omega

/-- A path that is free is taken as it is; otherwise its siblings are tried. -/
theorem fresh_eq_ite (taken : String → Bool) (tries : Nat) (path : String) :
    (fresh (m := Id) taken tries path).run =
      if taken path then (firstFree (m := Id) taken path 1 tries).getD path else path :=
  rfl

/-- If one of the siblings that are tried is free, the search ends at the first one. -/
theorem isFirstFree_fresh (h : ∃ n, 1 ≤ n ∧ n < 1 + tries ∧ taken (sibling path n) = false) :
    IsFirstFree taken path (fresh (m := Id) taken tries path).run := by
  obtain ⟨n, hn, hlt, hfree⟩ := h
  rw [fresh_eq_ite]
  cases htaken : taken path with
  | false => exact ⟨htaken, .inl rfl⟩
  | true =>
    rw [if_pos rfl]
    cases hsearch : firstFree (m := Id) taken path 1 tries with
    | none =>
      have hall := firstFree_eq_none hsearch n hn hlt
      simp [hfree] at hall
    | some target =>
      obtain ⟨htarget, hfirst⟩ := firstFree_eq_some hsearch
      exact ⟨htarget, .inr ⟨htaken, hfirst⟩⟩

/-- If finitely many paths are taken, more siblings than these are enough. -/
theorem isFirstFree_of_finite {known : List String} (h : ∀ path, taken path = true → path ∈ known)
    (htries : known.length < tries) (path : String) :
    IsFirstFree taken path (fresh (m := Id) taken tries path).run :=
  isFirstFree_fresh (exists_free (sibling path) known (fun n => h (sibling path n))
    (fun _ _ _ _ heq => sibling_injective path heq) htries 1)

end Search

end PairLisp.CommandLine.OutputPath
