import PairLisp.CommandLine
import PairLisp.Proofs.CommandLine.FileTree

/-!
# What a run leaves behind

A run of the command line writes at most one file, and where there was nothing before: its report
goes to the first free one of the path that is asked for and the siblings of this path
(`tree_runOptions`). So all that was there before is there afterwards, and unchanged
(`output_fresh`).
-/

namespace PairLisp.CommandLine

open OutputPath FileTree

variable {tree : FileTree}

/-- Whether a path is free is whether the place it leads to is. -/
theorem FileTree.item?_of_not_contains {path : String} {place : Place}
    (h : tree.contains path = false) (hplace : tree.resolve path = some place) :
    tree.item? place = none := by
  unfold contains find? at h
  simpa [hplace] using h

/-- The tree has the report as one more entry after a run, at a place where there was nothing. If
not, it is the same, and the run has failed if there is a path for the report. -/
theorem tree_runOptions (options : Options) (stdin : String) (tree : FileTree) :
    ((runOptions options stdin tree).tree = tree ∧
      (options.output ≠ none → (runOptions options stdin tree).code = 1)) ∨
    ∃ program path place, program? options stdin tree = some program ∧
      options.output = some path ∧ tree.resolve (tree.freshPath path) = some place ∧
      tree.item? place = none ∧
      (runOptions options stdin tree).tree = tree.put place (some (report options program)) := by
  unfold runOptions
  cases hprogram : program? options stdin tree with
  | none => exact .inl ⟨rfl, fun _ => rfl⟩
  | some program =>
    cases houtput : options.output with
    | none => exact .inl ⟨rfl, fun h => absurd rfl h⟩
    | some path =>
      cases hwrite : tree.write? (tree.freshPath path) (report options program) with
      | none => exact .inl ⟨by simp only [hwrite], fun _ => by simp only [hwrite]⟩
      | some tree' =>
        obtain ⟨place, hplace, -, rfl⟩ := exists_of_write? hwrite
        have hfree := item?_of_not_contains (isFirstFree_freshPath tree path).1 hplace
        exact .inr ⟨program, path, place, rfl, rfl, hplace, hfree, by simp only [hwrite]⟩

theorem run_of_options {words : List String} {options : Options}
    (h : Options.ofWords words = .ok options) (stdin : String) (tree : FileTree) :
    run words stdin tree = runOptions options stdin tree := by
  unfold run
  rw [h]

theorem tree_run (words : List String) (stdin : String) (tree : FileTree) :
    (run words stdin tree).tree = tree ∨ ∃ place report, tree.item? place = none ∧
      (run words stdin tree).tree = tree.put place (some report) := by
  cases hwords : Options.ofWords words with
  | error stop =>
    unfold run
    rw [hwords]
    cases stop <;> exact .inl rfl
  | ok options =>
    rw [run_of_options hwords]
    rcases tree_runOptions options stdin tree with ⟨hsame, -⟩ | ⟨_, _, place, -, -, -, hfree, hput⟩
    · exact .inl hsame
    · exact .inr ⟨place, _, hfree, hput⟩

/-- Whatever was in the tree before a run is there afterwards. -/
theorem keeps_run (words : List String) (stdin : String) (tree : FileTree) :
    Keeps tree (run words stdin tree).tree := by
  rcases tree_run words stdin tree with hsame | ⟨new, report, hfree, hput⟩
  · rw [hsame]
    exact Keeps.refl tree
  · rw [hput]
    exact keeps_put hfree (some report)

/-- At all places but one there is after a run what was there before. -/
theorem exists_item?_run (words : List String) (stdin : String) (tree : FileTree) :
    ∃ new, ∀ place, place ≠ new → (run words stdin tree).tree.item? place = tree.item? place := by
  rcases tree_run words stdin tree with hsame | ⟨new, report, hfree, hput⟩
  · exact ⟨[], fun place _ => by rw [hsame]⟩
  · refine ⟨new, fun place hne => ?_⟩
    rw [hput, item?_put (not_prefix_of_item? hfree), if_neg hne]

/-- A run that succeeds leaves its report at the path for it. -/
theorem read?_run {words : List String} {options : Options} {stdin path : String}
    (hwords : Options.ofWords words = .ok options) (houtput : options.output = some path)
    (hcode : (run words stdin tree).code = 0) : ∃ program,
      program? options stdin tree = some program ∧
        (run words stdin tree).tree.read? (tree.freshPath path) =
          some (report options program) := by
  rw [run_of_options hwords] at hcode ⊢
  rcases tree_runOptions options stdin tree with
    ⟨-, hfailed⟩ | ⟨program, other, place, hprogram, hother, hplace, hfree, hput⟩
  · simp [hfailed (by simp [houtput])] at hcode
  · obtain rfl := Option.some.inj (houtput.symm.trans hother)
    refine ⟨program, hprogram, ?_⟩
    have hresolve := (keeps_put hfree (some (report options program))).resolve hplace
    rw [hput]
    unfold read? find?
    rw [hresolve, Option.bind_some, item?_put (not_prefix_of_item? hfree), if_pos rfl]
    rfl

/-- If finitely many paths are taken, the search for a path that is not always ends, and with the
path that is asked for or its first sibling that is free, which differs from it in the number
alone. In a file tree it ends so too, though a place there has many paths. Hence a run changes
nothing that was there before it and leaves at most one new entry, the report. -/
theorem output_fresh :
    (∀ (taken : String → Bool) (known : List String), (∀ path, taken path = true → path ∈ known) →
      ∀ tries, known.length < tries → ∀ path,
        IsFirstFree taken path (fresh (m := Id) taken tries path).run) ∧
    (∀ path n, IsSibling path.toList (sibling path n).toList n) ∧
    (∀ (tree : FileTree) path, IsFirstFree tree.contains path (tree.freshPath path)) ∧
    ∀ words stdin (tree : FileTree),
      (∀ place content, tree.item? place = some content →
        (run words stdin tree).tree.item? place = some content) ∧
      (∀ path content, tree.find? path = some content →
        (run words stdin tree).tree.find? path = some content) ∧
      (∃ new, ∀ place, place ≠ new →
        (run words stdin tree).tree.item? place = tree.item? place) ∧
      ∀ options path, Options.ofWords words = .ok options → options.output = some path →
        (run words stdin tree).code = 0 → ∃ program,
          program? options stdin tree = some program ∧
            (run words stdin tree).tree.read? (tree.freshPath path) =
              some (report options program) := by
  refine ⟨fun taken known hknown tries htries => isFirstFree_of_finite hknown htries,
    isSibling_sibling, isFirstFree_freshPath, fun words stdin tree => ?_⟩
  have hkeeps := keeps_run words stdin tree
  exact ⟨hkeeps.items, fun path content => hkeeps.find?, exists_item?_run words stdin tree,
    fun options path => read?_run⟩

/-- The first two paths are taken, so the third one is found. In a tree where the first one is taken
the report goes to the second, and the file at the first stays. -/
theorem output_fresh_taken :
    (fresh (m := Id) (fun path => decide (path ∈ ["out.txt", "out1.txt"])) 3 "out.txt").run =
      "out2.txt" ∧
    IsFirstFree (fun path => decide (path ∈ ["out.txt", "out1.txt"])) "out.txt" "out2.txt" ∧
    (run ["-o", "out.txt"] "1" { entries := [(["out.txt"], some "old")] }).tree.find? "out.txt" =
      some (some "old") ∧
    (run ["-o", "out.txt"] "1" { entries := [(["out.txt"], some "old")] }).tree.read? "out1.txt" =
      some "1" := by
  obtain ⟨hsearch, -, -, hrun⟩ := output_fresh
  have hfound : (fresh (m := Id) (fun path => decide (path ∈ ["out.txt", "out1.txt"])) 3
      "out.txt").run = "out2.txt" := by
    decide +kernel
  refine ⟨hfound, ?_, ?_⟩
  · exact hfound ▸ hsearch (fun path => decide (path ∈ ["out.txt", "out1.txt"]))
      ["out.txt", "out1.txt"] (fun path hpath => of_decide_eq_true hpath) 3 (by decide) "out.txt"
  · obtain ⟨-, hkept, -, hreport⟩ := hrun ["-o", "out.txt"] "1"
      { entries := [(["out.txt"], some "old")] }
    refine ⟨hkept "out.txt" (some "old") (by decide +kernel), ?_⟩
    obtain ⟨program, hprogram, hread⟩ := hreport { output := some "out.txt" } "out.txt" rfl rfl
      (by decide +kernel)
    obtain rfl := Option.some.inj hprogram
    have hpath : FileTree.freshPath { entries := [(["out.txt"], some "old")] } "out.txt" =
        "out1.txt" := by
      decide +kernel
    have htext : report { output := some "out.txt" } "1" = "1" := by decide +kernel
    rwa [hpath, htext] at hread

end PairLisp.CommandLine
