import PairLisp.Proofs.Eval.Related
import PairLisp.Proofs.Eval.Values
import PairLisp.Proofs.Primitive.Renaming

/-!
# The numbers of closures do not matter

Closures are numbered from one in the order in which they are made, so the handles that an evaluation
gives out depend on how many closures there were before. Nothing else does: two evaluations of one
expression in one environment, which begin with different closures, make the same closures and end
alike, with values that differ in the numbers of the new handles alone (`eval_renumbered`).

For this the expression and the environment have to be free of handles, as what programs write down
is. Then no evaluation comes to the handle of a closure that was there before, and the new handles in
the two values go with each other: the closure that one evaluation has made as its number `i` is the
one that the other has made as its number `i`. `Coupling.renumbered` says so at every step.
-/

namespace PairLisp

open SExpr

/-! ## Numbers of closures -/

namespace Atom

/-- The atom with the number of its closure counted from `k'`, if it was counted from `k`. -/
def renumber (k k' : Nat) (a : Atom) : Atom :=
  match a.handleId? with
  | some n => if k < n then .handle (k' + (n - k)) else a
  | none => a

/-- A program may write the atom down, or it is the handle of a closure with a number above `k` and
up to `n`. -/
def Made (k n : Nat) (a : Atom) : Prop := Writable a ∨ ∃ i, k < i ∧ i ≤ n ∧ a = handle i

variable {k k' n m : Nat} {a : Atom}

/-- A handle with a number above `k` is counted from `k'` on. -/
theorem renumber_handle (h : k < n) : (handle n).renumber k k' = handle (k' + (n - k)) := by
  unfold renumber
  rw [handleId?_handle]
  exact if_pos h

/-- All atoms but handles stay as they are. -/
theorem renumber_of_not_isHandle (h : ¬ a.IsHandle) : a.renumber k k' = a := by
  unfold renumber
  split
  · next n hn => exact absurd ⟨n, eq_handle_of_handleId? hn⟩ h
  · rfl

/-- A handle that is there stays there when further closures are made. -/
theorem Made.mono (h : a.Made k n) (hnm : n ≤ m) : a.Made k m :=
  h.imp_right fun ⟨i, hk, hn, ha⟩ => ⟨i, hk, Nat.le_trans hn hnm, ha⟩

/-- New numbers for the handles of new closures are a renaming. -/
theorem renames_renumber (k k' n : Nat) : Renames (Made k n) (renumber k k') where
  plain _ h := renumber_of_not_isHandle h
  handle := by
    rintro _ ⟨i, rfl⟩
    unfold renumber
    rw [handleId?_handle]
    dsimp only
    split
    · exact ⟨_, rfl⟩
    · exact ⟨i, rfl⟩
  legible _ h := h.imp_right fun ⟨i, _, _, ha⟩ => ⟨i, ha⟩
  inj := by
    have hmixed : ∀ {b : Atom} {i : Nat}, Writable b → b.renumber k k' ≠ handle i := by
      intro b i hb heq
      rw [renumber_of_not_isHandle (not_isHandle_of_writable hb)] at heq
      exact not_isHandle_of_writable hb ⟨i, heq⟩
    rintro a b (ha | ⟨i, hi, -, rfl⟩) (hb | ⟨j, hj, -, rfl⟩) h
    · rwa [renumber_of_not_isHandle (not_isHandle_of_writable ha),
        renumber_of_not_isHandle (not_isHandle_of_writable hb)] at h
    · rw [renumber_handle hj] at h
      exact absurd h (hmixed ha)
    · rw [renumber_handle hi] at h
      exact absurd h.symm (hmixed hb)
    · rw [renumber_handle hi, renumber_handle hj] at h
      have hij : k' + (i - k) = k' + (j - k) := handle_injective h
      obtain rfl : i = j := by omega
      rfl

end Atom

/-- What a handle at the head of a call stands for is the closure that it names. -/
theorem Callee.resolve_of_find? {s : EvalState} {a : Atom} {f : Procedure} (literal : Bool)
    (h : s.closures.find? a = some f) : resolve s literal true a = .ok (.procedure f) := by
  obtain ⟨n, rfl, -⟩ := Closures.exists_of_find? h
  unfold resolve
  rw [Atom.isNumeral_handle, Atom.truth?_handle, Bool.and_false, if_neg Bool.false_ne_true]
  dsimp only
  rw [if_pos rfl, h]

namespace Closures

variable {cs : Closures} {made : List Procedure}

/-- Nothing but a handle names a closure. -/
theorem find?_eq_none {a : Atom} (h : ¬ a.IsHandle) : cs.find? a = none := by
  rw [Option.eq_none_iff_forall_ne_some]
  intro f hf
  obtain ⟨n, rfl, -⟩ := exists_of_find? hf
  exact h ⟨n + 1, rfl⟩

/-- The collection with further closures, made one after the other. -/
def extend (cs : Closures) (made : List Procedure) : Closures :=
  made.foldl (fun cs f => (cs.capture f).2) cs

theorem extend_concat (cs : Closures) (made : List Procedure) (f : Procedure) :
    cs.extend (made ++ [f]) = ((cs.extend made).capture f).2 :=
  List.foldl_concat _ _ _ _

/-- New closures come behind those that there are. -/
theorem toList_extend (cs : Closures) (made : List Procedure) :
    (cs.extend made).captured.toList = cs.captured.toList ++ made := by
  induction made generalizing cs with
  | nil => exact (List.append_nil _).symm
  | cons f made ih =>
    show ((cs.capture f).2.extend made).captured.toList = _
    rw [ih]
    show (cs.captured.push f).toList ++ made = _
    rw [Array.toList_push, List.append_assoc, List.singleton_append]

/-- The number of closures goes up with each new one. -/
theorem size_extend (cs : Closures) (made : List Procedure) :
    (cs.extend made).size = cs.size + made.length := by
  show (cs.extend made).captured.size = cs.captured.size + made.length
  rw [← Array.length_toList, toList_extend, List.length_append, Array.length_toList]

/-- The further closures have the numbers behind those of the collection. -/
theorem find?_extend {j : Nat} (hj : j < made.length) :
    (cs.extend made).find? (.handle (cs.size + j + 1)) = some made[j] := by
  have hlength : cs.captured.toList.length = cs.size := Array.length_toList
  rw [find?_handle, ← Array.getElem?_toList, toList_extend,
    List.getElem?_append_right (by omega), hlength, Nat.add_sub_cancel_left,
    List.getElem?_eq_getElem hj]

end Closures

/-! ## The comparison -/

namespace Coupling

variable {cs cs' : Closures} {p : StatePair}

/-- The second value is the first one with its handles renumbered. These are handles of closures
that are in `now` and were not in `cs`. -/
def RenumberedValues (cs cs' now : Closures) (x y : SExpr) : Prop :=
  y = x.mapAtoms (Atom.renumber cs.size cs'.size) ∧ x.All (Atom.Made cs.size now.size)

/-- The same closures have been made, in addition to those at the beginning, and the environments
differ in the handles that variables hold. -/
structure RenumberedStates (cs cs' : Closures) (p : StatePair) : Prop where
  closures : ∃ made : List Procedure, (∀ f ∈ made, f.body.All Writable) ∧
    p.1.closures = cs.extend made ∧ p.2.closures = cs'.extend made
  procedures : p.1.env.procedures = p.2.env.procedures
  related : p.1.env.Related (fun _ => True) Writable (RenumberedValues cs cs' p.1.closures) p.2.env

/-- Two evaluations that began with different closures. -/
def renumbered (cs cs' : Closures) : Coupling where
  code := Writable
  states := RenumberedStates cs cs'
  later p q := p.1.closures.size ≤ q.1.closures.size
  value p := RenumberedValues cs cs' p.1.closures
  failure := Error.SameKind
  lost _ := False

/-- Values that match do so after further closures are made. -/
theorem RenumberedValues.mono {now now' : Closures} {x y : SExpr}
    (h : RenumberedValues cs cs' now x y) (hsize : now.size ≤ now'.size) :
    RenumberedValues cs cs' now' x y :=
  ⟨h.1, h.2.imp fun _ ha => ha.mono hsize⟩

/-- An expression without handles matches itself. -/
theorem renumberedValues_code (now : Closures) {x : SExpr} (hx : x.All Writable) :
    RenumberedValues cs cs' now x x := by
  refine ⟨(mapAtoms_eq_self (fun a ha => ?_) hx).symm, hx.imp fun _ => .inl⟩
  exact Atom.renumber_of_not_isHandle (Atom.not_isHandle_of_writable ha)

theorem renumberedValues_ofBool (now : Closures) (b : Bool) :
    RenumberedValues cs cs' now (.ofBool b) (.ofBool b) :=
  renumberedValues_code now (all_ofBool Atom.writable_t Atom.writable_nil b)

/-- A closure that has been made is found under its handle in one state and under the renumbered
handle in the other. -/
theorem RenumberedStates.exists_find? (hp : RenumberedStates cs cs' p) {i : Nat}
    (hk : cs.size < i) (hi : i ≤ p.1.closures.size) : ∃ f : Procedure, f.body.All Writable ∧
      p.1.closures.find? (.handle i) = some f ∧
      p.2.closures.find? ((Atom.handle i).renumber cs.size cs'.size) = some f := by
  obtain ⟨made, hbodies, hmade, hmade'⟩ := hp.closures
  rw [hmade, Closures.size_extend] at hi
  -- the closure stands at place `j` among those that have been made
  obtain ⟨j, rfl⟩ : ∃ j, i = cs.size + j + 1 := ⟨i - cs.size - 1, by omega⟩
  have hj : j < made.length := by omega
  have hnumber : cs'.size + (cs.size + j + 1 - cs.size) = cs'.size + j + 1 := by omega
  refine ⟨made[j], hbodies _ (List.getElem_mem hj), ?_, ?_⟩
  · rw [hmade]
    exact Closures.find?_extend hj
  · rw [hmade', Atom.renumber_handle hk, hnumber]
    exact Closures.find?_extend hj

/-- Heads that match stand for the same thing, or for two closures made in step. -/
theorem results_resolve_renumbered (hp : RenumberedStates cs cs' p) {a b : Atom} (literal : Bool)
    (hab : RenumberedValues cs cs' p.1.closures (.atom a) (.atom b)) :
    (renumbered cs cs').Results ((renumbered cs cs').Callees p) (Callee.resolve p.1 literal true a)
      (Callee.resolve p.2 literal true b) := by
  obtain ⟨hb, ha⟩ := hab
  obtain rfl : b = a.renumber cs.size cs'.size := SExpr.atom.inj hb
  rcases ha with ha | ⟨i, hk, hi, rfl⟩
  · -- the atom is no handle, and so it is the same in both states
    have hnone : ¬ a.IsHandle := Atom.not_isHandle_of_writable ha
    rw [Atom.renumber_of_not_isHandle hnone]
    have hvalue : RenumberedValues cs cs' p.1.closures (.atom a) (.atom a) :=
      renumberedValues_code _ ha
    refine results_resolve_of_rel literal hvalue (renumberedValues_ofBool _) ?_
      (hp.related.bindings _ trivial) (hp.related.procedures _ trivial) rfl (fun _ => trivial)
      fun _ => trivial
    rw [Closures.find?_eq_none hnone, Closures.find?_eq_none hnone]
    exact .none
  · -- the two handles name one closure
    obtain ⟨f, hf, hfind, hfind'⟩ := hp.exists_find? hk hi
    rw [Callee.resolve_of_find? literal hfind, Callee.resolve_of_find? literal hfind']
    exact .value (.procedure hf trivial)

/-- The handles of two closures that are made in step go with each other. -/
theorem RenumberedStates.capture (hp : RenumberedStates cs cs' p) {f : Procedure}
    (hf : f.body.All Writable) :
    RenumberedStates cs cs' (p.withClosure f) ∧ (renumbered cs cs').later p (p.withClosure f) ∧
      RenumberedValues cs cs' (p.withClosure f).1.closures (.atom (p.1.closures.capture f).1)
        (.atom (p.2.closures.capture f).1) := by
  obtain ⟨made, hbodies, hmade, hmade'⟩ := hp.closures
  have hsize : p.1.closures.size = cs.size + made.length := by rw [hmade, Closures.size_extend]
  have hsize' : p.2.closures.size = cs'.size + made.length := by rw [hmade', Closures.size_extend]
  have hgrown : (p.1.closures.capture f).2.size = p.1.closures.size + 1 := Array.size_push f
  have hlater : p.1.closures.size ≤ (p.1.closures.capture f).2.size := by omega
  have hbodies' : ∀ g ∈ made ++ [f], g.body.All Writable := by
    intro g hg
    rcases List.mem_append.1 hg with hg | hg
    · exact hbodies g hg
    · rwa [List.mem_singleton.1 hg]
  -- both collections have grown by as many closures, so their next numbers go with each other
  have hk : cs.size < p.1.closures.size + 1 := by omega
  have hnumber : cs'.size + (p.1.closures.size + 1 - cs.size) = p.2.closures.size + 1 := by omega
  refine ⟨⟨⟨made ++ [f], hbodies', ?_, ?_⟩, hp.procedures,
    hp.related.imp fun _ _ hxy => hxy.mono hlater⟩, hlater, ?_, .inr ⟨_, hk, ?_, rfl⟩⟩
  · rw [Closures.extend_concat, ← hmade]
    rfl
  · rw [Closures.extend_concat, ← hmade']
    rfl
  · show SExpr.atom (.handle (p.2.closures.size + 1)) =
      .atom ((Atom.handle (p.1.closures.size + 1)).renumber cs.size cs'.size)
    rw [Atom.renumber_handle hk, hnumber]
  · exact Nat.le_of_eq hgrown.symm

/-- Every step keeps the two evaluations together. -/
theorem lawful_renumbered (cs cs' : Closures) : (renumbered cs cs').Lawful where
  later_refl _ := Nat.le_refl _
  later_trans := Nat.le_trans
  value_later h hl := h.mono hl
  value_code _ hx := renumberedValues_code _ hx
  value_ofBool b _ := renumberedValues_ofBool _ b
  value_valueOf hp ha :=
    hp.related.valueOf trivial (renumberedValues_code _ ha) (renumberedValues_ofBool _)
  isAtom_eq h := by rw [h.1, isAtom_mapAtoms]
  toBool?_eq {p _ _} h := by
    rw [h.1, (Atom.renames_renumber cs.size cs'.size p.1.closures.size).toBool?_mapAtoms]
  failure_refl _ _ := rfl
  failure_type _ _ := rfl
  apply {p xs ys} f _ h := by
    obtain ⟨rfl, hxs⟩ := forall₂_eq_map (fun _ _ hxy => hxy) h
    have hrenames := Atom.renames_renumber cs.size cs'.size p.1.closures.size
    -- a primitive function makes no handles
    have hall : ∀ x, f.apply xs = .ok x → x.All (Atom.Made cs.size p.1.closures.size) :=
      fun x => Builtin.all_apply (.inl Atom.writable_t) (.inl Atom.writable_nil)
        (fun n => .inl (Atom.writable_ofInt n)) hxs
    have hresults := hrenames.corresponds_apply f hxs
    generalize f.apply xs = r at hall hresults ⊢
    generalize f.apply _ = r' at hresults ⊢
    cases hresults with
    | ok hxy => exact .value ⟨hxy, hall _ rfl⟩
    | error he => exact .failure he
  resolve literal hp h := results_resolve_renumbered hp literal h
  define {p name formals body} hp _ hname _ hbody := by
    refine meets_define_of hp (Nat.le_refl _) (fun _ => rfl) fun f hf => ?_
    subst hf
    refine ⟨⟨hp.closures, ?_, hp.related.insert name.text hbody⟩, Nat.le_refl _,
      renumberedValues_code _ hname⟩
    show p.1.env.procedures.insert name.text f = p.2.env.procedures.insert name.text f
    rw [hp.procedures]
  capture {p formals body} hp _ _ hbody := by
    refine meets_capture_of hp (Nat.le_refl _) (fun _ => rfl) fun f hf => ?_
    subst hf
    exact hp.capture hbody
  enter {_ _ _ params} hp _ h := ⟨hp.closures, hp.procedures, hp.related.bindAll params h⟩
  leave params hp _ hl hq := by
    -- the closures that the variables of the caller name are still there after the call
    have hcaller := hp.related.imp fun _ _ hxy => hxy.mono hl
    exact ⟨⟨hq.closures, hq.procedures, ⟨hcaller.bindings, hq.related.procedures⟩⟩, hl,
      fun _ _ h => h⟩

end Coupling

/-! ## Evaluation -/

/-- An environment without handles is related to itself, whatever closures there are. -/
theorem Env.related_self {env : Env} (hbindings : ∀ name y, env.bindings.get? name = some y →
    y.All Writable) (hprocedures : env.Grounded Writable) (cs cs' now : Closures) :
    env.Related (fun _ => True) Writable (Coupling.RenumberedValues cs cs' now) env where
  bindings name _ := by
    cases hy : env.bindings.get? name with
    | none => exact .none
    | some y => exact .some (Coupling.renumberedValues_code now (hbindings name y hy))
  procedures name _ := by
    cases hf : env.procedures.get? name with
    | none => exact .none
    | some f => exact .some (sameProcedure_refl (hprocedures name f hf))

/-- Take an expression and an environment with atoms that a program may write down, and any two
collections of closures. Evaluation at any depth then has values that are the same once the handles
above the size of one collection are renumbered to those above the size of the other, or it has two
errors of one kind. It makes the same closures in addition to those of each collection, and leaves
the same environment. The handles in its value are those of closures that it has made. -/
theorem eval_renumbered {env : Env} {x : SExpr} (hx : x.All Writable)
    (hbindings : ∀ name y, env.bindings.get? name = some y → y.All Writable)
    (hprocedures : env.Grounded Writable) (cs cs' : Closures) (depth : Nat) (literal : Bool) :
    let r := (evalAt depth literal x).runFrom { env, closures := cs }
    let r' := (evalAt depth literal x).runFrom { env, closures := cs' }
    RenamedResult (Atom.renumber cs.size cs'.size) r.1 r'.1 ∧
      (∃ made, r.2.closures = cs.extend made ∧ r'.2.closures = cs'.extend made) ∧
      r.2.env = r'.2.env ∧
      ∀ value, r.1 = .ok value → value.All (Atom.Made cs.size r.2.closures.size) := by
  intro r r'
  have hstates : Coupling.RenumberedStates cs cs' ({ env, closures := cs },
      { env, closures := cs' }) :=
    ⟨⟨[], by simp, rfl, rfl⟩, rfl, Env.related_self hbindings hprocedures cs cs' cs⟩
  have hstep : (Coupling.renumbered cs cs').Step
      (fun p => Coupling.RenumberedValues cs cs' p.1.closures) _ (evalAt depth literal x)
      (evalAt depth literal x) :=
    (Coupling.lawful_renumbered cs cs').evaluators_eval (Limits.evaluation - depth) literal x hx _
      hstates
  obtain ⟨hends, -, hresults⟩ := hstep.ends fun _ => not_false
  obtain ⟨made, -, hmade, hmade'⟩ := hends.closures
  have htables : r.2.env.procedures = r'.2.env.procedures := hends.procedures
  -- the variables are those of the beginning again, so no handle is left in them
  have hbound : r.2.env.bindings = env.bindings := bindings_runFrom_eval _ _ x _
  have hbound' : r'.2.env.bindings = env.bindings := bindings_runFrom_eval _ _ x _
  have henv : r.2.env = r'.2.env := by
    show Env.mk r.2.env.bindings r.2.env.procedures = Env.mk r'.2.env.bindings r'.2.env.procedures
    rw [hbound, hbound', htables]
  have hvalues : RenamedResult (Atom.renumber cs.size cs'.size) r.1 r'.1 ∧
      ∀ value, r.1 = .ok value → value.All (Atom.Made cs.size r.2.closures.size) := by
    generalize r.1 = o at hresults ⊢
    generalize r'.1 = o' at hresults ⊢
    cases hresults with
    | value hv => exact ⟨.ok hv.1, fun _ heq => Except.ok.inj heq ▸ hv.2⟩
    | failure he => exact ⟨.error he, fun _ heq => by simp at heq⟩
    | lost he => exact he.elim
  exact ⟨hvalues.1, ⟨made, hmade, hmade'⟩, henv, hvalues.2⟩

/-- Two closures, the second of which is called by a procedure and compares a variable with a
numeral. There were no closures before, or there were two. -/
theorem eval_renumbered_two :
    let apply : Procedure :=
      { name := "apply", params := ["g"], body := .ofList [.atom ⟨"g"⟩, .atom ⟨"v"⟩] }
    let env : Env :=
      { bindings := (∅ : Table SExpr).insert "v" (.atom ⟨"+5"⟩)
        procedures := (∅ : Table Procedure).insert "apply" apply }
    let function (body : SExpr) : SExpr := .ofList [.atom ⟨"lambda"⟩, .ofList [.atom ⟨"y"⟩], body]
    let x : SExpr := .ofList [.atom ⟨"list"⟩, function (.atom ⟨"y"⟩),
      .ofList [.atom ⟨"apply"⟩, function (.ofList [.atom ⟨"eq"⟩, .atom ⟨"y"⟩, .atom ⟨"5"⟩])]]
    let cs' : Closures := Closures.extend ∅ [apply, apply]
    let r := (evalAt 0 false x).runFrom { env, closures := ∅ }
    let r' := (evalAt 0 false x).runFrom { env, closures := cs' }
    x.All Writable ∧
      (∀ name y, env.bindings.get? name = some y → y.All Writable) ∧ env.Grounded Writable ∧
      r.1 = .ok (.ofList [.atom (.handle 1), .atom .t]) ∧
      r'.1 = .ok (.ofList [.atom (.handle 3), .atom .t]) ∧
      RenamedResult (Atom.renumber (∅ : Closures).size cs'.size) r.1 r'.1 ∧
      (∃ made, r.2.closures = Closures.extend ∅ made ∧ r'.2.closures = cs'.extend made) ∧
      r.2.env = r'.2.env ∧
      ∀ value, r.1 = .ok value → value.All (Atom.Made (∅ : Closures).size r.2.closures.size) := by
  intro apply env function x cs' r r'
  have hwritable : ∀ s ∈ ["list", "lambda", "y", "NIL", "apply", "eq", "5", "g", "v", "+5"],
      Writable ⟨s⟩ := by
    intro s hs
    have hall : ∀ s ∈ ["list", "lambda", "y", "NIL", "apply", "eq", "5", "g", "v", "+5"],
        Atom.isText s = true ∧ Vocabulary.standard.isStructural s = false := by decide
    exact hall s hs
  have hx : x.All Writable := by
    simp only [x, function, SExpr.ofList, SExpr.nil, Atom.nil, all_cons, all_atom]
    simp [hwritable]
  have hbindings : ∀ name y, env.bindings.get? name = some y → y.All Writable := by
    intro name y hy
    rw [Table.get?_insert] at hy
    split at hy
    · rw [← Option.some.inj hy]
      exact hwritable _ (by simp)
    · simp at hy
  have hprocedures : env.Grounded Writable := by
    intro name f hf
    rw [Table.get?_insert] at hf
    split at hf
    · rw [← Option.some.inj hf]
      simp only [apply, SExpr.ofList, SExpr.nil, Atom.nil, all_cons, all_atom]
      simp [hwritable]
    · simp at hf
  have hvalue : r.1 = .ok (.ofList [.atom (.handle 1), .atom .t]) := by decide +kernel
  have hvalue' : r'.1 = .ok (.ofList [.atom (.handle 3), .atom .t]) := by decide +kernel
  exact ⟨hx, hbindings, hprocedures, hvalue, hvalue',
    eval_renumbered hx hbindings hprocedures ∅ cs' 0 false⟩

end PairLisp
