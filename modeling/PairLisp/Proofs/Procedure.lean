import PairLisp.Env
import PairLisp.Proofs.Primitive.Registry

/-!
# Definitions of procedures

The formals of a procedure are checked one by one, against the names that have been read before, so
the parameters that come out are distinct names (`Procedure.distinctParams_of_ofFormals`). An
environment takes up a procedure only under a name that is free to be defined, and puts nothing else
into its table (`Env.define_eq_ok_iff`).
-/

namespace PairLisp

namespace Procedure

variable {name : String} {formals body : SExpr} {p : Procedure}

/-- The parameters are names, and no two of them are the same. -/
structure DistinctParams (p : Procedure) : Prop where
  isName : ∀ param ∈ p.params, Vocabulary.standard.isName param = true
  nodup : p.params.Nodup

/-- The parameters that are read are names, distinct from each other and from those read before. -/
theorem distinct_of_readParams {seen params : List String} {items : List SExpr}
    (h : readParams name seen items = .ok params) :
    (∀ param ∈ params, Vocabulary.standard.isName param = true ∧ param ∉ seen) ∧ params.Nodup := by
  induction items generalizing seen params with
  | nil =>
    obtain rfl := Except.ok.inj h
    simp
  | cons item items ih =>
    cases item with
    | cons address data => simp [readParams] at h
    | atom a =>
      unfold readParams at h
      dsimp only at h
      split at h
      · simp at h
      · next hname =>
        split at h
        · simp at h
        · next hseen =>
          obtain ⟨rest, hrest, rfl⟩ := map_eq_ok.1 h
          obtain ⟨hfresh, hnodup⟩ := ih hrest
          -- the new name is among those read before when the rest is read
          have hnot : a.text ∉ rest := fun hmem => (hfresh a.text hmem).2 (by simp)
          have hname' : a.isName = true := by simpa using hname
          have hseen' : a.text ∉ seen := by simpa using hseen
          refine ⟨List.forall_mem_cons.2 ⟨⟨hname', hseen'⟩, fun param hparam => ?_⟩,
            List.nodup_cons.2 ⟨hnot, hnodup⟩⟩
          obtain ⟨hparamName, hparamFresh⟩ := hfresh param hparam
          exact ⟨hparamName, fun hmem => hparamFresh (List.mem_append_left _ hmem)⟩

/-- A procedure consists of the name and the body that are given and of the parameters that are
read off the formals. -/
theorem exists_of_ofFormals (h : ofFormals name formals body = .ok p) :
    ∃ items params, formals.toList? = some items ∧ readParams name [] items = .ok params ∧
      p = { name, params, body } := by
  unfold ofFormals at h
  split at h
  · simp at h
  · next items hitems =>
    obtain ⟨params, hparams, rfl⟩ := map_eq_ok.1 h
    exact ⟨items, params, hitems, hparams, rfl⟩

theorem name_of_ofFormals (h : ofFormals name formals body = .ok p) : p.name = name := by
  obtain ⟨items, params, -, -, rfl⟩ := exists_of_ofFormals h
  rfl

theorem body_of_ofFormals (h : ofFormals name formals body = .ok p) : p.body = body := by
  obtain ⟨items, params, -, -, rfl⟩ := exists_of_ofFormals h
  rfl

theorem distinctParams_of_ofFormals (h : ofFormals name formals body = .ok p) :
    p.DistinctParams := by
  obtain ⟨items, params, -, hparams, rfl⟩ := exists_of_ofFormals h
  obtain ⟨hfresh, hnodup⟩ := distinct_of_readParams hparams
  exact ⟨fun param hparam => (hfresh param hparam).1, hnodup⟩

end Procedure

namespace Env

variable {env env' : Env} {name : String} {formals body : SExpr} {p : Procedure}

/-- An environment takes up a procedure whose name is a name and none of a primitive operation. -/
theorem define_eq_ok_iff : env.define name formals body = .ok (p, env') ↔
    Vocabulary.standard.isName name = true ∧ Registry.standard.contains name = false ∧
      Procedure.ofFormals name formals body = .ok p ∧
      env' = { env with procedures := env.procedures.insert name p } := by
  unfold define
  cases hname : Vocabulary.standard.isName name with
  | false => simp
  | true =>
    cases hprimitive : Registry.standard.contains name with
    | true => simp
    | false =>
      show (Procedure.ofFormals name formals body).map _ = .ok (p, env') ↔ _
      rw [map_eq_ok]
      constructor
      · rintro ⟨q, hq, heq⟩
        obtain ⟨rfl, rfl⟩ := Prod.mk.inj heq
        exact ⟨rfl, rfl, hq, rfl⟩
      · rintro ⟨-, -, hp, rfl⟩
        exact ⟨p, hp, rfl⟩

/-- What `defun` puts into an environment: a procedure with the given body, under its name. -/
theorem eq_of_define (h : env.define name formals body = .ok (p, env')) :
    p.body = body ∧ env' = { env with procedures := env.procedures.insert name p } := by
  obtain ⟨-, -, hp, henv⟩ := define_eq_ok_iff.1 h
  exact ⟨Procedure.body_of_ofFormals hp, henv⟩

/-- Whether a procedure is taken up, and which procedure it is, does not depend on what the
environment holds. -/
theorem define_cases (name : String) (formals body : SExpr) :
    (∃ e, ∀ env : Env, env.define name formals body = .error e) ∨
      ∃ p : Procedure, p.body = body ∧ ∀ env : Env, env.define name formals body =
        .ok (p, { env with procedures := env.procedures.insert name p }) := by
  by_cases hname : Vocabulary.standard.isName name = true
  · by_cases hprimitive : Registry.standard.contains name = true
    · exact .inl ⟨_, fun env => by simp [define, hname, hprimitive]; rfl⟩
    · rw [Bool.not_eq_true] at hprimitive
      cases h : Procedure.ofFormals name formals body with
      | error e => exact .inl ⟨e, fun env => by simp [define, hname, hprimitive, h, Except.map]⟩
      | ok p =>
        exact .inr ⟨p, Procedure.body_of_ofFormals h,
          fun env => define_eq_ok_iff.2 ⟨hname, hprimitive, h, rfl⟩⟩
  · exact .inl ⟨_, fun env => by simp [define, hname]; rfl⟩

end Env

end PairLisp
