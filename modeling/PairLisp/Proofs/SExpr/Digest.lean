import Mathlib.Data.List.Basic
import PairLisp.SExpr.Digest

/-!
# What a hash tells about an expression

A hash is computed from a sequence of words that has a mark where a chain of pairs begins and none
where it ends. So the words do not say how far a chain goes: `((a . b) . (c . d))` and
`((a . (b . c)) . d)` have the same. This is all that is lost. Two expressions have the same words
if and only if one is a regrouping of the other (`SExpr.digest_eq_iff`), where a regrouping lets the
chain of an address take in what stands behind the address, or give it back.

The words of a chain that goes on are put one behind the other when the chains are joined
(`SExpr.tailDigest_graft`). Conversely, what is left of such words behind the words of a shorter
chain are the words of a chain (`SExpr.exists_tailDigest_of_append`). Therefore, where two chains
with the same words have addresses of different lengths, the shorter address can take in what it
lacks.
-/

namespace PairLisp.SExpr

variable {x y a b d e : SExpr} {v w : List HashWord}

theorem exists_cons_of_isAtom (h : x.isAtom = false) : ∃ a d, x = .cons a d := by
  cases x with
  | atom t => exact Bool.noConfusion h
  | cons a d => exact ⟨a, d, rfl⟩

/-! ## The words of a chain that goes on -/

/-- The words of an expression that goes on with a chain. -/
def tailDigest (x : SExpr) : List HashWord := x.digestFrom true

@[simp] theorem digest_atom (a : Atom) : (SExpr.atom a).digest = [.atomMark, .text a.text] := rfl

@[simp] theorem tailDigest_atom (a : Atom) :
    (SExpr.atom a).tailDigest = [.atomMark, .text a.text] := rfl

theorem digest_cons (a d : SExpr) :
    (SExpr.cons a d).digest = .pairMark :: (SExpr.cons a d).tailDigest := rfl

@[simp] theorem tailDigest_cons (a d : SExpr) :
    (SExpr.cons a d).tailDigest = a.digest ++ d.tailDigest := rfl

/-- Every expression writes something, be it as the data of a pair. -/
theorem tailDigest_ne_nil (x : SExpr) : x.tailDigest ≠ [] := by
  induction x with
  | atom a => simp
  | cons a d _ ihd => simp [ihd]

theorem length_digest_pos (x : SExpr) : 0 < x.digest.length := by
  cases x with
  | atom a => exact Nat.succ_pos 1
  | cons a d => exact Nat.succ_pos _

/-- Two rows of words that begin with the words of an expression begin with the same atom, or both
with a pair. -/
theorem digest_append_cases (h : a.digest ++ v = b.digest ++ w) :
    ((∃ t, a = .atom t ∧ b = .atom t) ∧ v = w) ∨
      a.isAtom = false ∧ b.isAtom = false ∧ a.tailDigest ++ v = b.tailDigest ++ w := by
  cases a with
  | atom s =>
    cases b with
    | atom t =>
      obtain ⟨htext, hrest⟩ : s.text = t.text ∧ v = w := by simpa using h
      exact .inl ⟨⟨s, rfl, congrArg (fun text => atom ⟨text⟩) htext.symm⟩, hrest⟩
    | cons b e => simp [digest_cons] at h
  | cons a d =>
    cases b with
    | atom t => simp [digest_cons] at h
    | cons b e => exact .inr ⟨rfl, rfl, (List.cons.inj h).2⟩

/-- The words of an atom are at an end where a pair goes on with its data. -/
theorem tailDigest_atom_ne (t : Atom) (b e : SExpr) (w : List HashWord) :
    (SExpr.atom t).tailDigest ≠ (SExpr.cons b e).tailDigest ++ w := by
  intro h
  rw [tailDigest_cons, List.append_assoc] at h
  have hatom : (SExpr.atom t).digest ++ [] = b.digest ++ (e.tailDigest ++ w) := h
  rcases digest_append_cases hatom with ⟨-, hrest⟩ | ⟨hpair, -⟩
  · exact e.tailDigest_ne_nil (List.append_eq_nil_iff.1 hrest.symm).1
  · exact Bool.noConfusion hpair

/-- As the data of a pair, nothing but the atom itself writes the words of an atom. -/
theorem eq_of_tailDigest_atom {t : Atom} (h : (SExpr.atom t).tailDigest = y.tailDigest) :
    SExpr.atom t = y := by
  cases y with
  | atom s =>
    have htext : t.text = s.text := by simpa using h
    exact congrArg (fun text => atom ⟨text⟩) htext
  | cons b e => exact absurd (by rw [h, List.append_nil]) (tailDigest_atom_ne t b e [])

/-! ## Joining chains -/

/-- The chain of an expression with another one behind the atom that ended it. -/
def graft : SExpr → SExpr → SExpr
  | .atom t, y => .cons (.atom t) y
  | .cons a d, y => .cons a (d.graft y)

/-- The words of a chain that goes on come before those of the chain that is put behind it. -/
theorem tailDigest_graft (x y : SExpr) : (x.graft y).tailDigest = x.tailDigest ++ y.tailDigest := by
  induction x with
  | atom t => rfl
  | cons a d _ ihd => rw [graft, tailDigest_cons, ihd, tailDigest_cons, List.append_assoc]

/-- The words of a whole pair come before those of the chain that is put behind it. -/
theorem digest_graft (h : x.isAtom = false) (y : SExpr) :
    (x.graft y).digest = x.digest ++ y.tailDigest := by
  cases x with
  | atom t => exact Bool.noConfusion h
  | cons a d => exact congrArg (HashWord.pairMark :: ·) (tailDigest_graft (.cons a d) y)

/-- A chain with something behind it is another chain. -/
theorem graft_ne (x y : SExpr) : x.graft y ≠ x := by
  induction x with
  | atom t => exact SExpr.noConfusion
  | cons a d _ ihd => exact fun h => ihd (SExpr.cons.inj h).2

/-- A chain is joined of two if and only if an atom is among its elements. -/
theorem exists_graft_iff : (∃ y z, x = graft y z) ↔ ∃ a ∈ x.elements, a.isAtom = true := by
  induction x with
  | atom t =>
    refine iff_of_false ?_ (by simp [elements])
    rintro ⟨y, z, h⟩
    cases y <;> exact SExpr.noConfusion h
  | cons a d _ ihd =>
    rw [elements, List.exists_mem_cons_iff, ← ihd]
    constructor
    · rintro ⟨y, z, h⟩
      cases y with
      | atom t => exact .inl (congrArg isAtom (SExpr.cons.inj h).1)
      | cons b e => exact .inr ⟨e, z, (SExpr.cons.inj h).2⟩
    · rintro (hatom | ⟨y, z, rfl⟩)
      · cases a with
        | atom t => exact ⟨.atom t, d, rfl⟩
        | cons b e => exact Bool.noConfusion hatom
      · exact ⟨.cons a y, z, rfl⟩

/-- A pair is longer than the two chains that it consists of. -/
theorem length_tailDigest_cons (hb : b.isAtom = false) (e : SExpr) :
    (SExpr.cons b e).tailDigest.length = b.tailDigest.length + 1 + e.tailDigest.length := by
  cases b with
  | atom t => exact Bool.noConfusion hb
  | cons b f =>
    rw [tailDigest_cons, List.length_append, digest_cons, List.length_cons]

/-- The data of a pair write fewer words than the pair. -/
theorem length_tailDigest_lt (b e : SExpr) :
    e.tailDigest.length < (SExpr.cons b e).tailDigest.length := by
  have hb := b.length_digest_pos
  rw [tailDigest_cons, List.length_append]
  omega

/-- The words behind those of a chain are the words of a chain. -/
theorem exists_tailDigest_of_append (h : x.tailDigest = y.tailDigest ++ w) (hw : w ≠ []) :
    ∃ z : SExpr, z.tailDigest = w := by
  induction hn : y.tailDigest.length using Nat.strongRecOn generalizing x y w with
  | ind n ih =>
  subst hn
  cases x with
  | atom s =>
    cases y with
    | atom t => exact absurd (by simpa using h : _ ∧ w = []).2 hw
    | cons b e => exact absurd h (tailDigest_atom_ne s b e w)
  | cons a d =>
    cases y with
    | atom t =>
      rcases digest_append_cases (b := .atom t) h with ⟨-, hrest⟩ | ⟨-, hpair, -⟩
      · exact ⟨d, hrest⟩
      · exact Bool.noConfusion hpair
    | cons b e =>
      have he := length_tailDigest_lt b e
      rw [tailDigest_cons, tailDigest_cons, List.append_assoc] at h
      rcases digest_append_cases h with ⟨-, hrest⟩ | ⟨-, hpair, hchains⟩
      · exact ih _ he hrest hw rfl
      · have hlength := length_tailDigest_cons hpair e
        rcases List.append_eq_append_iff.1 hchains with ⟨v, hb, hd⟩ | ⟨v, ha, he'⟩
        · -- the address of `y` goes on where the one of `x` has ended
          rcases eq_or_ne v [] with rfl | hv
          · exact ih _ he hd hw rfl
          · have hshorter : a.tailDigest.length < b.tailDigest.length := by
              rw [hb, List.length_append]
              exact Nat.lt_add_of_pos_right (List.length_pos_iff.2 hv)
            obtain ⟨u, rfl⟩ := ih _ (by omega) hb hv rfl
            have hjoined : d.tailDigest = (u.graft e).tailDigest ++ w := by
              rw [tailDigest_graft, List.append_assoc]
              exact hd
            refine ih _ ?_ hjoined hw rfl
            rw [tailDigest_graft, List.length_append]
            rw [hb, List.length_append] at hlength
            omega
        · -- the address of `x` goes on where the one of `y` has ended
          rcases eq_or_ne v [] with rfl | hv
          · exact ih _ he he'.symm hw rfl
          · obtain ⟨u, rfl⟩ := ih _ (by omega) ha hv rfl
            have hjoined : (u.graft d).tailDigest = e.tailDigest ++ w := by
              rw [tailDigest_graft]
              exact he'.symm
            exact ih _ he hjoined hw rfl

/-- Where the words of two chains are those of two others, the first chains end at the same place,
or the earlier end is one at which the longer chain is joined. -/
theorem tailDigest_append_cases
    (h : a.tailDigest ++ d.tailDigest = b.tailDigest ++ e.tailDigest) :
    (a.tailDigest = b.tailDigest ∧ d.tailDigest = e.tailDigest) ∨
      (∃ u, (a.graft u).tailDigest = b.tailDigest ∧ d.tailDigest = (u.graft e).tailDigest) ∨
        ∃ u, a.tailDigest = (b.graft u).tailDigest ∧ (u.graft d).tailDigest = e.tailDigest := by
  rcases List.append_eq_append_iff.1 h with ⟨w, hb, hd⟩ | ⟨w, ha, he⟩
  · rcases eq_or_ne w [] with rfl | hw
    · rw [List.append_nil] at hb
      exact .inl ⟨hb.symm, hd⟩
    · obtain ⟨u, rfl⟩ := exists_tailDigest_of_append hb hw
      rw [← tailDigest_graft] at hb hd
      exact .inr (.inl ⟨u, hb.symm, hd⟩)
  · rcases eq_or_ne w [] with rfl | hw
    · rw [List.append_nil] at ha
      exact .inl ⟨ha, he.symm⟩
    · obtain ⟨u, rfl⟩ := exists_tailDigest_of_append ha hw
      rw [← tailDigest_graft] at ha he
      exact .inr (.inr ⟨u, ha, he.symm⟩)

/-! ## Regrouping -/

/-- The second expression is the first one with other ends of its chains. What an address takes in
are some elements of the chain that it belongs to, the last of them an atom, which then ends the
chain of the address. -/
inductive Regrouped : SExpr → SExpr → Prop where
  | refl (x : SExpr) : Regrouped x x
  | symm {x y : SExpr} : Regrouped x y → Regrouped y x
  | trans {x y z : SExpr} : Regrouped x y → Regrouped y z → Regrouped x z
  | address {a b : SExpr} (d : SExpr) : Regrouped a b → Regrouped (.cons a d) (.cons b d)
  | data (a : SExpr) {d e : SExpr} : Regrouped d e → Regrouped (.cons a d) (.cons a e)
  | take {a : SExpr} (y z : SExpr) (h : a.isAtom = false) :
      Regrouped (.cons a (y.graft z)) (.cons (a.graft y) z)

/-- Expressions that are grouped in another way write the same words. -/
theorem Regrouped.digests_eq (h : Regrouped x y) :
    x.digest = y.digest ∧ x.tailDigest = y.tailDigest := by
  induction h with
  | refl x => exact ⟨rfl, rfl⟩
  | symm _ ih => exact ⟨ih.1.symm, ih.2.symm⟩
  | trans _ _ ih ih' => exact ⟨ih.1.trans ih'.1, ih.2.trans ih'.2⟩
  | address d _ ih => simp [digest_cons, ih.1]
  | data a _ ih => simp [digest_cons, ih.2]
  | take y z h => simp [digest_cons, digest_graft h, tailDigest_graft]

/-- Chains with the same words are regroupings of each other. -/
theorem regrouped_of_tailDigest_eq (h : x.tailDigest = y.tailDigest) : x.Regrouped y := by
  induction hn : x.tailDigest.length using Nat.strongRecOn generalizing x y with
  | ind n ih =>
  have ih' (x y : SExpr) (hlt : x.tailDigest.length < n) (h : x.tailDigest = y.tailDigest) :
      x.Regrouped y := ih _ hlt h rfl
  cases x with
  | atom t =>
    rw [eq_of_tailDigest_atom h]
    exact .refl y
  | cons a d =>
    cases y with
    | atom t => exact absurd (eq_of_tailDigest_atom h.symm) SExpr.noConfusion
    | cons b e =>
      rw [tailDigest_cons, tailDigest_cons] at h
      rcases digest_append_cases h with ⟨⟨t, rfl, rfl⟩, hrest⟩ | ⟨ha, hb, hchains⟩
      · exact (ih' d e (hn ▸ length_tailDigest_lt _ d) hrest).data _
      · rw [length_tailDigest_cons ha] at hn
        have hlength := congrArg List.length hchains
        rw [List.length_append, List.length_append] at hlength
        rcases tailDigest_append_cases hchains with
          ⟨hab, hde⟩ | ⟨u, hab, hde⟩ | ⟨u, hab, hde⟩
        · exact ((ih' a b (by omega) hab).address d).trans ((ih' d e (by omega) hde).data b)
        · -- the first address takes in what it lacks
          have haddress := ih' _ _ (by rw [hab]; omega) hab
          exact ((ih' _ _ (by omega) hde).data a).trans ((Regrouped.take u e ha).trans
            (haddress.address e))
        · -- the second address takes in what it lacks
          have hdata := ih' _ _ (by rw [hde]; omega) hde
          exact ((ih' _ _ (by omega) hab).address d).trans ((Regrouped.take u d hb).symm.trans
            (hdata.data b))

/-- Two expressions write the same words exactly if one is a regrouping of the other. -/
theorem digest_eq_digest_iff : x.digest = y.digest ↔ x.Regrouped y := by
  refine ⟨fun h => ?_, fun h => h.digests_eq.1⟩
  have happend : x.digest ++ [] = y.digest ++ [] := congrArg (· ++ []) h
  rcases digest_append_cases happend with ⟨⟨t, rfl, rfl⟩, -⟩ | ⟨-, -, hchains⟩
  · exact .refl _
  · exact regrouped_of_tailDigest_eq (List.append_cancel_right hchains)

/-! ## Expressions that have no other grouping -/

/-- No element of the chain is an atom, so the chain cannot end before it does. -/
def Unsplit (x : SExpr) : Prop := ∀ a ∈ x.elements, a.isAtom = false

/-- An expression has no other grouping if it is no chain with something behind it. -/
theorem unsplit_iff : x.Unsplit ↔ ∀ y z, x ≠ graft y z := by
  have h := not_congr (exists_graft_iff (x := x))
  simpa [Unsplit] using h.symm

/-- Wherever an address is a pair, neither can its chain end earlier nor can it take in anything of
the chain behind it. -/
def Rigid : SExpr → Prop
  | .atom _ => True
  | .cons (.atom _) d => d.Rigid
  | .cons (.cons a e) d => (SExpr.cons a e).Rigid ∧ d.Rigid ∧ e.Unsplit ∧ d.Unsplit

/-- A rigid expression is known from its words. -/
theorem eq_of_rigid (hx : x.Rigid) (h : x.tailDigest = y.tailDigest) : x = y := by
  induction x generalizing y with
  | atom t => exact eq_of_tailDigest_atom h
  | cons a d iha ihd =>
    cases y with
    | atom t => exact absurd (eq_of_tailDigest_atom h.symm) SExpr.noConfusion
    | cons b e =>
      rw [tailDigest_cons, tailDigest_cons] at h
      rcases digest_append_cases h with ⟨⟨t, rfl, rfl⟩, hrest⟩ | ⟨ha, hb, hchains⟩
      · exact congrArg (cons (.atom t)) (ihd hx hrest)
      · obtain ⟨a₁, a₂, rfl⟩ := exists_cons_of_isAtom ha
        obtain ⟨b₁, b₂, rfl⟩ := exists_cons_of_isAtom hb
        obtain ⟨hrigid, hdrigid, hshort, hd⟩ := hx
        rcases tailDigest_append_cases hchains with
          ⟨hab, hde⟩ | ⟨u, -, hde⟩ | ⟨u, hab, -⟩
        · rw [iha hrigid hab, ihd hdrigid hde]
        · -- the address would take in the beginning of the data
          exact absurd (ihd hdrigid hde) (unsplit_iff.1 hd u e)
        · -- the address would end earlier
          exact absurd (SExpr.cons.inj (iha hrigid hab)).2 (unsplit_iff.1 hshort b₂ u)

/-- An expression that is not rigid is a regrouping of another one. -/
theorem rigid_or_regrouped (x : SExpr) : x.Rigid ∨ ∃ y, x.Regrouped y ∧ x ≠ y := by
  induction x with
  | atom t => exact .inl trivial
  | cons a d iha ihd =>
    rcases ihd with hd | ⟨e, he, hne⟩
    · rcases iha with ha | ⟨b, hb, hne⟩
      · cases a with
        | atom t => exact .inl hd
        | cons a e =>
          by_cases hshort : e.Unsplit
          · by_cases hunsplit : d.Unsplit
            · exact .inl ⟨ha, hd, hshort, hunsplit⟩
            · obtain ⟨y, z, rfl⟩ := by simpa [unsplit_iff] using hunsplit
              refine .inr ⟨_, .take y z rfl, fun h => ?_⟩
              exact graft_ne (.cons a e) y (SExpr.cons.inj h).1.symm
          · obtain ⟨y, z, rfl⟩ := by simpa [unsplit_iff] using hshort
            refine .inr ⟨_, (Regrouped.take (a := .cons a y) z d rfl).symm, fun h => ?_⟩
            exact graft_ne (.cons a y) z (SExpr.cons.inj h).1
      · exact .inr ⟨_, hb.address d, fun h => hne (SExpr.cons.inj h).1⟩
    · exact .inr ⟨_, he.data a, fun h => hne (SExpr.cons.inj h).2⟩

/-- An expression has the words of another if and only if the other is a regrouping of it. So its
words are those of no other if and only if it is rigid. -/
theorem digest_eq_iff (x : SExpr) :
    (∀ y, x.digest = y.digest ↔ x.Regrouped y) ∧
    ((∀ y, x.digest = y.digest ↔ x = y) ↔ x.Rigid) := by
  refine ⟨fun y => digest_eq_digest_iff, fun h => ?_, fun hx y => ⟨fun h => ?_, congrArg digest⟩⟩
  · rcases x.rigid_or_regrouped with hx | ⟨y, hy, hne⟩
    · exact hx
    · exact absurd ((h y).1 (digest_eq_digest_iff.2 hy)) hne
  · exact eq_of_rigid hx (digest_eq_digest_iff.1 h).digests_eq.2

/-- The expressions `((a . b) . (c . d))` and `((a . (b . c)) . d)` have the same words. -/
theorem digest_regrouped :
    let a : SExpr := .atom ⟨"a"⟩
    let b : SExpr := .atom ⟨"b"⟩
    let c : SExpr := .atom ⟨"c"⟩
    let d : SExpr := .atom ⟨"d"⟩
    (SExpr.cons (.cons a b) (.cons c d)).digest = (SExpr.cons (.cons a (.cons b c)) d).digest ∧
      SExpr.cons (.cons a b) (.cons c d) ≠ .cons (.cons a (.cons b c)) d := by
  decide

end PairLisp.SExpr
