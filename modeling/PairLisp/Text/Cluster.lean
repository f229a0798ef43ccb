import PairLisp.Text.ClusterClass

/-!
# Clusters

A text falls into extended grapheme clusters, the units that a reader takes for one character.
`clusters` cuts a text in front of every character that does not join the cluster before it;
nothing is lost and no cluster is empty.

Whether a character joins (`joins`) depends on its class and on the characters of the cluster so
far. A cluster under construction is a list from its last character to its first, so that a look
back is a look at the front of the list. No look back has to go beyond the cluster: all the
characters that it passes have joined.
-/

namespace PairLisp.Text

/-- Whether a character may stand between the consonants of a conjunct. The zero-width non-joiner
keeps them apart. -/
def inConjunct (c : Char) : Bool :=
  (ClusterClass.of c == .extend || ClusterClass.of c == .joiner) && c.toNat != 0x200C

/-- Whether a cluster, last character first, ends in a consonant that asks for another one: it is
followed by marks alone, and one of them is a linker. -/
def isLinked (cluster : List Char) : Bool :=
  (cluster.takeWhile inConjunct).any isLinker &&
    ((cluster.dropWhile inConjunct).head?.map ClusterClass.of == some .consonant)

/-- Whether a cluster, last character first, ends in a pictograph with its marks. -/
def isPictured (cluster : List Char) : Bool :=
  (cluster.dropWhile (ClusterClass.of · == .extend)).head?.map ClusterClass.of == some .pictograph

/-- Whether a cluster, last character first, ends in the first half of a flag. -/
def isHalfFlag (cluster : List Char) : Bool :=
  (cluster.takeWhile (ClusterClass.of · == .indicator)).length % 2 == 1

/-- Whether a character goes on with a cluster, which is given last character first. -/
def joins : List Char → Char → Bool
  | [], _ => true
  | last :: before, c =>
    match ClusterClass.of last, ClusterClass.of c with
    | .control, _ => last == '\r' && c == '\n'
    | _, .control => false
    | .jamoL, .jamoL | .jamoL, .jamoV | .jamoL, .syllableLV | .jamoL, .syllableLVT => true
    | .jamoV, .jamoV | .jamoV, .jamoT | .syllableLV, .jamoV | .syllableLV, .jamoT => true
    | .jamoT, .jamoT | .syllableLVT, .jamoT => true
    | _, .extend | _, .joiner | _, .spacing => true
    | .leading, _ => true
    | _, .consonant => isLinked (last :: before)
    | .joiner, .pictograph => isPictured before
    | .indicator, .indicator => isHalfFlag (last :: before)
    | _, _ => false

/-- The clusters of a text, the first of which has begun: its characters so far are given, the
last one first. -/
def clustersFrom (cluster : List Char) : List Char → List (List Char)
  | [] => [cluster.reverse]
  | c :: cs =>
    if joins cluster c then clustersFrom (c :: cluster) cs
    else cluster.reverse :: clustersFrom [c] cs

/-- The clusters of a text. -/
def clusters : List Char → List (List Char)
  | [] => []
  | c :: cs => clustersFrom [c] cs

/-- Clusters are made of the characters of the text, in their order. -/
theorem flatten_clustersFrom (cluster cs : List Char) :
    (clustersFrom cluster cs).flatten = cluster.reverse ++ cs := by
  induction cs generalizing cluster with
  | nil => simp [clustersFrom]
  | cons c cs ih =>
    rw [clustersFrom]
    split
    · simp [ih]
    · simp [ih]

/-- A text is what its clusters are, one behind the other. -/
theorem flatten_clusters (cs : List Char) : (clusters cs).flatten = cs := by
  cases cs with
  | nil => rfl
  | cons c cs => simp [clusters, flatten_clustersFrom]

end PairLisp.Text
