import PairLisp.Text.Cluster

/-!
# Backspaces

A line that was not typed at a terminal may hold backspaces. Each one takes back the cluster in
front of it, as it would have at the terminal; one with nothing in front of it does nothing.

`applyBackspaces` goes through the clusters of a line with a `Draft`: the text so far and, for
each cluster that can be taken back, how many bytes it has. That number is kept in a byte. Of a
cluster of 256 bytes or more, only as many bytes are taken back as the remainder modulo 256 says.
If they do not make up whole characters, the line cannot be edited. A line without backspaces is
left alone (`applyBackspaces_of_not_mem`).
-/

namespace PairLisp.Text

/-- The cluster that takes back the one in front of it. -/
def backspace : List Char := ['\x08']

/-- The number of bytes of some characters. -/
def byteCount : List Char → Nat
  | [] => 0
  | c :: cs => c.utf8Size + byteCount cs

/-- Some characters, last one first, without the last `n` bytes. None if that would cut a
character. -/
def dropBytes : Nat → List Char → Option (List Char)
  | 0, cs => some cs
  | _ + 1, [] => none
  | n + 1, c :: cs => if c.utf8Size ≤ n + 1 then dropBytes (n + 1 - c.utf8Size) cs else none

/-- A line while it is edited. -/
structure Draft where
  /-- The characters so far, the last one first. -/
  text : List Char := []
  /-- The sizes of the clusters that can be taken back, that of the last one first. -/
  sizes : List Nat := []

namespace Draft

/-- Adds a cluster, or takes one back. -/
def put (d : Draft) (cluster : List Char) : Option Draft :=
  if cluster = backspace then
    match d.sizes with
    | [] => some d
    | n :: sizes => (dropBytes n d.text).map fun text => { text, sizes }
  else
    some {
      text := cluster.reverse ++ d.text
      sizes := byteCount cluster % 256 :: d.sizes }

/-- Every other cluster goes to the end of the text, with its size in bytes. -/
theorem put_of_ne_backspace {d : Draft} {cluster : List Char} (h : cluster ≠ backspace) :
    d.put cluster = some ⟨cluster.reverse ++ d.text, byteCount cluster % 256 :: d.sizes⟩ := by
  simp [put, h]

end Draft

/-- A line as its backspaces leave it. -/
def applyBackspaces (line : String) : Option String :=
  ((clusters line.toList).foldlM Draft.put {}).map fun d => String.ofList d.text.reverse

/-- Clusters that are no backspaces are all kept. -/
theorem foldlM_put_of_not_mem {css : List (List Char)} (h : backspace ∉ css) (d : Draft) :
    ∃ sizes, css.foldlM Draft.put d = some ⟨css.flatten.reverse ++ d.text, sizes⟩ := by
  induction css generalizing d with
  | nil => exact ⟨d.sizes, rfl⟩
  | cons cs css ih =>
    simp only [List.mem_cons, not_or] at h
    obtain ⟨sizes, hs⟩ := ih h.2 ⟨cs.reverse ++ d.text, byteCount cs % 256 :: d.sizes⟩
    refine ⟨sizes, ?_⟩
    rw [List.foldlM_cons, Draft.put_of_ne_backspace (Ne.symm h.1)]
    simpa using hs

/-- A line without a backspace stays as it is. -/
theorem applyBackspaces_of_not_mem {line : String} (h : '\x08' ∉ line.toList) :
    applyBackspaces line = some line := by
  have hc : backspace ∉ clusters line.toList := by
    intro hb
    apply h
    rw [← flatten_clusters line.toList]
    exact List.mem_flatten.2 ⟨backspace, hb, List.mem_singleton.2 rfl⟩
  obtain ⟨sizes, hs⟩ := foldlM_put_of_not_mem hc {}
  simp [applyBackspaces, hs, flatten_clusters]

end PairLisp.Text
