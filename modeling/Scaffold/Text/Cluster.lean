import Scaffold.Text.Width

/-!
Clusters: the pieces of a text that are drawn in one place, such as a letter with its marks or
several emoji joined to one. A line can end between two clusters but not inside one. The clusters of
a text make up the text (`flatten_clusters`).
-/

namespace Scaffold.Text

/-- The clusters of a text. -/
def clusters (t : Text) : List Text :=
  go [] false t
where
  /-- Goes on with `cluster`, the beginning of a cluster; `joined` tells that it ends in a joiner.
  -/
  go (cluster : Text) (joined : Bool) : Text → List Text
    | [] => if cluster = [] then [] else [cluster]
    | c :: rest =>
      if cluster = [] then go [c] false rest
      else if joined then go (cluster ++ [c]) false rest
      else if charWidth c = 0 then go (cluster ++ [c]) (c = joiner) rest
      else cluster :: go [c] false rest

/-- The room that a cluster takes. -/
def clusterWidth : Text → Nat
  | [] => 0
  | c :: rest => charWidth c + widthAfter (some c) false rest

theorem flatten_clusters_go (cluster : Text) (joined : Bool) (t : Text) :
    (clusters.go cluster joined t).flatten = cluster ++ t := by
  induction t generalizing cluster joined with
  | nil =>
    unfold clusters.go
    split <;> simp_all
  | cons c rest ih =>
    unfold clusters.go
    split
    · simp_all
    · split
      · simp [ih]
      · split <;> simp [ih]

theorem flatten_clusters (t : Text) : (clusters t).flatten = t :=
  flatten_clusters_go [] false t

/-- The clusters at the front that fit into a width, and spaces for what is left of it. -/
def fitClusters (cells : Nat) : List Text → Text
  | [] => List.replicate cells ' '
  | cluster :: rest =>
    if clusterWidth cluster ≤ cells then cluster ++ fitClusters (cells - clusterWidth cluster) rest
    else List.replicate cells ' '

/-- A text cut to a width, of which a space fills the half of a cluster that does not fit. -/
def fit (cells : Nat) (t : Text) : Text :=
  fitClusters cells (clusters t)

end Scaffold.Text
