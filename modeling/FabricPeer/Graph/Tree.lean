import FabricPeer.Lib.GoMap
import Mathlib.Data.Nat.Choose.Basic

/-! # Trees and their permutations

`common/graph`. A `TreeVertex` has an id, which identifies it uniquely in its tree, arbitrary
data, the sub-trees below it and a threshold: how many of its sub-trees a permutation keeps.
`Permute` first walks the tree breadth first and, at each vertex with descendants, drops random
descendants while choosing `threshold` of them has more than `combinationUpperBound` ways
(`CombinationsExceed`), then lists every choice of `threshold` of the rest (`chooseKoutOfN`). It
then walks the tree breadth first again, and replaces each permutation that holds the vertex by
one copy per choice, the vertex's descendants cut down to the choice.

`choose` recurses without a bound of its own: for a negative threshold it never returns. Here it
runs on fuel, which the threshold and the number of descendants bound when it returns
(`choose_eq_some`), and `none` stands for a call that does not return. `rand.Intn` is the
parameter `intn`, the victim it draws for a vertex with a given number of descendants left, and
the map of a vertex's permutations, keyed by the vertex in Go, is keyed by its id.
-/

namespace FabricPeer.Graph

open GoRun

set_option autoImplicit false

/-- `TreeVertex`. -/
structure TreeVertex (α : Type) where
  id : String
  data : α
  descendants : List (TreeVertex α)
  threshold : Int

variable {α : Type}

/-- `NewTreeVertex`. -/
def newTreeVertex (id : String) (data : α) (descendants : List (TreeVertex α)) : TreeVertex α :=
  ⟨id, data, descendants, 0⟩

/-- `IsLeaf`. -/
def TreeVertex.isLeaf (v : TreeVertex α) : Bool := v.descendants.length == 0

mutual

/-- `Find`: the first vertex with the id, in depth first order. -/
def TreeVertex.find : TreeVertex α → String → Option (TreeVertex α)
  | ⟨vid, data, descendants, threshold⟩, id =>
    if vid = id then some ⟨vid, data, descendants, threshold⟩ else findIn descendants id

def findIn : List (TreeVertex α) → String → Option (TreeVertex α)
  | [], _ => none
  | u :: us, id =>
    match u.find id with
    | some r => some r
    | none => findIn us id

end

/-- `Exists`. -/
def TreeVertex.exists (v : TreeVertex α) (id : String) : Bool := (v.find id).isSome

mutual

/-- `Clone`: the copy keeps the ids, the data and the shape, not the thresholds. -/
def TreeVertex.clone : TreeVertex α → TreeVertex α
  | ⟨id, data, descendants, _⟩ => ⟨id, data, cloneAll descendants, 0⟩

def cloneAll : List (TreeVertex α) → List (TreeVertex α)
  | [] => []
  | u :: us => u.clone :: cloneAll us

end

mutual

/-- `replace`: the vertex with the id takes the descendants of `r`, and the walk does not go
below it. -/
def TreeVertex.replace : TreeVertex α → String → TreeVertex α → TreeVertex α
  | ⟨vid, data, descendants, threshold⟩, id, r =>
    if vid = id then ⟨vid, data, r.descendants, threshold⟩
    else ⟨vid, data, replaceAll descendants id r, threshold⟩

def replaceAll : List (TreeVertex α) → String → TreeVertex α → List (TreeVertex α)
  | [], _, _ => []
  | u :: us, id, r => u.replace id r :: replaceAll us id r

end

mutual

/-- The number of vertices of the tree. -/
def TreeVertex.size : TreeVertex α → Nat
  | ⟨_, _, descendants, _⟩ => sizeAll descendants + 1

def sizeAll : List (TreeVertex α) → Nat
  | [] => 0
  | u :: us => u.size + sizeAll us

end

theorem sizeAll_append (us vs : List (TreeVertex α)) :
    sizeAll (us ++ vs) = sizeAll us + sizeAll vs := by
  induction us with
  | nil => simp [sizeAll]
  | cons u us ih => simp only [List.cons_append, sizeAll, ih]; omega

theorem size_eq (v : TreeVertex α) : v.size = sizeAll v.descendants + 1 := by
  obtain ⟨_, _, _, _⟩ := v
  rfl

/-- The `bfsIterator` run to its end on the queue: each vertex taken from the front, its
descendants put at the back. -/
def bfsFrom : List (TreeVertex α) → List (TreeVertex α)
  | [] => []
  | v :: queue => v :: bfsFrom (queue ++ v.descendants)
termination_by queue => sizeAll queue
decreasing_by simp only [sizeAll_append, sizeAll, size_eq]; omega

/-- `BFS`: the vertices in the order `newBFSIterator` gives them. -/
def TreeVertex.bfs (v : TreeVertex α) : List (TreeVertex α) := bfsFrom [v]

/-- `CombinationsExceed`: whether choosing `k` of `n` has more ways than `threshold`. Go's
`big.Int.Binomial` gives `1` for a negative `k`, as its loop then never runs. -/
def combinationsExceed (n k threshold : Int) : Bool :=
  if n < k then false
  else
    let combinations : Int := if k < 0 then 1 else (n.toNat.choose k.toNat : Nat)
    decide (combinations > threshold)

/-- `choose`, on at most `fuel` nested calls: the index sets that extend `currentSubGroup` to
`targetAmount` indices from `i` on, those that pick `i` first. `none` when the calls nest deeper
than the fuel. -/
def choose (n targetAmount : Int) : Nat → Int → List Int → Option (List (List Int))
  | 0, _, _ => none
  | fuel + 1, i, currentSubGroup =>
    if (currentSubGroup.length : Int) = targetAmount then some [currentSubGroup]
    else
      let itemsLeftToPick := n - i
      if targetAmount - currentSubGroup.length > itemsLeftToPick then some []
      else do
        let picked ← choose n targetAmount fuel (i + 1) (currentSubGroup ++ [i])
        let notPicked ← choose n targetAmount fuel (i + 1) currentSubGroup
        pure (picked ++ notPicked)

/-- `chooseKoutOfN`. The calls of `choose` nest at most `n + 1` deep when they return at all
(`choose_eq_some`), so `none` means a call that does not return. -/
def chooseKoutOfN (n k : Int) : Option (List (List Int)) := choose n k (n.toNat + 1) 0 []

/-- `selectDescendants`: the descendants at the indices, which `chooseKoutOfN` keeps below their
number. -/
def selectDescendants (descendants : List (TreeVertex α)) (indices : List Int) :
    List (TreeVertex α) :=
  indices.filterMap fun index => descendants[index.toNat]?

def dropVictims (intn : String → Nat → Nat) (combinationUpperBound : Int) (v : TreeVertex α) :
    Nat → List (TreeVertex α) → List (TreeVertex α)
  | 0, descendants => descendants
  | fuel + 1, descendants =>
    if combinationsExceed descendants.length v.threshold combinationUpperBound then
      dropVictims intn combinationUpperBound v fuel
        (descendants.eraseIdx (intn v.id descendants.length))
    else descendants

section Prune

variable (intn : String → Nat → Nat) (combinationUpperBound : Int)

mutual

def TreeVertex.prune : TreeVertex α → TreeVertex α
  | ⟨id, data, descendants, threshold⟩ =>
    ⟨id, data, dropVictims intn combinationUpperBound ⟨id, data, descendants, threshold⟩
      descendants.length (pruneAll descendants), threshold⟩

def pruneAll : List (TreeVertex α) → List (TreeVertex α)
  | [] => []
  | u :: us => u.prune :: pruneAll us

end

/-- `computeDescendantPermutations`: for each vertex with descendants, in breadth first order,
the choices of `threshold` of its descendants left after pruning; `none` when `chooseKoutOfN`
does not return. -/
def computeDescendantPermutations (root : TreeVertex α) :
    Option (GoMap String (List (List (TreeVertex α)))) :=
  root.bfs.foldlM (fun descendantPermutations v =>
    if v.descendants.length = 0 then some descendantPermutations
    else do
      let descendants := (v.prune intn combinationUpperBound).descendants
      let indiceSets ← chooseKoutOfN descendants.length v.threshold
      pure (descendantPermutations.insert v.id
        (indiceSets.map (selectDescendants descendants)))) GoMap.empty

end Prune

/-- The loop of `permute` over the vertices, in breadth first order: each permutation that holds
the vertex is replaced by one clone for each permutation of its descendants. -/
def permuteLoop (descendantPermutations : GoMap String (List (List (TreeVertex α)))) :
    List (TreeVertex α) → List (TreeVertex α) → List (TreeVertex α)
  | [], permutations => permutations
  | v :: vs, permutations =>
    if v.descendants.length = 0 then permuteLoop descendantPermutations vs permutations
    else
      let permutationsWhereVexists := permutations.filter (·.exists v.id)
      let permutationsWhereVdoesntExist := permutations.filter fun perm => !perm.exists v.id
      let newTrees := permutationsWhereVexists.flatMap fun perm =>
        ((descendantPermutations.get? v.id).getD []).map fun permutation =>
          perm.clone.replace v.id ⟨v.id, v.data, permutation, 0⟩
      permuteLoop descendantPermutations vs (permutationsWhereVdoesntExist ++ newTrees)

/-- `Permute`, on the tree rooted at `v`; `none` when it does not return. -/
def TreeVertex.permute (intn : String → Nat → Nat) (v : TreeVertex α)
    (combinationUpperBound : Int) : Option (List (TreeVertex α)) := do
  let descendantPermutations ← computeDescendantPermutations intn combinationUpperBound v
  let root := v.prune intn combinationUpperBound
  pure (permuteLoop descendantPermutations root.bfs [root])

end FabricPeer.Graph
