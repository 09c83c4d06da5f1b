import FabricPeer.Graph.Tree
import Mathlib.Logic.Relation

/-! # What `Permute` computes

`chooseKoutOfN` lists the strictly increasing index lists of its target length below `n` when
the target is not negative, and never returns when it is (`choose_eq_none_of_neg`), so neither
does `computeDescendantPermutations` on a tree with a vertex that has descendants and a negative
threshold.
-/

namespace FabricPeer.Graph

open GoRun

set_option autoImplicit false

section Choose

variable {n k : Int}

theorem choose_succ (fuel : Nat) (i : Int) (currentSubGroup : List Int) :
    choose n k (fuel + 1) i currentSubGroup =
      if (currentSubGroup.length : Int) = k then some [currentSubGroup]
      else if k - currentSubGroup.length > n - i then some []
      else (choose n k fuel (i + 1) (currentSubGroup ++ [i])).bind fun picked =>
        (choose n k fuel (i + 1) currentSubGroup).bind fun notPicked => some (picked ++ notPicked) :=
  rfl

theorem choose_eq_none_of_neg (hk : k < 0) :
    ∀ (fuel : Nat) (i : Int) (currentSubGroup : List Int),
      k - currentSubGroup.length ≤ n - i → choose n k fuel i currentSubGroup = none
  | 0, _, _, _ => rfl
  | fuel + 1, i, currentSubGroup, hGap => by
    have hLength : (currentSubGroup.length : Int) ≠ k := by omega
    have hGap' : (currentSubGroup ++ [i]).length = currentSubGroup.length + 1 := by simp
    have hPicked := choose_eq_none_of_neg hk fuel (i + 1) (currentSubGroup ++ [i])
      (by rw [hGap']; push_cast; omega)
    have hLeft : ¬ k - currentSubGroup.length > n - i := by omega
    simp [choose, hLength, hLeft, hPicked]

theorem length_le_of_pairwise_lt :
    ∀ {i : Int} {d : List Int}, d.Pairwise (· < ·) → (∀ x ∈ d, i ≤ x ∧ x < n) →
      d.length ≤ (n - i).toNat
  | _, [], _, _ => Nat.zero_le _
  | i, x :: d, hSorted, hRange => by
    obtain ⟨hHead, hSorted⟩ := List.pairwise_cons.1 hSorted
    have hx := hRange x List.mem_cons_self
    have hRest := length_le_of_pairwise_lt (i := x + 1) hSorted fun y hy => by
      have := hHead y hy
      exact ⟨by omega, (hRange y (List.mem_cons_of_mem x hy)).2⟩
    simp only [List.length_cons]
    omega

theorem choose_eq_some (hk : 0 ≤ k) :
    ∀ (fuel : Nat) (i : Int) (currentSubGroup : List Int),
      (currentSubGroup.length : Int) ≤ k → (n - i).toNat < fuel →
      ∃ indiceSets, choose n k fuel i currentSubGroup = some indiceSets ∧ indiceSets.Nodup ∧
        ∀ c, c ∈ indiceSets ↔ (c.length : Int) = k ∧ ∃ d, c = currentSubGroup ++ d ∧
          d.Pairwise (· < ·) ∧ ∀ x ∈ d, i ≤ x ∧ x < n
  | 0, _, _, _, hFuel => absurd hFuel (Nat.not_lt_zero _)
  | fuel + 1, i, currentSubGroup, hLength, hFuel => by
    by_cases hDone : (currentSubGroup.length : Int) = k
    · refine ⟨[currentSubGroup], by simp [choose, hDone], List.nodup_singleton _, fun c => ?_⟩
      constructor
      · intro hc
        rw [List.mem_singleton] at hc
        subst hc
        exact ⟨hDone, [], by simp, List.Pairwise.nil, by simp⟩
      · rintro ⟨hLen, d, rfl, -, -⟩
        have hNil : d = [] := by
          simp only [List.length_append] at hLen
          exact List.length_eq_zero_iff.1 (by omega)
        simp [hNil]
    by_cases hShort : k - currentSubGroup.length > n - i
    · refine ⟨[], by simp [choose, hDone, hShort], List.nodup_nil, fun c => ?_⟩
      simp only [List.not_mem_nil, false_iff]
      rintro ⟨hLen, d, rfl, hSorted, hRange⟩
      have hBound := length_le_of_pairwise_lt hSorted hRange
      simp only [List.length_append] at hLen
      omega
    have hi : i < n := by omega
    have hFuel' : (n - (i + 1)).toNat < fuel := by omega
    have hPickedLength : ((currentSubGroup ++ [i]).length : Int) ≤ k := by
      simp only [List.length_append, List.length_singleton]
      push_cast
      omega
    obtain ⟨picked, hPicked, hPickedNodup, hPickedMem⟩ :=
      choose_eq_some hk fuel (i + 1) (currentSubGroup ++ [i]) hPickedLength hFuel'
    obtain ⟨notPicked, hNotPicked, hNotPickedNodup, hNotPickedMem⟩ :=
      choose_eq_some hk fuel (i + 1) currentSubGroup hLength hFuel'
    refine ⟨picked ++ notPicked, ?_, ?_, fun c => ?_⟩
    · simp [choose_succ, hDone, hShort, hPicked, hNotPicked]
    · refine List.nodup_append.2 ⟨hPickedNodup, hNotPickedNodup, ?_⟩
      rintro c hc c' hc' rfl
      obtain ⟨-, d, rfl, -, -⟩ := (hPickedMem _).1 hc
      obtain ⟨-, d', hd', -, hRange⟩ := (hNotPickedMem _).1 hc'
      simp only [List.append_assoc, List.singleton_append, List.append_cancel_left_eq] at hd'
      subst hd'
      have := (hRange i List.mem_cons_self).1
      omega
    rw [List.mem_append, hPickedMem, hNotPickedMem]
    constructor
    · rintro (⟨hLen, d, rfl, hSorted, hRange⟩ | ⟨hLen, d, rfl, hSorted, hRange⟩)
      · refine ⟨hLen, i :: d, by simp, ?_, ?_⟩
        · exact List.pairwise_cons.2 ⟨fun x hx => by have := hRange x hx; omega, hSorted⟩
        · intro x hx
          rcases List.mem_cons.1 hx with rfl | hx
          · exact ⟨Int.le_refl _, hi⟩
          · have := hRange x hx
            omega
      · exact ⟨hLen, d, rfl, hSorted, fun x hx => by have := hRange x hx; omega⟩
    · rintro ⟨hLen, d, rfl, hSorted, hRange⟩
      cases d with
      | nil => exact absurd (by simpa using hLen) hDone
      | cons x d =>
        obtain ⟨hHead, hSorted⟩ := List.pairwise_cons.1 hSorted
        have hx := hRange x List.mem_cons_self
        have hAbove : ∀ y ∈ d, i + 1 ≤ y ∧ y < n := fun y hy => by
          have := hHead y hy
          have := hRange y (List.mem_cons_of_mem x hy)
          omega
        by_cases hxi : x = i
        · subst hxi
          exact Or.inl ⟨hLen, d, by simp, hSorted, hAbove⟩
        · refine Or.inr ⟨hLen, x :: d, rfl, List.pairwise_cons.2 ⟨hHead, hSorted⟩, ?_⟩
          intro y hy
          rcases List.mem_cons.1 hy with rfl | hy
          · exact ⟨by omega, hx.2⟩
          · exact hAbove y hy

theorem chooseKoutOfN_eq_none (hn : 0 ≤ n) (hk : k < 0) : chooseKoutOfN n k = none :=
  choose_eq_none_of_neg hk _ 0 [] (by simp; omega)

theorem mem_of_chooseKoutOfN_eq_some (hn : 0 ≤ n) {indiceSets : List (List Int)}
    (h : chooseKoutOfN n k = some indiceSets) {c : List Int} (hc : c ∈ indiceSets) :
    (c.length : Int) = k ∧ c.Pairwise (· < ·) ∧ ∀ x ∈ c, 0 ≤ x ∧ x < n := by
  have hk : 0 ≤ k := by
    by_contra hk
    rw [chooseKoutOfN_eq_none hn (by omega)] at h
    cases h
  obtain ⟨indiceSets', hChoose, -, hMem⟩ :=
    choose_eq_some (n := n) hk (n.toNat + 1) 0 [] (by simpa using hk) (by omega)
  have hEq : indiceSets' = indiceSets := Option.some.inj (hChoose.symm.trans h)
  subst hEq
  obtain ⟨hLength, d, rfl, hSorted, hRange⟩ := (hMem c).1 hc
  simpa using ⟨hLength, hSorted, hRange⟩

/-- `chooseKoutOfN` lists, each once, the strictly increasing lists of `k` indices below `n`. -/
theorem chooseKoutOfN_eq_some (hk : 0 ≤ k) :
    ∃ indiceSets, chooseKoutOfN n k = some indiceSets ∧ indiceSets.Nodup ∧
      ∀ c, c ∈ indiceSets ↔ (c.length : Int) = k ∧ c.Pairwise (· < ·) ∧ ∀ x ∈ c, 0 ≤ x ∧ x < n := by
  obtain ⟨indiceSets, hChoose, hNodup, hMem⟩ :=
    choose_eq_some (n := n) hk (n.toNat + 1) 0 [] (by simpa using hk) (by omega)
  refine ⟨indiceSets, hChoose, hNodup, fun c => ?_⟩
  rw [hMem]
  simp

theorem chooseKoutOfN_eq_some_four_two :
    (0 : Int) ≤ 2 ∧ ∃ indiceSets, chooseKoutOfN 4 2 = some indiceSets ∧ indiceSets.Nodup ∧
      ∀ c, c ∈ indiceSets ↔ (c.length : Int) = 2 ∧ c.Pairwise (· < ·) ∧
        ∀ x ∈ c, 0 ≤ x ∧ x < 4 :=
  ⟨by decide, chooseKoutOfN_eq_some (by decide)⟩

end Choose

section Bfs

variable {α : Type}

def TreeVertex.Reaches (u w : TreeVertex α) : Prop :=
  Relation.ReflTransGen (fun a b : TreeVertex α => b ∈ a.descendants) u w

theorem mem_bfsFrom (x : TreeVertex α) (queue : List (TreeVertex α)) :
    x ∈ bfsFrom queue ↔ ∃ u ∈ queue, u.Reaches x := by
  induction queue using bfsFrom.induct with
  | case1 => simp [bfsFrom]
  | case2 v queue ih =>
    rw [bfsFrom, List.mem_cons, ih]
    constructor
    · rintro (rfl | ⟨u, hu, hux⟩)
      · exact ⟨x, List.mem_cons_self, Relation.ReflTransGen.refl⟩
      rcases List.mem_append.1 hu with hu | hu
      · exact ⟨u, List.mem_cons_of_mem _ hu, hux⟩
      · exact ⟨v, List.mem_cons_self, Relation.ReflTransGen.head hu hux⟩
    · rintro ⟨u, hu, hux⟩
      rcases List.mem_cons.1 hu with rfl | hu
      · rcases Relation.ReflTransGen.cases_head hux with rfl | ⟨w, hw, hwx⟩
        · exact Or.inl rfl
        · exact Or.inr ⟨w, List.mem_append_right _ hw, hwx⟩
      · exact Or.inr ⟨u, List.mem_append_left _ hu, hux⟩

theorem mem_bfs (v x : TreeVertex α) : x ∈ v.bfs ↔ v.Reaches x := by
  simp [TreeVertex.bfs, mem_bfsFrom]

theorem exists_reaches_of_reaches_map (F : TreeVertex α → TreeVertex α) (Q : TreeVertex α → Prop)
    (hDescendants : ∀ t c, c ∈ (F t).descendants → (∃ u ∈ t.descendants, c = F u) ∨ Q c)
    {t x : TreeVertex α} (h : (F t).Reaches x) :
    (∃ y, t.Reaches y ∧ x = F y) ∨ ∃ c, Q c ∧ c.Reaches x := by
  have hPath : ∀ a, Relation.ReflTransGen (fun a b : TreeVertex α => b ∈ a.descendants) a x →
      ∀ t, a = F t → (∃ y, t.Reaches y ∧ x = F y) ∨ ∃ c, Q c ∧ c.Reaches x := by
    intro a ha
    induction ha using Relation.ReflTransGen.head_induction_on with
    | refl =>
      rintro t rfl
      exact Or.inl ⟨t, Relation.ReflTransGen.refl, rfl⟩
    | head hac hcx ih =>
      rintro t rfl
      rcases hDescendants t _ hac with ⟨u, hu, rfl⟩ | hQ
      · rcases ih u rfl with ⟨y, hy, hxy⟩ | hOther
        · exact Or.inl ⟨y, Relation.ReflTransGen.head hu hy, hxy⟩
        · exact Or.inr hOther
      · exact Or.inr ⟨_, hQ, hcx⟩
  exact hPath _ h t rfl

theorem mem_cloneAll {c : TreeVertex α} :
    ∀ {us : List (TreeVertex α)}, c ∈ cloneAll us ↔ ∃ u ∈ us, c = u.clone
  | [] => by simp [cloneAll]
  | u :: us => by simp [cloneAll, mem_cloneAll, eq_comm]

theorem clone_eq (t : TreeVertex α) : t.clone = ⟨t.id, t.data, cloneAll t.descendants, 0⟩ := by
  obtain ⟨_, _, _, _⟩ := t
  rfl

@[simp] theorem clone_id (t : TreeVertex α) : t.clone.id = t.id := by rw [clone_eq]

@[simp] theorem clone_data (t : TreeVertex α) : t.clone.data = t.data := by rw [clone_eq]

theorem cloneAll_eq_map (us : List (TreeVertex α)) : cloneAll us = us.map (·.clone) := by
  induction us with
  | nil => rfl
  | cons u us ih => simp [cloneAll, ih]

theorem exists_reaches_of_reaches_clone {t x : TreeVertex α} (h : t.clone.Reaches x) :
    ∃ y, t.Reaches y ∧ x = y.clone := by
  have hMap := exists_reaches_of_reaches_map TreeVertex.clone (fun _ => False)
    (fun t c hc => by rw [clone_eq] at hc; exact Or.inl (mem_cloneAll.1 hc)) h
  simpa using hMap

theorem mem_replaceAll {c : TreeVertex α} {id : String} {r : TreeVertex α} :
    ∀ {us : List (TreeVertex α)}, c ∈ replaceAll us id r ↔ ∃ u ∈ us, c = u.replace id r
  | [] => by simp [replaceAll]
  | u :: us => by simp [replaceAll, mem_replaceAll, eq_comm]

theorem replace_eq (t : TreeVertex α) (id : String) (r : TreeVertex α) :
    t.replace id r = ⟨t.id, t.data,
      if t.id = id then r.descendants else replaceAll t.descendants id r, t.threshold⟩ := by
  obtain ⟨vid, _, _, _⟩ := t
  by_cases h : vid = id <;> simp [TreeVertex.replace, h]

@[simp] theorem replace_id (t : TreeVertex α) (id : String) (r : TreeVertex α) :
    (t.replace id r).id = t.id := by rw [replace_eq]

@[simp] theorem replace_data (t : TreeVertex α) (id : String) (r : TreeVertex α) :
    (t.replace id r).data = t.data := by rw [replace_eq]

theorem replaceAll_eq_map (us : List (TreeVertex α)) (id : String) (r : TreeVertex α) :
    replaceAll us id r = us.map (·.replace id r) := by
  induction us with
  | nil => rfl
  | cons u us ih => simp [replaceAll, ih]

theorem exists_reaches_of_reaches_replace {t x : TreeVertex α} {id : String} {r : TreeVertex α}
    (h : (t.replace id r).Reaches x) :
    (∃ y, t.Reaches y ∧ x = y.replace id r) ∨ ∃ c ∈ r.descendants, c.Reaches x := by
  refine exists_reaches_of_reaches_map (·.replace id r) (· ∈ r.descendants)
    (fun t c hc => ?_) h
  rw [replace_eq] at hc
  split_ifs at hc
  · exact Or.inr hc
  · exact Or.inl (mem_replaceAll.1 hc)

theorem dropVictims_sublist (intn : String → Nat → Nat) (combinationUpperBound : Int)
    (v : TreeVertex α) :
    ∀ (fuel : Nat) (descendants : List (TreeVertex α)),
      (dropVictims intn combinationUpperBound v fuel descendants).Sublist descendants
  | 0, _ => List.Sublist.refl _
  | fuel + 1, descendants => by
    simp only [dropVictims]
    split_ifs
    · exact (dropVictims_sublist intn combinationUpperBound v fuel _).trans
        (List.eraseIdx_sublist _ _)
    · exact List.Sublist.refl _

end Bfs

theorem foldlM_eq_none_iff {β γ : Type} (f : β → γ → Option β) (p : γ → Prop)
    (hf : ∀ b c, f b c = none ↔ p c) :
    ∀ (l : List γ) (init : β), l.foldlM f init = none ↔ ∃ c ∈ l, p c
  | [], init => by simp
  | c :: l, init => by
    cases h : f init c with
    | none =>
      exact iff_of_true (by simp [List.foldlM_cons, h]) ⟨c, List.mem_cons_self, (hf init c).1 h⟩
    | some b =>
      have hc : ¬ p c := fun hc => by simp [(hf init c).2 hc] at h
      rw [List.foldlM_cons, h]
      change l.foldlM f b = none ↔ _
      simp [foldlM_eq_none_iff f p hf l b, hc]

theorem foldlM_invariant {β γ : Type} (f : β → γ → Option β) (Inv : β → Prop) :
    ∀ (l : List γ), (∀ b c b', c ∈ l → Inv b → f b c = some b' → Inv b') →
      ∀ (init r : β), Inv init → l.foldlM f init = some r → Inv r
  | [], _, init, r, hInit, h => by
    cases h
    exact hInit
  | c :: l, hStep, init, r, hInit, h => by
    rw [List.foldlM_cons, Option.bind_eq_bind, Option.bind_eq_some_iff] at h
    obtain ⟨b, hb, hRest⟩ := h
    exact foldlM_invariant f Inv l (fun b c b' hc => hStep b c b' (List.mem_cons_of_mem _ hc)) b r
      (hStep init c b List.mem_cons_self hInit hb) hRest

section Permutations

variable {α : Type} (intn : String → Nat → Nat) (combinationUpperBound : Int)

theorem mem_pruneAll {c : TreeVertex α} :
    ∀ {us : List (TreeVertex α)},
      c ∈ pruneAll intn combinationUpperBound us ↔ ∃ u ∈ us, c = u.prune intn combinationUpperBound
  | [] => by simp [pruneAll]
  | u :: us => by simp [pruneAll, mem_pruneAll, eq_comm]

theorem prune_eq (t : TreeVertex α) :
    t.prune intn combinationUpperBound = ⟨t.id, t.data, dropVictims intn combinationUpperBound t
      t.descendants.length (pruneAll intn combinationUpperBound t.descendants), t.threshold⟩ := by
  obtain ⟨_, _, _, _⟩ := t
  rfl

@[simp] theorem prune_id (t : TreeVertex α) : (t.prune intn combinationUpperBound).id = t.id := by
  rw [prune_eq]

@[simp] theorem prune_data (t : TreeVertex α) :
    (t.prune intn combinationUpperBound).data = t.data := by
  rw [prune_eq]

@[simp] theorem prune_threshold (t : TreeVertex α) :
    (t.prune intn combinationUpperBound).threshold = t.threshold := by
  rw [prune_eq]

theorem exists_reaches_of_reaches_prune {t x : TreeVertex α}
    (h : (t.prune intn combinationUpperBound).Reaches x) :
    ∃ y, t.Reaches y ∧ x = y.prune intn combinationUpperBound := by
  have hMap := exists_reaches_of_reaches_map (·.prune intn combinationUpperBound)
    (fun _ => False)
    (fun t c hc => by
      rw [prune_eq] at hc
      exact Or.inl ((mem_pruneAll intn combinationUpperBound).1
        ((dropVictims_sublist intn combinationUpperBound t _ _).subset hc))) h
  simpa using hMap

theorem computeDescendantPermutations_eq_none_iff (root : TreeVertex α) :
    computeDescendantPermutations intn combinationUpperBound root = none ↔
      ∃ v, root.Reaches v ∧ v.descendants ≠ [] ∧ v.threshold < 0 := by
  unfold computeDescendantPermutations
  rw [foldlM_eq_none_iff _ fun v : TreeVertex α => v.descendants ≠ [] ∧ v.threshold < 0]
  · simp [mem_bfs]
  intro descendantPermutations v
  by_cases hLeaf : v.descendants.length = 0
  · simp [List.length_eq_zero_iff.1 hLeaf]
  have hDescendants : v.descendants ≠ [] := fun h => hLeaf (by simp [h])
  rcases Int.lt_or_le v.threshold 0 with hk | hk
  · simp [hLeaf, hDescendants, hk, chooseKoutOfN_eq_none (Int.natCast_nonneg _) hk]
  · obtain ⟨indiceSets, hChoose, -⟩ :=
      choose_eq_some (n := (v.prune intn combinationUpperBound).descendants.length) hk
        ((v.prune intn combinationUpperBound).descendants.length + 1) 0 []
        (by simpa using hk) (by omega)
    simp [hLeaf, chooseKoutOfN, hChoose, Int.not_lt.2 hk]

def TreeVertex.DrawnFrom (t root : TreeVertex α) : Prop :=
  ∀ x, t.Reaches x → ∃ y, root.Reaches y ∧ y.id = x.id ∧ y.data = x.data

theorem drawnFrom_of_computeDescendantPermutations {root : TreeVertex α}
    {descendantPermutations : GoMap String (List (List (TreeVertex α)))}
    (h : computeDescendantPermutations intn combinationUpperBound root =
      some descendantPermutations) :
    ∀ id permutations, descendantPermutations.get? id = some permutations →
      ∀ permutation ∈ permutations, ∀ u ∈ permutation, u.DrawnFrom root := by
  refine foldlM_invariant _ (fun m : GoMap String (List (List (TreeVertex α))) =>
    ∀ id permutations, m.get? id = some permutations →
      ∀ permutation ∈ permutations, ∀ u ∈ permutation, u.DrawnFrom root) root.bfs ?_ _ _
    (by simp) h
  intro m v m' hv hm hStep
  split_ifs at hStep with hLeaf
  · cases hStep
    exact hm
  rw [Option.bind_eq_bind, Option.bind_eq_some_iff] at hStep
  obtain ⟨indiceSets, -, hm'⟩ := hStep
  cases hm'
  intro id permutations hGet permutation hPermutation u hu x hx
  rw [GoMap.get?_insert] at hGet
  split_ifs at hGet with hId
  · cases hGet
    obtain ⟨indices, -, rfl⟩ := List.mem_map.1 hPermutation
    have hMem : u ∈ (v.prune intn combinationUpperBound).descendants := by
      obtain ⟨index, -, hIndex⟩ := List.mem_filterMap.1 hu
      exact List.mem_of_getElem? hIndex
    obtain ⟨y, hy, rfl⟩ := exists_reaches_of_reaches_prune intn combinationUpperBound
      (Relation.ReflTransGen.head hMem hx)
    exact ⟨y, ((mem_bfs root v).1 hv).trans hy, by simp, by simp⟩
  · exact hm id permutations hGet permutation hPermutation u hu x hx

theorem drawnFrom_clone_replace {root perm : TreeVertex α} {id : String}
    {r : TreeVertex α} (hPerm : perm.DrawnFrom root) (hr : ∀ u ∈ r.descendants, u.DrawnFrom root) :
    (perm.clone.replace id r).DrawnFrom root := by
  intro x hx
  rcases exists_reaches_of_reaches_replace hx with ⟨y, hy, rfl⟩ | ⟨c, hc, hcx⟩
  · obtain ⟨z, hz, rfl⟩ := exists_reaches_of_reaches_clone hy
    obtain ⟨w, hw, hwId, hwData⟩ := hPerm z hz
    exact ⟨w, hw, by simpa using hwId, by simpa using hwData⟩
  · exact hr c hc x hcx

theorem drawnFrom_permuteLoop {root : TreeVertex α}
    {descendantPermutations : GoMap String (List (List (TreeVertex α)))}
    (hPermutations : ∀ id permutations, descendantPermutations.get? id = some permutations →
      ∀ permutation ∈ permutations, ∀ u ∈ permutation, u.DrawnFrom root) :
    ∀ (vs permutations : List (TreeVertex α)), (∀ t ∈ permutations, t.DrawnFrom root) →
      ∀ t ∈ permuteLoop descendantPermutations vs permutations, t.DrawnFrom root
  | [], permutations, hAll => hAll
  | v :: vs, permutations, hAll => by
    simp only [permuteLoop]
    split_ifs with hLeaf
    · exact drawnFrom_permuteLoop hPermutations vs permutations hAll
    refine drawnFrom_permuteLoop hPermutations vs _ fun t ht => ?_
    rcases List.mem_append.1 ht with ht | ht
    · exact hAll t (List.mem_filter.1 ht).1
    obtain ⟨perm, hPerm, ht⟩ := List.mem_flatMap.1 ht
    obtain ⟨permutation, hPermutation, rfl⟩ := List.mem_map.1 ht
    refine drawnFrom_clone_replace (hAll perm (List.mem_filter.1 hPerm).1) fun u hu => ?_
    cases hGet : descendantPermutations.get? v.id with
    | none => simp [hGet] at hPermutation
    | some permutations' =>
      rw [hGet, Option.getD_some] at hPermutation
      exact hPermutations v.id permutations' hGet permutation hPermutation u hu

theorem permute_eq_none_iff (root : TreeVertex α) :
    root.permute intn combinationUpperBound = none ↔
      ∃ v, root.Reaches v ∧ v.descendants ≠ [] ∧ v.threshold < 0 := by
  rw [← computeDescendantPermutations_eq_none_iff intn combinationUpperBound root]
  unfold TreeVertex.permute
  cases computeDescendantPermutations intn combinationUpperBound root <;> simp

/-- The trees `Permute` returns have only vertices of the original tree, as its documentation
says. -/
theorem permute_drawnFrom {root : TreeVertex α} {permutations : List (TreeVertex α)}
    (h : root.permute intn combinationUpperBound = some permutations) :
    ∀ t ∈ permutations, t.DrawnFrom root := by
  unfold TreeVertex.permute at h
  rw [Option.bind_eq_bind, Option.bind_eq_some_iff] at h
  obtain ⟨descendantPermutations, hCompute, hLoop⟩ := h
  cases hLoop
  refine drawnFrom_permuteLoop
    (drawnFrom_of_computeDescendantPermutations intn combinationUpperBound hCompute) _ _ ?_
  intro t ht
  rw [List.mem_singleton] at ht
  subst ht
  intro x hx
  obtain ⟨y, hy, rfl⟩ := exists_reaches_of_reaches_prune intn combinationUpperBound hx
  exact ⟨y, hy, by simp, by simp⟩

def oneOfTwoLeaves : TreeVertex Nat := ⟨"0", 0, [⟨"0.0", 1, [], 0⟩, ⟨"0.1", 2, [], 0⟩], 1⟩

theorem permute_drawnFrom_oneOfTwoLeaves :
    ∃ permutations, oneOfTwoLeaves.permute (fun _ _ => 0) 10000 = some permutations ∧
      ∀ t ∈ permutations, t.DrawnFrom oneOfTwoLeaves := by
  have hOk : (oneOfTwoLeaves.permute (fun _ _ => 0) 10000).isSome = true := by decide +kernel
  cases h : oneOfTwoLeaves.permute (fun _ _ => 0) 10000 with
  | none => simp [h] at hOk
  | some permutations => exact ⟨permutations, rfl, permute_drawnFrom _ _ h⟩

end Permutations

end FabricPeer.Graph