import Mathlib.Data.List.Perm.Basic
import Mathlib.Data.Fintype.Card
import Mathlib.Data.Fintype.Fin

/-! # Covering lists and first minimal elements

Three facts about lists ordered by a relation or by position. A list `r` covers a list `x` under `R` when each
element of `x` has an element of `r` of its own to which it is related, no element of `r`
serving twice (`Covers`). Covering survives permuting or extending `r`, is carried along maps,
and composes where `R` is transitive. In a list under a preorder, below every element lies one
that is minimal and the first of the elements equivalent to it (`exists_first_minimal_below`).
The elements at strictly increasing positions of a list are a sublist of it
(`filterMap_getElem?_sublist`). Nothing in this module refers to a particular program.
-/

namespace ListOrder

open List

set_option autoImplicit false

variable {α β : Type}

section Covers

/-- `r` covers `x` under `R`: elements of `r`, each taken once, stand in `R` to the elements of
`x` in order. -/
def Covers (R : α → β → Prop) (r : List α) (x : List β) : Prop :=
  ∃ zs, zs <+~ r ∧ Forall₂ R zs x

variable {R : α → β → Prop}

theorem covers_nil (r : List α) : Covers R r [] := ⟨[], nil_subperm, .nil⟩

theorem Covers.cons {a : α} {b : β} {r : List α} {x : List β} (hab : R a b)
    (h : Covers R r x) : Covers R (a :: r) (b :: x) := by
  obtain ⟨zs, hSub, hRel⟩ := h
  exact ⟨a :: zs, (subperm_cons a).2 hSub, .cons hab hRel⟩

theorem Covers.subperm {r r' : List α} {x : List β} (h : Covers R r x) (hr : r <+~ r') :
    Covers R r' x := by
  obtain ⟨zs, hSub, hRel⟩ := h
  exact ⟨zs, hSub.trans hr, hRel⟩

theorem covers_self {R : α → α → Prop} {x : List α} (hRefl : ∀ a ∈ x, R a a) : Covers R x x :=
  ⟨x, Subperm.refl x, forall₂_same.2 hRefl⟩

theorem exists_sublist_forall₂ {zs : List α} {y ws : List β} (hRel : Forall₂ R zs y)
    (hSub : ws <+ y) : ∃ zs', zs' <+ zs ∧ Forall₂ R zs' ws := by
  induction hSub generalizing zs with
  | slnil => exact ⟨[], nil_sublist _, .nil⟩
  | cons b _ ih =>
    cases hRel with
    | cons _ hTail =>
      obtain ⟨zs', hSub', hRel'⟩ := ih hTail
      exact ⟨zs', hSub'.cons _, hRel'⟩
  | cons_cons b _ ih =>
    cases hRel with
    | cons hab hTail =>
      obtain ⟨zs', hSub', hRel'⟩ := ih hTail
      exact ⟨_ :: zs', hSub'.cons_cons _, .cons hab hRel'⟩

theorem forall₂_imp_of_mem {S : α → β → Prop} :
    ∀ {zs : List α} {x : List β}, (∀ a ∈ zs, ∀ b ∈ x, R a b → S a b) →
      Forall₂ R zs x → Forall₂ S zs x
  | _, _, _, .nil => .nil
  | _, _, h, .cons hab hTail =>
    .cons (h _ mem_cons_self _ mem_cons_self hab)
      (forall₂_imp_of_mem (fun a ha b hb => h a (mem_cons_of_mem _ ha) b (mem_cons_of_mem _ hb))
        hTail)

theorem forall₂_trans_of_mem {R : α → α → Prop} :
    ∀ {zs ys xs : List α}, (∀ a ∈ zs, ∀ b ∈ ys, ∀ c ∈ xs, R a b → R b c → R a c) →
      Forall₂ R zs ys → Forall₂ R ys xs → Forall₂ R zs xs
  | _, _, _, _, .nil, .nil => .nil
  | _, _, _, h, .cons hzy hTail₁, .cons hyx hTail₂ =>
    .cons (h _ mem_cons_self _ mem_cons_self _ mem_cons_self hzy hyx)
      (forall₂_trans_of_mem (fun a ha b hb c hc =>
        h a (mem_cons_of_mem _ ha) b (mem_cons_of_mem _ hb) c (mem_cons_of_mem _ hc)) hTail₁ hTail₂)

theorem Covers.trans {R : α → α → Prop} {r y x : List α}
    (hTrans : ∀ a ∈ r, ∀ b ∈ y, ∀ c ∈ x, R a b → R b c → R a c)
    (hry : Covers R r y) (hyx : Covers R y x) : Covers R r x := by
  obtain ⟨zs, hzs, hzy⟩ := hry
  obtain ⟨ws, ⟨ws', hPerm, hSub⟩, hwx⟩ := hyx
  obtain ⟨us, hus, huw⟩ := exists_sublist_forall₂ hzy hSub
  obtain ⟨vs, hvPerm, hvw⟩ : Relation.Comp Perm (Forall₂ R) us ws := by
    rw [← forall₂_comp_perm_eq_perm_comp_forall₂]
    exact ⟨ws', huw, hPerm⟩
  have hvs : vs <+~ r := hvPerm.symm.subperm.trans (hus.subperm.trans hzs)
  refine ⟨vs, hvs, forall₂_trans_of_mem (fun a ha b hb c hc => ?_) hvw hwx⟩
  exact hTrans a (hvs.subset ha) b (hSub.subset (hPerm.mem_iff.2 hb)) c hc

theorem Covers.map_of_mem {γ δ : Type} {S : γ → δ → Prop} (f : α → γ) (g : β → δ)
    {r : List α} {x : List β} (hR : ∀ a ∈ r, ∀ b ∈ x, R a b → S (f a) (g b))
    (h : Covers R r x) : Covers S (r.map f) (x.map g) := by
  obtain ⟨zs, ⟨l, hPerm, hSub⟩, hRel⟩ := h
  refine ⟨zs.map f, ⟨l.map f, hPerm.map f, hSub.map f⟩, ?_⟩
  rw [forall₂_map_left_iff, forall₂_map_right_iff]
  exact forall₂_imp_of_mem (fun a ha b hb => hR a ((hSub.subset (hPerm.mem_iff.2 ha))) b hb) hRel

end Covers

section FirstMinimal

variable {le : α → α → Prop}

theorem exists_first_minimal_below (hRefl : ∀ a, le a a)
    (hTrans : ∀ a b c, le a b → le b c → le a c) {L : List α} {s : α} (hs : s ∈ L) :
    ∃ j : Fin L.length, le L[j] s ∧ ∀ k : Fin L.length, le L[k] L[j] → le L[j] L[k] ∧ j ≤ k := by
  let before : Fin L.length → Fin L.length → Prop :=
    fun k j => le L[k] L[j] ∧ (¬ le L[j] L[k] ∨ k < j)
  have : IsTrans (Fin L.length) before := by
    refine ⟨fun a b c ⟨hab, hab'⟩ ⟨hbc, hbc'⟩ => ⟨hTrans _ _ _ hab hbc, ?_⟩⟩
    by_cases hca : le L[c] L[a]
    · have hba : le L[b] L[a] := hTrans _ _ _ hbc hca
      have hcb : le L[c] L[b] := hTrans _ _ _ hca hab
      exact .inr ((hab'.resolve_left (not_not.2 hba)).trans (hbc'.resolve_left (not_not.2 hcb)))
    · exact .inl hca
  have : Std.Irrefl before :=
    ⟨fun a ⟨_, h⟩ => h.elim (· (hRefl _)) (lt_irrefl a)⟩
  obtain ⟨i, hi, rfl⟩ := getElem_of_mem hs
  obtain ⟨j, hj, hMin⟩ := (Finite.wellFounded_of_trans_of_irrefl before).has_min
    {j | le L[j] L[i]} ⟨⟨i, hi⟩, hRefl _⟩
  refine ⟨j, hj, fun k hk => ?_⟩
  have hNot : ¬ before k j := hMin k (hTrans _ _ _ hk hj)
  simp only [before, not_and, not_or, not_not, not_lt] at hNot
  exact hNot hk

end FirstMinimal

section Positions

theorem filterMap_getElem?_sublist :
    ∀ (l : List α) (idx : List Nat), idx.Pairwise (· < ·) → (∀ i ∈ idx, i < l.length) →
      (idx.filterMap (l[·]?)).Sublist l ∧ (idx.filterMap (l[·]?)).length = idx.length
  | [], [], _, _ => by simp
  | [], i :: _, _, hRange => absurd (hRange i mem_cons_self) (Nat.not_lt_zero _)
  | a :: l, idx, hSorted, hRange => by
    have hShift : ∀ {js : List Nat}, (∀ j ∈ js, 1 ≤ j) →
        js.filterMap ((a :: l)[·]?) = (js.map (· - 1)).filterMap (l[·]?) := by
      intro js hjs
      rw [filterMap_map]
      refine filterMap_congr fun j hj => ?_
      obtain ⟨j', rfl⟩ : ∃ j', j = j' + 1 := ⟨j - 1, by have := hjs j hj; omega⟩
      simp
    have hTail : ∀ {js : List Nat}, js.Pairwise (· < ·) → (∀ j ∈ js, 1 ≤ j ∧ j < l.length + 1) →
        ((js.map (· - 1)).filterMap (l[·]?)).Sublist l ∧
          ((js.map (· - 1)).filterMap (l[·]?)).length = js.length := by
      intro js hjs hjRange
      have hSub := filterMap_getElem?_sublist l (js.map (· - 1))
        (pairwise_map.2 (hjs.imp_of_mem fun hi hj hij => by
          have := hjRange _ hi
          have := hjRange _ hj
          omega))
        (fun j hj => by
          obtain ⟨j', hj', rfl⟩ := mem_map.1 hj
          have := hjRange j' hj'
          omega)
      simpa using hSub
    cases idx with
    | nil => simp
    | cons i idx =>
      obtain ⟨hHead, hRest⟩ := pairwise_cons.1 hSorted
      have hLt : ∀ j ∈ i :: idx, j < l.length + 1 := fun j hj => by simpa using hRange j hj
      by_cases hi : i = 0
      · subst hi
        have hAbove : ∀ j ∈ idx, 1 ≤ j := fun j hj => hHead j hj
        obtain ⟨hSub, hLength⟩ :=
          hTail hRest fun j hj => ⟨hAbove j hj, hLt j (mem_cons_of_mem _ hj)⟩
        rw [filterMap_cons_some (show (a :: l)[0]? = some a from rfl), hShift hAbove]
        exact ⟨hSub.cons_cons a, by simp only [length_cons, hLength]⟩
      · have hAbove : ∀ j ∈ i :: idx, 1 ≤ j := by
          intro j hj
          rcases mem_cons.1 hj with rfl | hj
          · omega
          · have := hHead j hj
            omega
        obtain ⟨hSub, hLength⟩ := hTail hSorted fun j hj => ⟨hAbove j hj, hLt j hj⟩
        rw [hShift hAbove]
        exact ⟨hSub.cons a, hLength⟩

end Positions

end ListOrder
