import Mathlib.Combinatorics.Hall.Finite
import Mathlib.Algebra.BigOperators.Group.Finset.Sigma

/-! # Filling quotas with distinct candidates

Every group of a finite set asks for a quota of members, each drawn from the group's
candidates, and no candidate may take two places. Hall's theorem with multiplicities: this is
possible iff every set of groups has, among all their candidates, at least as many as their
quotas together. The places are the pairs `⟨g, i⟩` with `i < quota g`; the proof reduces to
Hall's theorem over them.
-/

namespace Allocation

open Finset

variable {G α : Type*}

def slots (groups : Finset G) (quota : G → ℕ) : Finset (Σ _ : G, ℕ) :=
  groups.sigma fun g => range (quota g)

theorem mem_slots {groups : Finset G} {quota : G → ℕ} {x : Σ _ : G, ℕ} :
    x ∈ slots groups quota ↔ x.1 ∈ groups ∧ x.2 < quota x.1 := by
  simp [slots]

theorem card_slots (groups : Finset G) (quota : G → ℕ) :
    #(slots groups quota) = ∑ g ∈ groups, quota g := by
  simp [slots]

theorem slots_mono {S groups : Finset G} (hS : S ⊆ groups) (quota : G → ℕ) :
    slots S quota ⊆ slots groups quota := by
  intro x hx
  rw [mem_slots] at hx ⊢
  exact ⟨hS hx.1, hx.2⟩

def Realizable (groups : Finset G) (quota : G → ℕ) (candidates : G → Finset α) : Prop :=
  ∃ f : slots groups quota → α, Function.Injective f ∧ ∀ x, f x ∈ candidates x.1.1

def HallCondition [DecidableEq α] (groups : Finset G) (quota : G → ℕ) (candidates : G → Finset α) : Prop :=
  ∀ S ⊆ groups, ∑ g ∈ S, quota g ≤ #(S.biUnion candidates)

variable [DecidableEq α] {groups : Finset G} {quota : G → ℕ} {candidates : G → Finset α}

theorem hallCondition_of_realizable [DecidableEq G] (h : Realizable groups quota candidates) :
    HallCondition groups quota candidates := by
  obtain ⟨f, hInj, hMem⟩ := h
  intro S hS
  set s : Finset (slots groups quota) := (slots S quota).subtype (· ∈ slots groups quota) with hs
  have hCard : #s = ∑ g ∈ S, quota g := by
    rw [hs, card_subtype, filter_true_of_mem (fun x hx => slots_mono hS quota hx), card_slots]
  calc ∑ g ∈ S, quota g = #(s.image f) := by rw [card_image_of_injective s hInj, hCard]
    _ ≤ #(S.biUnion candidates) := by
      apply card_le_card
      intro a ha
      obtain ⟨x, hx, rfl⟩ := mem_image.1 ha
      rw [hs, mem_subtype, mem_slots] at hx
      exact mem_biUnion.2 ⟨x.1.1, hx.1, hMem x⟩

theorem realizable_of_hallCondition [DecidableEq G] (h : HallCondition groups quota candidates) :
    Realizable groups quota candidates := by
  apply (all_card_le_biUnion_card_iff_existsInjective' fun x : slots groups quota =>
    candidates x.1.1).1
  intro s
  let S := s.image fun x => x.1.1
  have hS : S ⊆ groups := by
    intro g hg
    obtain ⟨x, -, rfl⟩ := mem_image.1 hg
    exact (mem_slots.1 x.2).1
  calc #s = #(s.map (Function.Embedding.subtype _)) := (card_map _).symm
    _ ≤ #(slots S quota) := by
      apply card_le_card
      intro y hy
      obtain ⟨x, hx, rfl⟩ := mem_map.1 hy
      exact mem_slots.2 ⟨mem_image_of_mem _ hx, (mem_slots.1 x.2).2⟩
    _ = ∑ g ∈ S, quota g := card_slots S quota
    _ ≤ #(S.biUnion candidates) := h S hS
    _ = #(s.biUnion fun x => candidates x.1.1) := by rw [image_biUnion]

theorem hallCondition_congr {candidates' : G → Finset α}
    (h : ∀ g ∈ groups, candidates g = candidates' g) :
    HallCondition groups quota candidates ↔ HallCondition groups quota candidates' := by
  apply forall₂_congr
  intro S hS
  rw [biUnion_congr rfl fun g hg => h g (hS hg)]

theorem realizable_iff_hallCondition [DecidableEq G] :
    Realizable groups quota candidates ↔ HallCondition groups quota candidates :=
  ⟨hallCondition_of_realizable, realizable_of_hallCondition⟩

end Allocation
