import FabricPeer.Gateway.EndorsementPlan
import Mathlib.Data.List.Perm.Basic
import Mathlib.Data.List.Nodup

/-! # What a completed layout holds, and the layouts the loop never reaches

Over every interleaving of the goroutines, an endorser is handed out at most once: groups only
lose endorsers, and an endorser taken off its group is asked by one goroutine only. So each
layout collects endorsements from distinct endorsers that succeeded, as many of each group as
it stops requiring, and the layout that completes holds as many of each group as it required
at the start.

A goroutine that finds its group empty moves `nextLayout` on, whichever layout it was asking
for. Two of them in one round move it on twice: the layout after the current one is then
skipped, never handed out and never credited, however many of its endorsers would succeed.
-/

namespace FabricPeer.Gateway

open Transition

set_option autoImplicit false

section Lists

variable {α β : Type}

theorem filterMap_perm_eraseIdx (f : α → Option β) :
    ∀ (l : List α) (i : ℕ) (x : α), l[i]? = some x →
      List.Perm (l.filterMap f) ((f x).toList ++ (l.eraseIdx i).filterMap f)
  | [], _, _, h => by simp at h
  | a :: l, 0, x, h => by
    obtain rfl : a = x := by simpa using h
    cases hfa : f a <;> simp [hfa]
  | a :: l, i + 1, x, h => by
    have ih := filterMap_perm_eraseIdx f l i x (by simpa using h)
    rw [List.eraseIdx_cons_succ, List.filterMap_cons, List.filterMap_cons]
    cases f a with
    | none => exact ih
    | some b => exact (ih.cons b).trans List.perm_middle.symm

theorem filterMap_set_perm (f : α → Option β) {l : List α} {i : ℕ} {x : α}
    (h : l[i]? = some x) (y : α) :
    List.Perm ((l.set i y).filterMap f) ((f y).toList ++ (l.eraseIdx i).filterMap f) := by
  have hLen : i < l.length := by
    by_contra hNot
    rw [List.getElem?_eq_none (by omega)] at h
    cases h
  have hSet := filterMap_perm_eraseIdx f (l.set i y) i y (List.getElem?_set_self hLen)
  rwa [List.eraseIdx_set_eq] at hSet

theorem getElem?_take_append {l rest : List α} {n : ℕ} (hLen : rest.length = (l.drop n).length)
    (j : ℕ) : (l.take n ++ rest)[j]? = if j < n then l[j]? else rest[j - n]? := by
  rw [List.getElem?_append, List.length_take, List.getElem?_take]
  by_cases hj : j < n
  · simp only [hj, ↓reduceIte]
    by_cases hjl : j < l.length
    · rw [if_pos (Nat.lt_min.2 ⟨hj, hjl⟩)]
    · have hRest : rest = [] := List.length_eq_zero_iff.1 (by rw [hLen, List.length_drop]; omega)
      rw [if_neg (by omega), hRest, List.getElem?_nil, List.getElem?_eq_none (by omega)]
  · simp only [hj, ↓reduceIte]
    rw [if_neg (by omega)]
    by_cases hnl : n ≤ l.length
    · rw [Nat.min_eq_left hnl]
    · have hRest : rest = [] := List.length_eq_zero_iff.1 (by rw [hLen, List.length_drop]; omega)
      simp [hRest]

theorem getElem?_set_none {layouts : List (Option α)} {n j : ℕ} {L : α}
    (h : (layouts.set n none)[j]? = some (some L)) :
    layouts[j]? = some (some L) := by
  rw [List.getElem?_set] at h
  split_ifs at h with hj hLen
  · cases h
  · exact h

theorem eq_some_getD_of_map_fst {o : Option (α × β)} {a : α} (d : α × β)
    (h : o.map Prod.fst = some a) : o = some (a, (o.getD d).2) := by
  cases o with
  | none => cases h
  | some r =>
    obtain ⟨a', b⟩ := r
    obtain rfl : a' = a := by simpa using h
    rfl

end Lists

/-- The endorser a goroutine is about to ask, if it is about to ask one. -/
def Task.proposal {E : Type} : Task E → Option E
  | .propose endorser => some endorser
  | .retry _ => none

def proposing {E : Type} (tasks : List (Task E)) : List E := tasks.filterMap Task.proposal

section Tasks

variable {E : Type} {tasks : List (Task E)} {i : ℕ} {endorser : E}

theorem proposing_perm_eraseIdx (h : tasks[i]? = some (.propose endorser)) :
    List.Perm (proposing tasks) (endorser :: proposing (tasks.eraseIdx i)) :=
  filterMap_perm_eraseIdx Task.proposal tasks i _ h

theorem proposing_perm_set_retry (h : tasks[i]? = some (.propose endorser)) (endorser' : E) :
    List.Perm (proposing tasks) (endorser :: proposing (tasks.set i (.retry endorser'))) := by
  have hSet : List.Perm (proposing (tasks.set i (.retry endorser'))) (proposing (tasks.eraseIdx i)) :=
    filterMap_set_perm Task.proposal h _
  exact (proposing_perm_eraseIdx h).trans (hSet.symm.cons endorser)

theorem proposing_set_propose_perm (h : tasks[i]? = some (.retry endorser)) (next : E) :
    List.Perm (proposing (tasks.set i (.propose next))) (next :: proposing tasks) := by
  have hRest : List.Perm (proposing tasks) (proposing (tasks.eraseIdx i)) :=
    filterMap_perm_eraseIdx Task.proposal tasks i _ h
  exact (filterMap_set_perm Task.proposal h _).trans (hRest.symm.cons next)

theorem proposing_eraseIdx_perm (h : tasks[i]? = some (.retry endorser)) :
    List.Perm (proposing (tasks.eraseIdx i)) (proposing tasks) :=
  (filterMap_perm_eraseIdx Task.proposal tasks i _ h).symm

theorem proposing_map_propose (endorsers : List E) :
    proposing (endorsers.map Task.propose) = endorsers := by
  induction endorsers with
  | nil => rfl
  | cons e endorsers ih =>
    simp only [proposing, List.map_cons, List.filterMap_cons, Task.proposal] at ih ⊢
    rw [ih]

end Tasks

section Shrinking

variable {G E Pl : Type} [DecidableEq G]

def Partitioned (groupOf : E → G) (groupEndorsers : G → List E) : Prop :=
  ∀ g, (groupEndorsers g).Nodup ∧ ∀ e ∈ groupEndorsers g, groupOf e = g

omit [DecidableEq G] in
theorem Partitioned.of_sublist {groupOf : E → G} {ge ge' : G → List E}
    (hPart : Partitioned groupOf ge) (hSub : ∀ g, List.Sublist (ge' g) (ge g)) : Partitioned groupOf ge' :=
  fun g => ⟨(hPart g).1.sublist (hSub g), fun e he => (hPart g).2 e ((hSub g).subset he)⟩

theorem sublist_update {ge : G → List E} {group : G} {l : List E} (hl : List.Sublist l (ge group)) (g : G) :
    List.Sublist (Function.update ge group l g) (ge g) := by
  by_cases hg : g = group
  · subst hg
    rwa [Function.update_self]
  · rw [Function.update_of_ne hg]

theorem takeGroups_spec {groupOf : E → G} :
    ∀ (required : List (G × ℕ)) {ge : G → List E}, Partitioned groupOf ge →
      (∀ g, List.Sublist ((takeGroups ge required).2 g) (ge g)) ∧
      ∀ endorsers, (takeGroups ge required).1 = some endorsers →
        endorsers.Nodup ∧ ∀ e ∈ endorsers, (∃ g, e ∈ ge g) ∧ ∀ g, e ∉ (takeGroups ge required).2 g
  | [], ge, _ => by
    refine ⟨fun g => List.Sublist.refl _, ?_⟩
    rintro endorsers ⟨⟩
    simp
  | (group, qty) :: rest, ge, hPart => by
    by_cases hShort : qty > (ge group).length
    · refine ⟨fun g => ?_, fun endorsers hSome => ?_⟩
      · simp [takeGroups, hShort]
      · simp [takeGroups, hShort] at hSome
    set ge₁ := Function.update ge group ((ge group).drop qty) with hge₁
    have hSub₁ : ∀ g, List.Sublist (ge₁ g) (ge g) := sublist_update (List.drop_sublist _ _)
    obtain ⟨hSubRest, hTakenRest⟩ := takeGroups_spec rest (hPart.of_sublist hSub₁)
    have hEq : takeGroups ge ((group, qty) :: rest) =
        ((takeGroups ge₁ rest).1.map ((ge group).take qty ++ ·), (takeGroups ge₁ rest).2) := by
      simp only [takeGroups, hShort, ↓reduceIte, hge₁]
    rw [hEq]
    refine ⟨fun g => (hSubRest g).trans (hSub₁ g), ?_⟩
    intro endorsers hSome
    obtain ⟨taken, hTaken, rfl⟩ := Option.map_eq_some_iff.1 hSome
    obtain ⟨hNodup, hMem⟩ := hTakenRest taken hTaken
    have hGone : ∀ e ∈ (ge group).take qty, ∀ g, e ∉ ge₁ g := by
      intro e he g hIn
      by_cases hg : g = group
      · subst hg
        rw [hge₁, Function.update_self] at hIn
        exact List.disjoint_take_drop (hPart g).1 (Nat.le_refl _) he hIn
      · rw [hge₁, Function.update_of_ne hg] at hIn
        exact hg (((hPart g).2 e hIn).symm.trans ((hPart group).2 e (List.mem_of_mem_take he)))
    refine ⟨List.nodup_append.2 ⟨(hPart group).1.sublist (List.take_sublist _ _), hNodup, ?_⟩, ?_⟩
    · rintro e he e' he' rfl
      obtain ⟨⟨g, hg⟩, -⟩ := hMem e he'
      exact hGone e he g hg
    · intro e he
      rcases List.mem_append.1 he with hHere | hThere
      · exact ⟨⟨group, List.mem_of_mem_take hHere⟩,
          fun g hIn => hGone e hHere g ((hSubRest g).subset hIn)⟩
      · obtain ⟨⟨g, hg⟩, hNot⟩ := hMem e hThere
        exact ⟨⟨g, (hSub₁ g).subset hg⟩, hNot⟩

structure Shrinks (p p' : Plan G E Pl) : Prop where
  groupIds : p'.groupIds = p.groupIds
  groupEndorsers : ∀ g, List.Sublist (p'.groupEndorsers g) (p.groupEndorsers g)
  layouts : ∀ (j : ℕ) (L : PlanLayout G E), p'.layouts[j]? = some (some L) →
    p.layouts[j]? = some (some L)
  completedLayout : p'.completedLayout = p.completedLayout

omit [DecidableEq G] in
theorem Shrinks.refl (p : Plan G E Pl) : Shrinks p p :=
  ⟨rfl, fun _ => List.Sublist.refl _, fun _ _ h => h, rfl⟩

omit [DecidableEq G] in
theorem Shrinks.trans {p p' p'' : Plan G E Pl} (h : Shrinks p p') (h' : Shrinks p' p'') :
    Shrinks p p'' where
  groupIds := h'.groupIds.trans h.groupIds
  groupEndorsers g := (h'.groupEndorsers g).trans (h.groupEndorsers g)
  layouts j L hL := h.layouts j L (h'.layouts j L hL)
  completedLayout := h'.completedLayout.trans h.completedLayout

theorem endorsersLoop_spec {groupOf : E → G} :
    ∀ (fuel : ℕ) {p p' : Plan G E Pl} {endorsers : List E}, Partitioned groupOf p.groupEndorsers →
      endorsersLoop fuel p = some (endorsers, p') →
      Shrinks p p' ∧ endorsers.Nodup ∧
        ∀ e ∈ endorsers, (∃ g, e ∈ p.groupEndorsers g) ∧ ∀ g, e ∉ p'.groupEndorsers g
  | 0, _, _, _, _, h => by simp [endorsersLoop] at h
  | fuel + 1, p, p', endorsers, hPart, h => by
    simp only [endorsersLoop] at h
    split at h
    case h_1 layout hLayout =>
      obtain ⟨hSub, hTaken⟩ := takeGroups_spec layout.required hPart
      split at h
      case h_1 groupEndorsers hTake =>
        rw [hTake] at hSub
        have hShrinks : Shrinks p { p with
            groupEndorsers := groupEndorsers,
            layouts := p.layouts.set (firstLiveLayout p.layouts p.nextLayout) none,
            nextLayout := firstLiveLayout p.layouts p.nextLayout + 1 } :=
          ⟨rfl, hSub, fun _ _ hL => getElem?_set_none hL, rfl⟩
        obtain ⟨hShrinks', hNodup, hMem⟩ :=
          endorsersLoop_spec fuel (hPart.of_sublist hSub) h
        refine ⟨hShrinks.trans hShrinks', hNodup, fun e he => ?_⟩
        obtain ⟨⟨g, hg⟩, hNot⟩ := hMem e he
        exact ⟨⟨g, (hSub g).subset hg⟩, hNot⟩
      case h_2 groupEndorsers hTake =>
        rw [hTake] at hSub
        have hShrinks : Shrinks p { p with
            groupEndorsers := groupEndorsers,
            nextLayout := firstLiveLayout p.layouts p.nextLayout } :=
          ⟨rfl, hSub, fun _ _ hL => hL, rfl⟩
        obtain ⟨hShrinks', hNodup, hMem⟩ :=
          endorsersLoop_spec fuel (hPart.of_sublist hSub) h
        refine ⟨hShrinks.trans hShrinks', hNodup, fun e he => ?_⟩
        obtain ⟨⟨g, hg⟩, hNot⟩ := hMem e he
        exact ⟨⟨g, (hSub g).subset hg⟩, hNot⟩
      case h_3 taken groupEndorsers _ hTake =>
        obtain ⟨rfl, rfl⟩ := Prod.mk.inj (Option.some.inj h)
        rw [hTake] at hSub hTaken
        exact ⟨⟨rfl, hSub, fun _ _ hL => hL, rfl⟩, hTaken taken rfl⟩
    case h_2 =>
      obtain ⟨rfl, rfl⟩ := Prod.mk.inj (Option.some.inj h)
      exact ⟨⟨rfl, fun _ => List.Sublist.refl _, fun _ _ hL => hL, rfl⟩, List.nodup_nil,
        fun _ he => absurd he List.not_mem_nil⟩

end Shrinking

section Credit

theorem lookup_cons_eq_ite {κ α : Type} [DecidableEq κ] (k k' : κ) (v : α)
    (rest : List (κ × α)) :
    ((k', v) :: rest).lookup k = if k = k' then some v else rest.lookup k := by
  by_cases h : k = k'
  · subst h
    simp
  · simp [List.lookup_cons, beq_eq_false_iff_ne.2 h, h]

theorem lookup_of_mem_nodup {κ α : Type} [DecidableEq κ] :
    ∀ {l : List (κ × α)}, (l.map Prod.fst).Nodup → ∀ {k : κ} {v : α}, (k, v) ∈ l →
      l.lookup k = some v
  | [], _, _, _, hMem => absurd hMem List.not_mem_nil
  | (k', v') :: rest, hNodup, k, v, hMem => by
    obtain ⟨hFresh, hRest⟩ := List.nodup_cons.1 hNodup
    rw [lookup_cons_eq_ite]
    rcases List.mem_cons.1 hMem with hHead | hTail
    · obtain ⟨rfl, rfl⟩ := Prod.mk.inj hHead
      simp
    · have hIn : k ∈ rest.map Prod.fst := List.mem_map.2 ⟨(k, v), hTail, rfl⟩
      have hk : k ≠ k' := fun hEq => hFresh (hEq ▸ hIn)
      rw [if_neg hk]
      exact lookup_of_mem_nodup hRest hTail

variable {G E Pl : Type} [DecidableEq G]

theorem lookup_filter_ne (l : List (G × ℕ)) (group g : G) :
    (l.filter (·.1 != group)).lookup g = if g = group then none else l.lookup g := by
  induction l with
  | nil => simp
  | cons entry l ih =>
    obtain ⟨k, v⟩ := entry
    by_cases hk : k = group
    · subst hk
      simp only [List.filter_cons, bne_self_eq_false, Bool.false_eq_true, ↓reduceIte, ih,
        lookup_cons_eq_ite]
      split_ifs <;> rfl
    · have hKeep : (k != group) = true := bne_iff_ne.2 hk
      simp only [List.filter_cons, hKeep, ↓reduceIte, lookup_cons_eq_ite, ih]
      split_ifs <;> simp_all

theorem lookup_map_set (l : List (G × ℕ)) (group g : G) (v : ℕ) :
    (l.map fun entry => if entry.1 = group then (group, v) else entry).lookup g =
      if g = group then (l.lookup group).map fun _ => v else l.lookup g := by
  induction l with
  | nil => simp
  | cons entry l ih =>
    obtain ⟨k, v'⟩ := entry
    by_cases hk : k = group
    · subst hk
      simp only [List.map_cons, ↓reduceIte, lookup_cons_eq_ite, ih]
      split_ifs <;> simp_all
    · simp only [List.map_cons, hk, ↓reduceIte, lookup_cons_eq_ite, ih]
      split_ifs <;> simp_all

/-- The quantity a layout still requires of a group. -/
def quota (layout : PlanLayout G E) (group : G) : ℕ := (layout.required.lookup group).getD 0

/-- How many of a layout's endorsements come from endorsers of a group. -/
def collected (groupOf : E → G) (layout : PlanLayout G E) (group : G) : ℕ :=
  layout.endorsements.countP fun e => groupOf e = group

theorem quota_credit {layout : PlanLayout G E} {group : G} {quantity : ℕ}
    (hLookup : layout.required.lookup group = some quantity) (e : E) (g : G) :
    quota (layout.credit group quantity e) g = if g = group then quantity - 1 else quota layout g := by
  unfold quota PlanLayout.credit
  by_cases hZero : quantity - 1 = 0
  · rw [if_pos hZero, lookup_filter_ne]
    split_ifs <;> simp [hZero]
  · rw [if_neg hZero, lookup_map_set, hLookup]
    split_ifs <;> rfl

omit [DecidableEq G] in
theorem pos_of_lookup {required : List (G × ℕ)} {group : G} {quantity : ℕ}
    [BEq G] [LawfulBEq G] (hPos : ∀ entry ∈ required, 0 < entry.2)
    (hLookup : required.lookup group = some quantity) : 0 < quantity := by
  obtain ⟨l₁, l₂, hSplit, -⟩ := List.lookup_eq_some_iff.1 hLookup
  exact hPos (group, quantity) (by rw [hSplit]; exact List.mem_append_right _ List.mem_cons_self)

variable (outcome : E → Outcome Pl) (groupOf : E → G)

structure Credited (start layout : PlanLayout G E) : Prop where
  requiredNodup : (layout.required.map Prod.fst).Nodup
  requiredPos : ∀ entry ∈ layout.required, 0 < entry.2
  balance : ∀ g, collected groupOf layout g + quota layout g = quota start g
  nodup : layout.endorsements.Nodup
  succeeded : ∀ e ∈ layout.endorsements, ∃ payload, outcome e = .success payload

variable {outcome groupOf}

theorem credited_start {start : PlanLayout G E} (hNodup : (start.required.map Prod.fst).Nodup)
    (hPos : ∀ entry ∈ start.required, 0 < entry.2) (hEmpty : start.endorsements = []) :
    Credited outcome groupOf start start where
  requiredNodup := hNodup
  requiredPos := hPos
  balance g := by simp [collected, hEmpty]
  nodup := hEmpty ▸ List.nodup_nil
  succeeded e he := absurd (hEmpty ▸ he) List.not_mem_nil

theorem Credited.credit {start layout : PlanLayout G E}
    (hCredited : Credited outcome groupOf start layout) {group : G} {quantity : ℕ} {e : E}
    (hLookup : layout.required.lookup group = some quantity) (hGroup : groupOf e = group)
    (hFresh : e ∉ layout.endorsements) (hSucceeded : ∃ payload, outcome e = .success payload) :
    Credited outcome groupOf start (layout.credit group quantity e) where
  requiredNodup := by
    unfold PlanLayout.credit
    split_ifs
    · exact hCredited.requiredNodup.sublist (List.Sublist.map Prod.fst List.filter_sublist)
    · have hKeys : (layout.required.map fun entry =>
          if entry.1 = group then (group, quantity - 1) else entry).map Prod.fst =
          layout.required.map Prod.fst := by
        rw [List.map_map]
        apply List.map_congr_left
        intro entry _
        by_cases h : entry.1 = group <;> simp [h]
      rw [hKeys]
      exact hCredited.requiredNodup
  requiredPos := by
    unfold PlanLayout.credit
    split_ifs with hZero
    · intro entry hMem
      exact hCredited.requiredPos entry (List.mem_of_mem_filter hMem)
    · intro entry hMem
      obtain ⟨old, hOld, rfl⟩ := List.mem_map.1 hMem
      by_cases h : old.1 = group
      · simp only [h, ↓reduceIte]
        omega
      · simp only [h, ↓reduceIte]
        exact hCredited.requiredPos old hOld
  balance g := by
    have hPos := pos_of_lookup hCredited.requiredPos hLookup
    have hQuota : quota layout group = quantity := by simp [quota, hLookup]
    rw [← hCredited.balance g, quota_credit hLookup]
    simp only [collected, PlanLayout.credit, List.countP_append, List.countP_singleton, hGroup]
    by_cases hg : g = group
    · subst hg
      simp only [↓reduceIte, decide_true]
      rw [hQuota]
      omega
    · simp [hg, Ne.symm hg]
  nodup := List.nodup_append.2 ⟨hCredited.nodup, by simp,
    fun a ha b hb hab => hFresh (by rw [List.mem_singleton.1 hb] at hab; exact hab ▸ ha)⟩
  succeeded e' he' := by
    rcases List.mem_append.1 he' with hOld | hNew
    · exact hCredited.succeeded e' hOld
    · rw [List.mem_singleton.1 hNew]
      exact hSucceeded

end Credit

section Calls

variable {G E Pl : Type} [DecidableEq G] [DecidableEq E] [DecidableEq Pl] [Inhabited G]

def CreditedOrKept (group : G) (e : E) (layout layout' : PlanLayout G E) : Prop :=
  layout' = layout ∨
    ∃ quantity, layout.required.lookup group = some quantity ∧ layout' = layout.credit group quantity e

omit [DecidableEq E] [DecidableEq Pl] [Inhabited G] in
theorem creditLayouts_spec (group : G) (e : E) :
    ∀ layouts : List (Option (PlanLayout G E)),
      (creditLayouts group e layouts).1.length = layouts.length ∧
      (∀ (j : ℕ) (L' : PlanLayout G E), (creditLayouts group e layouts).1[j]? = some (some L') →
        ∃ L, layouts[j]? = some (some L) ∧ CreditedOrKept group e L L') ∧
      (∀ L', (creditLayouts group e layouts).2 = some L' →
        L'.required = [] ∧ ∃ (j : ℕ) (L : PlanLayout G E), layouts[j]? = some (some L) ∧
          CreditedOrKept group e L L')
  | [] => by simp [creditLayouts]
  | none :: rest => by
    obtain ⟨hLen, hAt, hDone⟩ := creditLayouts_spec group e rest
    rcases hRest : creditLayouts group e rest with ⟨rest', completed⟩
    rw [hRest] at hLen hAt hDone
    simp only [creditLayouts, hRest, List.length_cons, hLen, true_and]
    refine ⟨fun j L' hL' => ?_, fun L' hL' => ?_⟩
    · cases j with
      | zero => simp at hL'
      | succ j => exact hAt j L' (by simpa using hL')
    · obtain ⟨hReq, j, L, hL, hStep⟩ := hDone L' hL'
      exact ⟨hReq, j + 1, L, by simpa using hL, hStep⟩
  | some layout :: rest => by
    obtain ⟨hLen, hAt, hDone⟩ := creditLayouts_spec group e rest
    rcases hRest : creditLayouts group e rest with ⟨rest', completed⟩
    rw [hRest] at hLen hAt hDone
    cases hLookup : layout.required.lookup group with
    | none =>
      simp only [creditLayouts, hLookup, hRest, List.length_cons, hLen, true_and]
      refine ⟨fun j L' hL' => ?_, fun L' hL' => ?_⟩
      · cases j with
        | zero => exact ⟨layout, rfl, .inl (by simpa using hL'.symm)⟩
        | succ j => exact hAt j L' (by simpa using hL')
      · obtain ⟨hReq, j, L, hL, hStep⟩ := hDone L' hL'
        exact ⟨hReq, j + 1, L, by simpa using hL, hStep⟩
    | some quantity =>
      have hCredit : CreditedOrKept group e layout (layout.credit group quantity e) :=
        .inr ⟨quantity, hLookup, rfl⟩
      by_cases hComplete : (quantity - 1 = 0 && (layout.credit group quantity e).required.isEmpty) = true
      · simp only [creditLayouts, hLookup, hComplete, ↓reduceIte, List.length_cons, true_and]
        refine ⟨fun j L' hL' => ?_, fun L' hL' => ?_⟩
        · cases j with
          | zero =>
            obtain rfl : layout.credit group quantity e = L' := by simpa using hL'
            exact ⟨layout, rfl, hCredit⟩
          | succ j => exact ⟨L', by simpa using hL', .inl rfl⟩
        · obtain rfl := Option.some.inj hL'
          simp only [Bool.and_eq_true, List.isEmpty_iff] at hComplete
          exact ⟨hComplete.2, 0, layout, rfl, hCredit⟩
      · simp only [creditLayouts, hLookup, hComplete, Bool.false_eq_true, ↓reduceIte, hRest,
          List.length_cons, hLen, true_and]
        refine ⟨fun j L' hL' => ?_, fun L' hL' => ?_⟩
        · cases j with
          | zero =>
            obtain rfl : layout.credit group quantity e = L' := by simpa using hL'
            exact ⟨layout, rfl, hCredit⟩
          | succ j => exact hAt j L' (by simpa using hL')
        · obtain ⟨hReq, j, L, hL, hStep⟩ := hDone L' hL'
          exact ⟨hReq, j + 1, L, by simpa using hL, hStep⟩

omit [DecidableEq E] [DecidableEq Pl] [Inhabited G] in
theorem getElem?_take_append_credit {layouts credited : List (Option (PlanLayout G E))}
    {n j : ℕ} {L' : PlanLayout G E} {group : G} {e : E}
    (hLen : credited.length = (layouts.drop n).length)
    (hAt : ∀ (j : ℕ) (L' : PlanLayout G E), credited[j]? = some (some L') →
      ∃ L, (layouts.drop n)[j]? = some (some L) ∧ CreditedOrKept group e L L')
    (h : (layouts.take n ++ credited)[j]? = some (some L')) :
    ∃ L, layouts[j]? = some (some L) ∧ CreditedOrKept group e L L' := by
  rw [getElem?_take_append hLen] at h
  split_ifs at h with hj
  · exact ⟨L', h, .inl rfl⟩
  · obtain ⟨L, hL, hStep⟩ := hAt (j - n) L' h
    rw [List.getElem?_drop, Nat.add_sub_cancel' (by omega)] at hL
    exact ⟨L, hL, hStep⟩

theorem processEndorsement_false {p p' : Plan G E Pl} {e : E} {payload : Pl}
    (h : p.processEndorsement e payload = (false, p')) : Shrinks p p' := by
  unfold Plan.processEndorsement at h
  dsimp only at h
  split_ifs at h
  · obtain rfl := (Prod.mk.inj h).2
    exact ⟨rfl, sublist_update List.erase_sublist, fun _ _ hL => hL, rfl⟩
  · cases (Prod.mk.inj h).1

theorem processEndorsement_true {p p' : Plan G E Pl} {e : E} {payload : Pl}
    (h : p.processEndorsement e payload = (true, p')) :
    p'.groupIds = p.groupIds ∧
    p'.groupEndorsers =
      Function.update p.groupEndorsers (p.groupOf e) ((p.groupEndorsers (p.groupOf e)).erase e) ∧
    (∀ (j : ℕ) (L' : PlanLayout G E), p'.layouts[j]? = some (some L') →
      ∃ L, p.layouts[j]? = some (some L) ∧ CreditedOrKept (p.groupOf e) e L L') ∧
    (∀ L', p'.completedLayout = some L' → p.completedLayout = some L' ∨
      L'.required = [] ∧ ∃ (j : ℕ) (L : PlanLayout G E), p.layouts[j]? = some (some L) ∧
        CreditedOrKept (p.groupOf e) e L L') := by
  unfold Plan.processEndorsement at h
  dsimp only at h
  split_ifs at h
  · cases (Prod.mk.inj h).1
  obtain ⟨hLen, hAt, hDone⟩ := creditLayouts_spec (p.groupOf e) e (p.layouts.drop p.nextLayout)
  rcases hCredit : creditLayouts (p.groupOf e) e (p.layouts.drop p.nextLayout) with
    ⟨credited, completed⟩
  rw [hCredit] at h hLen hAt hDone
  obtain rfl := (Prod.mk.inj h).2
  refine ⟨rfl, rfl, fun j L' hL' => getElem?_take_append_credit hLen hAt hL', fun L' hL' => ?_⟩
  cases completed with
  | none => exact .inl hL'
  | some completed =>
    obtain ⟨hReq, j, L, hL, hStep⟩ := hDone L' hL'
    rw [List.getElem?_drop] at hL
    exact .inr ⟨hReq, p.nextLayout + j, L, hL, hStep⟩

omit [DecidableEq Pl] in
theorem nextPeerInGroup_some {p p' : Plan G E Pl} {e next : E}
    (h : p.nextPeerInGroup e = (some next, p')) :
    ∃ rest, p.groupEndorsers (p.groupOf e) = next :: rest ∧
      p' = { p with groupEndorsers := Function.update p.groupEndorsers (p.groupOf e) rest } := by
  unfold Plan.nextPeerInGroup at h
  dsimp only at h
  split at h
  case h_1 next' rest hGroup =>
    obtain ⟨hNext, rfl⟩ := Prod.mk.inj h
    obtain rfl := Option.some.inj hNext
    exact ⟨rest, hGroup, rfl⟩
  case h_2 => cases (Prod.mk.inj h).1

omit [DecidableEq Pl] in
theorem nextPeerInGroup_none {p p' : Plan G E Pl} {e : E}
    (h : p.nextPeerInGroup e = (none, p')) :
    p.groupEndorsers (p.groupOf e) = [] ∧ Shrinks p p' ∧ p'.nextLayout = p.nextLayout + 1 ∧
      ∀ (j : ℕ) (L : PlanLayout G E), p.layouts[j]? = some (some L) →
        L.required.lookup (p.groupOf e) = none →
        p'.layouts[j]? = some (some L) := by
  unfold Plan.nextPeerInGroup at h
  dsimp only at h
  split at h
  case h_1 => cases (Prod.mk.inj h).1
  case h_2 hGroup =>
    obtain rfl := (Prod.mk.inj h).2
    have hLen : ((p.layouts.drop p.nextLayout).map fun layout => layout.bind fun layout =>
        if (layout.required.lookup (p.groupOf e)).isSome then none else some layout).length =
        (p.layouts.drop p.nextLayout).length := List.length_map _
    refine ⟨hGroup, ⟨rfl, fun _ => List.Sublist.refl _, fun j L hL => ?_, rfl⟩, rfl, fun j L hL hUnused => ?_⟩
    · rw [getElem?_take_append hLen] at hL
      split_ifs at hL with hj
      · exact hL
      · rw [List.getElem?_map, List.getElem?_drop, Nat.add_sub_cancel' (by omega)] at hL
        cases hOld : p.layouts[j]? with
        | none => simp [hOld] at hL
        | some old =>
          cases old with
          | none => simp [hOld] at hL
          | some old =>
            rw [hOld] at hL
            by_cases hUses : (old.required.lookup (p.groupOf e)).isSome
            · simp [hUses] at hL
            · simp only [Option.map_some, Option.bind_some, hUses, Bool.false_eq_true,
                ↓reduceIte] at hL
              exact hL ▸ rfl
    · dsimp only
      rw [getElem?_take_append hLen]
      split_ifs with hj
      · exact hL
      · rw [List.getElem?_map, List.getElem?_drop, Nat.add_sub_cancel' (by omega), hL]
        simp [hUnused]

omit [DecidableEq E] [DecidableEq Pl] [Inhabited G] in
theorem mem_endorsements_of_creditedOrKept {group : G} {e e' : E} {L L' : PlanLayout G E}
    (hStep : CreditedOrKept group e L L') (he' : e' ∈ L'.endorsements) :
    e' ∈ L.endorsements ∨ e' = e := by
  rcases hStep with rfl | ⟨quantity, -, rfl⟩
  · exact .inl he'
  · rcases List.mem_append.1 he' with hOld | hNew
    · exact .inl hOld
    · exact .inr (List.mem_singleton.1 hNew)

omit [DecidableEq G] [DecidableEq Pl] [Inhabited G] in
theorem uniqueEndorsements_of_nodup {l : List E} (hNodup : l.Nodup) : uniqueEndorsements l = l := by
  unfold uniqueEndorsements
  suffices hFold : ∀ (used unique : List E), (∀ e ∈ l, e ∉ used) →
      (l.foldl (fun (acc : List E × List E) e =>
        if e ∈ acc.1 then acc else (e :: acc.1, acc.2 ++ [e])) (used, unique)).2 = unique ++ l by
    simpa using hFold [] [] (by simp)
  induction l with
  | nil => simp
  | cons e l ih =>
    intro used unique hFresh
    obtain ⟨heL, hNodup'⟩ := List.nodup_cons.1 hNodup
    rw [List.foldl_cons, if_neg (hFresh e List.mem_cons_self)]
    rw [ih hNodup' (e :: used) (unique ++ [e]) fun e' he' hUsed => ?_]
    · simp
    · rcases List.mem_cons.1 hUsed with rfl | hOld
      · exact heL he'
      · exact hFresh e' (List.mem_cons_of_mem _ he') hOld

end Calls

section Soundness

variable {G E Pl : Type} [DecidableEq G] [DecidableEq E] [DecidableEq Pl] [Inhabited G]

omit [DecidableEq G] [DecidableEq Pl] in
theorem Plan.groupOf_congr {p q : Plan G E Pl} (h : p.groupIds = q.groupIds) :
    p.groupOf = q.groupOf := by
  funext e
  simp [Plan.groupOf, h]

/-- A plan as `newPlan` builds it from discovery: the endorsers of each group are distinct and in
that group only, and each layout requires each of its groups once, a positive quantity, with
nothing collected yet. -/
structure WellFormedPlan (p : Plan G E Pl) : Prop where
  partitioned : Partitioned p.groupOf p.groupEndorsers
  layouts : ∀ (j : ℕ) (L : PlanLayout G E), p.layouts[j]? = some (some L) →
    (L.required.map Prod.fst).Nodup ∧ (∀ entry ∈ L.required, 0 < entry.2) ∧ L.endorsements = []
  completed : p.completedLayout = none

omit [DecidableEq Pl] in
theorem wellFormedPlan_newPlan {layouts : List (PlanLayout G E)}
    {groupEndorsers : List (G × List E)} (hEndorsers : (groupEndorsers.flatMap Prod.snd).Nodup)
    (hLayouts : ∀ L ∈ layouts, (L.required.map Prod.fst).Nodup ∧
      (∀ entry ∈ L.required, 0 < entry.2) ∧ L.endorsements = []) :
    WellFormedPlan (newPlan layouts groupEndorsers : Plan G E Pl) where
  partitioned g := by
    have hKeys : ((newPlan layouts groupEndorsers : Plan G E Pl).groupIds.map Prod.fst) =
        groupEndorsers.flatMap Prod.snd := by
      simp [newPlan, List.map_flatMap, Function.comp_def]
    have hGroupEndorsers : (newPlan layouts groupEndorsers : Plan G E Pl).groupEndorsers g =
        (groupEndorsers.lookup g).getD [] := rfl
    rw [hGroupEndorsers]
    cases hLookup : groupEndorsers.lookup g with
    | none => simp
    | some endorsers =>
      obtain ⟨l₁, l₂, hSplit, -⟩ := List.lookup_eq_some_iff.1 hLookup
      have hMem : (g, endorsers) ∈ groupEndorsers := by
        rw [hSplit]
        exact List.mem_append_right _ List.mem_cons_self
      rw [Option.getD_some]
      refine ⟨(List.nodup_flatMap.1 hEndorsers).1 _ hMem, fun e he => ?_⟩
      have hId : (e, g) ∈ (newPlan layouts groupEndorsers : Plan G E Pl).groupIds :=
        List.mem_flatMap.2 ⟨(g, endorsers), hMem, List.mem_map_of_mem he⟩
      rw [Plan.groupOf, lookup_of_mem_nodup (hKeys ▸ hEndorsers) hId, Option.getD_some]
  layouts j L hL := by
    simp only [newPlan, List.getElem?_map, Option.map_eq_some_iff, Option.some.injEq] at hL
    obtain ⟨L', hL', rfl⟩ := hL
    exact hLayouts L' (List.mem_of_getElem? hL')
  completed := rfl

variable (outcome : E → Outcome Pl) (start : Plan G E Pl)

structure Sound (s : EndorseState G E Pl) : Prop where
  groupIds : s.plan.groupIds = start.groupIds
  partitioned : Partitioned start.groupOf s.plan.groupEndorsers
  layouts : ∀ (j : ℕ) (L : PlanLayout G E), s.plan.layouts[j]? = some (some L) →
    ∃ L₀, start.layouts[j]? = some (some L₀) ∧ Credited outcome start.groupOf L₀ L
  completed : ∀ L, s.plan.completedLayout = some L → L.required = [] ∧
    ∃ (j : ℕ) (L₀ : PlanLayout G E), start.layouts[j]? = some (some L₀) ∧
      Credited outcome start.groupOf L₀ L
  proposingNodup : (proposing s.tasks).Nodup
  proposingTaken : ∀ e ∈ proposing s.tasks, ∀ g, e ∉ s.plan.groupEndorsers g
  proposingFresh : ∀ e ∈ proposing s.tasks, ∀ (j : ℕ) (L : PlanLayout G E),
    s.plan.layouts[j]? = some (some L) → e ∉ L.endorsements
  remainingFresh : ∀ g, ∀ e ∈ s.plan.groupEndorsers g, ∀ (j : ℕ) (L : PlanLayout G E),
    s.plan.layouts[j]? = some (some L) → e ∉ L.endorsements

variable {outcome start}

omit [DecidableEq Pl] in
theorem sound_initial (hWF : WellFormedPlan start) :
    Sound outcome start (EndorseState.initial start) where
  groupIds := rfl
  partitioned := hWF.partitioned
  layouts j L hL := by
    obtain ⟨hNodup, hPos, hEmpty⟩ := hWF.layouts j L hL
    exact ⟨L, hL, credited_start hNodup hPos hEmpty⟩
  completed L hL := by
    rw [EndorseState.initial, hWF.completed] at hL
    cases hL
  proposingNodup := List.nodup_nil
  proposingTaken _ he := absurd he List.not_mem_nil
  proposingFresh _ he := absurd he List.not_mem_nil
  remainingFresh g e _ j L hL := by
    rw [(hWF.layouts j L hL).2.2]
    exact List.not_mem_nil

omit [DecidableEq Pl] in
theorem Sound.shrink {s : EndorseState G E Pl} (hSound : Sound outcome start s)
    {p' : Plan G E Pl} {tasks' : List (Task E)} (stopped' : Bool) (hShrinks : Shrinks s.plan p')
    (hProposing : ∀ e ∈ proposing tasks', e ∈ proposing s.tasks)
    (hNodup : (proposing tasks').Nodup) : Sound outcome start ⟨p', tasks', stopped'⟩ where
  groupIds := hShrinks.groupIds.trans hSound.groupIds
  partitioned := hSound.partitioned.of_sublist hShrinks.groupEndorsers
  layouts j L hL := hSound.layouts j L (hShrinks.layouts j L hL)
  completed L hL := hSound.completed L (hShrinks.completedLayout ▸ hL)
  proposingNodup := hNodup
  proposingTaken e he g hIn :=
    hSound.proposingTaken e (hProposing e he) g ((hShrinks.groupEndorsers g).subset hIn)
  proposingFresh e he j L hL :=
    hSound.proposingFresh e (hProposing e he) j L (hShrinks.layouts j L hL)
  remainingFresh g e he j L hL :=
    hSound.remainingFresh g e ((hShrinks.groupEndorsers g).subset he) j L (hShrinks.layouts j L hL)

omit [DecidableEq Pl] in
theorem Sound.round {s : EndorseState G E Pl} (hSound : Sound outcome start s)
    {endorsers : List E} {plan' : Plan G E Pl}
    (hEndorsers : s.plan.endorsers = some (endorsers, plan')) :
    Sound outcome start ⟨plan', endorsers.map .propose, endorsers.isEmpty⟩ := by
  obtain ⟨hShrinks, hNodup, hTaken⟩ := endorsersLoop_spec _ hSound.partitioned hEndorsers
  have hRest : Sound outcome start ⟨plan', [], endorsers.isEmpty⟩ :=
    Sound.shrink hSound endorsers.isEmpty hShrinks (fun _ he => absurd he List.not_mem_nil)
      List.nodup_nil
  refine { hRest with proposingNodup := ?_, proposingTaken := ?_, proposingFresh := ?_ } <;>
    rw [proposing_map_propose]
  · exact hNodup
  · intro e he
    exact (hTaken e he).2
  · intro e he j L hL
    obtain ⟨⟨g, hg⟩, -⟩ := hTaken e he
    exact hSound.remainingFresh g e hg j L (hShrinks.layouts j L hL)

theorem Sound.endorsed {s : EndorseState G E Pl} (hSound : Sound outcome start s) {i : ℕ}
    {e : E} {payload : Pl} {plan' : Plan G E Pl} (hTask : s.tasks[i]? = some (.propose e))
    (hOutcome : outcome e = .success payload)
    (hProcess : s.plan.processEndorsement e payload = (true, plan')) :
    Sound outcome start { s with plan := plan', tasks := s.tasks.eraseIdx i } := by
  obtain ⟨hIds, hGroups, hLayouts, hCompleted⟩ := processEndorsement_true hProcess
  have hPerm := proposing_perm_eraseIdx hTask
  obtain ⟨hNotRest, hRestNodup⟩ := List.nodup_cons.1 (hPerm.nodup_iff.1 hSound.proposingNodup)
  have hEIn : e ∈ proposing s.tasks := hPerm.symm.subset List.mem_cons_self
  have hRestIn : ∀ e' ∈ proposing (s.tasks.eraseIdx i), e' ∈ proposing s.tasks :=
    fun e' he' => hPerm.symm.subset (List.mem_cons_of_mem _ he')
  have hGroupOf : start.groupOf e = s.plan.groupOf e := by
    rw [Plan.groupOf_congr hSound.groupIds]
  have hSub : ∀ g, List.Sublist (plan'.groupEndorsers g) (s.plan.groupEndorsers g) := by
    rw [hGroups]
    exact sublist_update List.erase_sublist
  have hCredit : ∀ (j : ℕ) (L L' : PlanLayout G E), s.plan.layouts[j]? = some (some L) →
      CreditedOrKept (s.plan.groupOf e) e L L' → ∀ L₀, Credited outcome start.groupOf L₀ L →
        Credited outcome start.groupOf L₀ L' := by
    rintro j L L' hL (rfl | ⟨quantity, hLookup, rfl⟩) L₀ hC
    · exact hC
    · exact hC.credit hLookup hGroupOf (hSound.proposingFresh e hEIn j L hL) ⟨payload, hOutcome⟩
  exact {
    groupIds := hIds.trans hSound.groupIds
    partitioned := hSound.partitioned.of_sublist hSub
    layouts := fun j L' hL' => by
      obtain ⟨L, hL, hStep⟩ := hLayouts j L' hL'
      obtain ⟨L₀, hL₀, hC⟩ := hSound.layouts j L hL
      exact ⟨L₀, hL₀, hCredit j L L' hL hStep L₀ hC⟩
    completed := fun L' hL' => by
      rcases hCompleted L' hL' with hOld | ⟨hReq, j, L, hL, hStep⟩
      · exact hSound.completed L' hOld
      · obtain ⟨L₀, hL₀, hC⟩ := hSound.layouts j L hL
        exact ⟨hReq, j, L₀, hL₀, hCredit j L L' hL hStep L₀ hC⟩
    proposingNodup := hRestNodup
    proposingTaken := fun e' he' g hIn =>
      hSound.proposingTaken e' (hRestIn e' he') g ((hSub g).subset hIn)
    proposingFresh := fun e' he' j L' hL' hMem => by
      obtain ⟨L, hL, hStep⟩ := hLayouts j L' hL'
      rcases mem_endorsements_of_creditedOrKept hStep hMem with hOld | rfl
      · exact hSound.proposingFresh e' (hRestIn e' he') j L hL hOld
      · exact hNotRest he'
    remainingFresh := fun g e' he' j L' hL' hMem => by
      obtain ⟨L, hL, hStep⟩ := hLayouts j L' hL'
      have hOldGroup := (hSub g).subset he'
      rcases mem_endorsements_of_creditedOrKept hStep hMem with hOld | rfl
      · exact hSound.remainingFresh g e' hOldGroup j L hL hOld
      · exact hSound.proposingTaken e' hEIn g hOldGroup }

omit [DecidableEq Pl] in
theorem Sound.retried {s : EndorseState G E Pl} (hSound : Sound outcome start s) {i : ℕ}
    {e next : E} {plan' : Plan G E Pl} (hTask : s.tasks[i]? = some (.retry e))
    (hNext : s.plan.nextPeerInGroup e = (some next, plan')) :
    Sound outcome start { s with plan := plan', tasks := s.tasks.set i (.propose next) } := by
  obtain ⟨rest, hGroup, rfl⟩ := nextPeerInGroup_some hNext
  have hPerm := proposing_set_propose_perm hTask next
  have hNextIn : next ∈ s.plan.groupEndorsers (s.plan.groupOf e) := by
    rw [hGroup]
    exact List.mem_cons_self
  have hSub : ∀ g, List.Sublist
      (Function.update s.plan.groupEndorsers (s.plan.groupOf e) rest g) (s.plan.groupEndorsers g) :=
    sublist_update (by rw [hGroup]; exact List.sublist_cons_self _ _)
  have hGone : ∀ g, next ∉ Function.update s.plan.groupEndorsers (s.plan.groupOf e) rest g := by
    intro g hIn
    by_cases hg : g = s.plan.groupOf e
    · rw [hg, Function.update_self] at hIn
      have hNodup := (hSound.partitioned (s.plan.groupOf e)).1
      rw [hGroup] at hNodup
      exact (List.nodup_cons.1 hNodup).1 hIn
    · rw [Function.update_of_ne hg] at hIn
      exact hg (((hSound.partitioned g).2 next hIn).symm.trans
        ((hSound.partitioned (s.plan.groupOf e)).2 next hNextIn))
  exact {
    groupIds := hSound.groupIds
    partitioned := hSound.partitioned.of_sublist hSub
    layouts := hSound.layouts
    completed := hSound.completed
    proposingNodup := hPerm.nodup_iff.2 (List.nodup_cons.2
      ⟨fun hIn => hSound.proposingTaken next hIn _ hNextIn, hSound.proposingNodup⟩)
    proposingTaken := fun e' he' g hIn => by
      rcases List.mem_cons.1 (hPerm.subset he') with rfl | hOld
      · exact hGone g hIn
      · exact hSound.proposingTaken e' hOld g ((hSub g).subset hIn)
    proposingFresh := fun e' he' j L hL => by
      rcases List.mem_cons.1 (hPerm.subset he') with rfl | hOld
      · exact hSound.remainingFresh _ e' hNextIn j L hL
      · exact hSound.proposingFresh e' hOld j L hL
    remainingFresh := fun g e' he' j L hL =>
      hSound.remainingFresh g e' ((hSub g).subset he') j L hL }

theorem Sound.step {s s' : EndorseState G E Pl} (hSound : Sound outcome start s)
    (hStep : Step outcome s s') : Sound outcome start s' := by
  cases hStep with
  | round _ _ _ hEndorsers => exact hSound.round hEndorsers
  | endorsed hTask hOutcome hProcess => exact hSound.endorsed hTask hOutcome hProcess
  | @mismatched _ e _ _ hTask _ hProcess =>
    have hPerm := proposing_perm_set_retry hTask e
    exact hSound.shrink _ (processEndorsement_false hProcess)
      (fun e he => hPerm.symm.subset (List.mem_cons_of_mem _ he))
      (List.nodup_cons.1 (hPerm.nodup_iff.1 hSound.proposingNodup)).2
  | @failed _ e hTask _ =>
    have hPerm := proposing_perm_set_retry hTask e
    exact hSound.shrink _ ⟨rfl, fun _ => List.Sublist.refl _, fun _ _ hL => hL, rfl⟩
      (fun e he => hPerm.symm.subset (List.mem_cons_of_mem _ he))
      (List.nodup_cons.1 (hPerm.nodup_iff.1 hSound.proposingNodup)).2
  | retried hTask hNext => exact hSound.retried hTask hNext
  | exhausted hTask hNext =>
    have hPerm := proposing_eraseIdx_perm hTask
    exact hSound.shrink _ (nextPeerInGroup_none hNext).2.1 (fun e he => hPerm.subset he)
      (hPerm.nodup_iff.2 hSound.proposingNodup)

theorem sound_of_reachable (hWF : WellFormedPlan start) {s : EndorseState G E Pl}
    (hReach : Reachable (Step outcome) (EndorseState.initial start) s) : Sound outcome start s :=
  Reachable.invariant (Sound outcome start) (sound_initial hWF)
    (fun _ _ hSound hStep => hSound.step hStep) hReach

/-- The completed layout holds what its layout required at the start: for each group, as many
endorsements as the group's quantity, from distinct endorsers of the group that succeeded,
none of them dropped by `uniqueEndorsements`. -/
theorem completedLayout_sound (hWF : WellFormedPlan start) {s : EndorseState G E Pl}
    (hReach : Reachable (Step outcome) (EndorseState.initial start) s) {L : PlanLayout G E}
    (hCompleted : s.plan.completedLayout = some L) :
    ∃ (j : ℕ) (L₀ : PlanLayout G E), start.layouts[j]? = some (some L₀) ∧
      uniqueEndorsements L.endorsements = L.endorsements ∧ L.endorsements.Nodup ∧
      (∀ g, collected start.groupOf L g = quota L₀ g) ∧
      ∀ e ∈ L.endorsements, ∃ payload, outcome e = .success payload := by
  obtain ⟨hEmpty, j, L₀, hL₀, hC⟩ := (sound_of_reachable hWF hReach).completed L hCompleted
  refine ⟨j, L₀, hL₀, uniqueEndorsements_of_nodup hC.nodup, hC.nodup, fun g => ?_, hC.succeeded⟩
  have hQuota : quota L g = 0 := by simp [quota, hEmpty]
  have hBalance := hC.balance g
  omega

theorem completedLayout_sound_ab :
    let start : Plan String String ℕ := newPlan [⟨[("A", 1), ("B", 1)], []⟩, ⟨[("C", 1)], []⟩]
      [("A", ["a"]), ("B", ["b"]), ("C", ["c"])]
    let outcome : String → Outcome ℕ := fun _ => .success 7
    ∃ s L, Reachable (Step outcome) (EndorseState.initial start) s ∧
      s.plan.completedLayout = some L ∧
      ∃ (j : ℕ) (L₀ : PlanLayout String String), start.layouts[j]? = some (some L₀) ∧
        uniqueEndorsements L.endorsements = L.endorsements ∧ L.endorsements.Nodup ∧
        (∀ g, collected start.groupOf L g = quota L₀ g) ∧
        ∀ e ∈ L.endorsements, ∃ payload, outcome e = .success payload := by
  intro start outcome
  let s₁ : EndorseState String String ℕ :=
    { plan := (start.endorsers.getD ([], start)).2, tasks := ["a", "b"].map Task.propose,
      stopped := ["a", "b"].isEmpty }
  let s₂ : EndorseState String String ℕ :=
    { plan := (s₁.plan.processEndorsement "a" 7).2, tasks := s₁.tasks.eraseIdx 0,
      stopped := s₁.stopped }
  let s₃ : EndorseState String String ℕ :=
    { plan := (s₂.plan.processEndorsement "b" 7).2, tasks := s₂.tasks.eraseIdx 0,
      stopped := s₂.stopped }
  have h₁ : Step outcome (EndorseState.initial start) s₁ :=
    .round rfl rfl rfl (eq_some_getD_of_map_fst _ (by decide))
  have hA : s₁.tasks[0]? = some (.propose "a") := rfl
  have h₂ : Step outcome s₁ s₂ := .endorsed hA rfl (Prod.ext (by decide) rfl)
  have hB : s₂.tasks[0]? = some (.propose "b") := rfl
  have h₃ : Step outcome s₂ s₃ := .endorsed hB rfl (Prod.ext (by decide) rfl)
  have hReach := (((Reachable.refl _ _).tail h₁).tail h₂).tail h₃
  have hCompleted : s₃.plan.completedLayout = some (s₃.plan.completedLayout.getD ⟨[], []⟩) :=
    Option.eq_some_of_isSome (by decide)
  exact ⟨s₃, _, hReach, hCompleted,
    completedLayout_sound (wellFormedPlan_newPlan (by decide) (by decide)) hReach hCompleted⟩

end Soundness

section Skipping

variable {G E Pl : Type} [DecidableEq G] [DecidableEq E] [DecidableEq Pl] [Inhabited G]

omit [DecidableEq E] [DecidableEq Pl] [Inhabited G] in
theorem endorsersLoop_keeps_below :
    ∀ (fuel : ℕ) {p p' : Plan G E Pl} {endorsers : List E},
      endorsersLoop fuel p = some (endorsers, p') →
      p.nextLayout ≤ p'.nextLayout ∧ ∀ j < p.nextLayout, p'.layouts[j]? = p.layouts[j]?
  | 0, _, _, _, h => by simp [endorsersLoop] at h
  | fuel + 1, p, p', endorsers, h => by
    have hNext : p.nextLayout ≤ firstLiveLayout p.layouts p.nextLayout := Nat.le_add_right _ _
    simp only [endorsersLoop] at h
    split at h
    case h_1 layout _ =>
      split at h
      case h_1 =>
        obtain ⟨hLe, hBelow⟩ := endorsersLoop_keeps_below fuel h
        refine ⟨by dsimp only at hLe; omega, fun j hj => ?_⟩
        rw [hBelow j (by dsimp only; omega)]
        exact List.getElem?_set_ne (by omega)
      case h_2 =>
        obtain ⟨hLe, hBelow⟩ := endorsersLoop_keeps_below fuel h
        exact ⟨by dsimp only at hLe; omega, fun j hj => hBelow j (by dsimp only; omega)⟩
      case h_3 =>
        obtain ⟨-, rfl⟩ := Prod.mk.inj (Option.some.inj h)
        exact ⟨hNext, fun _ _ => rfl⟩
    case h_2 =>
      obtain ⟨-, rfl⟩ := Prod.mk.inj (Option.some.inj h)
      exact ⟨hNext, fun _ _ => rfl⟩

theorem processEndorsement_keeps_below {p p' : Plan G E Pl} {e : E} {payload : Pl} {ok : Bool}
    (h : p.processEndorsement e payload = (ok, p')) :
    p'.nextLayout = p.nextLayout ∧ ∀ j < p.nextLayout, p'.layouts[j]? = p.layouts[j]? := by
  unfold Plan.processEndorsement at h
  dsimp only at h
  split_ifs at h
  · obtain rfl := (Prod.mk.inj h).2
    exact ⟨rfl, fun _ _ => rfl⟩
  · obtain ⟨hLen, -, -⟩ := creditLayouts_spec (p.groupOf e) e (p.layouts.drop p.nextLayout)
    rcases hCredit : creditLayouts (p.groupOf e) e (p.layouts.drop p.nextLayout) with
      ⟨credited, completed⟩
    rw [hCredit] at h hLen
    obtain rfl := (Prod.mk.inj h).2
    refine ⟨rfl, fun j hj => ?_⟩
    dsimp only
    rw [getElem?_take_append hLen, if_pos hj]

omit [DecidableEq Pl] in
theorem nextPeerInGroup_keeps_below {p p' : Plan G E Pl} {e : E} {next : Option E}
    (h : p.nextPeerInGroup e = (next, p')) :
    p.nextLayout ≤ p'.nextLayout ∧ ∀ j < p.nextLayout, p'.layouts[j]? = p.layouts[j]? := by
  cases next with
  | some next =>
    obtain ⟨rest, -, rfl⟩ := nextPeerInGroup_some h
    exact ⟨Nat.le_refl _, fun _ _ => rfl⟩
  | none =>
    unfold Plan.nextPeerInGroup at h
    dsimp only at h
    split at h
    case h_1 => cases (Prod.mk.inj h).1
    case h_2 =>
      obtain rfl := (Prod.mk.inj h).2
      refine ⟨Nat.le_succ _, fun j hj => ?_⟩
      dsimp only
      rw [getElem?_take_append (List.length_map _), if_pos hj]

theorem Step.keeps_below {outcome : E → Outcome Pl} {s s' : EndorseState G E Pl}
    (hStep : Step outcome s s') :
    s.plan.nextLayout ≤ s'.plan.nextLayout ∧
      ∀ j < s.plan.nextLayout, s'.plan.layouts[j]? = s.plan.layouts[j]? := by
  cases hStep with
  | round _ _ _ hEndorsers => exact endorsersLoop_keeps_below _ hEndorsers
  | endorsed _ _ hProcess =>
    obtain ⟨hEq, hBelow⟩ := processEndorsement_keeps_below hProcess
    exact ⟨Nat.le_of_eq hEq.symm, hBelow⟩
  | mismatched _ _ hProcess =>
    obtain ⟨hEq, hBelow⟩ := processEndorsement_keeps_below hProcess
    exact ⟨Nat.le_of_eq hEq.symm, hBelow⟩
  | failed => exact ⟨Nat.le_refl _, fun _ _ => rfl⟩
  | retried _ hNext => exact nextPeerInGroup_keeps_below hNext
  | exhausted _ hNext => exact nextPeerInGroup_keeps_below hNext

omit [DecidableEq Pl] in
theorem nextPeerInGroup_of_empty {p : Plan G E Pl} {e : E}
    (hEmpty : p.groupEndorsers (p.groupOf e) = []) : ∃ p', p.nextPeerInGroup e = (none, p') := by
  unfold Plan.nextPeerInGroup
  dsimp only
  rw [hEmpty]
  exact ⟨_, rfl⟩

theorem exhausted_step (outcome : E → Outcome Pl) {s : EndorseState G E Pl} {i : ℕ} {e : E}
    (hTask : s.tasks[i]? = some (.retry e)) (hEmpty : s.plan.groupEndorsers (s.plan.groupOf e) = []) :
    ∃ s', Step outcome s s' ∧ s'.tasks = s.tasks.eraseIdx i ∧ Shrinks s.plan s'.plan ∧
      s'.plan.nextLayout = s.plan.nextLayout + 1 ∧
      ∀ (j : ℕ) (L : PlanLayout G E), s.plan.layouts[j]? = some (some L) →
        L.required.lookup (s.plan.groupOf e) = none → s'.plan.layouts[j]? = some (some L) := by
  obtain ⟨p', hNext⟩ := nextPeerInGroup_of_empty hEmpty
  obtain ⟨-, hShrinks, hLayout, hKept⟩ := nextPeerInGroup_none hNext
  exact ⟨_, .exhausted hTask hNext, rfl, hShrinks, hLayout, hKept⟩

omit [DecidableEq G] [DecidableEq Pl] in
theorem groupEndorsers_eq_nil_of_shrinks {p p' : Plan G E Pl} (hShrinks : Shrinks p p') {e : E}
    (hEmpty : p.groupEndorsers (p.groupOf e) = []) : p'.groupEndorsers (p'.groupOf e) = [] := by
  rw [Plan.groupOf_congr hShrinks.groupIds]
  exact List.eq_nil_of_sublist_nil (hEmpty ▸ hShrinks.groupEndorsers _)

theorem exhausted_twice (outcome : E → Outcome Pl) {s : EndorseState G E Pl} {i k : ℕ} {a b : E}
    (hki : k < i) (hA : s.tasks[i]? = some (.retry a)) (hB : s.tasks[k]? = some (.retry b))
    (hEmptyA : s.plan.groupEndorsers (s.plan.groupOf a) = [])
    (hEmptyB : s.plan.groupEndorsers (s.plan.groupOf b) = [])
    {L : PlanLayout G E} (hLive : s.plan.layouts[s.plan.nextLayout + 1]? = some (some L))
    (hUnusedA : L.required.lookup (s.plan.groupOf a) = none)
    (hUnusedB : L.required.lookup (s.plan.groupOf b) = none) :
    ∃ s', Reachable (Step outcome) s s' ∧ s'.plan.nextLayout = s.plan.nextLayout + 2 ∧
      s'.plan.layouts[s.plan.nextLayout + 1]? = some (some L) := by
  obtain ⟨s₁, hStep₁, hTasks₁, hShrinks₁, hNext₁, hKept₁⟩ := exhausted_step outcome hA hEmptyA
  have hB₁ : s₁.tasks[k]? = some (.retry b) := by
    rw [hTasks₁, List.getElem?_eraseIdx_of_lt hki]
    exact hB
  have hGroupOf := Plan.groupOf_congr (p := s₁.plan) hShrinks₁.groupIds
  obtain ⟨s₂, hStep₂, -, -, hNext₂, hKept₂⟩ :=
    exhausted_step outcome hB₁ (groupEndorsers_eq_nil_of_shrinks hShrinks₁ hEmptyB)
  refine ⟨s₂, (Reachable.refl _ s).tail hStep₁ |>.tail hStep₂, by omega, ?_⟩
  exact hKept₂ _ L (hKept₁ _ L hLive hUnusedA) (by rw [hGroupOf]; exact hUnusedB)

/-- Two goroutines of one round that find their groups empty move `nextLayout` on twice, whatever
layout each was filling. The layout after the current one, if it uses neither group, is left
behind for good: on every run from there, it is never credited nor handed out again, and
`nextLayout` stays past it. -/
theorem endorse_skips_layout_after_two_exhausted_groups (outcome : E → Outcome Pl)
    {s : EndorseState G E Pl} {i k : ℕ} {a b : E} (hik : i ≠ k)
    (hA : s.tasks[i]? = some (.retry a)) (hB : s.tasks[k]? = some (.retry b))
    (hEmptyA : s.plan.groupEndorsers (s.plan.groupOf a) = [])
    (hEmptyB : s.plan.groupEndorsers (s.plan.groupOf b) = [])
    {L : PlanLayout G E} (hLive : s.plan.layouts[s.plan.nextLayout + 1]? = some (some L))
    (hUnusedA : L.required.lookup (s.plan.groupOf a) = none)
    (hUnusedB : L.required.lookup (s.plan.groupOf b) = none) :
    ∃ s', Reachable (Step outcome) s s' ∧ s'.plan.nextLayout = s.plan.nextLayout + 2 ∧
      ∀ s'', Reachable (Step outcome) s' s'' →
        s''.plan.layouts[s.plan.nextLayout + 1]? = some (some L) ∧
        s.plan.nextLayout + 2 ≤ s''.plan.nextLayout := by
  obtain ⟨s', hReach, hNext, hKept⟩ : ∃ s', Reachable (Step outcome) s s' ∧
      s'.plan.nextLayout = s.plan.nextLayout + 2 ∧
      s'.plan.layouts[s.plan.nextLayout + 1]? = some (some L) := by
    rcases Nat.lt_or_gt_of_ne hik with hLt | hGt
    · exact exhausted_twice outcome hLt hB hA hEmptyB hEmptyA hLive hUnusedB hUnusedA
    · exact exhausted_twice outcome hGt hA hB hEmptyA hEmptyB hLive hUnusedA hUnusedB
  refine ⟨s', hReach, hNext, fun s'' hReach' => ?_⟩
  refine Reachable.invariant (fun t : EndorseState G E Pl =>
      t.plan.layouts[s.plan.nextLayout + 1]? = some (some L) ∧
        s.plan.nextLayout + 2 ≤ t.plan.nextLayout)
    ⟨hKept, Nat.le_of_eq hNext.symm⟩ (fun t t' hInv hStep => ?_) hReach'
  obtain ⟨hLe, hBelow⟩ := hStep.keeps_below
  exact ⟨(hBelow _ (by omega)).trans hInv.1, Nat.le_trans hInv.2 hLe⟩

end Skipping

def examplePlan : Plan String String ℕ :=
  newPlan [⟨[("A", 1), ("B", 1)], []⟩, ⟨[("C", 1)], []⟩] [("A", ["a"]), ("B", ["b"]), ("C", ["c"])]

def exampleOutcome (endorser : String) : Outcome ℕ :=
  if endorser = "c" then .success 7 else .failure

theorem endorse_skips_layout_of_c :
    exampleOutcome "c" = .success 7 ∧
    ∃ s, Reachable (Step exampleOutcome) (EndorseState.initial examplePlan) s ∧
      s.tasks = [.retry "a", .retry "b"] ∧
      (∃ s', Reachable (Step exampleOutcome) s s' ∧ s'.plan.nextLayout = s.plan.nextLayout + 2 ∧
        ∀ s'', Reachable (Step exampleOutcome) s' s'' →
          s''.plan.layouts[s.plan.nextLayout + 1]? = some (some ⟨[("C", 1)], []⟩) ∧
          s.plan.nextLayout + 2 ≤ s''.plan.nextLayout) ∧
      ∃ s', Reachable (Step exampleOutcome) s s' ∧ s'.Ended ∧ s'.result = .error ["a", "b"] := by
  let p₁ := (examplePlan.endorsers.getD ([], examplePlan)).2
  let s₁ : EndorseState String String ℕ :=
    { plan := p₁, tasks := ["a", "b"].map Task.propose, stopped := ["a", "b"].isEmpty }
  let s₂ : EndorseState String String ℕ :=
    { plan := s₁.plan.addError "a", tasks := s₁.tasks.set 0 (.retry "a"), stopped := s₁.stopped }
  let s₃ : EndorseState String String ℕ :=
    { plan := s₂.plan.addError "b", tasks := s₂.tasks.set 1 (.retry "b"), stopped := s₂.stopped }
  have h₁ : Step exampleOutcome (EndorseState.initial examplePlan) s₁ :=
    .round rfl rfl rfl (eq_some_getD_of_map_fst _ (by decide))
  have h₂ : Step exampleOutcome s₁ s₂ := .failed (by decide) (by decide)
  have h₃ : Step exampleOutcome s₂ s₃ := .failed (by decide) (by decide)
  let s₄ : EndorseState String String ℕ :=
    { plan := (s₃.plan.nextPeerInGroup "a").2, tasks := s₃.tasks.eraseIdx 0, stopped := s₃.stopped }
  let s₅ : EndorseState String String ℕ :=
    { plan := (s₄.plan.nextPeerInGroup "b").2, tasks := s₄.tasks.eraseIdx 0, stopped := s₄.stopped }
  let s₆ : EndorseState String String ℕ :=
    { plan := (s₅.plan.endorsers.getD ([], s₅.plan)).2, tasks := ([] : List String).map Task.propose,
      stopped := ([] : List String).isEmpty }
  have h₄ : Step exampleOutcome s₃ s₄ := .exhausted (by decide) (Prod.ext (by decide) rfl)
  have h₅ : Step exampleOutcome s₄ s₅ := .exhausted (by decide) (Prod.ext (by decide) rfl)
  have h₆ : Step exampleOutcome s₅ s₆ :=
    .round rfl rfl rfl (eq_some_getD_of_map_fst _ (by decide))
  refine ⟨by decide, s₃, (((Reachable.refl _ _).tail h₁).tail h₂).tail h₃, rfl, ?_,
    s₆, (((Reachable.refl _ _).tail h₄).tail h₅).tail h₆, ⟨rfl, .inr rfl⟩, by decide⟩
  have hA : s₃.tasks[0]? = some (.retry "a") := rfl
  have hB : s₃.tasks[1]? = some (.retry "b") := rfl
  exact endorse_skips_layout_after_two_exhausted_groups exampleOutcome (by decide) hA hB
    (by decide) (by decide) (by decide) (by decide) (by decide)

end FabricPeer.Gateway
