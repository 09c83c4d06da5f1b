import FabricPeer.Lib.Threshold

/-! # Signature policies

`common/cauthdsl`. `compile` turns the rule of a `SignaturePolicyEnvelope` into an evaluator:
each `SignedBy` names one of the envelope's principals, each `NOutOf` asks for `N` of its
rules. The Go evaluator is a tree of closures; here it is the threshold formula of the
resolved principals, and `evaluate` is the closures' code. Evaluation is greedy: a `SignedBy`
takes the first identity not used yet that satisfies its principal, and a gate runs its rules
in order on a copy of the used flags, keeping the copy of each rule that succeeds. The MSP's
`SatisfiesPrincipal` is a parameter.

Acceptance is sound: the identities that were taken meet the rule as a threshold formula, each
identity given to one leaf (`evaluateIdentities_sound`). It is not complete: an identity that
satisfies two principals can be taken by the wrong leaf, so acceptance depends on the order of
the identities, and a new identity can make a rule succeed that takes what later rules needed.
-/

namespace FabricPeer.Policies

open Threshold

set_option autoImplicit false

structure MSPPrincipal where
  principalClassification : Nat
  principal : List UInt8
  deriving DecidableEq, Repr

inductive SignaturePolicy where
  | signedBy (signedBy : Int)
  | nOutOf (n : Int) (rules : List SignaturePolicy)
  deriving Repr

structure SignaturePolicyEnvelope where
  version : Int
  rule : SignaturePolicy
  identities : List MSPPrincipal

def identityIndexOutOfRange (signedBy : Int) (identitiesLength : Nat) : String :=
  "identity index out of range, requested " ++ toString signedBy ++
    ", but identities length is " ++ toString identitiesLength

mutual

def compile (identities : List MSPPrincipal) : SignaturePolicy → Except String (Formula MSPPrincipal)
  | .nOutOf n rules => do
    let policies ← compileRules identities rules
    pure (.gate n policies)
  | .signedBy signedBy =>
    if h : 0 ≤ signedBy ∧ signedBy < identities.length then
      pure (.leaf (identities.get ⟨signedBy.toNat, by omega⟩))
    else .error (identityIndexOutOfRange signedBy identities.length)

def compileRules (identities : List MSPPrincipal) :
    List SignaturePolicy → Except String (List (Formula MSPPrincipal))
  | [] => pure []
  | rule :: rules => do
    let compiledPolicy ← compile identities rule
    let policies ← compileRules identities rules
    pure (compiledPolicy :: policies)

end

section Evaluation

variable {ι : Type} (satisfiesPrincipal : ι → MSPPrincipal → Bool)

def firstUnused (signedByID : MSPPrincipal) : List ι → List Bool → Nat → Option Nat
  | sd :: signedData, isUsed :: used, i =>
    if !isUsed && satisfiesPrincipal sd signedByID then some i
    else firstUnused signedByID signedData used (i + 1)
  | _, _, _ => none

variable (signedData : List ι)

mutual

def evaluate : Formula MSPPrincipal → List Bool → Bool × List Bool
  | .leaf signedByID, used =>
    match firstUnused satisfiesPrincipal signedByID signedData used 0 with
    | some i => (true, used.set i true)
    | none => (false, used)
  | .gate n policies, used =>
    let (verified, used) := evaluateRules policies 0 used
    (decide (n ≤ verified), used)

def evaluateRules : List (Formula MSPPrincipal) → Int → List Bool → Int × List Bool
  | [], verified, used => (verified, used)
  | policy :: policies, verified, used =>
    match evaluate policy used with
    | (true, used') => evaluateRules policies (verified + 1) used'
    | (false, _) => evaluateRules policies verified used

end

/-- A `policy` as `NewPolicy` builds it: its envelope and the evaluator compiled from it. -/
structure CauthdslPolicy where
  signaturePolicyEnvelope : SignaturePolicyEnvelope
  evaluator : Formula MSPPrincipal
  compiled : compile signaturePolicyEnvelope.identities signaturePolicyEnvelope.rule = .ok evaluator

def newPolicy (sigPolicy : SignaturePolicyEnvelope) : Except String CauthdslPolicy :=
  match h : compile sigPolicy.identities sigPolicy.rule with
  | .ok evaluator => .ok ⟨sigPolicy, evaluator, h⟩
  | .error err => .error err

/-- `policy.EvaluateIdentities`, with no identity used at first. -/
def evaluateIdentities (evaluator : Formula MSPPrincipal) (identities : List ι) :
    Except String Unit :=
  if (evaluate satisfiesPrincipal identities evaluator (List.replicate identities.length false)).1
  then .ok ()
  else .error "signature set did not satisfy policy"

end Evaluation

/-! ## Acceptance is sound -/

section Soundness

variable {ι : Type} (satisfiesPrincipal : ι → MSPPrincipal → Bool) (signedData : List ι)

/-- Identity `i` of `signedData` satisfies the principal. -/
def SatisfiedAt (i : Nat) (principal : MSPPrincipal) : Prop :=
  ∃ sd, signedData[i]? = some sd ∧ satisfiesPrincipal sd principal = true

def Marks (used used' : List Bool) (T : Finset Nat) : Prop :=
  used'.length = used.length ∧ (∀ i ∈ T, used[i]? = some false) ∧
    ∀ i, used'[i]? = if i ∈ T then some true else used[i]?

theorem marks_refl (used : List Bool) : Marks used used ∅ := by
  refine ⟨rfl, by simp, ?_⟩
  intro i
  simp

theorem marks_set {used : List Bool} {i : Nat} (h : used[i]? = some false) :
    Marks used (used.set i true) {i} := by
  refine ⟨List.length_set, by simpa using h, ?_⟩
  intro j
  rw [List.getElem?_set]
  by_cases hj : i = j
  · subst hj
    have hLt : i < used.length := (List.getElem?_eq_some_iff.1 h).1
    simp [hLt]
  · simp [hj, Ne.symm hj]

theorem Marks.trans {used₁ used₂ used₃ : List Bool} {T₁ T₂ : Finset Nat}
    (h₁ : Marks used₁ used₂ T₁) (h₂ : Marks used₂ used₃ T₂) :
    Marks used₁ used₃ (T₁ ∪ T₂) ∧ Disjoint T₁ T₂ := by
  obtain ⟨hLen₁, hFree₁, hAt₁⟩ := h₁
  obtain ⟨hLen₂, hFree₂, hAt₂⟩ := h₂
  have hDisjoint : Disjoint T₁ T₂ := by
    rw [Finset.disjoint_left]
    intro i hi₁ hi₂
    have := hFree₂ i hi₂
    rw [hAt₁, if_pos hi₁] at this
    cases this
  refine ⟨⟨hLen₂.trans hLen₁, ?_, ?_⟩, hDisjoint⟩
  · intro i hi
    rcases Finset.mem_union.1 hi with hi | hi
    · exact hFree₁ i hi
    · have := hFree₂ i hi
      rwa [hAt₁, if_neg (Finset.disjoint_right.1 hDisjoint hi)] at this
  · intro i
    rw [hAt₂, hAt₁]
    by_cases hi₂ : i ∈ T₂ <;> by_cases hi₁ : i ∈ T₁ <;> simp [hi₁, hi₂]

theorem firstUnused_spec {signedByID : MSPPrincipal} :
    ∀ {signedData : List ι} {used : List Bool} {start i : Nat},
      firstUnused satisfiesPrincipal signedByID signedData used start = some i →
      start ≤ i ∧ used[i - start]? = some false ∧
        SatisfiedAt satisfiesPrincipal signedData (i - start) signedByID
  | [], _, _, _, h => by simp [firstUnused] at h
  | _ :: _, [], _, _, h => by simp [firstUnused] at h
  | sd :: signedData, isUsed :: used, start, i, h => by
    rw [firstUnused] at h
    split at h
    case isTrue hFree =>
      cases h
      simp only [Bool.and_eq_true, Bool.not_eq_eq_eq_not, Bool.not_true] at hFree
      refine ⟨Nat.le_refl _, by simp [hFree.1], sd, by simp, hFree.2⟩
    case isFalse =>
      obtain ⟨hLe, hFree, sd', hSd, hSat⟩ := firstUnused_spec h
      have hIdx : i - start = (i - (start + 1)) + 1 := by omega
      refine ⟨by omega, ?_, sd', ?_, hSat⟩
      · rw [hIdx, List.getElem?_cons_succ]
        exact hFree
      · rw [hIdx, List.getElem?_cons_succ]
        exact hSd

mutual

theorem evaluate_sound :
    ∀ (evaluator : Formula MSPPrincipal) (used used' : List Bool),
      evaluate satisfiesPrincipal signedData evaluator used = (true, used') →
      ∃ T, Marks used used' T ∧ Covers (SatisfiedAt satisfiesPrincipal signedData) evaluator T
  | .leaf signedByID, used, used', h => by
    rw [evaluate] at h
    split at h
    case h_1 i hFirst =>
      obtain ⟨-, hFree, hSat⟩ := firstUnused_spec satisfiesPrincipal hFirst
      simp only [Nat.sub_zero] at hFree hSat
      simp only [Prod.mk.injEq, true_and] at h
      subst h
      exact ⟨{i}, marks_set hFree, .leaf (Finset.mem_singleton_self i) hSat⟩
    case h_2 => simp at h
  | .gate n policies, used, used', h => by
    rw [evaluate] at h
    obtain ⟨chosen, hChildren, hCount, hDisjoint, hCovers, hMarks⟩ :=
      evaluateRules_sound policies 0 used _ _ rfl
    simp only [Prod.mk.injEq, decide_eq_true_eq] at h
    obtain ⟨hEnough, rfl⟩ := h
    refine ⟨_, hMarks, covers_gate_unionAll chosen hChildren ?_ hDisjoint hCovers⟩
    omega

theorem evaluateRules_sound :
    ∀ (policies : List (Formula MSPPrincipal)) (verified : Int) (used : List Bool)
      (verified' : Int) (used' : List Bool),
      evaluateRules satisfiesPrincipal signedData policies verified used = (verified', used') →
      ∃ chosen : List (Formula MSPPrincipal × Finset Nat),
        (chosen.map Prod.fst).Sublist policies ∧ verified' = verified + chosen.length ∧
        chosen.Pairwise (fun p q => Disjoint p.2 q.2) ∧
        (∀ p ∈ chosen, Covers (SatisfiedAt satisfiesPrincipal signedData) p.1 p.2) ∧
        Marks used used' (unionAll (chosen.map Prod.snd))
  | [], verified, used, verified', used', h => by
    rw [evaluateRules] at h
    simp only [Prod.mk.injEq] at h
    obtain ⟨rfl, rfl⟩ := h
    exact ⟨[], List.Sublist.slnil, by simp, List.Pairwise.nil, by simp, marks_refl used⟩
  | policy :: policies, verified, used, verified', used', h => by
    rw [evaluateRules] at h
    split at h
    case h_1 used₁ hPolicy =>
      obtain ⟨T, hMarks₁, hCovers₁⟩ := evaluate_sound policy used used₁ hPolicy
      obtain ⟨chosen, hChildren, hCount, hDisjoint, hCovers, hMarks⟩ :=
        evaluateRules_sound policies (verified + 1) used₁ verified' used' h
      obtain ⟨hMarksAll, hApart⟩ := hMarks₁.trans hMarks
      refine ⟨(policy, T) :: chosen, ?_, ?_, ?_, ?_, hMarksAll⟩
      · exact hChildren.cons_cons policy
      · simp only [hCount, List.length_cons]
        omega
      · refine List.pairwise_cons.2 ⟨?_, hDisjoint⟩
        intro q hq
        exact hApart.mono_right (subset_unionAll (List.mem_map_of_mem hq))
      · intro p hp
        rcases List.mem_cons.1 hp with rfl | hp
        · exact hCovers₁
        · exact hCovers p hp
    case h_2 =>
      obtain ⟨chosen, hChildren, hCount, hDisjoint, hCovers, hMarks⟩ :=
        evaluateRules_sound policies verified used verified' used' h
      exact ⟨chosen, hChildren.cons policy, hCount, hDisjoint, hCovers, hMarks⟩

end

theorem evaluateIdentities_sound {evaluator : Formula MSPPrincipal} {identities : List ι}
    (h : evaluateIdentities satisfiesPrincipal evaluator identities = .ok ()) :
    Covers (SatisfiedAt satisfiesPrincipal identities) evaluator (Finset.range identities.length) := by
  unfold evaluateIdentities at h
  split at h
  case isTrue hAccept =>
    obtain ⟨T, ⟨-, hFree, -⟩, hCovers⟩ := evaluate_sound satisfiesPrincipal identities evaluator _ _
      (Prod.ext hAccept rfl)
    apply hCovers.mono
    intro i hi
    have hLt := (List.getElem?_eq_some_iff.1 (hFree i hi)).1
    simpa using hLt
  case isFalse => cases h

end Soundness

/-! ## Acceptance is not complete -/

section Greedy

variable {ι : Type} (satisfiesPrincipal : ι → MSPPrincipal → Bool)

/-- `AND(member, admin)`, for an admin who also satisfies the member principal: the admin and a
member meet the rule in either order, and the evaluator accepts them in one order only, since
the member's `SignedBy` takes the admin when the admin comes first. -/
theorem evaluateIdentities_depends_on_identity_order (admin member : ι)
    (adminPrincipal memberPrincipal : MSPPrincipal)
    (hAdmin : satisfiesPrincipal admin adminPrincipal = true)
    (hAdminMember : satisfiesPrincipal admin memberPrincipal = true)
    (hMember : satisfiesPrincipal member memberPrincipal = true)
    (hMemberNotAdmin : satisfiesPrincipal member adminPrincipal = false) :
    compile [memberPrincipal, adminPrincipal] (.nOutOf 2 [.signedBy 0, .signedBy 1]) =
        .ok (.gate 2 [.leaf memberPrincipal, .leaf adminPrincipal]) ∧
      Covers (SatisfiedAt satisfiesPrincipal [admin, member])
        (.gate 2 [.leaf memberPrincipal, .leaf adminPrincipal]) (Finset.range 2) ∧
      evaluateIdentities satisfiesPrincipal (.gate 2 [.leaf memberPrincipal, .leaf adminPrincipal])
        [admin, member] = .error "signature set did not satisfy policy" ∧
      evaluateIdentities satisfiesPrincipal (.gate 2 [.leaf memberPrincipal, .leaf adminPrincipal])
        [member, admin] = .ok () := by
  refine ⟨rfl, ?covers, ?rejected, ?accepted⟩
  case covers =>
    refine .gate [(.leaf memberPrincipal, {1}), (.leaf adminPrincipal, {0})] (List.Sublist.refl _)
      (by simp) (by simp) (by simp) ?_
    intro p hp
    rcases List.mem_pair.1 hp with rfl | rfl
    · exact .leaf (Finset.mem_singleton_self 1) ⟨member, rfl, hMember⟩
    · exact .leaf (Finset.mem_singleton_self 0) ⟨admin, rfl, hAdmin⟩
  case rejected =>
    simp [evaluateIdentities, evaluate, evaluateRules, firstUnused, hAdminMember, hMemberNotAdmin]
  case accepted =>
    simp [evaluateIdentities, evaluate, evaluateRules, firstUnused, hAdmin, hMember]

theorem evaluateIdentities_rejects_admin_before_member :
    compile [⟨0, [0]⟩, ⟨0, [1]⟩] (.nOutOf 2 [.signedBy 0, .signedBy 1]) =
        .ok (.gate 2 [.leaf ⟨0, [0]⟩, .leaf ⟨0, [1]⟩]) ∧
      Covers (SatisfiedAt (fun isAdmin p => p == ⟨0, [0]⟩ || (isAdmin && p == ⟨0, [1]⟩))
        [true, false]) (.gate 2 [.leaf ⟨0, [0]⟩, .leaf ⟨0, [1]⟩]) (Finset.range 2) ∧
      evaluateIdentities (fun isAdmin p => p == ⟨0, [0]⟩ || (isAdmin && p == ⟨0, [1]⟩))
        (.gate 2 [.leaf ⟨0, [0]⟩, .leaf ⟨0, [1]⟩]) [true, false] =
          .error "signature set did not satisfy policy" ∧
      evaluateIdentities (fun isAdmin p => p == ⟨0, [0]⟩ || (isAdmin && p == ⟨0, [1]⟩))
        (.gate 2 [.leaf ⟨0, [0]⟩, .leaf ⟨0, [1]⟩]) [false, true] = .ok () :=
  evaluateIdentities_depends_on_identity_order
    (fun (isAdmin : Bool) (p : MSPPrincipal) => p == ⟨0, [0]⟩ || (isAdmin && p == ⟨0, [1]⟩))
    true false ⟨0, [1]⟩ ⟨0, [0]⟩ (by decide) (by decide) (by decide) (by decide)

end Greedy

end FabricPeer.Policies
