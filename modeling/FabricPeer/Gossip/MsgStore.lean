import Mathlib.Data.List.Basic
import FabricPeer.Lib.Transition

/-! # The gossip message store

`gossip/gossip/msgstore/msgs.go`. A store keeps messages with the time they were added and an
expired flag. `Add` walks the stored messages: it gives up at the first one that invalidates the
new message, drops those the new message invalidates, and appends it. `Purge` drops the messages
a predicate accepts. `expireMessages` flags the messages older than the TTL and drops the
flagged ones older than twice the TTL, counting the flagged messages in `expiredCount`, which
`Size` subtracts from the number of messages.

Only `expireMessages` moves the counter, while `Add` and `Purge` also drop flagged messages: a
purge of an expired message leaves the counter above the number of flagged messages, and
`Size` below `len(Get())`, down to negative sizes. The rest of the bookkeeping holds: for a
consistent and transitive policy no two stored messages are related, and `Add` either rejects
the message and leaves the store as it was or replaces exactly the messages it invalidates.
Time is a number of clock ticks, and the clock may move by any amount between steps.
-/

namespace FabricPeer.Gossip

open Transition

set_option autoImplicit false

inductive InvalidationResult where
  | messageNoAction
  | messageInvalidates
  | messageInvalidated
  deriving DecidableEq, Repr

structure Msg (α : Type) where
  data : α
  created : Nat
  expired : Bool
  deriving Repr

structure MessageStore (α : Type) where
  messages : List (Msg α)
  expiredCount : Int
  deriving Repr

variable {α : Type} (pol : α → α → InvalidationResult)

def newMsgStore : MessageStore α := ⟨[], 0⟩

def addLoop (message : α) : List (Msg α) → List (Msg α) × List α × Bool
  | [] => ([], [], true)
  | m :: ms =>
    match pol message m.data with
    | .messageInvalidated => (m :: ms, [], false)
    | .messageInvalidates =>
      let (kept, invalidated, added) := addLoop message ms
      (kept, m.data :: invalidated, added)
    | .messageNoAction =>
      let (kept, invalidated, added) := addLoop message ms
      (m :: kept, invalidated, added)

/-- `Add` at time `now`: the store after it, the messages passed to the invalidation trigger,
and whether the message was added. -/
def add (message : α) (now : Nat) (s : MessageStore α) : MessageStore α × List α × Bool :=
  let (kept, invalidated, added) := addLoop pol message s.messages
  if added then ({ s with messages := kept ++ [⟨message, now, false⟩] }, invalidated, true)
  else ({ s with messages := kept }, invalidated, false)

def purgeLoop (shouldBePurged : α → Bool) : List (Msg α) → List (Msg α) × List α
  | [] => ([], [])
  | m :: ms =>
    let (kept, purged) := purgeLoop shouldBePurged ms
    if shouldBePurged m.data then (kept, m.data :: purged) else (m :: kept, purged)

def purge (shouldBePurged : α → Bool) (s : MessageStore α) : MessageStore α × List α :=
  let (kept, purged) := purgeLoop shouldBePurged s.messages
  ({ s with messages := kept }, purged)

def expireLoop (now msgTTL : Nat) : List (Msg α) → List (Msg α) × Int × List α
  | [] => ([], 0, [])
  | m :: ms =>
    let (kept, counted, expired) := expireLoop now msgTTL ms
    if !m.expired then
      if msgTTL < now - m.created then ({ m with expired := true } :: kept, counted + 1, m.data :: expired)
      else (m :: kept, counted, expired)
    else if msgTTL * 2 < now - m.created then (kept, counted - 1, expired)
    else (m :: kept, counted, expired)

def expireMessages (now msgTTL : Nat) (s : MessageStore α) : MessageStore α × List α :=
  let (kept, counted, expired) := expireLoop now msgTTL s.messages
  (⟨kept, s.expiredCount + counted⟩, expired)

def MessageStore.size (s : MessageStore α) : Int := s.messages.length - s.expiredCount

def MessageStore.get (s : MessageStore α) : List α :=
  (s.messages.filter fun m => !m.expired).map (·.data)

/-- One call on the store: `Add`, `Purge`, or a run of the expiration routine, each at any
time. -/
inductive Step (msgTTL : Nat) : MessageStore α → MessageStore α → Prop where
  | add (s : MessageStore α) (message : α) (now : Nat) : Step msgTTL s (add pol message now s).1
  | purge (s : MessageStore α) (shouldBePurged : α → Bool) :
      Step msgTTL s (purge shouldBePurged s).1
  | expire (s : MessageStore α) (now : Nat) : Step msgTTL s (expireMessages now msgTTL s).1

/-! ## The counter of expired messages -/

def CountsExpired (s : MessageStore α) : Prop :=
  s.expiredCount = (s.messages.filter (·.expired)).length

theorem countsExpired_expireLoop (now msgTTL : Nat) (ms : List (Msg α)) :
    (((expireLoop now msgTTL ms).1.filter (·.expired)).length : Int) =
      (ms.filter (·.expired)).length + (expireLoop now msgTTL ms).2.1 := by
  induction ms with
  | nil => simp [expireLoop]
  | cons m ms ih =>
    rcases hLoop : expireLoop now msgTTL ms with ⟨kept, counted, expired⟩
    rw [hLoop] at ih
    cases hExpired : m.expired
    case false =>
      by_cases hOld : msgTTL < now - m.created
      · simp only [expireLoop, hExpired, Bool.not_false, ↓reduceIte, hOld, hLoop,
          List.filter_cons_of_pos, List.length_cons, Int.natCast_add, ih, Int.cast_ofNat_Int,
          Bool.false_eq_true, not_false_eq_true, List.filter_cons_of_neg]
        omega
      · simp only [expireLoop, hExpired, Bool.not_false, ↓reduceIte, hOld, hLoop,
          Bool.false_eq_true, not_false_eq_true, List.filter_cons_of_neg, ih]
    case true =>
      by_cases hGone : msgTTL * 2 < now - m.created
      · simp only [expireLoop, hExpired, Bool.not_true, Bool.false_eq_true, ↓reduceIte, hGone,
          hLoop, ih, List.filter_cons_of_pos, List.length_cons, Int.natCast_add, Int.cast_ofNat_Int]
        omega
      · simp only [expireLoop, hExpired, Bool.not_true, Bool.false_eq_true, ↓reduceIte, hGone,
          hLoop, List.filter_cons_of_pos, List.length_cons, Int.natCast_add, ih, Int.cast_ofNat_Int]
        omega

theorem CountsExpired.expireMessages {s : MessageStore α} (h : CountsExpired s) (now msgTTL : Nat) :
    CountsExpired (expireMessages now msgTTL s).1 := by
  unfold CountsExpired at h ⊢
  simp only [Gossip.expireMessages, h]
  rw [countsExpired_expireLoop]

/-- Purging an expired message leaves the counter one too high, and the size one below the
number of messages `Get` returns: from the empty store, a message added, expired and purged
leaves a store of size `-1`. -/
theorem purge_of_expired_message_leaves_negative_size (msgTTL : Nat) (message : α)
    (t₀ t₁ : Nat) (shouldBePurged : α → Bool) (hPurged : shouldBePurged message = true)
    (hExpired : msgTTL < t₁ - t₀) :
    Reachable (Step pol msgTTL) newMsgStore
        (purge shouldBePurged (expireMessages t₁ msgTTL (add pol message t₀ newMsgStore).1).1).1 ∧
      (purge shouldBePurged
        (expireMessages t₁ msgTTL (add pol message t₀ newMsgStore).1).1).1.size = -1 ∧
      (purge shouldBePurged
        (expireMessages t₁ msgTTL (add pol message t₀ newMsgStore).1).1).1.get = [] := by
  have hReach := ((((Reachable.refl (Step pol msgTTL) newMsgStore).tail (.add _ message t₀)).tail
    (.expire _ t₁)).tail (.purge _ shouldBePurged))
  refine ⟨hReach, ?_, ?_⟩
  · simp [purge, purgeLoop, expireMessages, expireLoop, add, addLoop, newMsgStore,
      MessageStore.size, hPurged, hExpired]
  · simp [purge, purgeLoop, expireMessages, expireLoop, add, addLoop, newMsgStore,
      MessageStore.get, hPurged, hExpired]

theorem purge_of_expired_message_leaves_size_minus_one :
    Reachable (Step (fun (_ _ : Nat) => InvalidationResult.messageNoAction) 1) newMsgStore
        (purge (fun _ => true) (expireMessages 2 1
          (add (fun (_ _ : Nat) => InvalidationResult.messageNoAction) 0 0 newMsgStore).1).1).1 ∧
      (purge (fun _ => true) (expireMessages 2 1
        (add (fun (_ _ : Nat) => InvalidationResult.messageNoAction) 0 0 newMsgStore).1).1).1.size =
          -1 ∧
      (purge (fun _ => true) (expireMessages 2 1
        (add (fun (_ _ : Nat) => InvalidationResult.messageNoAction) 0 0 newMsgStore).1).1).1.get =
          [] :=
  purge_of_expired_message_leaves_negative_size (fun _ _ => .messageNoAction) 1 0 0 2
    (fun _ => true) rfl (by decide)

/-! ## Related messages -/

def Consistent : Prop :=
  ∀ a b, pol a b = .messageInvalidates ↔ pol b a = .messageInvalidated

def Transitive : Prop :=
  ∀ a b c, pol a b = .messageInvalidates → pol b c = .messageInvalidates →
    pol a c = .messageInvalidates

def Unrelated (ms : List (Msg α)) : Prop :=
  (ms.map (·.data)).Pairwise fun a b => pol a b = .messageNoAction ∧ pol b a = .messageNoAction

theorem purgeLoop_eq_filter (shouldBePurged : α → Bool) (ms : List (Msg α)) :
    purgeLoop shouldBePurged ms =
      (ms.filter (!shouldBePurged ·.data), (ms.filter (shouldBePurged ·.data)).map (·.data)) := by
  induction ms with
  | nil => rfl
  | cons m ms ih =>
    cases hPurged : shouldBePurged m.data <;> simp [purgeLoop, ih, hPurged]

theorem map_data_expireLoop_sublist (now msgTTL : Nat) (ms : List (Msg α)) :
    ((expireLoop now msgTTL ms).1.map (·.data)).Sublist (ms.map (·.data)) := by
  induction ms with
  | nil => simp [expireLoop]
  | cons m ms ih =>
    rcases hLoop : expireLoop now msgTTL ms with ⟨kept, counted, expired⟩
    rw [hLoop] at ih
    cases hExpired : m.expired
    case false =>
      by_cases hOld : msgTTL < now - m.created
      · simpa [expireLoop, hLoop, hExpired, hOld] using ih.cons_cons m.data
      · simpa [expireLoop, hLoop, hExpired, hOld] using ih.cons_cons m.data
    case true =>
      by_cases hGone : msgTTL * 2 < now - m.created
      · simpa [expireLoop, hLoop, hExpired, hGone] using ih.cons m.data
      · simpa [expireLoop, hLoop, hExpired, hGone] using ih.cons_cons m.data

section Laws

variable {pol} (hConsistent : Consistent pol) (hTransitive : Transitive pol)

include hConsistent in
theorem noAction_symm {a b : α} (h : pol a b = .messageNoAction) : pol b a = .messageNoAction := by
  cases hba : pol b a with
  | messageNoAction => rfl
  | messageInvalidates =>
    rw [(hConsistent b a).1 hba] at h
    cases h
  | messageInvalidated =>
    rw [(hConsistent a b).2 hba] at h
    cases h

include hConsistent hTransitive in
theorem not_invalidates_of_invalidated {x a b : α} (hUnrelated : pol a b = .messageNoAction)
    (hInvalidated : pol x a = .messageInvalidated) : pol x b ≠ .messageInvalidates := by
  intro hInvalidates
  have hInvalidatesX : pol a x = .messageInvalidates := (hConsistent a x).2 hInvalidated
  have hRelated := hTransitive a x b hInvalidatesX hInvalidates
  rw [hUnrelated] at hRelated
  cases hRelated

include hConsistent hTransitive in
theorem addLoop_of_invalidated {x : α} {ms : List (Msg α)} (hUnrelated : Unrelated pol ms)
    (h : ∃ m ∈ ms, pol x m.data = .messageInvalidated) : addLoop pol x ms = (ms, [], false) := by
  induction ms with
  | nil => simp at h
  | cons m ms ih =>
    have hCons : Unrelated pol (m :: ms) := hUnrelated
    unfold Unrelated at hCons
    rw [List.map_cons, List.pairwise_cons] at hCons
    obtain ⟨hHead, hTail⟩ := hCons
    cases hm : pol x m.data with
    | messageInvalidated => simp [addLoop, hm]
    | messageInvalidates =>
      obtain ⟨m', hm', hInvalidated⟩ : ∃ m' ∈ ms, pol x m'.data = .messageInvalidated := by
        obtain ⟨m', hm', hInvalidated⟩ := h
        rcases List.mem_cons.1 hm' with rfl | hm'
        · rw [hm] at hInvalidated
          cases hInvalidated
        · exact ⟨m', hm', hInvalidated⟩
      have hApart := (hHead m'.data (List.mem_map_of_mem hm')).2
      exact absurd hm (not_invalidates_of_invalidated hConsistent hTransitive hApart hInvalidated)
    | messageNoAction =>
      have hRest : ∃ m' ∈ ms, pol x m'.data = .messageInvalidated := by
        obtain ⟨m', hm', hInvalidated⟩ := h
        rcases List.mem_cons.1 hm' with rfl | hm'
        · rw [hm] at hInvalidated
          cases hInvalidated
        · exact ⟨m', hm', hInvalidated⟩
      have hLoop := ih hTail hRest
      simp [addLoop, hm, hLoop]

end Laws

theorem addLoop_of_not_invalidated {x : α} {ms : List (Msg α)}
    (h : ∀ m ∈ ms, pol x m.data ≠ .messageInvalidated) :
    addLoop pol x ms = (ms.filter (pol x ·.data != .messageInvalidates),
      (ms.filter (pol x ·.data == .messageInvalidates)).map (·.data), true) := by
  induction ms with
  | nil => rfl
  | cons m ms ih =>
    have hRest := ih fun m' hm' => h m' (List.mem_cons_of_mem m hm')
    cases hm : pol x m.data with
    | messageInvalidated => exact absurd hm (h m List.mem_cons_self)
    | messageInvalidates => simp [addLoop, hm, hRest]
    | messageNoAction => simp [addLoop, hm, hRest]

section Laws

variable {pol} (hConsistent : Consistent pol) (hTransitive : Transitive pol)

include hConsistent hTransitive in
theorem Unrelated.add {s : MessageStore α} (hUnrelated : Unrelated pol s.messages) (x : α)
    (now : Nat) : Unrelated pol (add pol x now s).1.messages := by
  by_cases hInvalidated : ∃ m ∈ s.messages, pol x m.data = .messageInvalidated
  · simpa [Gossip.add, addLoop_of_invalidated hConsistent hTransitive hUnrelated hInvalidated]
      using hUnrelated
  · simp only [not_exists, not_and] at hInvalidated
    simp only [Gossip.add, addLoop_of_not_invalidated pol hInvalidated, if_true]
    unfold Unrelated at hUnrelated ⊢
    rw [List.map_append, List.pairwise_append]
    refine ⟨hUnrelated.sublist (List.filter_sublist.map _), by simp, ?_⟩
    intro a ha b hb
    simp only [List.map_cons, List.map_nil, List.mem_singleton] at hb
    rw [hb]
    obtain ⟨m, hm, rfl⟩ := List.mem_map.1 ha
    obtain ⟨hm, hKept⟩ := List.mem_filter.1 hm
    have hNoAction : pol x m.data = .messageNoAction := by
      cases hxm : pol x m.data with
      | messageNoAction => rfl
      | messageInvalidates => simp [hxm] at hKept
      | messageInvalidated => exact absurd hxm (hInvalidated m hm)
    exact ⟨noAction_symm hConsistent hNoAction, hNoAction⟩

theorem Unrelated.purge {s : MessageStore α} (hUnrelated : Unrelated pol s.messages)
    (shouldBePurged : α → Bool) : Unrelated pol (purge shouldBePurged s).1.messages := by
  simp only [Gossip.purge, purgeLoop_eq_filter]
  exact hUnrelated.sublist (List.filter_sublist.map _)

theorem Unrelated.expireMessages {s : MessageStore α} (hUnrelated : Unrelated pol s.messages)
    (now msgTTL : Nat) : Unrelated pol (expireMessages now msgTTL s).1.messages :=
  hUnrelated.sublist (map_data_expireLoop_sublist now msgTTL s.messages)

include hConsistent hTransitive in
theorem unrelated_of_reachable {msgTTL : Nat} {s : MessageStore α}
    (hReach : Reachable (Step pol msgTTL) newMsgStore s) : Unrelated pol s.messages := by
  refine Reachable.invariant (fun s => Unrelated pol s.messages) (by simp [Unrelated, newMsgStore])
    ?_ hReach
  intro s s' hUnrelated hStep
  cases hStep with
  | add x now => exact hUnrelated.add hConsistent hTransitive x now
  | purge shouldBePurged => exact hUnrelated.purge shouldBePurged
  | expire now => exact hUnrelated.expireMessages now msgTTL

include hConsistent hTransitive in
/-- `Add` in a reachable store: it rejects the message, leaving the store as it was, exactly when
a stored message invalidates it; otherwise it drops the messages the new one invalidates, each
passed once to the trigger, and appends it. -/
theorem add_of_reachable {msgTTL : Nat} {s : MessageStore α}
    (hReach : Reachable (Step pol msgTTL) newMsgStore s) (x : α) (now : Nat) :
    ((∃ m ∈ s.messages, pol x m.data = .messageInvalidated) → add pol x now s = (s, [], false)) ∧
    ((∀ m ∈ s.messages, pol x m.data ≠ .messageInvalidated) →
      add pol x now s = (⟨s.messages.filter (pol x ·.data != .messageInvalidates) ++
        [⟨x, now, false⟩], s.expiredCount⟩,
        (s.messages.filter (pol x ·.data == .messageInvalidates)).map (·.data), true)) := by
  have hUnrelated := unrelated_of_reachable hConsistent hTransitive hReach
  constructor
  · intro hInvalidated
    simp [Gossip.add, addLoop_of_invalidated hConsistent hTransitive hUnrelated hInvalidated]
  · intro hInvalidated
    simp [Gossip.add, addLoop_of_not_invalidated pol hInvalidated]

end Laws

def newerInvalidates (a b : Bool) : InvalidationResult :=
  if a = b then .messageNoAction else if a then .messageInvalidates else .messageInvalidated

theorem add_of_reachable_newerVersion :
    let s := (add newerInvalidates false 0 newMsgStore).1
    ((∃ m ∈ s.messages, newerInvalidates true m.data = .messageInvalidated) →
      add newerInvalidates true 1 s = (s, [], false)) ∧
    ((∀ m ∈ s.messages, newerInvalidates true m.data ≠ .messageInvalidated) →
      add newerInvalidates true 1 s =
        (⟨s.messages.filter (newerInvalidates true ·.data != .messageInvalidates) ++
          [⟨true, 1, false⟩], s.expiredCount⟩,
          (s.messages.filter (newerInvalidates true ·.data == .messageInvalidates)).map (·.data),
          true)) := by
  have hReach : Reachable (Step newerInvalidates 1) newMsgStore
      (add newerInvalidates false 0 newMsgStore).1 :=
    (Reachable.refl _ _).tail (.add _ false 0)
  exact add_of_reachable (by unfold Consistent; decide) (by unfold Transitive; decide) hReach true 1

end FabricPeer.Gossip
