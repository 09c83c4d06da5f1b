import Mathlib.Data.List.Basic
import FabricPeer.Lib.Transition

/-! # Block cutting

`orderer/common/blockcutter`: the receiver gathers the ordered envelopes of a channel into a
pending batch and cuts it into a block when the next envelope would make it overflow
`PreferredMaxBytes`, when it reaches `MaxMessageCount`, or when the chain calls `Cut` on its
batch timer; an envelope larger than `PreferredMaxBytes` goes alone into a batch of its own.
The size of an envelope is converted to `uint32` and the size of the pending batch is kept in a
`uint32` accumulator, so both wrap modulo `2 ^ 32`.
-/

namespace FabricPeer.Orderer

set_option autoImplicit false

/-- `cb.Envelope`; the cutter reads only the lengths of its two fields. -/
structure Envelope where
  payload : List UInt8
  signature : List UInt8
  deriving DecidableEq, Repr

/-- The two fields of the channel's `BatchSize` that the cutter reads. -/
structure BatchSize where
  maxMessageCount : UInt32
  preferredMaxBytes : UInt32
  deriving DecidableEq, Repr

structure Receiver where
  pendingBatch : List Envelope
  pendingBatchSizeBytes : UInt32
  deriving DecidableEq, Repr

def newReceiverImpl : Receiver := ⟨[], 0⟩

def messageSizeBytes (message : Envelope) : UInt32 :=
  (message.payload.length + message.signature.length).toUInt32

namespace Receiver

/-- `Cut`: the pending batch, and an empty one in its place. -/
def cut (r : Receiver) : List Envelope × Receiver := (r.pendingBatch, newReceiverImpl)

/-- `Ordered`: the batches cut by this envelope, whether a batch is still pending, and the
receiver after it. -/
def ordered (batchSize : BatchSize) (r : Receiver) (msg : Envelope) :
    (List (List Envelope) × Bool) × Receiver :=
  let messageSizeBytes := messageSizeBytes msg
  if messageSizeBytes > batchSize.preferredMaxBytes then
    if r.pendingBatch.length > 0 then (([r.cut.1, [msg]], false), r.cut.2)
    else (([[msg]], false), r)
  else
    let messageWillOverflowBatchSizeBytes :=
      r.pendingBatchSizeBytes + messageSizeBytes > batchSize.preferredMaxBytes
    let cutBefore : List (List Envelope) × Receiver :=
      if messageWillOverflowBatchSizeBytes then ([r.cut.1], r.cut.2) else ([], r)
    let r : Receiver := ⟨cutBefore.2.pendingBatch ++ [msg],
      cutBefore.2.pendingBatchSizeBytes + messageSizeBytes⟩
    if r.pendingBatch.length.toUInt32 ≥ batchSize.maxMessageCount then
      ((cutBefore.1 ++ [r.cut.1], false), r.cut.2)
    else ((cutBefore.1, true), r)

theorem ordered_cases (batchSize : BatchSize) (r : Receiver) (msg : Envelope) :
    (batchSize.preferredMaxBytes < messageSizeBytes msg ∧ r.pendingBatch = [] ∧
      r.ordered batchSize msg = (([[msg]], false), r)) ∨
    (batchSize.preferredMaxBytes < messageSizeBytes msg ∧ r.pendingBatch ≠ [] ∧
      r.ordered batchSize msg = (([r.pendingBatch, [msg]], false), newReceiverImpl)) ∨
    (messageSizeBytes msg ≤ batchSize.preferredMaxBytes ∧
      ∃ (before : List (List Envelope)) (base : Receiver),
        ((r.pendingBatchSizeBytes + messageSizeBytes msg ≤ batchSize.preferredMaxBytes ∧
            before = [] ∧ base = r) ∨
          (batchSize.preferredMaxBytes < r.pendingBatchSizeBytes + messageSizeBytes msg ∧
            before = [r.pendingBatch] ∧ base = newReceiverImpl)) ∧
        ((batchSize.maxMessageCount ≤ (base.pendingBatch.length + 1).toUInt32 ∧
            r.ordered batchSize msg =
              ((before ++ [base.pendingBatch ++ [msg]], false), newReceiverImpl)) ∨
          ((base.pendingBatch.length + 1).toUInt32 < batchSize.maxMessageCount ∧
            r.ordered batchSize msg = ((before, true),
              ⟨base.pendingBatch ++ [msg], base.pendingBatchSizeBytes + messageSizeBytes msg⟩)))) := by
  unfold ordered
  simp only [cut, gt_iff_lt, ge_iff_le, List.length_append, List.length_singleton]
  split_ifs with hBig hPending hOverflow hCount hCount
  · exact .inr (.inl ⟨hBig, List.ne_nil_of_length_pos hPending, rfl⟩)
  · exact .inl ⟨hBig, List.eq_nil_of_length_eq_zero (by omega), rfl⟩
  · exact .inr (.inr ⟨UInt32.not_lt.1 hBig, _, _, .inr ⟨hOverflow, rfl, rfl⟩, .inl ⟨hCount, rfl⟩⟩)
  · exact .inr (.inr ⟨UInt32.not_lt.1 hBig, _, _, .inr ⟨hOverflow, rfl, rfl⟩,
      .inr ⟨UInt32.not_le.1 hCount, rfl⟩⟩)
  · exact .inr (.inr ⟨UInt32.not_lt.1 hBig, _, _, .inl ⟨UInt32.not_lt.1 hOverflow, rfl, rfl⟩,
      .inl ⟨hCount, rfl⟩⟩)
  · exact .inr (.inr ⟨UInt32.not_lt.1 hBig, _, _, .inl ⟨UInt32.not_lt.1 hOverflow, rfl, rfl⟩,
      .inr ⟨UInt32.not_le.1 hCount, rfl⟩⟩)

theorem ordered_conserves (batchSize : BatchSize) (r : Receiver) (msg : Envelope) :
    (r.ordered batchSize msg).1.1.flatten ++ (r.ordered batchSize msg).2.pendingBatch =
      r.pendingBatch ++ [msg] := by
  rcases ordered_cases batchSize r msg with
    ⟨-, hEmpty, hEq⟩ | ⟨-, -, hEq⟩ | ⟨-, before, base, hBefore, ⟨-, hEq⟩ | ⟨-, hEq⟩⟩ <;> rw [hEq]
  · simp [hEmpty]
  · simp [newReceiverImpl]
  all_goals
    rcases hBefore with ⟨-, rfl, rfl⟩ | ⟨-, rfl, rfl⟩ <;> simp [newReceiverImpl]

theorem ordered_pending_iff (batchSize : BatchSize) (r : Receiver) (msg : Envelope) :
    (r.ordered batchSize msg).1.2 = true ↔ (r.ordered batchSize msg).2.pendingBatch ≠ [] := by
  rcases ordered_cases batchSize r msg with
    ⟨-, hEmpty, hEq⟩ | ⟨-, -, hEq⟩ | ⟨-, _, _, -, ⟨-, hEq⟩ | ⟨-, hEq⟩⟩ <;> rw [hEq]
  · simp [hEmpty]
  · simp [newReceiverImpl]
  · simp [newReceiverImpl]
  · simp

theorem ordered_of_no_overflow (batchSize : BatchSize) (r : Receiver) (msg : Envelope)
    (hSmall : messageSizeBytes msg ≤ batchSize.preferredMaxBytes)
    (hNoOverflow : r.pendingBatchSizeBytes + messageSizeBytes msg ≤ batchSize.preferredMaxBytes) :
    r.ordered batchSize msg =
      if batchSize.maxMessageCount ≤ (r.pendingBatch.length + 1).toUInt32 then
        (([r.pendingBatch ++ [msg]], false), newReceiverImpl)
      else (([], true), ⟨r.pendingBatch ++ [msg], r.pendingBatchSizeBytes + messageSizeBytes msg⟩) := by
  rcases ordered_cases batchSize r msg with
    ⟨hBig, -⟩ | ⟨hBig, -⟩ | ⟨-, before, base, hBefore, hCut⟩
  · exact absurd hSmall (UInt32.not_le.2 hBig)
  · exact absurd hSmall (UInt32.not_le.2 hBig)
  · rcases hBefore with ⟨-, rfl, rfl⟩ | ⟨hOverflow, -⟩
    · rcases hCut with ⟨hCount, hEq⟩ | ⟨hCount, hEq⟩
      · rw [hEq, if_pos hCount, List.nil_append]
      · rw [hEq, if_neg (UInt32.not_le.2 hCount)]
    · exact absurd hNoOverflow (UInt32.not_le.2 hOverflow)

end Receiver

/-! ## The size of a batch -/

/-- The size of an envelope as `BatchSize` counts it: its payload and signature bytes. -/
def envelopeBytes (msg : Envelope) : ℕ := msg.payload.length + msg.signature.length

def batchBytes (batch : List Envelope) : ℕ := (batch.map envelopeBytes).sum

theorem envelopeBytes_mk (payload signature : List UInt8) :
    envelopeBytes ⟨payload, signature⟩ = payload.length + signature.length := rfl

@[simp] theorem batchBytes_nil : batchBytes [] = 0 := rfl

@[simp] theorem batchBytes_append (batch batch' : List Envelope) :
    batchBytes (batch ++ batch') = batchBytes batch + batchBytes batch' := by
  simp [batchBytes]

@[simp] theorem batchBytes_singleton (msg : Envelope) : batchBytes [msg] = envelopeBytes msg := by
  simp [batchBytes]

theorem toNat_messageSizeBytes (msg : Envelope) :
    (messageSizeBytes msg).toNat = envelopeBytes msg % 2 ^ 32 := by
  simp [messageSizeBytes, envelopeBytes]

namespace Receiver

structure Inv (batchSize : BatchSize) (r : Receiver) : Prop where
  length_lt : r.pendingBatch.length < batchSize.maxMessageCount.toNat
  sizeBytes_eq : r.pendingBatchSizeBytes.toNat = batchBytes r.pendingBatch % 2 ^ 32

section

variable {batchSize : BatchSize}

theorem inv_newReceiverImpl (hMax : 0 < batchSize.maxMessageCount.toNat) :
    Inv batchSize newReceiverImpl :=
  ⟨hMax, rfl⟩

theorem Inv.sizeBytes_of_nil {r : Receiver} (hInv : Inv batchSize r) (hEmpty : r.pendingBatch = []) :
    r.pendingBatchSizeBytes = 0 := by
  have h := hInv.sizeBytes_eq
  rw [hEmpty, batchBytes_nil] at h
  exact UInt32.toNat_inj.1 h

theorem Inv.append {r : Receiver} (hInv : Inv batchSize r) (msg : Envelope)
    (hCount : (r.pendingBatch.length + 1).toUInt32 < batchSize.maxMessageCount) :
    Inv batchSize ⟨r.pendingBatch ++ [msg], r.pendingBatchSizeBytes + messageSizeBytes msg⟩ := by
  have hLength := hInv.length_lt
  have hMaxLt := UInt32.toNat_lt batchSize.maxMessageCount
  rw [UInt32.lt_iff_toNat_lt] at hCount
  constructor
  · simp only [Nat.toUInt32_eq, UInt32.toNat_ofNat'] at hCount
    simp only [List.length_append, List.length_singleton]
    rwa [Nat.mod_eq_of_lt (by omega)] at hCount
  · simp only [UInt32.toNat_add, hInv.sizeBytes_eq, toNat_messageSizeBytes, batchBytes_append,
      batchBytes_singleton, Nat.add_mod_mod, Nat.mod_add_mod]

theorem Inv.ordered {r : Receiver} (hMax : 0 < batchSize.maxMessageCount.toNat)
    (hInv : Inv batchSize r) (msg : Envelope) : Inv batchSize (r.ordered batchSize msg).2 := by
  rcases ordered_cases batchSize r msg with
    ⟨-, -, hEq⟩ | ⟨-, -, hEq⟩ | ⟨-, before, base, hBefore, ⟨-, hEq⟩ | ⟨hCount, hEq⟩⟩ <;> rw [hEq]
  · exact hInv
  · exact inv_newReceiverImpl hMax
  · exact inv_newReceiverImpl hMax
  · have hBase : Inv batchSize base := by
      rcases hBefore with ⟨-, -, rfl⟩ | ⟨-, -, rfl⟩
      exacts [hInv, inv_newReceiverImpl hMax]
    exact hBase.append msg hCount

theorem Inv.ordered_batches {r : Receiver} (hInv : Inv batchSize r) (msg : Envelope) :
    ∀ batch ∈ (r.ordered batchSize msg).1.1,
      batch ≠ [] ∧ batch.length ≤ batchSize.maxMessageCount.toNat := by
  have hLength := hInv.length_lt
  rcases ordered_cases batchSize r msg with
    ⟨-, -, hEq⟩ | ⟨-, hPending, hEq⟩ | ⟨hSmall, before, base, hBefore, ⟨-, hEq⟩ | ⟨-, hEq⟩⟩ <;>
    rw [hEq] <;> intro batch hBatch
  · simp only [List.mem_singleton] at hBatch
    subst hBatch
    simp only [List.length_singleton]
    exact ⟨List.cons_ne_nil _ _, by omega⟩
  · simp only [List.mem_cons, List.not_mem_nil, or_false] at hBatch
    rcases hBatch with rfl | rfl
    · exact ⟨hPending, Nat.le_of_lt hLength⟩
    · simp only [List.length_singleton]
      exact ⟨List.cons_ne_nil _ _, by omega⟩
  all_goals
    have hBeforeBatch : batch ∈ before → batch ≠ [] ∧ batch.length ≤ batchSize.maxMessageCount.toNat := by
      intro hMem
      rcases hBefore with ⟨-, rfl, -⟩ | ⟨hOverflow, rfl, -⟩
      · simp at hMem
      · rw [List.mem_singleton] at hMem
        subst hMem
        refine ⟨fun hEmpty => ?_, Nat.le_of_lt hLength⟩
        rw [hInv.sizeBytes_of_nil hEmpty, UInt32.zero_add] at hOverflow
        exact absurd hSmall (UInt32.not_le.2 hOverflow)
  · rw [List.mem_append, List.mem_singleton] at hBatch
    rcases hBatch with hMem | rfl
    · exact hBeforeBatch hMem
    · have hBaseLength : base.pendingBatch.length < batchSize.maxMessageCount.toNat := by
        rcases hBefore with ⟨-, -, rfl⟩ | ⟨-, -, rfl⟩
        exacts [hLength, inv_newReceiverImpl (by omega) |>.length_lt]
      simp only [List.length_append, List.length_singleton]
      exact ⟨by simp, by omega⟩
  · exact hBeforeBatch hBatch

/-! ### Without wrapping

When `PreferredMaxBytes` is below `2 ^ 31` and every envelope is smaller than `2 ^ 32` bytes,
neither the conversion of a size nor the accumulator wraps, and the batch limits hold as
intended. -/

def Fits (batchSize : BatchSize) (r : Receiver) : Prop :=
  batchBytes r.pendingBatch ≤ batchSize.preferredMaxBytes.toNat

theorem fits_newReceiverImpl : Fits batchSize newReceiverImpl := Nat.zero_le _

theorem Inv.sizeBytes_exact {r : Receiver} (hInv : Inv batchSize r) (hFits : Fits batchSize r)
    (hPreferred : batchSize.preferredMaxBytes.toNat < 2 ^ 31) :
    r.pendingBatchSizeBytes.toNat = batchBytes r.pendingBatch := by
  unfold Fits at hFits
  rw [hInv.sizeBytes_eq, Nat.mod_eq_of_lt (by omega)]

theorem Fits.append {r : Receiver} (hPreferred : batchSize.preferredMaxBytes.toNat < 2 ^ 31)
    (hInv : Inv batchSize r) (hFits : Fits batchSize r) (msg : Envelope)
    (hMsg : envelopeBytes msg < 2 ^ 32) (hSmall : messageSizeBytes msg ≤ batchSize.preferredMaxBytes)
    (hNoOverflow : r.pendingBatchSizeBytes + messageSizeBytes msg ≤ batchSize.preferredMaxBytes) :
    batchBytes (r.pendingBatch ++ [msg]) ≤ batchSize.preferredMaxBytes.toNat := by
  have hSize : envelopeBytes msg ≤ batchSize.preferredMaxBytes.toNat := by
    rwa [UInt32.le_iff_toNat_le, toNat_messageSizeBytes, Nat.mod_eq_of_lt hMsg] at hSmall
  unfold Fits at hFits
  rw [UInt32.le_iff_toNat_le, UInt32.toNat_add, hInv.sizeBytes_exact hFits hPreferred,
    toNat_messageSizeBytes, Nat.mod_eq_of_lt hMsg, Nat.mod_eq_of_lt (by omega)] at hNoOverflow
  simpa using hNoOverflow

theorem Fits.ordered {r : Receiver} (hPreferred : batchSize.preferredMaxBytes.toNat < 2 ^ 31)
    (hInv : Inv batchSize r) (hFits : Fits batchSize r) (msg : Envelope)
    (hMsg : envelopeBytes msg < 2 ^ 32) :
    Fits batchSize (r.ordered batchSize msg).2 ∧
      ∀ batch ∈ (r.ordered batchSize msg).1.1,
        batchBytes batch ≤ batchSize.preferredMaxBytes.toNat ∨ batch.length = 1 := by
  rcases ordered_cases batchSize r msg with
    ⟨-, -, hEq⟩ | ⟨-, -, hEq⟩ | ⟨hSmall, before, base, hBefore, ⟨-, hEq⟩ | ⟨-, hEq⟩⟩ <;> rw [hEq]
  · refine ⟨hFits, fun batch hBatch => .inr ?_⟩
    rw [List.mem_singleton.1 hBatch, List.length_singleton]
  · refine ⟨fits_newReceiverImpl, fun batch hBatch => ?_⟩
    simp only [List.mem_cons, List.not_mem_nil, or_false] at hBatch
    rcases hBatch with rfl | rfl
    · exact .inl hFits
    · exact .inr (List.length_singleton)
  all_goals
    obtain ⟨hBaseInv, hBaseFits, hNoOverflow, hBeforeFits⟩ : Inv batchSize base ∧ Fits batchSize base ∧
        base.pendingBatchSizeBytes + messageSizeBytes msg ≤ batchSize.preferredMaxBytes ∧
        ∀ batch ∈ before, batchBytes batch ≤ batchSize.preferredMaxBytes.toNat := by
      rcases hBefore with ⟨hNoOverflow, rfl, rfl⟩ | ⟨-, rfl, rfl⟩
      · exact ⟨hInv, hFits, hNoOverflow, by simp⟩
      · refine ⟨inv_newReceiverImpl (Nat.lt_of_le_of_lt (Nat.zero_le _) hInv.length_lt),
          fits_newReceiverImpl, by rwa [newReceiverImpl, UInt32.zero_add], ?_⟩
        intro batch hBatch
        rw [List.mem_singleton.1 hBatch]
        exact hFits
    have hAppended := hBaseFits.append hPreferred hBaseInv msg hMsg hSmall hNoOverflow
  · refine ⟨fits_newReceiverImpl, fun batch hBatch => .inl ?_⟩
    rcases List.mem_append.1 hBatch with hMem | hMem
    · exact hBeforeFits batch hMem
    · rw [List.mem_singleton.1 hMem]
      exact hAppended
  · exact ⟨hAppended, fun batch hBatch => .inl (hBeforeFits batch hBatch)⟩

end

end Receiver

/-! ## Runs of the receiver -/

/-- A call the chain makes on its receiver: `Ordered` with the next envelope, or `Cut` when its
batch timer expires. -/
inductive Event where
  | ordered (msg : Envelope)
  | cut
  deriving DecidableEq, Repr

def Event.message? : Event → Option Envelope
  | .ordered msg => some msg
  | .cut => none

namespace Receiver

/-- The batches one call returns, and the receiver after it. -/
def call (batchSize : BatchSize) (r : Receiver) : Event → List (List Envelope) × Receiver
  | .ordered msg => ((r.ordered batchSize msg).1.1, (r.ordered batchSize msg).2)
  | .cut => ([r.cut.1], r.cut.2)

def run (batchSize : BatchSize) : Receiver → List Event → List (List Envelope) × Receiver
  | r, [] => ([], r)
  | r, e :: es =>
    ((r.call batchSize e).1 ++ ((r.call batchSize e).2.run batchSize es).1,
      ((r.call batchSize e).2.run batchSize es).2)

theorem call_conserves (batchSize : BatchSize) (r : Receiver) (e : Event) :
    (r.call batchSize e).1.flatten ++ (r.call batchSize e).2.pendingBatch =
      r.pendingBatch ++ e.message?.toList := by
  cases e with
  | ordered msg => exact ordered_conserves batchSize r msg
  | cut => simp [call, cut, newReceiverImpl, Event.message?]

/-- Block cutting loses, duplicates and reorders nothing: the batches a run returns, followed by
the batch still pending after it, are the pending batch it started from followed by the
envelopes ordered in the run. -/
theorem run_conserves (batchSize : BatchSize) (r : Receiver) (es : List Event) :
    (r.run batchSize es).1.flatten ++ (r.run batchSize es).2.pendingBatch =
      r.pendingBatch ++ es.filterMap Event.message? := by
  induction es generalizing r with
  | nil => simp [run]
  | cons e es ih =>
    rw [run, List.flatten_append, List.append_assoc, ih, ← List.append_assoc, call_conserves,
      List.append_assoc]
    cases e <;> simp [Event.message?, List.filterMap_cons]

/-- One call on the receiver, with an envelope that `admitted` lets through to the cutter. -/
inductive Step (batchSize : BatchSize) (admitted : Envelope → Prop) : Receiver → Receiver → Prop
  | ordered {r : Receiver} (msg : Envelope) :
      admitted msg → Step batchSize admitted r (r.ordered batchSize msg).2
  | cut {r : Receiver} : Step batchSize admitted r r.cut.2

section

variable {batchSize : BatchSize} {admitted : Envelope → Prop}

theorem inv_of_reachable (hMax : 0 < batchSize.maxMessageCount.toNat) {r : Receiver}
    (hReach : Transition.Reachable (Step batchSize admitted) newReceiverImpl r) :
    Inv batchSize r := by
  refine Transition.Reachable.invariant (Inv batchSize) (inv_newReceiverImpl hMax) ?_ hReach
  rintro r' r'' hInv (⟨msg, -⟩ | -)
  · exact hInv.ordered hMax msg
  · exact inv_newReceiverImpl hMax

/-- Every `Ordered` call of every run returns non-empty batches of at most `MaxMessageCount`
envelopes, says truly whether a batch is pending, and leaves the accumulator at the size of the
pending batch modulo `2 ^ 32`. -/
theorem ordered_of_reachable (hMax : 0 < batchSize.maxMessageCount.toNat) {r : Receiver}
    (hReach : Transition.Reachable (Step batchSize admitted) newReceiverImpl r) (msg : Envelope) :
    (∀ batch ∈ (r.ordered batchSize msg).1.1,
      batch ≠ [] ∧ batch.length ≤ batchSize.maxMessageCount.toNat) ∧
    ((r.ordered batchSize msg).1.2 = true ↔ (r.ordered batchSize msg).2.pendingBatch ≠ []) ∧
    (r.ordered batchSize msg).2.pendingBatchSizeBytes.toNat =
      batchBytes (r.ordered batchSize msg).2.pendingBatch % 2 ^ 32 := by
  have hInv := inv_of_reachable hMax hReach
  exact ⟨hInv.ordered_batches msg, ordered_pending_iff batchSize r msg,
    (hInv.ordered hMax msg).sizeBytes_eq⟩

theorem ordered_of_reachable_twoEnvelopes :
    let batchSize : BatchSize := ⟨2, 10⟩
    let r := (newReceiverImpl.ordered batchSize ⟨[1, 2, 3], []⟩).2
    let msg : Envelope := ⟨[4, 5, 6, 7], []⟩
    (∀ batch ∈ (r.ordered batchSize msg).1.1,
      batch ≠ [] ∧ batch.length ≤ batchSize.maxMessageCount.toNat) ∧
    ((r.ordered batchSize msg).1.2 = true ↔ (r.ordered batchSize msg).2.pendingBatch ≠ []) ∧
    (r.ordered batchSize msg).2.pendingBatchSizeBytes.toNat =
      batchBytes (r.ordered batchSize msg).2.pendingBatch % 2 ^ 32 := by
  have hReach : Transition.Reachable (Step ⟨2, 10⟩ fun _ => True) newReceiverImpl
      (newReceiverImpl.ordered ⟨2, 10⟩ ⟨[1, 2, 3], []⟩).2 :=
    (Transition.Reachable.refl _ _).tail (.ordered _ trivial)
  exact ordered_of_reachable (by decide) hReach ⟨[4, 5, 6, 7], []⟩

theorem fits_of_reachable (hMax : 0 < batchSize.maxMessageCount.toNat)
    (hPreferred : batchSize.preferredMaxBytes.toNat < 2 ^ 31) {r : Receiver}
    (hReach : Transition.Reachable (Step batchSize fun msg => envelopeBytes msg < 2 ^ 32)
      newReceiverImpl r) :
    Inv batchSize r ∧ Fits batchSize r := by
  refine Transition.Reachable.invariant (fun r => Inv batchSize r ∧ Fits batchSize r)
    ⟨inv_newReceiverImpl hMax, fits_newReceiverImpl⟩ ?_ hReach
  rintro r' r'' ⟨hInv, hFits⟩ (⟨msg, hMsg⟩ | -)
  · exact ⟨hInv.ordered hMax msg, (hFits.ordered hPreferred hInv msg hMsg).1⟩
  · exact ⟨inv_newReceiverImpl hMax, fits_newReceiverImpl⟩

/-- Without wrapping, every `Ordered` call of every run returns batches within
`PreferredMaxBytes` or of a single envelope, and the accumulator holds exactly the size of the
pending batch. -/
theorem ordered_of_reachable_without_wrap (hMax : 0 < batchSize.maxMessageCount.toNat)
    (hPreferred : batchSize.preferredMaxBytes.toNat < 2 ^ 31) {r : Receiver}
    (hReach : Transition.Reachable (Step batchSize fun msg => envelopeBytes msg < 2 ^ 32)
      newReceiverImpl r) (msg : Envelope) (hMsg : envelopeBytes msg < 2 ^ 32) :
    (∀ batch ∈ (r.ordered batchSize msg).1.1,
      batchBytes batch ≤ batchSize.preferredMaxBytes.toNat ∨ batch.length = 1) ∧
    (r.ordered batchSize msg).2.pendingBatchSizeBytes.toNat =
      batchBytes (r.ordered batchSize msg).2.pendingBatch := by
  obtain ⟨hInv, hFits⟩ := fits_of_reachable hMax hPreferred hReach
  obtain ⟨hFits', hBatches⟩ := hFits.ordered hPreferred hInv msg hMsg
  exact ⟨hBatches, (hInv.ordered hMax msg).sizeBytes_exact hFits' hPreferred⟩

theorem ordered_of_reachable_without_wrap_twoEnvelopes :
    let batchSize : BatchSize := ⟨2, 10⟩
    let r := (newReceiverImpl.ordered batchSize ⟨[1, 2, 3], []⟩).2
    let msg : Envelope := ⟨[4, 5, 6, 7], []⟩
    (∀ batch ∈ (r.ordered batchSize msg).1.1,
      batchBytes batch ≤ batchSize.preferredMaxBytes.toNat ∨ batch.length = 1) ∧
    (r.ordered batchSize msg).2.pendingBatchSizeBytes.toNat =
      batchBytes (r.ordered batchSize msg).2.pendingBatch := by
  have hReach : Transition.Reachable (Step ⟨2, 10⟩ fun msg => envelopeBytes msg < 2 ^ 32)
      newReceiverImpl (newReceiverImpl.ordered ⟨2, 10⟩ ⟨[1, 2, 3], []⟩).2 :=
    (Transition.Reachable.refl _ _).tail (.ordered _ (by decide))
  exact ordered_of_reachable_without_wrap (by decide) (by decide) hReach ⟨[4, 5, 6, 7], []⟩
    (by decide)

end

/-- Two envelopes, each within `PreferredMaxBytes` but together of at least `2 ^ 32` bytes, make
the `uint32` accumulator wrap: the overflow check passes, both go into one batch, and the
accumulator holds their size less `2 ^ 32`. With `MaxMessageCount` 2 the second `Ordered`
returns that batch, larger than `PreferredMaxBytes`; with a larger `MaxMessageCount` it stays
pending under an accumulator that understates it. -/
theorem ordered_wraps_pendingBatchSizeBytes (batchSize : BatchSize)
    (hMax : 2 ≤ batchSize.maxMessageCount.toNat) (msg msg' : Envelope)
    (hSize : envelopeBytes msg ≤ batchSize.preferredMaxBytes.toNat)
    (hSize' : envelopeBytes msg' ≤ batchSize.preferredMaxBytes.toNat)
    (hWrap : 2 ^ 32 ≤ envelopeBytes msg + envelopeBytes msg') :
    newReceiverImpl.ordered batchSize msg = (([], true), ⟨[msg], messageSizeBytes msg⟩) ∧
    (newReceiverImpl.ordered batchSize msg).2.ordered batchSize msg' =
      (if batchSize.maxMessageCount = 2 then (([[msg, msg']], false), newReceiverImpl)
        else (([], true), ⟨[msg, msg'], messageSizeBytes msg + messageSizeBytes msg'⟩)) ∧
    batchSize.preferredMaxBytes.toNat < batchBytes [msg, msg'] ∧
    (messageSizeBytes msg + messageSizeBytes msg').toNat = batchBytes [msg, msg'] - 2 ^ 32 := by
  have hPreferred := UInt32.toNat_lt batchSize.preferredMaxBytes
  have hMaxLt := UInt32.toNat_lt batchSize.maxMessageCount
  have hExact : (messageSizeBytes msg).toNat = envelopeBytes msg := by
    rw [toNat_messageSizeBytes, Nat.mod_eq_of_lt (by omega)]
  have hExact' : (messageSizeBytes msg').toNat = envelopeBytes msg' := by
    rw [toNat_messageSizeBytes, Nat.mod_eq_of_lt (by omega)]
  have hSmall : messageSizeBytes msg ≤ batchSize.preferredMaxBytes := by
    rwa [UInt32.le_iff_toNat_le, hExact]
  have hSmall' : messageSizeBytes msg' ≤ batchSize.preferredMaxBytes := by
    rwa [UInt32.le_iff_toNat_le, hExact']
  have hSum : (messageSizeBytes msg + messageSizeBytes msg').toNat =
      envelopeBytes msg + envelopeBytes msg' - 2 ^ 32 := by
    rw [UInt32.toNat_add, hExact, hExact']
    omega
  have hFirst : newReceiverImpl.ordered batchSize msg =
      (([], true), ⟨[msg], messageSizeBytes msg⟩) := by
    rw [ordered_of_no_overflow batchSize _ msg hSmall (by rwa [newReceiverImpl, UInt32.zero_add])]
    rw [if_neg (by rw [UInt32.le_iff_toNat_le]; simp [newReceiverImpl]; omega)]
    simp [newReceiverImpl]
  refine ⟨hFirst, ?_, by simp [batchBytes]; omega, by rw [hSum]; simp [batchBytes]⟩
  rw [hFirst, ordered_of_no_overflow batchSize _ msg' hSmall'
    (by rw [UInt32.le_iff_toNat_le, hSum]; omega)]
  have hCount : batchSize.maxMessageCount ≤ ([msg].length + 1).toUInt32 ↔
      batchSize.maxMessageCount = 2 := by
    rw [UInt32.le_iff_toNat_le, ← UInt32.toNat_inj]
    simp only [List.length_singleton, Nat.reduceAdd, Nat.toUInt32_eq, UInt32.toNat_ofNat',
      UInt32.toNat_ofNat, Nat.reducePow, Nat.reduceMod]
    omega
  by_cases hTwo : batchSize.maxMessageCount = 2
  · rw [if_pos (hCount.2 hTwo), if_pos hTwo]
    rfl
  · rw [if_neg (mt hCount.1 hTwo), if_neg hTwo]
    rfl

theorem ordered_wraps_pendingBatchSizeBytes_two_gib :
    (newReceiverImpl.ordered ⟨2, 2147483648⟩ ⟨List.replicate (2 ^ 31) 0, []⟩).2.ordered
        ⟨2, 2147483648⟩ ⟨List.replicate (2 ^ 31) 0, []⟩ =
      (([[⟨List.replicate (2 ^ 31) 0, []⟩, ⟨List.replicate (2 ^ 31) 0, []⟩]], false),
        newReceiverImpl) ∧
    (2147483648 : UInt32).toNat <
      batchBytes [⟨List.replicate (2 ^ 31) 0, []⟩, ⟨List.replicate (2 ^ 31) 0, []⟩] := by
  have hSize : envelopeBytes ⟨List.replicate (2 ^ 31) 0, []⟩ = 2 ^ 31 := by
    rw [envelopeBytes_mk, List.length_replicate, List.length_nil, Nat.add_zero]
  obtain ⟨-, hSecond, hBytes, -⟩ := ordered_wraps_pendingBatchSizeBytes ⟨2, 2147483648⟩
    (by decide) ⟨List.replicate (2 ^ 31) 0, []⟩ ⟨List.replicate (2 ^ 31) 0, []⟩
    (by rw [hSize]; decide) (by rw [hSize]; decide) (by rw [hSize]; decide)
  exact ⟨by rw [hSecond, if_pos rfl], hBytes⟩

end Receiver

end FabricPeer.Orderer
