import FabricPeer.Deliver.DeliverBlocks

/-! # What a deliver session sends

Along every interleaving of appends with the handler's iterations, a session sends the blocks
`s, s + 1, ...` in order from the start `s` its iterator was positioned at, and it returns
`SUCCESS` exactly when it has sent its stop block `e` (`served_of_reachable`). When `s ≤ e`
this makes the blocks sent a prefix of `s, ..., e`, and a session that fails if not ready
never waits. When `e < s`, which `deliverBlocks` rejects only for a `Specified` stop, nothing
stops the session: as the ledger grows it sends `s, s + 1, ...` without end
(`deliverBlocks_sends_past_stop`).
-/

namespace FabricPeer.Deliver

open Transition
open GoRun (uint64Pred uint64Pred_of_pos)

set_option autoImplicit false

theorem iterator_cursor (info : LedgerInfo) (startPosition : SeekPosition) :
    (iterator info startPosition).1 = none ∨
      (iterator info startPosition).1 = some (iterator info startPosition).2 := by
  unfold iterator
  dsimp only
  cases startPosition <;> dsimp only <;> split <;> (try split) <;> simp

theorem startSession_cursor (info : LedgerInfo) (seekInfo : SeekInfo) :
    (startSession info seekInfo).cursor = none ∨
      (startSession info seekInfo).cursor = some (startSession info seekInfo).number := by
  have hIterator := iterator_cursor info seekInfo.start
  unfold startSession
  cases hPosition : iterator info seekInfo.start with
  | mk cursor number =>
    rw [hPosition] at hIterator
    dsimp only
    split <;> exact hIterator

theorem startSession_sent (info : LedgerInfo) (seekInfo : SeekInfo) :
    (startSession info seekInfo).sent = [] := by
  unfold startSession
  cases iterator info seekInfo.start with
  | mk cursor number =>
    dsimp only
    split <;> rfl

theorem startSession_status_ne_success (info : LedgerInfo) (seekInfo : SeekInfo) :
    (startSession info seekInfo).status ≠ some .success := by
  unfold startSession
  cases iterator info seekInfo.start with
  | mk cursor number =>
    dsimp only
    split <;> simp

theorem startSession_seekInfo (info : LedgerInfo) (seekInfo : SeekInfo) :
    (startSession info seekInfo).seekInfo = seekInfo := by
  unfold startSession
  cases iterator info seekInfo.start with
  | mk cursor number =>
    dsimp only
    split <;> rfl

structure Served (start session : Session) : Prop where
  seekInfo : session.seekInfo = start.seekInfo
  stopNum : session.stopNum = start.stopNum
  sent : session.sent = List.range' start.number session.sent.length
  number : session.number = start.number + session.sent.length
  cursor : session.cursor = start.cursor.map (· + session.sent.length)
  success : session.status = some .success ↔ start.stopNum ∈ session.sent
  last : start.stopNum ∈ session.sent → session.sent.getLast? = some start.stopNum

theorem served_startSession (info : LedgerInfo) (seekInfo : SeekInfo) :
    Served (startSession info seekInfo) (startSession info seekInfo) where
  seekInfo := rfl
  stopNum := rfl
  sent := by simp [startSession_sent]
  number := by simp [startSession_sent]
  cursor := by simp [startSession_sent]
  success := by simp [startSession_sent, startSession_status_ne_success]
  last := by simp [startSession_sent]

section

variable {start : Session} (hStart : start.cursor = none ∨ start.cursor = some start.number)
include hStart

theorem Served.nextIteration {info : LedgerInfo} {session session' : Session}
    (hServed : Served start session) (hRunning : session.status = none)
    (hNext : FabricPeer.Deliver.nextIteration info session = some session') :
    Served start session' := by
  have hNotSent : start.stopNum ∉ session.sent := fun hMem => by
    have := hServed.success.2 hMem
    rw [hRunning] at this
    cases this
  unfold FabricPeer.Deliver.nextIteration at hNext
  split at hNext
  case isTrue =>
    cases hNext
    exact ⟨hServed.1, hServed.2, hServed.3, hServed.4, hServed.5,
      by simp [hNotSent], fun hMem => absurd hMem hNotSent⟩
  case isFalse =>
    split at hNext
    case h_1 =>
      cases hNext
      exact ⟨hServed.1, hServed.2, hServed.3, hServed.4, hServed.5,
        by simp [hNotSent], fun hMem => absurd hMem hNotSent⟩
    case h_2 next hCursor =>
      split at hNext
      case isFalse => cases hNext
      case isTrue =>
        have hCursor' := hServed.cursor
        simp only [hCursor] at hCursor'
        have hNextEq : next = start.number + session.sent.length := by
          rcases hStart with hNone | hSome
          · simp [hNone] at hCursor'
          · simp only [hSome, Option.map_some, Option.some.injEq] at hCursor'
            exact hCursor'
        have hSent : session.sent ++ [next] =
            List.range' start.number (session.sent ++ [next]).length := by
          rw [List.length_append, List.length_singleton, List.range'_1_concat, ← hServed.sent,
            hNextEq]
        have hCursorNext : some (next + 1) =
            start.cursor.map (· + (session.sent ++ [next]).length) := by
          rcases hStart with hNone | hSome
          · simp [hNone] at hCursor'
          · simp [hSome, hNextEq, Nat.add_assoc]
        have hNumber : session.number + 1 = start.number + (session.sent ++ [next]).length := by
          rw [hServed.number, List.length_append, List.length_singleton, Nat.add_assoc]
        split at hNext
        case isTrue hStop =>
          cases hNext
          refine ⟨hServed.1, hServed.2, hSent, hNumber, hCursorNext, ?_, ?_⟩
          · simp [← hServed.stopNum, hStop]
          · intro _
            simp [← hServed.stopNum, hStop]
        case isFalse hStop =>
          cases hNext
          have hNe : start.stopNum ≠ next := by rwa [← hServed.stopNum]
          refine ⟨hServed.1, hServed.2, hSent, hNumber, hCursorNext, ?_, ?_⟩
          · simp [hRunning, hNotSent, hNe]
          · intro hMem
            simp [hNotSent, hNe] at hMem

theorem Served.step {sys sys' : DeliverSystem} (hServed : Served start sys.session)
    (hStep : Step sys sys') : Served start sys'.session := by
  cases hStep with
  | append => exact hServed
  | iterate hRunning hNext => exact Served.nextIteration hStart hServed hRunning hNext
  | abort status hRunning hStatus =>
    have hNotSent : start.stopNum ∉ sys.session.sent := fun hMem => by
      have := hServed.success.2 hMem
      rw [hRunning] at this
      cases this
    have hNotSuccess : status ≠ .success := by
      rcases hStatus with h | h | h <;> rw [h] <;> decide
    exact ⟨hServed.1, hServed.2, hServed.3, hServed.4, hServed.5,
      by simp [hNotSuccess, hNotSent], fun hMem => absurd hMem hNotSent⟩

end

theorem served_of_reachable {info : LedgerInfo} {seekInfo : SeekInfo} {sys : DeliverSystem}
    (hReach : Reachable Step (initial info seekInfo) sys) :
    Served (startSession info seekInfo) sys.session :=
  Reachable.invariant (fun sys => Served (startSession info seekInfo) sys.session)
    (served_startSession info seekInfo)
    (fun _ _ hServed hStep => Served.step (startSession_cursor info seekInfo) hServed hStep)
    hReach

/-- When the stop is not below the start, the blocks sent are a prefix of `s, ..., e`. -/
theorem sent_length_le_of_reachable {info : LedgerInfo} {seekInfo : SeekInfo}
    {sys : DeliverSystem} (hReach : Reachable Step (initial info seekInfo) sys)
    (hLe : (startSession info seekInfo).number ≤ (startSession info seekInfo).stopNum) :
    sys.session.sent.length ≤
      (startSession info seekInfo).stopNum + 1 - (startSession info seekInfo).number := by
  have hServed := served_of_reachable hReach
  by_contra hLong
  have hMem : (startSession info seekInfo).stopNum ∈ sys.session.sent := by
    rw [hServed.sent, List.mem_range']
    exact ⟨(startSession info seekInfo).stopNum - (startSession info seekInfo).number,
      by omega, by omega⟩
  have hLast := hServed.last hMem
  rw [hServed.sent, List.getLast?_range', if_neg (by omega), Option.some.injEq] at hLast
  omega

theorem sent_length_le_of_reachable_oldestToNewest :
    ∃ sys, Reachable Step (initial ⟨3, none⟩ ⟨.oldest, .newest, .failIfNotReady⟩) sys ∧
      sys.session.sent = [0] ∧
      sys.session.sent.length ≤
        (startSession ⟨3, none⟩ ⟨.oldest, .newest, .failIfNotReady⟩).stopNum + 1 -
          (startSession ⟨3, none⟩ ⟨.oldest, .newest, .failIfNotReady⟩).number := by
  have hStep : Step (initial ⟨3, none⟩ ⟨.oldest, .newest, .failIfNotReady⟩) _ := .iterate rfl rfl
  have hReach := (Reachable.refl _ _).tail hStep
  exact ⟨_, hReach, rfl, sent_length_le_of_reachable hReach (by decide)⟩

/-- A session that fails if not ready never waits for a block: on a ledger of height at least
one, its next iteration either sends the next block or returns `NOT_FOUND`. -/
theorem nextIteration_failIfNotReady {info : LedgerInfo} {seekInfo : SeekInfo}
    {sys : DeliverSystem} (hReach : Reachable Step (initial info seekInfo) sys)
    (hBehavior : seekInfo.behavior = .failIfNotReady) (hPos : 0 < sys.info.height)
    (hLe : sys.info.height ≤ 2 ^ 64) :
    nextIteration sys.info sys.session ≠ none := by
  have hServed := served_of_reachable hReach
  have hPred := uint64Pred_of_pos hPos hLe
  unfold nextIteration
  split
  · simp
  · rename_i hNotPast
    split
    · simp
    · rename_i next hCursor
      have hCursor' := hServed.cursor
      rw [hCursor] at hCursor'
      have hNext : next = sys.session.number := by
        rcases startSession_cursor info seekInfo with hNone | hSome
        · simp [hNone] at hCursor'
        · simp only [hSome, Option.map_some, Option.some.injEq] at hCursor'
          rw [hCursor', hServed.number]
      have hSeek : sys.session.seekInfo.behavior = .failIfNotReady := by
        rw [hServed.seekInfo]
        simpa [startSession_seekInfo] using hBehavior
      have hIn : next < sys.info.height := by
        by_contra hOut
        exact hNotPast ⟨hSeek, by omega⟩
      simp [hIn]
      split <;> simp

theorem nextIteration_failIfNotReady_oldestToNewest :
    ∃ sys, Reachable Step (initial ⟨3, none⟩ ⟨.oldest, .newest, .failIfNotReady⟩) sys ∧
      sys.session.sent = [0] ∧ nextIteration sys.info sys.session ≠ none := by
  have hStep : Step (initial ⟨3, none⟩ ⟨.oldest, .newest, .failIfNotReady⟩) _ := .iterate rfl rfl
  have hReach := (Reachable.refl _ _).tail hStep
  exact ⟨_, hReach, rfl, nextIteration_failIfNotReady hReach rfl (by decide) (by decide)⟩

theorem reachable_appends (sys : DeliverSystem) (j : ℕ) :
    Reachable Step sys { sys with info := { sys.info with height := sys.info.height + j } } := by
  induction j with
  | zero => exact Reachable.refl _ _
  | succ j ih =>
    exact Reachable.tail ih (Step.append { sys with info := { sys.info with height := sys.info.height + j } })

/-- When the stop resolved for a request is below its start, `deliverBlocks` neither rejects
it nor ever returns: as the ledger grows it sends `s, s + 1, ...`, however many blocks. -/
theorem deliverBlocks_sends_past_stop {info : LedgerInfo} {seekInfo : SeekInfo}
    (hBehavior : seekInfo.behavior = .blockUntilReady) (hRunning : (startSession info seekInfo).status = none)
    (hPositioned : (startSession info seekInfo).cursor = some (startSession info seekInfo).number)
    (hPast : (startSession info seekInfo).stopNum < (startSession info seekInfo).number) (k : ℕ) :
    ∃ sys, Reachable Step (initial info seekInfo) sys ∧
      sys.session.sent = List.range' (startSession info seekInfo).number k ∧
      sys.session.status = none := by
  induction k with
  | zero => exact ⟨initial info seekInfo, Reachable.refl _ _, startSession_sent info seekInfo, hRunning⟩
  | succ k ih =>
    obtain ⟨sys, hReach, hSent, hStatus⟩ := ih
    have hServed := served_of_reachable hReach
    have hLength : sys.session.sent.length = k := by rw [hSent, List.length_range']
    let grown : DeliverSystem := { sys with info := { sys.info with
      height := sys.info.height + ((startSession info seekInfo).number + k + 1 - sys.info.height) } }
    have hGrown : Reachable Step (initial info seekInfo) grown :=
      Reachable.trans hReach (reachable_appends sys _)
    have hCursor : sys.session.cursor = some ((startSession info seekInfo).number + k) := by
      rw [hServed.cursor, hPositioned, hLength]
      rfl
    have hIn : (startSession info seekInfo).number + k < grown.info.height := by
      simp only [grown]
      omega
    have hNotPast : ¬ (sys.session.seekInfo.behavior = .failIfNotReady ∧
        sys.session.number > uint64Pred grown.info.height) := by
      rintro ⟨hFail, -⟩
      rw [hServed.seekInfo, startSession_seekInfo, hBehavior] at hFail
      cases hFail
    have hStop : sys.session.stopNum ≠ (startSession info seekInfo).number + k := by
      rw [hServed.stopNum]
      omega
    refine ⟨{ grown with session := { sys.session with
        cursor := some ((startSession info seekInfo).number + k + 1),
        number := sys.session.number + 1,
        sent := sys.session.sent ++ [(startSession info seekInfo).number + k] } },
      Reachable.tail hGrown (Step.iterate hStatus ?_), ?_, hStatus⟩
    · simp only [nextIteration, hNotPast, ↓reduceIte, hCursor, hIn, hStop, grown]
    · rw [hSent, List.range'_1_concat]

theorem deliverBlocks_sends_past_newest_from_next_commit :
    (startSession ⟨3, none⟩ ⟨.nextCommit, .newest, .blockUntilReady⟩).number = 3 ∧
    (startSession ⟨3, none⟩ ⟨.nextCommit, .newest, .blockUntilReady⟩).stopNum = 2 ∧
    ∃ sys, Reachable Step (initial ⟨3, none⟩ ⟨.nextCommit, .newest, .blockUntilReady⟩) sys ∧
      sys.session.sent = [3, 4] ∧ sys.session.status = none :=
  ⟨rfl, rfl, deliverBlocks_sends_past_stop rfl (by decide) (by decide) (by decide) 2⟩

end FabricPeer.Deliver
