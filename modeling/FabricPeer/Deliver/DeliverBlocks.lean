import Mathlib.Data.List.Basic
import FabricPeer.Lib.Transition
import FabricPeer.Lib.Fault

/-! # Serving a deliver request

`Handler.deliverBlocks` (`common/deliver/deliver.go`) positions an iterator of the channel's
ledger at the start of a `SeekInfo` (`FileLedger.Iterator`,
`common/ledger/blockledger/fileledger/impl.go`), resolves the number of the block to stop at,
and then sends block after block: `Next` waits until the next block is in the ledger, and the
loop ends when the block sent is the stop block. Only a `Specified` stop is compared with the
start; a `NextCommit` stop has no case in the `switch`, so it stops at the zero value of
`stopNum`.

The ledger grows while a request is served, so serving a request is a transition system: the
ledger appends a block, the handler runs one iteration of its loop, or the handler stops on
a cancelled context, a consensus error, a revoked authorization or a failed send.
-/

namespace FabricPeer.Deliver

open GoRun (uint64Pred)

set_option autoImplicit false

inductive SeekPosition where
  | oldest
  | newest
  | specified (number : ℕ)
  | nextCommit
  deriving DecidableEq, Repr

inductive SeekBehavior where
  | blockUntilReady
  | failIfNotReady
  deriving DecidableEq, Repr

structure SeekInfo where
  start : SeekPosition
  stop : SeekPosition
  behavior : SeekBehavior
  deriving DecidableEq, Repr

inductive Status where
  | success
  | badRequest
  | forbidden
  | notFound
  | serviceUnavailable
  | internalServerError
  deriving DecidableEq, Repr

/-- What `GetBlockchainInfo` reports: the height, and the last block of the snapshot the ledger
was bootstrapped from, if any. -/
structure LedgerInfo where
  height : ℕ
  lastBlockInSnapshot : Option ℕ
  deriving DecidableEq, Repr

/-- `blockfileMgr.firstPossibleBlockNumberInBlockFiles`. -/
def firstPossibleBlockNumber (info : LedgerInfo) : ℕ :=
  match info.lastBlockInSnapshot with
  | none => 0
  | some lastBlock => lastBlock + 1

/-- `FileLedger.Iterator`: the block its iterator reads first (`none` for a
`NotFoundErrorIterator`, whose `Next` returns `NOT_FOUND`), and the starting number it
returns. -/
def iterator (info : LedgerInfo) (startPosition : SeekPosition) : Option ℕ × ℕ :=
  let startingBlockNumber : Option ℕ :=
    match startPosition with
    | .oldest => some 0
    | .newest =>
      let newestBlockNumber := uint64Pred info.height
      if info.lastBlockInSnapshot = some newestBlockNumber then some info.height
      else some newestBlockNumber
    | .specified number => if number > info.height then none else some number
    | .nextCommit => some info.height
  match startingBlockNumber with
  | none => (none, 0)
  | some start =>
    if start < firstPossibleBlockNumber info then (none, 0) else (some start, start)

structure Session where
  seekInfo : SeekInfo
  cursor : Option ℕ
  number : ℕ
  stopNum : ℕ
  sent : List ℕ
  status : Option Status
  deriving DecidableEq, Repr

/-- `deliverBlocks` up to its loop, for an authorized request with a start and a stop. -/
def startSession (info : LedgerInfo) (seekInfo : SeekInfo) : Session :=
  let (cursor, number) := iterator info seekInfo.start
  let stopNum : Option ℕ :=
    match seekInfo.stop with
    | .oldest => some number
    | .newest => if seekInfo.start = seekInfo.stop then some number else some (uint64Pred info.height)
    | .specified stop => if stop < number then none else some stop
    | .nextCommit => some 0
  match stopNum with
  | none => ⟨seekInfo, cursor, number, 0, [], some .badRequest⟩
  | some stopNum => ⟨seekInfo, cursor, number, stopNum, [], none⟩

/-- One iteration of the loop of `deliverBlocks` on a ledger of the given height; `none` while
`Next` waits for a block that is not in the ledger yet. The block the ledger holds at `n` has
number `n`. -/
def nextIteration (info : LedgerInfo) (session : Session) : Option Session :=
  if session.seekInfo.behavior = .failIfNotReady ∧ session.number > uint64Pred info.height then
    some { session with status := some .notFound }
  else
    match session.cursor with
    | none => some { session with status := some .notFound }
    | some next =>
      if next < info.height then
        let session' := { session with
          cursor := some (next + 1), number := session.number + 1, sent := session.sent ++ [next] }
        if session.stopNum = next then some { session' with status := some .success }
        else some session'
      else none

/-- The channel's ledger and one request it serves. -/
structure DeliverSystem where
  info : LedgerInfo
  session : Session
  deriving DecidableEq, Repr

def abortStatus (status : Status) : Prop :=
  status = .internalServerError ∨ status = .serviceUnavailable ∨ status = .forbidden

inductive Step : DeliverSystem → DeliverSystem → Prop
  | append (sys : DeliverSystem) :
      Step sys { sys with info := { sys.info with height := sys.info.height + 1 } }
  | iterate {sys : DeliverSystem} {session' : Session} (hRunning : sys.session.status = none)
      (hNext : nextIteration sys.info sys.session = some session') :
      Step sys { sys with session := session' }
  | abort {sys : DeliverSystem} (status : Status) (hRunning : sys.session.status = none)
      (hStatus : abortStatus status) :
      Step sys { sys with session := { sys.session with status := some status } }

/-- The system when the request arrives at a ledger with the given info. -/
def initial (info : LedgerInfo) (seekInfo : SeekInfo) : DeliverSystem :=
  ⟨info, startSession info seekInfo⟩

end FabricPeer.Deliver
