import FabricPeer.Ledger.StateDb

/-! # The combined iterator

`validation/combined_iterator.go`: a range scan of the committed state overlaid with the
update batch of the preceding valid transactions of the block. The two scans are merged by
key, the batch's entry winning on a tie, and the delete markers of the batch are skipped; when
the range query was not exhausted during simulation its end key is served last, once. The
iterator is the list of everything `Next` serves before it returns nil.
-/

namespace FabricPeer.Ledger

open GoRun

set_option autoImplicit false

/-- `isDelete` of an item: a nil `Value`. -/
def VersionedKV.isDelete (item : VersionedKV) : Bool := item.value.isNone

def serveItem (item : VersionedKV) (rest : List VersionedKV) : List VersionedKV :=
  if item.isDelete then rest else item :: rest

/-- The items `combinedIterator.Next` serves while one of the two scans has items left; on
`compareKeys` a nil item comes after every key. -/
def mergeItems : List VersionedKV → List VersionedKV → List VersionedKV
  | [], [] => []
  | dbItem :: dbItems, [] => serveItem dbItem (mergeItems dbItems [])
  | [], updatesItem :: updatesItems => serveItem updatesItem (mergeItems [] updatesItems)
  | dbItem :: dbItems, updatesItem :: updatesItems =>
    match compare dbItem.key updatesItem.key with
    | .lt => serveItem dbItem (mergeItems dbItems (updatesItem :: updatesItems))
    | .eq => serveItem updatesItem (mergeItems dbItems updatesItems)
    | .gt => serveItem updatesItem (mergeItems (dbItem :: dbItems) updatesItems)
termination_by dbItems updatesItems => dbItems.length + updatesItems.length

/-- `serveEndKeyIfNeeded`: the end key's latest value, from the batch else from the state,
served without its metadata, unless it is absent or deleted. -/
def serveEndKeyIfNeeded (db : DB) (updates : UpdateBatch) (ns endKey : String)
    (includeEndKey : Bool) : List VersionedKV :=
  if !includeEndKey then []
  else
    let vv := match updates.get ns endKey with
      | some vv => some vv
      | none => db.getState ns endKey
    match vv with
    | none => []
    | some vv => serveItem ⟨ns, endKey, vv.value, [], vv.version⟩ []

/-- Everything a `combinedIterator` serves. -/
def combinedIterator (db : DB) (updates : UpdateBatch) (ns startKey endKey : String)
    (includeEndKey : Bool) : List VersionedKV :=
  mergeItems (db.getStateRangeScanIterator ns startKey endKey)
      (updates.getRangeScanIterator ns startKey endKey) ++
    serveEndKeyIfNeeded db updates ns endKey includeEndKey

end FabricPeer.Ledger
