import FabricPeer.Lib.Fault
import FabricPeer.Lib.GoMap
import FabricPeer.Ledger.KvRwSet
import FabricPeer.Ledger.Merkle
import FabricPeer.Lib.Chunks
import FabricPeer.Ledger.MerkleSpec
import FabricPeer.Ledger.RangeQueryValidator
import FabricPeer.Ledger.StateDb
import FabricPeer.Ledger.TxOps
import FabricPeer.Ledger.CombinedIterator
import FabricPeer.Ledger.CombinedIteratorSpec
import FabricPeer.Ledger.Validator
import FabricPeer.Ledger.BlockValidation
import FabricPeer.Ledger.QueryExecutor
import FabricPeer.Ledger.PhantomCheck
import FabricPeer.Lib.Transition
import FabricPeer.Committer.TxValidator
import FabricPeer.Committer.Deadlock
import FabricPeer.Lib.Varint
import FabricPeer.Blkstorage.Serialization
import FabricPeer.Blkstorage.Stream
import FabricPeer.Blkstorage.BlockIndex
import FabricPeer.Blkstorage.BlockfileMgr
import FabricPeer.Blkstorage.Recovery
import FabricPeer.Lib.SortedMap
import FabricPeer.Pvtdatastorage.Store
import FabricPeer.Pvtdatastorage.Reconcile
import FabricPeer.Pvtdatastorage.Purger
import FabricPeer.Pvtdatastorage.StoreSpec
import FabricPeer.Pvtdatastorage.PurgerSpec
import FabricPeer.Pvtdatastorage.ReconcileSpec
import FabricPeer.Pvtdatastorage.ReadSpec
import FabricPeer.Pvtdatastorage.KvEncoding
import FabricPeer.Lib.TopRanked
import FabricPeer.Pvtdatastorage.MissingDataSpec
import FabricPeer.Ledger.TxOpsSpec
import FabricPeer.Orderer.Blockcutter
import FabricPeer.Orderer.Membership
import FabricPeer.Orderer.MembershipSpec
import FabricPeer.Lib.Asn1
import FabricPeer.Protoutil.BlockUtils
import FabricPeer.Protoutil.BlockVerification
import FabricPeer.Orderer.SmartBft
import FabricPeer.Orderer.SmartBftSpec
import FabricPeer.Deliver.DeliverBlocks
import FabricPeer.Deliver.DeliverSpec
import FabricPeer.Lib.Allocation
import FabricPeer.Discovery.Endorsement
import FabricPeer.Discovery.EndorsementSpec
import FabricPeer.Gateway.EndorsementPlan
import FabricPeer.Gateway.EndorsementPlanSpec
import FabricPeer.Lib.ByteOrder
import FabricPeer.Ledger.OrderPreserving
import FabricPeer.History.KvEncoding
import FabricPeer.History.HistoryDb
import FabricPeer.Lib.StoreIterator
import FabricPeer.Ledger.StateLevelDb
import FabricPeer.Blkstorage.StreamSpec
import FabricPeer.Lib.BinarySearch
import FabricPeer.Blkstorage.FileSearch
import FabricPeer.Blkstorage.Rollback
import FabricPeer.Lib.Threshold
import FabricPeer.Policies.Cauthdsl
import FabricPeer.Policies.Convert
import FabricPeer.Lib.ListOrder
import FabricPeer.Policies.Inquire
import FabricPeer.Policies.InquireSpec
import FabricPeer.Graph.Tree
import FabricPeer.Graph.TreeSpec
import FabricPeer.Policies.SatisfiedBy
import FabricPeer.Policies.SatisfiedBySpec
import FabricPeer.Graph.PermuteSpec
import FabricPeer.Policies.Selection
import FabricPeer.Discovery.PrincipalSets
import FabricPeer.Gossip.MsgStore
import FabricPeer.Snapshot.File
import FabricPeer.Confighistory.Mgr
import FabricPeer.Confighistory.MgrSpec
import FabricPeer.Lib.SubStore
import FabricPeer.Leveldbhelper.Provider
import FabricPeer.Leveldbhelper.ProviderSpec
import FabricPeer.Lib.RootedPath
import FabricPeer.Configtx.ConfigMap
import FabricPeer.Configtx.ConfigMapSpec
import FabricPeer.Configtx.Update
import FabricPeer.Configtx.UpdateSpec
import FabricPeer.Configtx.Compute
import FabricPeer.Configtx.ComputeSpec
import FabricPeer.Lib.Destutter
import FabricPeer.Blkstorage.TxIDIndex
import FabricPeer.Blkstorage.TxIDIndexSpec
import FabricPeer.Orderer.BlockPuller
import FabricPeer.Orderer.BlockPullerSpec
