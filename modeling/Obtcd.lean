import Obtcd.Blockchain.Authorization
import Obtcd.Blockchain.CacheRun
import Obtcd.Txscript.Builder
import Obtcd.Txscript.HashTypeByte
import Obtcd.Txscript.Replay
import Obtcd.Blockchain.UndoBlock
import Obtcd.Mining.SigOpCosts
import Obtcd.Wire.Overclaim
import Obtcd.Ffldb.Snapshots
import Obtcd.Ffldb.Treap
import Obtcd.Mining.Budget
import Obtcd.ExpiryIndex.Rebuild
import Obtcd.Mining.ReapRoom
import Obtcd.Indexers.Resume
import Obtcd.Indexers.AddrIndex
import Obtcd.Mining.TwoSelectors
import Obtcd.Blockchain.Asert
import Obtcd.Blockchain.Orphans
import Obtcd.Txscript.MultiSig
import Obtcd.Blockchain.MerkleStore
import Obtcd.Base58
import Obtcd.Blockchain.Tree
