import EccoinValidation.Primitives.Transaction
import EccoinValidation.Primitives.ValidationState
import EccoinValidation.Chain.BlockIndex
import EccoinValidation.Chain.State
import EccoinValidation.Chain.Received
import EccoinValidation.Finality.LockTime
import EccoinValidation.Finality.SequenceLocks
import EccoinValidation.Finality.Bip68
import EccoinValidation.Block.CheckBlock
import EccoinValidation.Block.Contextual
import EccoinValidation.Coins.TxInputs
import EccoinValidation.Coins.Update
import EccoinValidation.Coins.Scripts
import EccoinValidation.Pow.Compact
import EccoinValidation.Pow.Target
import EccoinValidation.Chain.Invalidate
import EccoinValidation.Chain.Reconsider
import EccoinValidation.Chain.BestInvalid
import EccoinValidation.Chain.Prune
import EccoinValidation.Chain.Runs
import EccoinValidation.Chain.Stranded
import EccoinValidation.Mempool.Pool
import EccoinValidation.Mempool.Accept
import EccoinValidation.Mempool.Limiter
import EccoinValidation.Storage.Flush
import EccoinValidation.Storage.BlockPos
import EccoinValidation.Storage.Placement
import EccoinValidation.Storage.BlockTree
import EccoinValidation.Storage.BlockStore
import EccoinValidation.Wallet.Stream
import EccoinValidation.Wallet.MapValue
import EccoinValidation.Storage.FileNames
import EccoinValidation.Wallet.WalletTx
import EccoinValidation.Wallet.Keys
