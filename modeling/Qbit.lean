import Qbit.Pow.AsertFormula
import Qbit.Pow.LaneHistory
import Qbit.Pow.Arith
import Qbit.Chain.Reload
import Qbit.Validation.Committed
import Qbit.Wallet.SharedKeys
import Qbit.Sign.Sound
import Qbit.Sign.Schedule
import Qbit.Sign.MultiParty
import Qbit.HeadersSync.Accounting
import Qbit.Wallet.AuthTags
import Qbit.Photon.Reflection
import Qbit.Photon.Relay
import Qbit.Photon.Bookkeeping
import Qbit.Script.Conditions
import Qbit.Script.Precomputed
import Qbit.Sign.Threshold
import Qbit.Sign.Needed
import Qbit.Storage.Compaction
import Qbit.Validation.WitnessPruned
import Qbit.Validation.Undo
