import SmiloBft.Types
import SmiloBft.Rlp
import SmiloBft.HeaderCodec
import SmiloBft.ValidatorSet
import SmiloBft.Tendermint.Verify
import SmiloBft.Tendermint.Prepare
import SmiloBft.Tendermint.Commit
import SmiloBft.Tendermint.Batch
import SmiloBft.Sport.Engine
import SmiloBft.Sport.Reward
import SmiloBft.Params.Config
import SmiloBft.Params.Rules
import SmiloBft.Plugin.Service
import SmiloBft.Tendermint.Finalize
