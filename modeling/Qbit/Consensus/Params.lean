import Qbit.Primitives.Block

/-!
# Consensus parameters

The fields of `Consensus::Params` that the modelled functions read, under the source's names, and
the predicates of a height that go with them.  Heights are the source's `int`; nothing here depends
on its width.
-/

namespace Qbit

/-- `Consensus::ASERTAnchor` -/
structure ASERTAnchor where
  nHeight : Int := 0
  /-- The anchor target in compact encoding. -/
  nBits : UInt32 := 0
  /-- The permissionless lane's anchor target; 0 means `nBits`. -/
  nBitsLegacy : UInt32 := 0
  /-- The AuxPoW lane's anchor target; 0 means `nBits`. -/
  nBitsAuxPow : UInt32 := 0
  /-- The number of AuxPoW blocks up to and including the anchor. -/
  nAuxPow : Nat := 0
  nBlockTime : Int := 0
  deriving DecidableEq

/-- The largest `int`. -/
def intMax : Int := 2 ^ 31 - 1

/-- `Consensus::Params` -/
structure Params where
  hashGenesisBlock : Uint256 := 0
  nSubsidyInitial : Int := 0
  nSubsidyStepInterval : Int := 0
  nSubsidyStepdownNumerator : Int := 0
  nSubsidyStepdownDenominator : Int := 0
  BIP34Height : Int := 0
  BIP34Hash : Uint256 := 0
  BIP65Height : Int := 0
  BIP66Height : Int := 0
  CSVHeight : Int := 0
  SegwitHeight : Int := 0
  P2MRHeight : Int := 0
  nP2MRValidationWeightV2Height : Int := intMax
  nFutureBlockTimeV2Height : Int := intMax
  nOuterReservedWitnessHeight : Int := intMax
  powLimit : Uint256
  fPowAllowMinDifficultyBlocks : Bool := false
  enforce_BIP94 : Bool := false
  fPowNoRetargeting : Bool := false
  /-- Blocks create P2MR outputs only, with the exemptions of `IsRestrictedOutputModeScript`. -/
  fRestrictedOutputMode : Bool := false
  fPowUseASERT : Bool := false
  nCadenceActivationHeight : Int := 0
  nAuxpowDisplayCommitmentHeight : Int := 0
  nPowTargetSpacing : Int
  /-- The permissionless lane's spacing; 0 means `nPowTargetSpacing`. -/
  nPowTargetSpacingLegacy : Int := 0
  /-- The AuxPoW lane's spacing; 0 means `nPowTargetSpacing`. -/
  nPowTargetSpacingAuxPow : Int := 0
  nPowTargetTimespan : Int := 0
  nAuxpowChainId : Int := 0
  nASERTHalfLife : Int := 0
  asertAnchorParams : ASERTAnchor := {}
  /-- Blocks carry a solution of `signet_challenge`. -/
  signet_blocks : Bool := false
  signet_challenge : List UInt8 := []

namespace Params

variable (params : Params) (height : Int)

/-- `CadenceActiveAtHeight` -/
def cadenceActiveAtHeight : Bool :=
  decide (params.nCadenceActivationHeight ≤ height)

/-- `AuxpowDisplayCommitmentActiveAtHeight` -/
def auxpowDisplayCommitmentActiveAtHeight : Bool :=
  decide (params.nAuxpowDisplayCommitmentHeight ≤ height)

/-- `OuterReservedWitnessActiveAtHeight` -/
def outerReservedWitnessActiveAtHeight : Bool :=
  decide (params.nOuterReservedWitnessHeight ≤ height)

/-- `P2MRValidationWeightV2ActiveAtHeight` -/
def p2mrValidationWeightV2ActiveAtHeight : Bool :=
  decide (params.nP2MRValidationWeightV2Height ≤ height)

/-- `FutureBlockTimeV2ActiveAtHeight` -/
def futureBlockTimeV2ActiveAtHeight : Bool :=
  decide (params.nFutureBlockTimeV2Height ≤ height)

/-- `DifficultyAdjustmentInterval` -/
def difficultyAdjustmentInterval (params : Params) : Int :=
  params.nPowTargetTimespan.tdiv params.nPowTargetSpacing

end Params

/-! ## The main network -/

/-- `hashGenesisBlock` of the main network. -/
def mainGenesisHash : Uint256 :=
  0x0000000000004d60aa5d46013991d0a0e2995d89ee98e53068ae196d763e79f2

/-- `CMainParams`, as far as it is modelled. -/
def mainParams : Params where
  hashGenesisBlock := mainGenesisHash
  nSubsidyInitial := 210 * 100000000
  nSubsidyStepInterval := 43200
  nSubsidyStepdownNumerator := 598
  nSubsidyStepdownDenominator := 625
  BIP34Hash := mainGenesisHash
  nP2MRValidationWeightV2Height := 0
  nFutureBlockTimeV2Height := 0
  nOuterReservedWitnessHeight := 0
  fRestrictedOutputMode := true
  powLimit := 0x0000ffffffffffffffffffffffffffffffffffffffffffffffffffffffffffff
  fPowUseASERT := true
  nPowTargetSpacing := 60
  nPowTargetSpacingLegacy := 75
  nPowTargetSpacingAuxPow := 300
  nPowTargetTimespan := 14 * 24 * 60 * 60
  nAuxpowChainId := 47
  nASERTHalfLife := 2 * 60 * 60
  asertAnchorParams :=
    { nHeight := 0
      nBits := 0x18109c29
      nBitsLegacy := 0x18109c29
      nBitsAuxPow := 0x1801ca70
      nAuxPow := 0
      nBlockTime := 1784131083 }

/-- The header of the block that `CreateMainNetGenesisBlock` makes. -/
def mainGenesis : CBlockHeader where
  nVersion := 1
  hashMerkleRoot := 0x584b62d357e3213ae27815d53b41efc869cc91fcf73d6a81dcab5e08508cb6f1
  nTime := 1784131083
  nBits := 0x1a7f1ab5
  nNonce := 1084616938

/-- A permissionless header on the genesis block, a spacing later. -/
def mainHeader1 : CBlockHeader where
  nVersion := 0x20000000
  hashPrevBlock := mainGenesisHash
  nTime := 1784131158
  nBits := 0x18109c29

/-- The hash of that header. -/
def mainHeader1Hash : Uint256 :=
  0xaf171622d8d23e02610aa45a165f6a4b184fdb01184cfc3d9f0d23d61e9a0a49

/-! ## The test network -/

/-- `hashGenesisBlock` of testnet4. -/
def testNet4GenesisHash : Uint256 :=
  0x000000000000796fe86bbc0bf1b66a07e4b4c0676f74b54cf7e5ce8b3f1a0090

/-- `CTestNet4Params`, as far as it is modelled. -/
def testNet4Params : Params where
  hashGenesisBlock := testNet4GenesisHash
  nSubsidyInitial := 210 * 100000000
  nSubsidyStepInterval := 43200
  nSubsidyStepdownNumerator := 598
  nSubsidyStepdownDenominator := 625
  BIP34Hash := testNet4GenesisHash
  nP2MRValidationWeightV2Height := 60000
  nFutureBlockTimeV2Height := 60000
  nOuterReservedWitnessHeight := 0
  enforce_BIP94 := true
  fRestrictedOutputMode := true
  powLimit := 0x0000ffffffffffffffffffffffffffffffffffffffffffffffffffffffffffff
  fPowUseASERT := true
  nAuxpowDisplayCommitmentHeight := 20500
  nPowTargetSpacing := 60
  nPowTargetSpacingLegacy := 75
  nPowTargetSpacingAuxPow := 300
  nPowTargetTimespan := 14 * 24 * 60 * 60
  nAuxpowChainId := 31430
  nASERTHalfLife := 2 * 60 * 60
  asertAnchorParams :=
    { nHeight := 0
      nBits := 0x1a7f1ab5
      nBitsLegacy := 0x1a7f1ab5
      nBitsAuxPow := 0x1a7f1ab5
      nAuxPow := 0
      nBlockTime := 1781704709 }

end Qbit
