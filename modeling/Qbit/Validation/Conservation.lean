import Qbit.Validation.Overflow

/-!
# Conservation of the supply

A node's coins change in two ways: a block is connected on top of the tip, and the cache of coins is
written to the database.  `ConnectedChain` is any run of the two from empty coins.  Along every run
the stock of all coins stays within the subsidies of the heights passed so far
(`ConnectedChain.conserves`), and hence the supply does.

The genesis block has no parent and adds nothing, so height 0 does not count.
-/

open Checked

namespace Qbit

/-- The coins of a node whose active chain ends at an index, or is empty. -/
inductive ConnectedChain (C : Crypto) (params : Params) : Option CBlockIndex → CoinsViews → Prop
  | start : ConnectedChain C params none {}
  | connect {tip : Option CBlockIndex} {views views' : CoinsViews} {av : AssumeValid}
      {block : CBlock} {pindex : CBlockIndex} {witness_pruned : Bool} {undo : List (List Coin)}
      (hchain : ConnectedChain C params tip views) (hprev : pindex.pprev = tip)
      (hheight : pindex.nHeight = heightAfter tip)
      (hconnect : connectToTip C params av views block pindex witness_pruned = .ok (views', undo)) :
      ConnectedChain C params (some pindex) views'
  | flush {tip : Option CBlockIndex} {views views' : CoinsViews}
      (hchain : ConnectedChain C params tip views) (hflush : views.flushTip = .ok views') :
      ConnectedChain C params tip views'

/-- The subsidies of the heights from 1 on. -/
def issuedBy (params : Params) (height : Nat) : Int :=
  ∑ h ∈ Finset.Icc 1 height, subsidyAt params h

theorem issuedBy_succ (params : Params) (height : Nat) :
    issuedBy params (height + 1) = issuedBy params height + subsidyAt params (height + 1) :=
  Finset.sum_Icc_succ_top (Nat.le_add_left 1 height) _

theorem issuedBy_le {params : Params} (h : SubsidySchedule params) (height : Nat) :
    issuedBy params height ≤ ∑ i ∈ Finset.range (height + 1), subsidyAt params i := by
  refine Finset.sum_le_sum_of_subset_of_nonneg (fun i hi => ?_) fun i _ _ => subsidyAt_nonneg h i
  rw [Finset.mem_Icc] at hi
  rw [Finset.mem_range]
  omega

/-! ## The invariant -/

/-- The height of the tip; an empty chain counts as the genesis block. -/
def tipHeight (tip : Option CBlockIndex) : Nat := (heightAfter tip - 1).toNat

/-- What holds of the coins at every tip. -/
structure Conserves (params : Params) (tip : Option CBlockIndex) (views : CoinsViews) : Prop where
  height_nonneg : ∀ pindex, tip = some pindex → 0 ≤ pindex.nHeight
  inRange : views.InRange
  total_le : (views.holding.total : Int) ≤ issuedBy params (tipHeight tip)

theorem total_under_empty (h : Holding COutPoint) :
    (h.under (CCoinsViewCache.layer {})).total = h.total :=
  finsum_congr fun _ => Holding.stock_under_none rfl

section Invariant

variable {C : Crypto} {params : Params} {tip : Option CBlockIndex} {views views' : CoinsViews}

theorem Conserves.start : Conserves params none {} where
  height_nonneg := by simp
  inRange := .empty
  total_le := by
    have hempty : (CoinsViews.holding {}).total = 0 :=
      finsum_eq_zero_of_forall_eq_zero fun _ => rfl
    rw [hempty]
    rfl

/-- **Connecting a block keeps the invariant.**  A block on a parent adds at most its subsidy, and
the height goes up by one; a block without a parent adds nothing. -/
theorem Conserves.connectToTip (hschedule : SubsidySchedule params)
    (h : Conserves params tip views) {av : AssumeValid} {block : CBlock} {pindex : CBlockIndex}
    {witness_pruned : Bool} {undo : List (List Coin)} (hprev : pindex.pprev = tip)
    (hheight : pindex.nHeight = heightAfter tip)
    (hconnect : connectToTip C params av views block pindex witness_pruned = .ok (views', undo)) :
    Conserves params (some pindex) views' := by
  obtain ⟨⟨view, undo'⟩, hblock, hconnect⟩ := bind_eq_ok_iff.mp hconnect
  obtain ⟨flushed, hflush, hviews'⟩ := bind_eq_ok_iff.mp hconnect
  cases hviews'
  replace hflush := liftFault_eq_ok_iff.mp hflush
  have hnonneg : 0 ≤ pindex.nHeight := by
    rw [hheight]
    rcases tip with _ | q
    · exact le_refl _
    have := h.height_nonneg q rfl
    change 0 ≤ q.nHeight + 1
    omega
  have hsubsidy : getBlockSubsidy pindex.nHeight params =
      .ok (subsidyAt params pindex.nHeight.toNat) := by
    have := getBlockSubsidy_eq hschedule pindex.nHeight.toNat
    rwa [Int.toNat_of_nonneg hnonneg] at this
  have hblockTotal := connectBlock_total views.finite_holding views.shows_holding hsubsidy
    (subsidyAt_nonneg hschedule _) hblock
  have htip : tipHeight (some pindex) = pindex.nHeight.toNat := by simp [tipHeight, heightAfter]
  refine ⟨?_, h.inRange.flushView (connectBlock_inRange (CCoinsViewCache.inRange_empty 0) hblock)
    hflush, ?_⟩
  · simp [hnonneg]
  · have htotal := h.total_le
    rw [total_under_empty, hprev] at hblockTotal
    rw [CoinsViews.flushView_total hflush, htip, hheight]
    rcases tip with _ | q
    · exact hblockTotal.trans htotal
    have hq : (heightAfter (some q)).toNat = tipHeight (some q) + 1 := by
      have := h.height_nonneg q rfl
      rw [tipHeight, heightAfter]
      omega
    rw [Option.isSome_some, if_pos rfl, hheight, hq] at hblockTotal
    rw [hq, issuedBy_succ]
    omega

/-- **The invariant holds along every run.** -/
theorem ConnectedChain.conserves (hschedule : SubsidySchedule params)
    (hchain : ConnectedChain C params tip views) : Conserves params tip views := by
  induction hchain with
  | start => exact .start
  | connect _ hprev hheight hconnect ih => exact ih.connectToTip hschedule hprev hheight hconnect
  | flush _ hflush ih =>
    exact ⟨ih.height_nonneg, ih.inRange.flushTip hflush,
      (Int.ofNat_le.mpr (CoinsViews.flushTip_total hflush)).trans ih.total_le⟩

end Invariant

/-! ## The supply -/

/-- **Supply conservation.**  With the subsidy parameters of the main network, `GetBlockSubsidy`
answers at every height without overflow and never grows, all subsidies together stay within
`MAX_MONEY`, and whatever blocks a node has connected from empty coins on, its unspent coins are
worth at most the subsidies of the heights from 1 to its tip.  Nothing that `ConnectBlock` adds or
multiplies on the way overflows, also for a block that is then refused. -/
theorem supply_conserved (C : Crypto) (params : Params) (hparams : MainSubsidy params) :
    ∃ subsidy : Nat → Int,
      (∀ height : Nat, getBlockSubsidy height params = .ok (subsidy height)) ∧
      (∀ height : Int, getBlockSubsidy height params ≠ .error .overflow) ∧
      (∀ m n : Nat, m ≤ n → subsidy n ≤ subsidy m) ∧
      (∀ height : Nat, ∑ h ∈ Finset.Icc 1 height, subsidy h ≤ maxMoney) ∧
      ∀ (tip : Option CBlockIndex) (views : CoinsViews), ConnectedChain C params tip views →
        (∀ pindex, tip = some pindex → 0 ≤ pindex.nHeight ∧
          views.supply ≤ ∑ h ∈ Finset.Icc 1 pindex.nHeight.toNat, subsidy h) ∧
        ∀ (av : AssumeValid) (block : CBlock) (next : CBlockIndex)
          (witness_pruned fJustCheck : Bool),
          connectBlock C params av views.coinsTip {} block next witness_pruned fJustCheck ≠
            .error (.fault .overflow) := by
  have hschedule := hparams.schedule
  refine ⟨subsidyAt params, getBlockSubsidy_eq hschedule, ?_,
    fun _ _ => subsidyAt_antitone hschedule, ?_, ?_⟩
  · intro height
    obtain ⟨subsidy, hsubsidy, -⟩ := exists_getBlockSubsidy hschedule height
    rw [hsubsidy]
    rintro ⟨⟩
  · intro height
    exact (issuedBy_le hschedule height).trans (hparams.sum_subsidyAt_le (height + 1))
  · intro tip views hchain
    have hinv := hchain.conserves hschedule
    refine ⟨?_, fun av block next witness_pruned fJustCheck =>
      avoids_connectBlock hschedule hinv.inRange.coinsTip (CCoinsViewCache.inRange_empty 0) av block
        next witness_pruned fJustCheck⟩
    rintro pindex rfl
    refine ⟨hinv.height_nonneg pindex rfl, views.supply_le_total.trans ?_⟩
    have htotal := hinv.total_le
    rwa [tipHeight, heightAfter, add_sub_cancel_right] at htotal

/-! ### The first blocks of the main network

The genesis block, and a block on it that claims the whole subsidy for one P2MR output. -/

/-- The input script of the genesis block. -/
def mainGenesisScript : CScript where
  bytes := [0x04, 0xff, 0xff, 0x00, 0x1d, 0x08, 0x04, 0x4c, 0x00, 0x00, 0x00, 0x00, 0x00, 0x00,
    0x4c, 0x54, 0x47, 0x6f, 0x6f, 0x67, 0x6c, 0x65, 0x3a, 0x20, 0x53, 0x65, 0x63, 0x75, 0x72, 0x69,
    0x6e, 0x67, 0x20, 0x45, 0x43, 0x43, 0x20, 0x43, 0x72, 0x79, 0x70, 0x74, 0x6f, 0x63, 0x75, 0x72,
    0x72, 0x65, 0x6e, 0x63, 0x69, 0x65, 0x73, 0x20, 0x61, 0x67, 0x61, 0x69, 0x6e, 0x73, 0x74, 0x20,
    0x51, 0x75, 0x61, 0x6e, 0x74, 0x75, 0x6d, 0x20, 0x56, 0x75, 0x6c, 0x6e, 0x65, 0x72, 0x61, 0x62,
    0x69, 0x6c, 0x69, 0x74, 0x69, 0x65, 0x73, 0x20, 0x39, 0x35, 0x38, 0x31, 0x35, 0x37, 0x3a, 0x33,
    0x61, 0x62, 0x61, 0x66, 0x38, 0x35]

/-- The output script of the genesis blocks: 33 zero bytes and `OP_CHECKSIG`. -/
def genesisOutputScript : CScript where
  bytes := [0x21, 0, 0, 0, 0, 0, 0, 0, 0, 0, 0, 0, 0, 0, 0, 0, 0, 0, 0, 0, 0, 0, 0, 0, 0, 0, 0, 0,
    0, 0, 0, 0, 0, 0, 0xac]

/-- `CreateMainNetGenesisBlock` -/
def mainGenesisBlock : CBlock where
  toCBlockHeader := mainGenesis
  vtx := [{
    version := 1
    vin := [{ prevout := {}, scriptSig := mainGenesisScript }]
    vout := [{ nValue := 21000000000, scriptPubKey := genesisOutputScript }] }]

/-- A coinbase that claims the first subsidy. -/
def mainCoinbase1 : CTransaction where
  vin := [{ prevout := {}, scriptSig := .ofBytes [0x51, 0] }]
  vout := [{ nValue := 21000000000, scriptPubKey := .ofBytes ([0x52, 0x20] ++ serUint256 1) }]

/-- A block with this coinbase, mined at the easiest difficulty. -/
def mainBlock1 : CBlock where
  nVersion := 0x20000000
  hashPrevBlock := mainGenesisHash
  hashMerkleRoot := 0x2dd7f461ae81c6cfa79f57beee6d92e39742b009ad3f9234eefb75165e43e9c2
  nTime := 1784131158
  nBits := 0x1f00ffff
  nNonce := 27471
  vtx := [mainCoinbase1]

/-- SHA-256 on the coinbases and the headers of the two blocks, and on these hashes. -/
def mainSha256 : HashFn :=
  let genesisTx : Uint256 := 0x5cd49ea1005c9f195fd79ef9ddfc7e63ef8acbed7bd3bd27da6c90be5acdadac
  let genesis : Uint256 := 0xf4325a372f59df34df273906f1d0704a596b3cc838e3cd77d122edf3c4dc1171
  let coinbase : Uint256 := 0x66f484c07be677cbbefafc3678be1696c991491831887ea0fbdee536f2f61ada
  let block : Uint256 := 0xe1828880c886e23801f3acd78d175626741cab42cd74467c45860fc136116c0b
  tableHash (
    mainGenesisBlock.vtx.map (fun tx => (tx.serialize false, genesisTx)) ++ [
    (serUint256 genesisTx, mainGenesis.hashMerkleRoot),
    (mainGenesis.serializePure, genesis),
    (serUint256 genesis, mainGenesisHash),
    (mainCoinbase1.serialize false, coinbase),
    (serUint256 coinbase, mainBlock1.hashMerkleRoot),
    (mainBlock1.serializePure, block),
    (serUint256 block, 0x0000f5f9bb55ff0cd85cee0ffe9e41a9f7c935aea5792436ee5aac61887909ed)])

def mainCrypto : Crypto := { vectorCrypto with sha256 := mainSha256 }

def mainIndex0 : CBlockIndex := addToBlockIndex mainCrypto.hash256 none mainGenesis

def mainIndex1 : CBlockIndex :=
  addToBlockIndex mainCrypto.hash256 (some mainIndex0) mainBlock1.toCBlockHeader

/-- The coins after the two blocks. -/
def mainViews1 : BlockCheck (CoinsViews × List (List Coin)) := do
  let (views, _) ← connectToTip mainCrypto mainParams {} {} mainGenesisBlock mainIndex0 false
  connectToTip mainCrypto mainParams {} views mainBlock1 mainIndex1 false

/-- The two blocks connect.  The genesis block's output is not among the coins, and the other's makes
up the whole supply, which is all that may have been issued. -/
theorem supply_conserved_main : ∃ views, ConnectedChain mainCrypto mainParams (some mainIndex1) views ∧
    views.supply = 210 * coin ∧ ∃ subsidy : Nat → Int, getBlockSubsidy 1 mainParams = .ok (subsidy 1) ∧
      views.supply ≤ ∑ h ∈ Finset.Icc 1 1, subsidy h := by
  have hrun : mainViews1.toOption.map (fun r => r.1.supply) = some (210 * coin) := by
    decide +kernel
  obtain ⟨⟨views, undo⟩, hviews, hsupply⟩ := exists_ok_of_toOption_map hrun
  obtain ⟨⟨views0, undo0⟩, h0, h1⟩ := bind_eq_ok_iff.mp hviews
  have hchain : ConnectedChain mainCrypto mainParams (some mainIndex1) views :=
    .connect (.connect .start rfl rfl h0) rfl rfl h1
  obtain ⟨subsidy, hpays, -, -, -, hbound⟩ :=
    supply_conserved mainCrypto mainParams mainParams_mainSubsidy
  exact ⟨views, hchain, hsupply, subsidy, hpays 1, ((hbound _ _ hchain).1 _ rfl).2⟩

end Qbit
