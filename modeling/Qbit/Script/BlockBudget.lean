import Mathlib.Algebra.BigOperators.Ring.List
import Qbit.Consensus.Weight
import Qbit.Script.Budget

/-!
# PQC verifications in a block

The limit on the weight of a block bounds the PQC verifications in it.  Each input pays for its own
out of a budget that is 50 more than its serialized witness, and it takes at least 41 bytes of the
block besides the witness.  So the budgets exceed the bytes by 9 for an input, and an input that
verifies at all pays the price of at least one verification: with the price lowered by 9, the bytes
of the block pay for all its verifications.
-/

open Bytes Checked

namespace Qbit

open EvalContext

/-- An input of a transaction with the output it spends. -/
structure SpendingInput where
  tx : CTransaction
  spent_outputs : List CTxOut
  nIn : Nat
  txin : CTxIn
  txout : CTxOut

namespace SpendingInput

/-- `CScriptCheck::operator()` on the data of `CheckInputScripts`: the PQC verifications that were
made, if the input is accepted. -/
def check (C : Crypto) (flags : VerifyFlags) (i : SpendingInput) :
    Eval (List PQCVerification) := do
  let txdata ← (PrecomputedTransactionData.init C i.tx i.spent_outputs).mapError .fault
  verifyScript C flags (transactionSignatureChecker C i.tx i.nIn i.txout.nValue txdata)
    i.txin.scriptWitness i.txin.scriptSig.bytes i.txout.scriptPubKey.bytes

/-- The output is a native witness program of version 2 and 32 bytes. -/
def spendsP2MR (i : SpendingInput) : Bool :=
  match isWitnessProgram i.txout.scriptPubKey.bytes with
  | some (version, program) => version == 2 && program.length == witnessV2P2MRSize
  | none => false

end SpendingInput

/-- The inputs of a transaction that spends `spent_outputs`. -/
def spendingInputs (tx : CTransaction) (spent_outputs : List CTxOut) : List SpendingInput :=
  (tx.vin.zip spent_outputs).zipIdx.map fun x =>
    { tx, spent_outputs, nIn := x.2, txin := x.1.1, txout := x.1.2 }

/-- The inputs of a block that spend P2MR outputs; the spent outputs are given for each
transaction. -/
def p2mrInputs (block : CBlock) (spent : List (List CTxOut)) : List SpendingInput :=
  (block.vtx.zip spent).flatMap fun x => (spendingInputs x.1 x.2).filter SpendingInput.spendsP2MR

/-! ## One input -/

/-- **An accepted input makes at most as many PQC verifications as its budget pays for.** -/
theorem SpendingInput.check_paid (C : Crypto) (flags : VerifyFlags) (i : SpendingInput) :
    Ensures (i.check C flags) fun calls =>
      pqcValidationCost flags * calls.length ≤
        validationWeight i.txin.scriptWitness :=
  .bind_any fun txdata =>
    verifyScript_paid (transactionSignatureChecker_frugal C i.tx i.nIn i.txout.nValue txdata)
      i.txin.scriptWitness i.txin.scriptSig.bytes i.txout.scriptPubKey.bytes

/-- The bytes of a transaction that an input accounts for. -/
def inputBytes (tx : CTransaction) (txin : CTxIn) : Nat :=
  if tx.hasWitness then 41 + (serWitness txin.scriptWitness).length else 0

theorem hasWitness_of_mem {tx : CTransaction} {txin : CTxIn} (hmem : txin ∈ tx.vin)
    (h : txin.scriptWitness ≠ []) : tx.hasWitness := by
  rw [CTransaction.hasWitness, List.any_eq_true]
  exact ⟨txin, hmem, by simpa using h⟩

/-- Of the price of a verification, all but 9 is paid by the bytes of the input. -/
theorem length_mul_le_inputBytes {flags : VerifyFlags} {tx : CTransaction} {txin : CTxIn}
    {n price : Nat} (hprice : pqcValidationCost flags = price + 9)
    (hlarge : 51 < price) (hmem : txin ∈ tx.vin)
    (hpaid : pqcValidationCost flags * n ≤ validationWeight txin.scriptWitness) :
    n * price ≤ inputBytes tx txin := by
  rcases Nat.eq_zero_or_pos n with rfl | hn
  · simp
  have hbytes : (price + 9) * n ≤ (serWitness txin.scriptWitness).length + 50 := by
    rw [hprice, validationWeight, validationWeightOffset] at hpaid
    exact_mod_cast hpaid
  have hone : price + 9 ≤ (price + 9) * n := Nat.le_mul_of_pos_right (price + 9) hn
  have hwitness : txin.scriptWitness ≠ [] := by
    intro hnil
    have hsize : (serWitness []).length = 1 := by decide
    rw [hnil, hsize] at hbytes
    omega
  rw [inputBytes, if_pos (hasWitness_of_mem hmem hwitness), Nat.mul_comm]
  rw [Nat.add_mul] at hbytes
  omega

/-! ## The block -/

theorem map_fst_zip_sublist {α β : Type} (l : List α) (m : List β) :
    ((l.zip m).map Prod.fst).Sublist l := by
  induction l generalizing m with
  | nil => simp
  | cons a l ih =>
    cases m with
    | nil => simp
    | cons b m => exact (ih m).cons_cons a

theorem txin_sublist (tx : CTransaction) (spent_outputs : List CTxOut) :
    ((spendingInputs tx spent_outputs).map (·.txin)).Sublist tx.vin := by
  have hmap : (spendingInputs tx spent_outputs).map (·.txin) =
      (tx.vin.zip spent_outputs).map Prod.fst := by
    conv_rhs => rw [← List.zipIdx_map_fst 0 (tx.vin.zip spent_outputs), List.map_map]
    simp [spendingInputs]
  rw [hmap]
  exact map_fst_zip_sublist tx.vin spent_outputs

theorem txin_mem {tx : CTransaction} {spent_outputs : List CTxOut} {i : SpendingInput}
    (h : i ∈ spendingInputs tx spent_outputs) : i.txin ∈ tx.vin :=
  (txin_sublist tx spent_outputs).subset (List.mem_map_of_mem h)

theorem sum_inputBytes_le (tx : CTransaction) (spent_outputs : List CTxOut) :
    (((spendingInputs tx spent_outputs).filter SpendingInput.spendsP2MR).map fun i =>
      inputBytes tx i.txin).sum ≤ (tx.serialize true).length := by
  have hsub : ((((spendingInputs tx spent_outputs).filter SpendingInput.spendsP2MR).map
      (·.txin)).map (inputBytes tx)).Sublist (tx.vin.map (inputBytes tx)) :=
    ((List.filter_sublist.map _).trans (txin_sublist tx spent_outputs)).map _
  rw [List.map_map] at hsub
  refine (hsub.sum_le_sum fun _ _ => Nat.zero_le _).trans ?_
  by_cases h : tx.hasWitness
  · have hall : tx.vin.map (inputBytes tx) =
        tx.vin.map fun i => 41 + (serWitness i.scriptWitness).length :=
      List.map_congr_left fun i _ => by rw [inputBytes, if_pos h]
    rw [hall]
    exact CTransaction.inputs_le_serialize h
  · have hall : tx.vin.map (inputBytes tx) = tx.vin.map fun _ => 0 :=
      List.map_congr_left fun i _ => by rw [inputBytes, if_neg h]
    simp [hall]

/-- **What is paid in a block is paid by its bytes.** -/
theorem sum_p2mrInputs_le {f : SpendingInput → Nat} {price : Nat} (vtx : List CTransaction)
    (spent : List (List CTxOut))
    (h : ∀ x ∈ vtx.zip spent, ∀ i ∈ (spendingInputs x.1 x.2).filter SpendingInput.spendsP2MR,
      f i * price ≤ inputBytes x.1 i.txin) :
    (((vtx.zip spent).flatMap fun x =>
      (spendingInputs x.1 x.2).filter SpendingInput.spendsP2MR).map f).sum * price ≤
        (vtx.map fun tx => (tx.serialize true).length).sum := by
  induction vtx generalizing spent with
  | nil => simp
  | cons tx vtx ih =>
    rcases spent with _ | ⟨outputs, spent⟩
    · simp
    rw [List.zip_cons_cons, List.forall_mem_cons] at h
    obtain ⟨htx, hrest⟩ := h
    have hthis : (((spendingInputs tx outputs).filter SpendingInput.spendsP2MR).map f).sum *
        price ≤ (tx.serialize true).length := by
      rw [← List.sum_map_mul_right]
      exact (List.sum_le_sum htx).trans (sum_inputBytes_le tx outputs)
    have hothers := ih spent hrest
    rw [List.zip_cons_cons, List.flatMap_cons, List.map_append, List.sum_append, Nat.add_mul,
      List.map_cons, List.sum_cons]
    exact Nat.add_le_add hthis hothers

/-- **At most 662 PQC verifications in a block**, or 653 under the original validation weight; and
in each input at most as many as its budget pays for. -/
theorem block_pqcVerifications_le (C : Crypto) (flags : VerifyFlags) (block : CBlock)
    (spent : List (List CTxOut)) (weight : Nat) (hweight : getBlockWeight block = .ok weight)
    (hlimit : weight ≤ maxBlockWeight) (calls : SpendingInput → List PQCVerification)
    (haccepted : ∀ i ∈ p2mrInputs block spent, i.check C flags = .ok (calls i)) :
    ((p2mrInputs block spent).map fun i => (calls i).length).sum ≤
        (if .p2mrLegacyValidationWeight ∈ flags then 653 else 662) ∧
      ∀ i ∈ p2mrInputs block spent, ((calls i).length : Int) ≤
        validationWeight i.txin.scriptWitness / pqcValidationCost flags := by
  have hpaid : ∀ i ∈ p2mrInputs block spent, pqcValidationCost flags *
      (calls i).length ≤ validationWeight i.txin.scriptWitness := fun i hi =>
    i.check_paid C flags (calls i) (haccepted i hi)
  refine ⟨?_, fun i hi => ?_⟩
  · obtain ⟨price, hprice, hlarge, hbound⟩ : ∃ price : Nat,
        pqcValidationCost flags = price + 9 ∧ 51 < price ∧
          maxBlockWeight / price ≤ (if .p2mrLegacyValidationWeight ∈ flags then 653 else 662) := by
      rw [pqcValidationCost]
      split
      · exact ⟨3721, by decide, by decide, by decide⟩
      · exact ⟨3674, by decide, by decide, by decide⟩
    have hinput : ∀ x ∈ block.vtx.zip spent,
        ∀ i ∈ (spendingInputs x.1 x.2).filter SpendingInput.spendsP2MR,
          (calls i).length * price ≤ inputBytes x.1 i.txin := by
      intro x hx i hi
      have hmem : i ∈ p2mrInputs block spent := List.mem_flatMap.mpr ⟨x, hx, hi⟩
      exact length_mul_le_inputBytes hprice hlarge (txin_mem (List.mem_of_mem_filter hi))
        (hpaid i hmem)
    have htotal := (sum_p2mrInputs_le block.vtx spent hinput).trans
      ((vtx_le_of_getBlockWeight hweight).trans hlimit)
    exact ((Nat.le_div_iff_mul_le (by omega)).mpr htotal).trans hbound
  · rw [Int.le_ediv_iff_mul_le (pqcValidationCost_pos flags), Int.mul_comm]
    exact hpaid i hi

/-! ## A vector of the repository

The first vector of `test/data/p2mr_pqc_witness_vectors.json`, in a block of its own: a spend of a
P2MR output by one signature with the default hash type.  The hash and the PQC verification are
given where the check asks for them. -/

/-- The signature of the vector, 46 bytes in a line. -/
def vectorSignature : Valtype :=
  [
    0x411417a805d5bdb94227de98fc18abc0a23e8f7d996ebf951c90b60a58a8724ff3dd7a5a6bc320363156dca8ba72,
    0x49cbe5de619225a8bd443dca94c2efd503b3e2df510203da20ee24cdb8ec91562b2a85b1209ec1bffbe8deb24ffe,
    0x6d47fbe4ece9ec835eb336fb547e389a39faf3cf242cccc83b005df9f8fc92bcf2154ab3f8b1bce263ae90e2d711,
    0xc129b69d59b09d99a45b61395eb6b8baababa7fdd079a6a9b377638200b1aea7d28f0a8fb45904b83b8900999939,
    0xf12074e63c77431f6fe3b23b8a39a2e3503b69e89aa44ac28c6e1e571363f6056ee5426611f74202f5f53ff95d24,
    0xdb834306557e3f6a63fadb797ce30a88d9c2eb0685cef16fb9a27c75a5b4ab4e3aedc35228ed8eb2aa45ec60c53f,
    0xa55ac915cc5490ade44048c06bb6bfc6e9d39bcf5ea64769028dc696c3481b1bda7c1029b1a8cba34dec351150f3,
    0xb47d3cfe5d197d5ef1996b0aad0274cff0c2c50da0a48fb73f92700d54394ef97f932473322d61866fd4e2d52bf1,
    0xd61f8db2bc4be827400b0bf357f8ce65c2710b4a474b0cfb8db7694e8d9784bd2247155876820935d564970c8df1,
    0x32ffd4cd640dfc9ecba826dcf583e17576b14f6fc6d815b08bdb2335b722c4cc0f858a65dab6484b11fcfd4e8c02,
    0x9a95b13e5680adae79324517031bb971335cfcde09233df090b410432ff61fac94f1c3ffedae9089d772c8393627,
    0x43bb831ef2b9b83cfbda9ae0f5d1674d8a38bdc7ebd4445e1351762cee0ee980579aa2d1f93d5bdec5fb6196d054,
    0x33e9bf1638c743caa8a57d8688bce6741763d1a933020f7b6ec0b1ca258460e3e020d146d05e68d77b289513b805,
    0x4be9cd4ae7295adc09e6ea30b5685336ea212b56e7228e0297a9c3867aa3129c7f1ea1ad4a98bad119cec924a802,
    0x77d75e1ac23b0e575a2c1e7fdf4a58774e4e844b4c6edb64304af0d0e8531250530defe01d3e1185c2cedbf9ebea,
    0x81ae21cda24bae792a1ab94aae66f6b77225645b7fddc39bdcf4ddcd541540ac4fc03b96ea1f0e1110e932c24ebc,
    0x497ca394321cadfb9dadd636b0df7e0161210b2d3fe9632e1d536ff83d125dd8f3445cb6843026453d4af6392106,
    0xbfe0dd16dc522de76da6bdb7afb6b31c8d58e809862def1a709b3c4052a4785b99ff9617b2f3b3d05b533a506778,
    0xa68cb5885d35745763d8ec18d40f778222eebcfc2fe596bdde85a77ed9ee4bc40b87cec463a62e77b59cf1a7295e,
    0x44a9f36a9ec6061b60dd7dd6671b0b9d27edc5278955803bb6e780f5a9fac9c934678caef4547654be394e3a7d78,
    0x1a7be243290ef6d8b8f7c298a60aa8c804710b694d964477838c55045c85435b63f894eb34e9caf19e78105404ef,
    0x3c3c0430a7ce637106974ade9e17d4f66e7a9f5aedb7676758faea520d7fb465c1de5af6105508ab06e40e4a6270,
    0x86efe87b083ccf7503bdae58b694b759dff52527072706efba3270c83c70b9ea5b5dcfd5250584ff98bf7d455e92,
    0x3ef52493ed100f5a04834b303710f6b19752eaed6821c253346a5b881a5be0c775787d8c8dd708296f8b7d7fe5a6,
    0x0f8f8a9ae8994b4956962604bce63818bea2296df22d7c57035ac11390301de97f21afc50902ff9c255a41b878f5,
    0x63558863cedcf91530f5e57d99ab31a13a640e917e800231dc7708967f8baf0455fc8e51b888a228fe585ff0b252,
    0x3890104f4677ad69d3076213799a7a18f811548859f32d76c0a7a825bcc0980fe1a2972dc057bf23fea700175aa7,
    0xb46b7829e706a0e8a355936d7a0ea5462fb499aeaa28d995c6f8ab6df782cd3e6750c2a36ef428c8e3ed01acea84,
    0xad3caf0e6fb810ba7279db4e4998a8c4dc8f9500e2b4d589e0ef3211731858f6e301f5057ca4825c729b51c108b0,
    0xfae269660816f6ea7463ce2c3387ccd629f99cbeb53f7b0857aac00fcd59b5f66f954761d95a87dac02e98ed67b4,
    0xf2fee8fd394940d8a331728bfe6ce51c4c7205d0039bcc707ec0a2a6bec927b14b6db017c8f44c8158b179c7aa86,
    0x352bfd625c4850f814013464ab6c04387d69ab97a3ef41752079d9c5b857d2049538bf937fd6e0c578d524e6261d,
    0xb67a7b69a80b87a3ff779fbfeef5ba6d700dc59fd0f770179cc8100cb0f1ea83ac4c915748dcfa31413ec177fecd,
    0xf4ad38dee52d59705db57d5a3b98986a3b9c7e0796deb7fc83757d0553842f9d918b9ca15e8e476fafdbf91ad540,
    0x22cc03948ca6956534a52ab419c942d06d1f76df2b1a915f2240ec4698f66f2bccdbb0519b4d51fe6773d0a1fc59,
    0x68bb2a9ff6a288f1173c60b125e762fe79385042cf094c619a1fde81ca35d2af6942aa43aeb6977747f2e75e11d1,
    0xbe3b31f8547d743844fc8da5aebdff0045ca5a4e300bb9b25bd00d18b2ca4950d21b06f77aa55e38a3d0fd82e865,
    0xc53e3f73e203d99c74baedd7c153f20e488f6e03249ac54b2167e176efd69c8bb541c083611329f99d9b7f95f01c,
    0xe4a63722b4ebcaf16e20fcdcff7a26226a6a472a64521c6005ac78ae4527100be4bd593ea601c50d37b8198555d7,
    0xba09677441a2452256c78a60affa914c451320d697a2aa9307e97352dda5a4a3badc6397d339904d74503edc3a62,
    0xf0135f427bc22f0a6879ad5b2693ba0b30a1d2acd7289f269d26a4562288003503a9aa552e49ecc539e9357722cb,
    0xa064ef70e5ed05e6bc6bb39bc33bf5bd2ddaf901131ffa1800a6506f8142f6a084b6821807f088a918ac3471cef3,
    0x6b33f30821f1bdc3b446d01f4d645059983efb3d31ef10b76862327b147c57d48bef57c99350acbc5c436fe8b066,
    0x82d88d0a8385d5b11be61948e34885cf15d0a8f80baed3283ee5c0a9f34699b41e5153335da26cfb9780e4f24f17,
    0x08d6a93f2737d59d1f77e261c73becb893f2344dd74aa1b53401a4f5cc51adaab3dcdfe7a678057eab7faec80687,
    0x5b0e46c40d989dcef2cb544bc93358c6e8c524524aa55b39bf04529865c109e385cc137114bd75a7f5b4cd9df00f,
    0x4d7ecaaa864d244c42b3cf0a51a38ee5b8bc83cedb08d5d7b83bddc6748406f7cb29d5764f361f68b1676230c352,
    0xf82c6befcb8bf72285bad00f05468fa5b2db86dcb1954745192d105f079c91b6af575b117c6184591630cd35499c,
    0x357e95e9fdaa077d4e92fda4a771d2c9c444ca05923ebfc4d16bf53095b12c3d20132c1d0b0e3afed348183e05fb,
    0xbfd034f1692d9baf40f528c320fe7eb134f21e40b278b4210ad21d24a771433b69448c1631b853e704471f36fee5,
    0x61244e7156d69835af4345dd749cf5a5b3e7dd41736761e4b6944b0758be209f312735430c4093c414cc9bcb8ad2,
    0x0c77f0a8892c8a1bb08c5f0849418a01949a6b8db6c8f8347e52ae10def831c1b7cf914f25f316febfb6af0e68df,
    0x72384102c183594a66bc2579dd14945c307dbeffa64aa625572c83ee5e1436f6e7304215fbee11c7bc075b52244d,
    0x8592aec3d2d354b9713ed635e182c05d94dc4d723438300b1c5b7b195319b616ed479386a427572d33f618cfbf1d,
    0x80077bc9b907094d0f923b68717dc786a6476c13e5f7f0260a2bf12ddb25cad93374f1815049739909cbfe33cee7,
    0x996f0100308773287d837ea11c891554439fce5f757807963ebd4ed2abd0c6063f6163bf0182bd90c5bca203d8d7,
    0x6075a76560a7e52c152d550f0bec70330b11e2a93441258f19c1092c8d22d034f51e7bc88bb16fb45edaecc5be3e,
    0x8e1882575bbad678670b0b38d13a3ee91007a83b2cce2b1b639787c6983777043e82685f77c5c6761d8ac5ac8ff5,
    0x0a6569af5149b7f6154fe9f99106421fa677f22b363100e673fe127b74f5338a4dd11f06464f7567549d7c58fc91,
    0xbf72e8944fc9f79820b66259523fe9264526d6fe7190decd0a604b97bea84e5af08e57e6313586132dbaa4f071e4,
    0xeb3bbb37996c8754b76355f208cfcc157d517d68a6e33e94efdbc174ed868feab426d4c0a479b9f699a7032786f1,
    0x40d40a4cfd028f90a85372697e65c96a936424ca77394bbd56a55c2e2a9439273493e69c10e008cba36a5b6827a6,
    0xcd171926d05c00bed1620d466791b56fbeec38eefcaa30cbcc6766e2113977c7ae662780f4b09a9c62630410fdac,
    0xe215fc38c3571670233d1ebcdd8e1a665103e4ce18b863eb40e7704a67b06b4d1174afe8598850f61c2ff9e6ec85,
    0xa033162b6171cde92f1fd98056a10aaae1eea9b33ba3aca07e31da56f0f170d317d65f7b0e21eeb9058713d1f168,
    0x6011295a244d6a1f155a57138d8e2b9eb8b82fd16375d02c405905e33f7146b744d86754317a9fe61482a4225191,
    0x82286502d7aa3852090efff240ad8683c020cd243ebfa4467f4511624c6722e875e41a309bdab0afade7be8ddad6,
    0xceff8fd09ef072aad9b873afa2fd5f323e7668b4db7f2ddd34444991f88dbd709ed5d525cd251c158921ea16d83e,
    0x0c43af78836d12edcd0b0213c096394cb011dbb00bef03dfee84187c48278fbae8326e6624f17ab9a3cc6bc3a91b,
    0xddf9dae95ac39b20591b981de7b6ec6d908fd41e4b1dfbe884390eb30b1c06e1a18e24ef0166ada4a914859f03ea,
    0x764b7a9937654a1406592baf60328155af64cce48860c4ed9047464701b1d9290da0704ee9afbaefb28abdd46475,
    0x62f848efb9a173fbf453d0d897e7ba0bb8a672d6d79e951698f209f668abaec3a68cee0eb5ca88256dc2a70c2494,
    0xb132accdbcdb6e61a47af223c80dcd76256400deae87a3a41df9633ed3eacb12935af74589b144477370167cdc04,
    0x9168f4339bcc864904bb6860aa06b1b018af9d211670a7871ab64fde682c5c5083a987a3253a154c4e12709d6ed8,
    0x757229b6d3b344b359f2b241ca6b23eda2e0afc391a3821ce60987f61f84a9bd02c7f77a7b4d60bbb26606418441,
    0x187d3b32b1cc72fa05d02ee92d599a593a0117d2a63a2f50083001ed011659a6bb74245dff85623c436a2c5b8abb,
    0x3439bd15712ccc1d728c8cea9b8f4177cc68ed2fc6ff09142e56f82b09df5dcc54dafb64e18500a7703e0a877a2d,
    0xaafefef654875fc1896c6a1a8da0f1e03d0ad533e32fd73ec8b66c2c50cb3912bc97dea8bfca00d6bf9b87a17642,
    0x1bc148a8f47eef7e7f1c51fda1bc623d6a30f646cfc64864bf358e9431186dbe7ce326376e301a7f12fe74fadb7e,
    0xc1278bb95a766d2dbd0b2bbbb76a1aaa7c36c96edf3b939d84f003430e427b687ac28846fd9976548bd77a9b8bf7
  ].flatMap (leBytes 46)

def vectorPubkey : Valtype :=
  leBytes 32 0x1e573f9040ef0b558790830c3b996259ae0a83cb453fabf8b870f2f5ffb439ff

/-- The leaf: a key and `OP_CHECKSIGPQC`. -/
def vectorLeafScript : Valtype := pushData vectorPubkey ++ [opChecksigpqc]

def vectorLeafHash : Uint256 :=
  0x7b3dc57c849cf4da0fcbdee24ab478deafb928f51c6655f0d63c00b4a60181eb

def vectorSighash : Uint256 :=
  0x64e29d183a479480709dd73a7c78d7d7265aeb181d62bf71d21b5e7da1f86df5

/-- `OP_1` -/
def vectorTrue : CScript := { bytes := [op1] }

def vectorTx : CTransaction where
  vin := [
    { prevout := {
        hash := 0x1f1e1d1c1b1a191817161514131211100f0e0d0c0b0a09080706050403020100
        n := 7 }
      nSequence := 0xfffffffe
      scriptWitness := [vectorSignature, vectorLeafScript, [0xc1]] },
    { prevout := {
        hash := 0x3f3e3d3c3b3a393837363534333231302f2e2d2c2b2a29282726252423222120
        n := 11 }
      nSequence := 0xfffffffd }]
  vout := [
    { nValue := 900, scriptPubKey := vectorTrue },
    { nValue := 800, scriptPubKey := { bytes := [op0] } }]
  nLockTime := 500000

/-- The outputs that the transaction spends; the first is the P2MR output. -/
def vectorSpent : List CTxOut :=
  [{ nValue := 1000, scriptPubKey := ⟨[op2, 32] ++ serUint256 vectorLeafHash, by simp⟩ },
    { nValue := 2000, scriptPubKey := vectorTrue }]

/-- SHA-256 on the byte strings that are hashed when the first input is checked. -/
def vectorSha256 : HashFn :=
  let tagBytes (tag : String) : List UInt8 := tag.toList.map fun c => UInt8.ofNat c.toNat
  let tagged (taghash : Uint256) (bs : List UInt8) : List UInt8 :=
    serUint256 taghash ++ serUint256 taghash ++ bs
  let leafTag : Uint256 := 0xa49b1ae96df769ade6f92691eb2b3ced47ee46a6cdc721b3b8dccc463a92468b
  let sighashTag : Uint256 :=
    0x6648e10dd9ac5c674b42ddf61c32b6c8d936eeb2ec486418da845ed83a5f5208
  let prevouts : Uint256 :=
    0xc0c6045f2c6208a969dac41146a878970903e2c1885d46aa808de15e5a2a5fa7
  let amounts : Uint256 := 0xa6ad32a03e35d509baa268e437ea28289d6d07529c6efd8f1f7ced8ef2aba365
  let scripts : Uint256 := 0xa9c448e71d4bc575bc14542b796e1de08da0fce273c616db8a75bd19eff94be9
  let sequences : Uint256 :=
    0xc2c6f477c1fd99d61104f15486949ddd3a54b64232fec269568a442a66f06df
  let outputs : Uint256 := 0x8b82b7c8b806351391728859fe40330afb417ab9143f089825fbdf7b9313cfe7
  tableHash [
    (tagBytes "P2MRLeaf", leafTag),
    (tagBytes "P2MRSighash", sighashTag),
    (vectorTx.vin.flatMap fun i => i.prevout.serialize, prevouts),
    (vectorSpent.flatMap fun o => serInt64 o.nValue, amounts),
    (vectorSpent.flatMap fun o => o.scriptPubKey.serialize, scripts),
    (vectorTx.vin.flatMap fun i => serUint32 i.nSequence, sequences),
    (vectorTx.vout.flatMap CTxOut.serialize, outputs),
    (tagged leafTag (0xc0 :: serBytes vectorLeafScript), vectorLeafHash),
    (tagged sighashTag ([0, 0] ++ serUint32 2 ++ serUint32 500000 ++
      [prevouts, amounts, scripts, sequences, outputs].flatMap serUint256 ++ [2] ++ leBytes 4 0 ++
      serUint256 vectorLeafHash ++ [0] ++ serUint32 0xffffffff), vectorSighash)]

/-- The one verification of the vector. -/
def vectorCall : PQCVerification where
  pubkey := vectorPubkey
  hash := vectorSighash
  sig := vectorSignature

def vectorCrypto : Crypto where
  sha256 := vectorSha256
  sha1 := fun _ => 0
  ripemd160 := fun _ => 0
  checkLowS := fun _ => false
  checkECDSASignature := fun _ _ _ _ _ _ _ => false
  verifySchnorr := fun _ _ _ => false
  checkTapTweak := fun _ _ _ _ => false
  verifyPQC := fun call => call == vectorCall

/-- The precomputed data of the vector's transaction. -/
def vectorTxdata : PrecomputedTransactionData :=
  (PrecomputedTransactionData.init vectorCrypto vectorTx vectorSpent).toOption.getD {}

def vectorFlags : VerifyFlags := {.p2sh, .witness, .p2mrRules}

def vectorCoinbase : CTransaction where
  vin := [{ prevout := {}, scriptSig := { bytes := [op1, op1] } }]
  vout := [{ nValue := 0 }]

def vectorBlock : CBlock where
  vtx := [vectorCoinbase, vectorTx]

/-- The vector is accepted with one verification, which is as many as its witness pays for. -/
theorem block_pqcVerifications_le_vector :
    (p2mrInputs vectorBlock [[], vectorSpent]).length = 1 ∧
      ((p2mrInputs vectorBlock [[], vectorSpent]).map fun _ => [vectorCall].length).sum ≤ 662 ∧
      ∀ i ∈ p2mrInputs vectorBlock [[], vectorSpent], ([vectorCall].length : Int) ≤
        validationWeight i.txin.scriptWitness / pqcValidationCost vectorFlags :=
  ⟨by decide +kernel,
    block_pqcVerifications_le vectorCrypto vectorFlags vectorBlock [[], vectorSpent] 3979
      (by decide +kernel) (by decide) (fun _ => [vectorCall]) (by decide +kernel)⟩

end Qbit
