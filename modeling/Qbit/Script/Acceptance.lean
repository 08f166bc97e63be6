import Qbit.Script.BlockBudget
import Qbit.Script.Flags

/-!
# What P2MR accepts

The rules of `doc/consensus/p2mr-v1.md` for the witness of a P2MR input, stated stage by stage as
one predicate, `P2MRAccepts`, and the proof that `VerifyWitnessProgram` accepts exactly that.

The predicate says what the parts of an accepted witness are and what holds of them, in no order.
Code and predicate differ most on scripts that cannot be read to their end: the code refuses them
before it executes anything, and the predicate leaves it to the execution, which never gets past
such a place.
-/

open Bytes Checked

namespace Qbit

/-! ## Reading a script to its end -/

/-- The opcodes `ops` are read from `script`, and `rest` is what follows them. -/
inductive Decodes : List UInt8 → List UInt8 → List UInt8 → Prop where
  | nil (script : List UInt8) : Decodes script [] script
  | cons {script rest rest' ops : List UInt8} {opcode : UInt8} {data : Valtype}
      (hop : getScriptOp script = some (opcode, data, rest)) (htail : Decodes rest ops rest') :
      Decodes script (opcode :: ops) rest'

variable {opcode : UInt8} {rest script : List UInt8}

theorem not_decodes_concat {ops : List UInt8} (h : getScriptOp script = none) :
    ¬Decodes script (ops ++ [opcode]) rest := by
  intro hdecodes
  cases ops <;> cases hdecodes with | cons hop _ => cases h.symm.trans hop

theorem length_le_of_immediateSize {pc : List UInt8} {nSize : Nat}
    (h : immediateSize opcode pc = some (nSize, rest)) : rest.length ≤ pc.length := by
  rw [immediateSize] at h
  by_cases hdirect : opcode < opPushdata1
  · rw [if_pos hdirect] at h
    cases h
    exact le_rfl
  rw [if_neg hdirect] at h
  generalize (if opcode = opPushdata1 then 1 else if opcode = opPushdata2 then 2 else 4) = width
    at h
  by_cases hshort : pc.length < width
  · rw [if_pos hshort] at h
    cases h
  · rw [if_neg hshort] at h
    cases h
    simp

theorem length_lt_of_getScriptOp {data : Valtype}
    (h : getScriptOp script = some (opcode, data, rest)) : rest.length < script.length := by
  rcases script with _ | ⟨b, pc⟩
  · cases h
  rw [getScriptOp] at h
  split at h
  · rcases hsize : immediateSize b pc with _ | r
    · rw [hsize] at h
      cases h
    have hle := length_le_of_immediateSize hsize
    rw [hsize] at h
    dsimp only at h
    split at h
    · cases h
    · cases h
      simp only [List.length_drop, List.length_cons]
      omega
  · cases h
    simp

theorem mem_instructions_iff {fuel : Nat} (hfuel : script.length ≤ fuel) (opcode : UInt8) :
    (∃ data, (opcode, data) ∈ (instructions fuel script).1) ↔
      ∃ ops rest, Decodes script (ops ++ [opcode]) rest := by
  induction fuel generalizing script with
  | zero =>
    obtain rfl : script = [] := List.eq_nil_of_length_eq_zero (by omega)
    refine ⟨fun ⟨data, h⟩ => absurd h (List.not_mem_nil), ?_⟩
    rintro ⟨ops, rest, h⟩
    exact absurd h (not_decodes_concat rfl)
  | succ fuel ih =>
    cases hop : getScriptOp script with
    | none =>
      have hnil : (instructions (fuel + 1) script).1 = [] := by
        cases script with
        | nil => rfl
        | cons b pc => rw [instructions, hop]; rintro ⟨⟩
      rw [hnil]
      refine ⟨fun ⟨data, h⟩ => absurd h (List.not_mem_nil), ?_⟩
      rintro ⟨ops, rest, h⟩
      exact absurd h (not_decodes_concat hop)
    | some r =>
      obtain ⟨op, data, rest⟩ := r
      have hlt := length_lt_of_getScriptOp hop
      have hcons : (instructions (fuel + 1) script).1 =
          (op, data) :: (instructions fuel rest).1 := by
        cases script with
        | nil => cases hop
        | cons b pc => rw [instructions, hop]; rintro ⟨⟩
      have hrest := @ih rest (by omega)
      constructor
      · rintro ⟨data', hmem⟩
        rw [hcons] at hmem
        obtain heq | hmem := List.mem_cons.mp hmem
        · cases heq
          exact ⟨[], rest, .cons hop (.nil rest)⟩
        · obtain ⟨ops, rest', h⟩ := hrest.mp ⟨data', hmem⟩
          exact ⟨op :: ops, rest', .cons hop h⟩
      · rintro ⟨ops, rest', h⟩
        cases ops with
        | nil =>
          cases h with
          | cons hop' _ =>
            cases hop.symm.trans hop'
            exact ⟨data, hcons ▸ List.mem_cons_self⟩
        | cons op' ops =>
          cases h with
          | cons hop' htail =>
            cases hop.symm.trans hop'
            obtain ⟨data', hmem⟩ := hrest.mpr ⟨ops, rest', htail⟩
            exact ⟨data', hcons ▸ List.mem_cons_of_mem _ hmem⟩

/-! ## The interpreter reads every instruction

Nothing but the reading itself moves the position in the script. -/

variable {C : Crypto} {checker : BaseSignatureChecker} {flags : VerifyFlags}

theorem debitValidationWeight_pc (cost : Int) (exhausted : ScriptError) (s : EvalState) :
    Ensures (debitValidationWeight cost exhausted s) fun t => t.pc = s.pc :=
  .bind_any fun _ => .guard fun _ => .ok rfl

/-- Both signature checks pay first, for a signature that is not empty. -/
theorem pay_pc (c : EvalContext) (sig : Valtype) (s : EvalState) :
    Ensures (if (!sig.isEmpty) = true then
        debitValidationWeight (EvalContext.pqcValidationCost c.flags) .p2mrValidationWeight s
      else return s) fun t => t.pc = s.pc :=
  .ite (fun _ => debitValidationWeight_pc _ _ s) fun _ => .ok rfl

theorem evalChecksigP2MR_pc (c : EvalContext) (sig pubkey : Valtype) (s : EvalState) :
    Ensures (evalChecksigP2MR c sig pubkey s) fun r => r.2.pc = s.pc := by
  refine .bind_any fun _ => .bind (pay_pc c sig s) fun t ht => ?_
  refine .guard fun _ => .ite (fun _ => ?_) fun _ =>
    .error
  exact .ite (fun _ => .bind_any fun _ => .ok ht) fun _ => .ok ht

theorem evalCheckDataSigPQC_pc (c : EvalContext) (sig msg_hash pubkey : Valtype) (s : EvalState) :
    Ensures (evalCheckDataSigPQC c sig msg_hash pubkey s) fun r => r.2.pc = s.pc := by
  refine .bind (pay_pc c sig s) fun t ht => ?_
  refine .guard fun _ => .guard fun _ =>
    .ite (fun _ => .ok ht) fun _ => .guard fun _ => ?_
  exact .ite (fun _ => .ok ht) fun _ => .error

/-- **An opcode stays where it is in the script.** -/
theorem execute_pc (opcode : UInt8) (data : Valtype) (s : EvalState) :
    Ensures (execute (p2mrContext C checker flags) opcode data s) fun t => t.pc = s.pc := by
  have hruns : TwoRuns (p2mrContext C checker flags) (p2mrContext C checker flags) fun t u =>
      t = u ∧ t.pc = s.pc :=
    twoRuns_of_invariant (fun ht _ _ _ _ => ht) (fun ht => .ok ht)
      (fun ht sig pubkey => (evalChecksigP2MR_pc _ sig pubkey _).mono fun _ hr => hr.trans ht)
      (fun ht sig msg_hash pubkey =>
        (evalCheckDataSigPQC_pc _ sig msg_hash pubkey _).mono fun _ hr => hr.trans ht)
      fun _ _ _ => .ite (fun _ => .error) fun h => absurd (Or.inr rfl) h
  refine (hruns.execute opcode data ?_ s s ⟨rfl, rfl⟩).ensures
  exact fun _ _ => .refl fun _ => rfl

/-- **A round reads one instruction** and goes on behind it. -/
theorem step_reads (s : EvalState) :
    Ensures (step (p2mrContext C checker flags) s) fun t =>
      ∃ opcode data, getScriptOp s.pc = some (opcode, data, t.pc) := by
  rw [step]
  rcases getScriptOp s.pc with _ | ⟨opcode, data, pc⟩
  · exact .error
  refine .guard fun _ => ?_
  have hcount : Ensures (countOp (p2mrContext C checker flags) opcode { s with pc })
      fun t => t.pc = pc :=
    .ite (fun _ => .guard fun _ => .ok rfl) fun _ => .ok rfl
  refine .bind hcount fun t ht => .guard fun _ =>
    .guard fun _ => ?_
  refine .bind (execute_pc opcode data t) fun u hu => .guard fun _ =>
    .ok ⟨opcode, data, ?_⟩
  rw [← ht, ← hu]

/-- **The loop gets through a script only if all of it can be read.** -/
theorem evalLoop_reads (rounds : Nat) (s : EvalState) :
    Ensures (evalLoop (p2mrContext C checker flags) rounds s) fun _ =>
      (instructions rounds s.pc).2 = true := by
  induction rounds generalizing s with
  | zero => exact .ok rfl
  | succ rounds ih =>
    refine .ite (fun hempty => .ok ?_) fun hne => ?_
    · rw [List.isEmpty_iff.mp hempty, instructions]
    · refine .bind (step_reads s) fun t ht => (ih t).mono fun _ hrest => ?_
      obtain ⟨opcode, data, hop⟩ := ht
      rw [instructions, hop]
      · exact hrest
      · intro hnil
        exact hne (List.isEmpty_iff.mpr hnil)

/-! ## The rules -/

/-- Section 8: the opcodes that make a script succeed. -/
def IsP2MROpSuccess (opcode : UInt8) : Prop :=
  opcode = 0x50 ∨ opcode = 0x62 ∨ (0x7e ≤ opcode ∧ opcode ≤ 0x81) ∨
    (0x83 ≤ opcode ∧ opcode ≤ 0x86) ∨ (0x89 ≤ opcode ∧ opcode ≤ 0x8a) ∨
    (0x8d ≤ opcode ∧ opcode ≤ 0x8e) ∨ (0x95 ≤ opcode ∧ opcode ≤ 0x99) ∨
    (0xbe ≤ opcode ∧ opcode ≤ 0xfe)

/-- Such an opcode stands before anything that cannot be read. -/
def HasOpSuccess (script : List UInt8) : Prop :=
  ∃ ops opcode rest, Decodes script (ops ++ [opcode]) rest ∧ IsP2MROpSuccess opcode

/-- Section 3: the last of at least two elements is the annex if it starts with `0x50`. -/
inductive RemovesAnnex : List Valtype → Option Valtype → List Valtype → Prop where
  | annex {items : List Valtype} {annex : Valtype} (hitems : items ≠ [])
      (htag : annex.head? = some 0x50) : RemovesAnnex (items ++ [annex]) (some annex) items
  | none {witness : List Valtype} (h : ∀ items annex, items ≠ [] → witness = items ++ [annex] →
      annex.head? ≠ some 0x50) : RemovesAnnex witness none witness

/-- Section 10: the limits on the initial stack. -/
structure P2MRLimits (initial : List Valtype) : Prop where
  items : initial.length ≤ 1000
  item : ∀ x ∈ initial, x.length ≤ 16 * 1024
  total : (initial.map List.length).sum ≤ 128 * 1024

/-- Section 10: the number of elements, and every element with its length. -/
def fullWitnessSize (witness : List Valtype) : Nat :=
  (writeCompactSize witness.length).length +
    (witness.map fun x => (writeCompactSize x.length).length + x.length).sum

/-- Section 5: the path of nodes from a leaf to the root. -/
def p2mrRoot (C : Crypto) (leaf : Uint256) (nodes : List Valtype) : Uint256 :=
  nodes.foldl (fun k node => C.branchHash "P2MRBranch" (serUint256 k) node) leaf

/-- A witness with its parts, which belong together and to the program: sections 3 to 5. -/
structure P2MRSpend (C : Crypto) (witness : List Valtype) (program : Valtype) where
  annex : Option Valtype
  initial : List Valtype
  script : Valtype
  /-- The first byte of the control block. -/
  first : UInt8
  nodes : List Valtype
  parsed : RemovesAnnex witness annex (initial ++ [script, first :: nodes.flatten])
  depth : nodes.length ≤ 128
  node_size : ∀ node ∈ nodes, node.length = 32
  marked : first.toNat % 2 = 1
  committed :
    serUint256 (p2mrRoot C (C.computeP2MRLeafHash (first &&& 0xfe) script) nodes) = program

variable {witness : List Valtype} {program : Valtype}

namespace P2MRSpend

variable (spend : P2MRSpend C witness program)

def leafVersion : UInt8 := spend.first &&& 0xfe

def leafHash : Uint256 :=
  C.computeP2MRLeafHash spend.leafVersion spend.script

/-- What the signatures in the leaf commit to, and what they are paid from. -/
def execdata : ScriptExecutionData where
  m_annex := some (spend.annex.map fun annex => C.sha256 (serBytes annex))
  m_tapleaf_hash := some spend.leafHash
  m_validation_weight_left := some (fullWitnessSize witness + 50)

/-- Sections 8 and 10: the leaf succeeds, by an `OP_SUCCESSx` or by its execution. -/
def LeafSucceeds (flags : VerifyFlags) (checker : BaseSignatureChecker) : Prop :=
  (HasOpSuccess spend.script ∧ .discourageOpSuccess ∉ flags) ∨
    (¬HasOpSuccess spend.script ∧ ∃ s top,
      evalScript (p2mrContext C checker flags) spend.initial.reverse spend.script spend.execdata =
        .ok s ∧ s.stack = [top] ∧ castToBool top = true)

/-- Section 4: a leaf of another version succeeds unless it is discouraged. -/
def Accepted (flags : VerifyFlags) (checker : BaseSignatureChecker) : Prop :=
  (spend.leafVersion ≠ 0xc0 ∧ .discourageUpgradableTaprootVersion ∉ flags) ∨
    (spend.leafVersion = 0xc0 ∧ P2MRLimits spend.initial ∧ spend.LeafSucceeds flags checker)

end P2MRSpend

/-- The witness of a P2MR input is accepted. -/
def P2MRAccepts (C : Crypto) (flags : VerifyFlags) (checker : BaseSignatureChecker)
    (witness : List Valtype) (program : Valtype) : Prop :=
  ∃ spend : P2MRSpend C witness program, spend.Accepted flags checker

/-! ## One stage after the other -/

section Stages

theorem isP2MROpSuccess_iff (opcode : UInt8) :
    IsP2MROpSuccess opcode ↔ isOpSuccess opcode = true ∧ opcode ≠ opChecktemplateverify ∧
      opcode ≠ opCheckdatasigpqc ∧ opcode ≠ opCheckdatasigaddpqc := by
  simp only [IsP2MROpSuccess, isOpSuccess, opChecktemplateverify, opCheckdatasigpqc,
    opCheckdatasigaddpqc, ← UInt8.toNat_inj, UInt8.le_iff_toNat_le, ne_eq, Bool.or_eq_true,
    Bool.and_eq_true, beq_iff_eq, decide_eq_true_eq, UInt8.reduceToNat]
  omega

theorem exists_removesAnnex (witness : List Valtype) :
    ∃ annex items, RemovesAnnex witness annex items := by
  by_cases h : ∃ items annex, items ≠ [] ∧ witness = items ++ [annex] ∧ annex.head? = some 0x50
  · obtain ⟨items, annex, hitems, rfl, htag⟩ := h
    exact ⟨some annex, items, .annex hitems htag⟩
  · exact ⟨none, witness, .none fun items annex hitems heq htag =>
      h ⟨items, annex, hitems, heq, htag⟩⟩

variable {nodes : List Valtype} {stack : Stack}

theorem splitAnnex_eq {items : List Valtype} {annex : Option Valtype}
    (h : RemovesAnnex witness annex items) :
    splitAnnex C witness.reverse =
      (annex.map fun annex => C.sha256 (serBytes annex), items.reverse) := by
  cases h with
  | @annex _ annex hitems htag =>
    rw [List.reverse_append, List.reverse_singleton, List.singleton_append]
    cases hrev : items.reverse with
    | nil => exact absurd (List.reverse_eq_nil_iff.mp hrev) hitems
    | cons x stack =>
      rw [splitAnnex, if_pos (c := annex.head? = some annexTag) htag]
      rfl
  | none h =>
    match hrev : witness.reverse with
    | [] => rfl
    | [x] => rfl
    | annex :: x :: stack =>
      have hwitness : witness = (x :: stack).reverse ++ [annex] := by
        rw [← List.reverse_cons, ← hrev, List.reverse_reverse]
      have htag := h _ annex (by simp) hwitness
      rw [splitAnnex, if_neg (c := annex.head? = some annexTag) htag]
      rfl

theorem p2mrLimits_iff (initial : List Valtype) :
    checkP2MRV1InitialStackResourceLimits initial.reverse = .ok () ↔ P2MRLimits initial := by
  have hsum : (initial.reverse.map List.length).sum = (initial.map List.length).sum := by simp
  rw [checkP2MRV1InitialStackResourceLimits, List.length_reverse, hsum]
  constructor
  · intro h
    split at h
    · cases h
    split at h
    · cases h
    split at h
    · cases h
    next hitems hitem htotal =>
    refine ⟨by rw [maxStackSize] at hitems; omega, fun x hx => ?_, ?_⟩
    · by_contra hlong
      exact hitem (List.any_eq_true.mpr ⟨x, List.mem_reverse.mpr hx,
        decide_eq_true (by rw [maxP2MRV1StackItemSize]; omega)⟩)
    · rw [maxP2MRV1TotalInitialStackBytes] at htotal
      omega
  · rintro ⟨hitems, hitem, htotal⟩
    rw [if_neg (by rw [maxStackSize]; omega), if_neg ?_,
      if_neg (by rw [maxP2MRV1TotalInitialStackBytes]; omega)]
    intro hany
    obtain ⟨x, hx, hlong⟩ := List.any_eq_true.mp hany
    have hshort := hitem x (List.mem_reverse.mp hx)
    rw [decide_eq_true_eq, maxP2MRV1StackItemSize] at hlong
    omega

theorem exists_nodes (m : Nat) (path : List UInt8) (h : path.length = 32 * m) :
    ∃ nodes : List Valtype, nodes.flatten = path ∧ nodes.length = m ∧
      ∀ node ∈ nodes, node.length = 32 := by
  induction m generalizing path with
  | zero => exact ⟨[], by simp [List.eq_nil_of_length_eq_zero (l := path) (by omega)], rfl, by simp⟩
  | succ m ih =>
    obtain ⟨nodes, hflatten, hlength, hsize⟩ := ih (path.drop 32) (by simp; omega)
    refine ⟨path.take 32 :: nodes, ?_, by simp [hlength], ?_⟩
    · simp [hflatten]
    · intro node hnode
      obtain rfl | hnode := List.mem_cons.mp hnode
      · simp; omega
      · exact hsize node hnode

theorem length_flatten_nodes (h : ∀ node ∈ nodes, node.length = 32) :
    nodes.flatten.length = 32 * nodes.length := by
  induction nodes with
  | nil => rfl
  | cons node nodes ih =>
    rw [List.flatten_cons, List.length_append, h node List.mem_cons_self,
      ih fun x hx => h x (List.mem_cons_of_mem _ hx), List.length_cons]
    omega

/-- The path in the control block is climbed node by node. -/
theorem merkleRoot_flatten (h : ∀ node ∈ nodes, node.length = 32) (k : Uint256) :
    C.merkleRoot "P2MRBranch" nodes.length nodes.flatten k = p2mrRoot C k nodes := by
  induction nodes generalizing k with
  | nil => rfl
  | cons node nodes ih =>
    have hnode := h node List.mem_cons_self
    rw [List.length_cons, Crypto.merkleRoot, List.flatten_cons, ← hnode, List.drop_left,
      List.take_left, ih fun x hx => h x (List.mem_cons_of_mem _ hx)]
    rfl

theorem isControlSize_iff (control : Valtype) :
    isControlSize p2mrControlBaseSize control.length = true ↔
      ∃ (first : UInt8) (nodes : List Valtype), control = first :: nodes.flatten ∧
        nodes.length ≤ 128 ∧ ∀ node ∈ nodes, node.length = 32 := by
  rw [isControlSize, Bool.and_eq_true, Bool.and_eq_true, decide_eq_true_eq, decide_eq_true_eq,
    beq_iff_eq, p2mrControlBaseSize]
  constructor
  · rintro ⟨⟨hbase, hmax⟩, hmod⟩
    rcases control with _ | ⟨first, path⟩
    · simp at hbase
    rw [List.length_cons] at hmax hmod
    obtain ⟨nodes, hflatten, hlength, hsize⟩ := exists_nodes (path.length / 32) path (by omega)
    exact ⟨first, nodes, by rw [hflatten], by omega, hsize⟩
  · rintro ⟨first, nodes, rfl, hdepth, hsize⟩
    rw [List.length_cons, length_flatten_nodes hsize]
    omega

theorem verifyP2MRCommitment_iff (h : ∀ node ∈ nodes, node.length = 32) (first : UInt8)
    (program : Valtype) (leaf_hash : Uint256) :
    verifyP2MRCommitment C (first :: nodes.flatten) program leaf_hash = true ↔
      serUint256 (p2mrRoot C leaf_hash nodes) = program := by
  have hpath : (first :: nodes.flatten).drop p2mrControlBaseSize = nodes.flatten := rfl
  have hlength : nodes.flatten.length / 32 = nodes.length := by simp [length_flatten_nodes h]
  rw [verifyP2MRCommitment, hpath, hlength, merkleRoot_flatten h, beq_iff_eq]

theorem and_one_eq_one_iff (first : UInt8) : first &&& 0x01 = 1 ↔ first.toNat % 2 = 1 := by
  rw [← UInt8.toNat_inj, UInt8.toNat_and]
  simp

theorem validationWeight_eq (witness : List Valtype) :
    validationWeight witness = fullWitnessSize witness + 50 := by
  rw [validationWeight, serWitness, length_serVector, fullWitnessSize]
  simp [validationWeightOffset]

theorem scanOpSuccess_eq (script : List UInt8) (success : Bool)
    (h : success = true ↔ HasOpSuccess script) :
    scanOpSuccess flags .p2mr script =
      if success then
        if .discourageOpSuccess ∈ flags then setError .discourageOpSuccess else .ok true
      else if (instructions script.length script).2 then .ok false
      else setError .badOpcode := by
  rw [scanOpSuccess]
  congr 1
  rw [eq_iff_iff, h, List.any_eq_true]
  constructor
  · rintro ⟨⟨opcode, data⟩, hmem, hop⟩
    obtain ⟨ops, rest, hdecodes⟩ := (mem_instructions_iff le_rfl opcode).mp ⟨data, hmem⟩
    refine ⟨ops, opcode, rest, hdecodes, (isP2MROpSuccess_iff opcode).mpr ?_⟩
    simpa using hop
  · rintro ⟨ops, opcode, rest, hdecodes, hop⟩
    obtain ⟨data, hmem⟩ := (mem_instructions_iff le_rfl opcode).mpr ⟨ops, rest, hdecodes⟩
    refine ⟨(opcode, data), hmem, ?_⟩
    simpa using (isP2MROpSuccess_iff opcode).mp hop

theorem instructions_of_evalScript {execdata : ScriptExecutionData} {s : EvalState}
    (h : evalScript (p2mrContext C checker flags) stack script execdata = .ok s) :
    (instructions script.length script).2 = true := by
  obtain ⟨_, -, h⟩ := bind_eq_ok_iff.mp h
  split at h
  · cases h
  · obtain ⟨t, hloop, -⟩ := bind_eq_ok_iff.mp h
    exact evalLoop_reads script.length _ t hloop

/-- **The execution of a leaf**, with the scan before it. -/
theorem executeWitnessScript_iff (hstack : stack.length ≤ 1000) (script : List UInt8)
    (execdata : ScriptExecutionData) :
    (∃ calls, executeWitnessScript C flags checker .p2mr stack script execdata = .ok calls) ↔
      (HasOpSuccess script ∧ .discourageOpSuccess ∉ flags) ∨
        (¬HasOpSuccess script ∧ ∃ s top,
          evalScript (p2mrContext C checker flags) stack script execdata = .ok s ∧
            s.stack = [top] ∧ castToBool top = true) := by
  classical
  have hscan : scanOpSuccess flags .p2mr script = _ :=
    scanOpSuccess_eq script (decide (HasOpSuccess script)) decide_eq_true_iff
  have htapscript : SigVersion.p2mr = .tapscript ∨ SigVersion.p2mr = .p2mr := Or.inr rfl
  rw [executeWitnessScript, if_pos htapscript, hscan]
  by_cases hsuccess : HasOpSuccess script
  · rw [if_pos (decide_eq_true hsuccess)]
    by_cases hdiscourage : .discourageOpSuccess ∈ flags
    · simp [hsuccess, hdiscourage, setError]
    · simp [hsuccess, hdiscourage]
  rw [if_neg (by simpa using hsuccess)]
  have hsize : ¬((SigVersion.p2mr = .tapscript ∨ SigVersion.p2mr = .p2mr) ∧
      stack.length > maxStackSize) := fun h => by
    have := h.2
    rw [maxStackSize] at this
    omega
  by_cases hreads : (instructions script.length script).2 = true
  · rw [if_pos hreads, ok_bind, if_neg Bool.false_ne_true, if_neg hsize, if_neg (fun h => h.1 rfl)]
    constructor
    · rintro ⟨calls, hcalls⟩
      obtain ⟨s, hs, htop⟩ := bind_eq_ok_iff.mp hcalls
      refine Or.inr ⟨hsuccess, s, ?_⟩
      rcases hstack' : s.stack with _ | ⟨top, _ | ⟨second, rest⟩⟩
      all_goals rw [hstack'] at htop
      · cases htop
      · dsimp only at htop
        split at htop
        · exact ⟨top, hs, rfl, ‹_›⟩
        · cases htop
      · cases htop
    · rintro (⟨h, -⟩ | ⟨-, s, top, hs, hstack', htop⟩)
      · exact absurd h hsuccess
      · refine ⟨s.pqcVerifications, bind_eq_ok_iff.mpr ⟨s, hs, ?_⟩⟩
        rw [hstack']
        exact if_pos htop
  · -- The execution would have stopped where the scan did.
    rw [if_neg hreads]
    constructor
    · rintro ⟨calls, hcalls⟩
      cases hcalls
    · rintro (⟨h, -⟩ | ⟨-, s, top, hs, -⟩)
      · exact absurd h hsuccess
      · exact absurd (instructions_of_evalScript hs) hreads

/-- The stages after the control block, for a witness whose parts are known. -/
theorem verifyP2MR_spend_iff (hrules : .p2mrRules ∈ flags) (spend : P2MRSpend C witness program) :
    (∃ calls, verifyP2MR C flags checker witness program = .ok calls) ↔
      spend.Accepted flags checker := by
  have hstack : (spend.initial ++ [spend.script, spend.first :: spend.nodes.flatten]).reverse =
      (spend.first :: spend.nodes.flatten) :: spend.script :: spend.initial.reverse := by
    simp
  have hcontrol := (isControlSize_iff (spend.first :: spend.nodes.flatten)).mpr
    ⟨spend.first, spend.nodes, rfl, spend.depth, spend.node_size⟩
  have hmarked : (spend.first :: spend.nodes.flatten).headD 0 &&& 0x01 = 1 :=
    (and_one_eq_one_iff spend.first).mpr spend.marked
  have hcommitted : verifyP2MRCommitment C (spend.first :: spend.nodes.flatten) program
      (C.computeP2MRLeafHash ((spend.first :: spend.nodes.flatten).headD 0 &&& taprootLeafMask)
        spend.script) = true :=
    (verifyP2MRCommitment_iff spend.node_size spend.first program spend.leafHash).mpr
      spend.committed
  have hexecdata : spend.execdata =
      { m_annex := some (spend.annex.map fun annex => C.sha256 (serBytes annex))
        m_tapleaf_hash := some spend.leafHash
        m_validation_weight_left := some (validationWeight witness) } := by
    rw [validationWeight_eq]
    rfl
  rw [verifyP2MR, if_neg (not_not_intro hrules), splitAnnex_eq spend.parsed, hstack]
  dsimp only
  rw [if_neg (by rw [hcontrol]; decide), if_neg (not_not_intro hmarked),
    if_neg (by rw [hcommitted]; decide)]
  have hleafVersion : (spend.first :: spend.nodes.flatten).headD 0 &&& taprootLeafMask =
      spend.leafVersion := rfl
  rw [hleafVersion]
  by_cases hversion : spend.leafVersion = 0xc0
  · rw [if_pos (c := _ = p2mrLeafVersionV1) hversion]
    have hlimits := p2mrLimits_iff spend.initial
    constructor
    · rintro ⟨calls, hcalls⟩
      obtain ⟨_, hchecked, hcalls⟩ := bind_eq_ok_iff.mp hcalls
      have hlimit := hlimits.mp hchecked
      refine Or.inr ⟨hversion, hlimit, ?_⟩
      rw [P2MRSpend.LeafSucceeds, hexecdata]
      exact (executeWitnessScript_iff (by simpa using hlimit.items) _ _).mp ⟨calls, hcalls⟩
    · rintro (⟨hother, -⟩ | ⟨-, hlimit, hleaf⟩)
      · exact absurd hversion hother
      · rw [P2MRSpend.LeafSucceeds, hexecdata] at hleaf
        obtain ⟨calls, hcalls⟩ :=
          (executeWitnessScript_iff (by simpa using hlimit.items) _ _).mpr hleaf
        exact ⟨calls, bind_eq_ok_iff.mpr ⟨(), hlimits.mpr hlimit, hcalls⟩⟩
  · rw [if_neg (c := _ = p2mrLeafVersionV1) hversion]
    by_cases hdiscourage : .discourageUpgradableTaprootVersion ∈ flags
    · simp [P2MRSpend.Accepted, hversion, hdiscourage, setError]
    · simp [P2MRSpend.Accepted, hversion, hdiscourage]

theorem exists_spend {calls : List PQCVerification} (hrules : .p2mrRules ∈ flags)
    (h : verifyP2MR C flags checker witness program = .ok calls) :
    Nonempty (P2MRSpend C witness program) := by
  obtain ⟨annex, items, hremoves⟩ := exists_removesAnnex witness
  rw [verifyP2MR, if_neg (not_not_intro hrules), splitAnnex_eq hremoves] at h
  rcases hstack : items.reverse with _ | ⟨control, _ | ⟨script, stack⟩⟩
  · rw [hstack] at h
    cases h
  · rw [hstack] at h
    cases h
  · rw [hstack] at h
    have hitems : items = stack.reverse ++ [script, control] := by
      rw [← List.reverse_reverse items, hstack]
      simp
    dsimp only at h
    split at h
    · cases h
    next hcontrol =>
    split at h
    · cases h
    next hmarked =>
    split at h
    · cases h
    next hcommitted =>
    rw [Bool.not_eq_true', Bool.not_eq_false] at hcontrol hcommitted
    obtain ⟨first, nodes, rfl, hdepth, hsize⟩ := (isControlSize_iff control).mp hcontrol
    exact ⟨{
      annex, initial := stack.reverse, script, first, nodes
      parsed := hitems ▸ hremoves
      depth := hdepth
      node_size := hsize
      marked := (and_one_eq_one_iff first).mp (not_not.mp hmarked)
      committed := (verifyP2MRCommitment_iff hsize first program _).mp hcommitted }⟩

end Stages

/-- **P2MR accepts what its rules say.**  Whatever the checker, a witness for a program of version 2
and 32 bytes is accepted exactly if it has the parts that the rules ask for. -/
theorem verifyWitnessProgram_p2mr_iff (C : Crypto) (flags : VerifyFlags)
    (checker : BaseSignatureChecker) (witness : List Valtype) (program : Valtype)
    (hrules : .p2mrRules ∈ flags) (hlen : program.length = 32) :
    (∃ calls, verifyWitnessProgram C flags checker witness 2 program false = .ok calls) ↔
      P2MRAccepts C flags checker witness program := by
  rw [verifyWitnessProgram, if_neg (by decide), if_neg (by simp), if_pos ⟨rfl, hlen, rfl⟩]
  constructor
  · intro h
    obtain ⟨spend⟩ := h.elim fun calls hcalls => exists_spend hrules hcalls
    exact ⟨spend, (verifyP2MR_spend_iff hrules spend).mp h⟩
  · rintro ⟨spend, haccepted⟩
    exact (verifyP2MR_spend_iff hrules spend).mpr haccepted

/-- The vector of the repository meets the rules. -/
theorem verifyWitnessProgram_p2mr_iff_vector :
    P2MRAccepts vectorCrypto vectorFlags
      (transactionSignatureChecker vectorCrypto vectorTx 0 1000 vectorTxdata)
      [vectorSignature, vectorLeafScript, [0xc1]] (serUint256 vectorLeafHash) :=
  (verifyWitnessProgram_p2mr_iff vectorCrypto vectorFlags _ _ _ (by decide)
    (by decide +kernel)).mp ⟨[vectorCall], by decide +kernel⟩

end Qbit
