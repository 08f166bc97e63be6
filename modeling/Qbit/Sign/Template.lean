import Qbit.Script.SignedWitness
import Qbit.Wallet.DescriptorMan

/-!
# Recognising leaf scripts

`ParseP2MRScript` of `script/sign.cpp` with `MatchMultiA` of `script/p2mr.h`: a leaf script is taken
apart into its keys and the number of signatures it asks for.

`signableScript_of_parse` says that what is recognised is one of the two kinds of scripts, byte for
byte, and `parseP2MRScript_multiA` that a `multi_a` script is recognised.  A number has only one
encoding that is accepted, so that nothing of the script is lost.  `templates_match_iff_built` states
the same for the two matchers of `script/p2mr.h`.
-/

open Bytes

namespace Qbit

open CScriptNum

/-! ## Numbers in scripts -/

/-- `IsSmallIntegerOpcode` -/
def isSmallIntegerOpcode (opcode : UInt8) : Bool := op1 ≤ opcode && opcode ≤ op16

/-- `IsPushdataOp` -/
def isPushdataOp (opcode : UInt8) : Bool := op0 < opcode && opcode ≤ opPushdata4

/-- `GetScriptNumber`: a number between `min` and `max` that is encoded as short as possible. -/
def getScriptNumber (opcode : UInt8) (data : Valtype) (min max : Int) : Option Int :=
  let count : Option Int :=
    if isSmallIntegerOpcode opcode then some (opcode.toNat - (op1.toNat - 1) : Int)
    else if isPushdataOp opcode then
      if !checkMinimalPush data opcode then none
      else (ofVch data true).map getint
    else none
  match count with
  | none => none
  | some count => if count < min ∨ max < count then none else some count

theorem and_0x80_ne_zero (b : UInt8) : (b &&& 0x80 != 0) = decide (128 ≤ b.toNat) := by
  have hall : ∀ n < 256, (UInt8.ofNat n &&& 0x80 != 0) = decide (128 ≤ n) := by decide +kernel
  simpa using hall b.toNat b.toNat_lt

theorem and_0x7f_ne_zero (b : UInt8) : (b &&& 0x7f != 0) = decide (b.toNat % 128 ≠ 0) := by
  have hall : ∀ n < 256, (UInt8.ofNat n &&& 0x7f != 0) = decide (n % 128 ≠ 0) := by decide +kernel
  simpa using hall b.toNat b.toNat_lt

variable {data key : Valtype} {n max fuel threshold : Nat} {script rest it : List UInt8}
  {opcode : UInt8} {first : Bool} {keys keyspans : List Valtype} {pubkeys : List CPQCPubKey}

/-- A number below 1000 that is encoded as short as possible is encoded as `serialize` does it. -/
theorem serialize_of_isMinimal (hlen : data.length ≤ 4) (hminimal : isMinimal data = true)
    (hvalue : setVch data = n) (hpos : 0 < n) (hn : n < 1000) : serialize n = data := by
  have hone : ∀ a < 256, isMinimal [UInt8.ofNat a] = true → a < 128 →
      serialize ((a : Nat) : Int) = [UInt8.ofNat a] := by decide +kernel
  have htwo : ∀ a < 256, ∀ b < 4, isMinimal [UInt8.ofNat a, UInt8.ofNat b] = true →
      serialize ((a + 256 * b : Nat) : Int) = [UInt8.ofNat a, UInt8.ofNat b] := by
    decide +kernel
  match data with
  | [] => simp [setVch] at hvalue; omega
  | [a] =>
    have ha := a.toNat_lt
    simp only [setVch, List.getLast?_singleton, and_0x80_ne_zero, ofLE,
      List.length_singleton, decide_eq_true_eq] at hvalue
    split at hvalue
    · omega
    have := hone a.toNat ha (by simpa using hminimal) (by omega)
    rw [UInt8.ofNat_toNat] at this
    rw [← this]
    congr 1
    omega
  | [a, b] =>
    have ha := a.toNat_lt
    simp only [setVch, List.getLast?_cons_cons, List.getLast?_singleton,
      and_0x80_ne_zero, ofLE, List.length_cons, List.length_nil, decide_eq_true_eq] at hvalue
    split at hvalue
    · omega
    have := htwo a.toNat ha b.toNat (by omega) (by simpa using hminimal)
    rw [UInt8.ofNat_toNat, UInt8.ofNat_toNat] at this
    rw [← this]
    congr 1
    omega
  | [_, _, _] | [_, _, _, _] =>
    -- The last byte or the top bit of the one before would be set.
    simp only [isMinimal, List.reverse_cons, List.reverse_nil, List.nil_append,
      List.cons_append, and_0x80_ne_zero, and_0x7f_ne_zero, Bool.or_eq_true, decide_eq_true_eq]
      at hminimal
    simp only [setVch, List.getLast?_cons_cons, List.getLast?_singleton,
      and_0x80_ne_zero, ofLE, List.length_cons, List.length_nil, decide_eq_true_eq] at hvalue
    split at hvalue <;> omega
  | _ :: _ :: _ :: _ :: _ :: _ => simp only [List.length_cons] at hlen; omega

/-- An opcode above the pushes is a byte of its own. -/
theorem eq_cons_of_getScriptOp (hop : getScriptOp script = some (opcode, data, rest))
    (hgt : opPushdata4 < opcode) :
    script = opcode :: rest := by
  rcases script with _ | ⟨b, pc⟩
  · cases hop
  rw [getScriptOp] at hop
  split at hop
  · next hle =>
    split at hop
    · cases hop
    split at hop
    · cases hop
    · cases hop
      exact absurd hle (UInt8.not_le.mpr hgt)
  · cases hop
    rfl

theorem eq_append_of_getScriptOp (hop : getScriptOp script = some (opcode, data, rest))
    (hlt : opcode < opPushdata1) :
    script = opcode :: (data ++ rest) ∧ data.length = opcode.toNat := by
  rcases script with _ | ⟨b, pc⟩
  · cases hop
  have hb : b = opcode := by
    rw [getScriptOp] at hop
    split at hop
    · split at hop
      · cases hop
      · split at hop <;> cases hop
        rfl
    · cases hop
      rfl
  subst hb
  have hle : b ≤ opPushdata4 := by
    exact (UInt8.lt_iff_toNat_lt.mp hlt).le.trans (by decide)
  rw [getScriptOp, if_pos hle, immediateSize, if_pos hlt] at hop
  dsimp only at hop
  split at hop
  · cases hop
  next hlen =>
  cases hop
  refine ⟨by rw [List.take_append_drop], ?_⟩
  rw [List.length_take]
  omega

theorem checkMinimalPush_short (hlen : data.length ≤ 4) (h : checkMinimalPush data opcode = true) :
    opcode.toNat = data.length := by
  match data with
  | [] =>
    rw [checkMinimalPush, beq_iff_eq] at h
    rw [h]
    rfl
  | [b] =>
    rw [checkMinimalPush, Bool.and_eq_true, beq_iff_eq] at h
    rw [h.2]
    rfl
  | a :: b :: rest =>
    rw [checkMinimalPush, if_pos (by omega), beq_iff_eq] at h
    · exact h
    · rintro ⟨⟩
    · rintro _ ⟨⟩

theorem getScriptNumber_eq_some_iff {lo hi n : Int} :
    getScriptNumber opcode data lo hi = some n ↔ lo ≤ n ∧ n ≤ hi ∧
      if isSmallIntegerOpcode opcode then n = opcode.toNat - (op1.toNat - 1 : Int)
      else isPushdataOp opcode = true ∧ checkMinimalPush data opcode = true ∧
        data.length ≤ 4 ∧ isMinimal data = true ∧
        n = getint (setVch data) := by
  simp only [getScriptNumber, ofVch]
  split_ifs <;> simp_all <;> omega

/-- **A number that is recognised** is what `CScript() << n` appends. -/
theorem pushInt64_of_getScriptNumber {rest' : List UInt8} {n : Int}
    (hop : getScriptOp rest = some (opcode, data, rest')) (hmax : max < 1000)
    (hnumber : getScriptNumber opcode data 1 max = some n) :
    1 ≤ n ∧ n ≤ max ∧ rest = pushInt64 n ++ rest' := by
  have h1 : op1.toNat = 81 := rfl
  have h4 : opPushdata4.toNat = 78 := rfl
  obtain ⟨hlo, hhi, hnumber⟩ := getScriptNumber_eq_some_iff.mp hnumber
  refine ⟨hlo, hhi, ?_⟩
  split at hnumber
  next hsmall =>
    have h16 : op16.toNat = 96 := rfl
    rw [isSmallIntegerOpcode, Bool.and_eq_true, decide_eq_true_eq, decide_eq_true_eq,
      UInt8.le_iff_toNat_le, UInt8.le_iff_toNat_le] at hsmall
    have hgt : opPushdata4 < opcode := by
      rw [UInt8.lt_iff_toNat_lt]
      omega
    have htoNat : (n + (op1.toNat - 1)).toNat = opcode.toNat := by omega
    rw [eq_cons_of_getScriptOp hop hgt, pushInt64, if_pos (Or.inr ⟨hlo, by omega⟩), htoNat,
      UInt8.ofNat_toNat, List.singleton_append]
  next =>
    obtain ⟨-, hminimal, hlen, hshortest, hn⟩ := hnumber
    lift n to ℕ using by omega
    have hvalue : setVch data = n := by
      rw [getint] at hn
      omega
    have hserialize : serialize n = data :=
      serialize_of_isMinimal hlen hshortest hvalue (by omega) (by omega)
    have hopcode := checkMinimalPush_short hlen hminimal
    have hlt : opcode < opPushdata1 := by
      have h : opPushdata1.toNat = 76 := rfl
      rw [UInt8.lt_iff_toNat_lt, hopcode]
      omega
    -- The numbers up to 16 have opcodes of their own, and their pushes are not minimal.
    have hbig : 16 < n := by
      have hall : ∀ m < 17, 0 < m → checkMinimalPush (serialize ((m : Nat) : Int))
          (UInt8.ofNat (serialize ((m : Nat) : Int)).length) = false := by
        decide +kernel
      by_contra hle
      have hfalse := hall n (by omega) (by omega)
      rw [hserialize, ← hopcode, UInt8.ofNat_toNat, hminimal] at hfalse
      cases hfalse
    have hbytes : leBytes 1 data.length = [opcode] := by
      rw [← hopcode]
      exact congrArg (fun b => [b]) (by simp)
    rw [(eq_append_of_getScriptOp hop hlt).1, pushInt64, if_neg (by omega), if_neg (by omega),
      hserialize, pushData, if_pos (by rw [← hopcode]; exact UInt8.lt_iff_toNat_lt.mp hlt), hbytes]
    rfl

theorem getScriptNumber_pushInt64 (hpos : 0 < n) (hn : n ≤ max) (hmax : max < 1000)
    (rest : List UInt8) : ∃ opcode data,
      getScriptOp (pushInt64 n ++ rest) = some (opcode, data, rest) ∧
        getScriptNumber opcode data 1 max = some (n : Int) := by
  simp only [getScriptNumber_eq_some_iff, Nat.one_le_cast, Nat.cast_le]
  by_cases hsmall : n ≤ 16
  · obtain ⟨hbyte, hgt⟩ := pushInt64_small hpos hsmall
    refine ⟨UInt8.ofNat (n + 80), [], ?_, hpos, hn, ?_⟩
    · rw [hbyte, List.singleton_append, getScriptOp_cons hgt]
    · interval_cases n <;> rfl
  · have hall : ∀ m < 1000, 16 < m → (serialize ((m : Nat) : Int)).length < 3 ∧
        isSmallIntegerOpcode (UInt8.ofNat (serialize ((m : Nat) : Int)).length) = false ∧
        isPushdataOp (UInt8.ofNat (serialize ((m : Nat) : Int)).length) = true ∧
        checkMinimalPush (serialize ((m : Nat) : Int))
          (UInt8.ofNat (serialize ((m : Nat) : Int)).length) = true ∧
        isMinimal (serialize ((m : Nat) : Int)) = true ∧
        (m : Int) = getint (setVch (serialize (m : Int))) := by
      decide +kernel
    obtain ⟨hlen, hnotSmall, hpush, hminimal, hshortest, hvalue⟩ := hall n (by omega) (by omega)
    refine ⟨UInt8.ofNat (serialize n).length, serialize n, ?_, hpos, hn, ?_⟩
    · rw [pushInt64, if_neg (by omega), if_neg (by omega)]
      exact getScriptOp_pushData (by omega) rest
    · rw [hnotSmall]
      exact ⟨hpush, hminimal, by omega, hshortest, hvalue⟩

/-! ## Scripts -/

/-- The opcode that follows a key of `multi_a`. -/
def keyOpcode (first : Bool) : UInt8 := if first then opChecksigpqc else opChecksigadd

/-- The loop of `MatchMultiA` over the keys, with what is left of the script.  The number is the
fuel; `first` tells whether this is the first key. -/
def readMultiAKeys : Nat → Bool → List UInt8 → Option (List Valtype × List UInt8)
  | 0, _, it => some ([], it)
  | fuel + 1, first, it =>
    if it.length < 34 then some ([], it)
    else if it.head? = some 32 ∧ it[33]? = some (keyOpcode first) then
      (readMultiAKeys fuel false (it.drop 34)).map fun (keyspans, rest) =>
        ((it.drop 1).take 32 :: keyspans, rest)
    else none

/-- `MatchMultiA`: the threshold and the keys. -/
def matchMultiA (script : List UInt8) : Option (Int × List Valtype) :=
  if script.head? = some 32 ∧ script.getLast? = some opNumequal then
    match readMultiAKeys script.length true script with
    | none => none
    | some (keyspans, it) =>
      if keyspans.length = 0 ∨ maxPubkeysPerMultiA < keyspans.length then none
      else match getScriptOp it with
        | none => none
        | some (opcode, data, it) =>
          if it = [opNumequal] then
            (getScriptNumber opcode data 1 keyspans.length).map fun threshold =>
              (threshold, keyspans)
          else none
  else none

/-- The constructor from a span of the right size. -/
def CPQCPubKey.ofBytes (data : Valtype) : CPQCPubKey := BitVec.ofNat 256 (ofLE data)

/-- `ParseP2MRScript`: the keys and the threshold. -/
def parseP2MRScript (script : List UInt8) : Option (List CPQCPubKey × Nat) :=
  if script.length = 34 ∧ script.head? = some 32 ∧ script[33]? = some opChecksigpqc then
    some ([CPQCPubKey.ofBytes ((script.drop 1).take 32)], 1)
  else match matchMultiA script with
    | none => none
    | some (threshold, keyspans) => some (keyspans.map CPQCPubKey.ofBytes, threshold.toNat)

theorem pushData_key (hkey : key.length = 32) : pushData key = 32 :: key := by
  rw [pushData, hkey]
  rfl

theorem eq_key_append (hlen : 34 ≤ it.length) (hhead : it.head? = some 32)
    (hop : it[33]? = some opcode) :
    ((it.drop 1).take 32).length = 32 ∧
      it = pushData ((it.drop 1).take 32) ++ ([opcode] ++ it.drop 34) := by
  have hkey : ((it.drop 1).take 32).length = 32 := by
    rw [List.length_take, List.length_drop]
    omega
  refine ⟨hkey, ?_⟩
  rw [pushData_key hkey]
  rcases it with _ | ⟨b, it⟩
  · cases hhead
  cases hhead
  have hdrop : it.drop 32 = opcode :: it.drop 33 := by
    rw [List.getElem?_cons_succ] at hop
    obtain ⟨hlt, hget⟩ := List.getElem?_eq_some_iff.mp hop
    rw [List.drop_eq_getElem_cons hlt, hget]
  rw [List.drop_succ_cons, List.drop_zero, List.drop_succ_cons, List.cons_append,
    List.singleton_append, ← hdrop, List.take_append_drop]

theorem readMultiAKeys_cons (h : readMultiAKeys (fuel + 1) first it = some (key :: keys, rest)) :
    key.length = 32 ∧ readMultiAKeys fuel false (it.drop 34) = some (keys, rest) ∧
      it = pushData key ++ ([keyOpcode first] ++ it.drop 34) := by
  rw [readMultiAKeys] at h
  split at h
  · cases h
  next hlen =>
  split at h
  · next hshape =>
    obtain ⟨⟨keys', rest'⟩, hread, hresult⟩ := Option.map_eq_some_iff.mp h
    cases hresult
    obtain ⟨hkey, hit⟩ := eq_key_append (by omega) hshape.1 hshape.2
    exact ⟨hkey, hread, hit⟩
  · cases h

theorem readMultiAKeys_nil (h : readMultiAKeys fuel first it = some ([], rest)) : it = rest := by
  cases fuel with
  | zero =>
    cases h
    rfl
  | succ fuel =>
    rw [readMultiAKeys] at h
    split at h
    · cases h
      rfl
    split at h
    · obtain ⟨_, -, hresult⟩ := Option.map_eq_some_iff.mp h
      cases hresult
    · cases h

theorem eq_of_readMultiAKeys (h : readMultiAKeys fuel false it = some (keyspans, rest)) :
    (∀ key ∈ keyspans, key.length = 32) ∧ it = multiAKeys keyspans ++ rest := by
  induction keyspans generalizing fuel it with
  | nil => exact ⟨by simp, readMultiAKeys_nil h⟩
  | cons key keys ih =>
    cases fuel with
    | zero => cases h
    | succ fuel =>
      obtain ⟨hkey, hread, hit⟩ := readMultiAKeys_cons h
      obtain ⟨hkeys, heq⟩ := ih hread
      refine ⟨by simpa using ⟨hkey, hkeys⟩, ?_⟩
      rw [hit, heq]
      simp [multiAKeys, keyOpcode]

theorem eq_of_matchMultiA {threshold : Int} (h : matchMultiA script = some (threshold, keyspans)) :
    (∀ key ∈ keyspans, key.length = 32) ∧ 1 ≤ threshold ∧ threshold ≤ keyspans.length ∧
      keyspans.length ≤ maxPubkeysPerMultiA ∧
      script = buildMultiAScript threshold.toNat keyspans := by
  rw [matchMultiA] at h
  split at h
  · split at h
    · cases h
    next keys it hread =>
    split at h
    · cases h
    next hcount =>
    split at h
    · cases h
    next opcode data it' hop =>
    split at h
    · next hend =>
      obtain ⟨n, hnumber, hresult⟩ := Option.map_eq_some_iff.mp h
      cases hresult
      rw [maxPubkeysPerMultiA] at hcount ⊢
      obtain ⟨hpos, hle, hit⟩ := pushInt64_of_getScriptNumber hop (by omega) hnumber
      rw [hend] at hit
      -- The first key is read with another opcode than the others.
      rcases keyspans with _ | ⟨key, keys⟩
      · exact absurd rfl (not_or.mp hcount).1
      cases hfuel : script.length with
      | zero =>
        rw [hfuel] at hread
        cases hread
      | succ fuel =>
        rw [hfuel] at hread
        obtain ⟨hkey, hread', hscript⟩ := readMultiAKeys_cons hread
        obtain ⟨hkeys, heq⟩ := eq_of_readMultiAKeys hread'
        refine ⟨by simpa using ⟨hkey, hkeys⟩, hpos, hle, by omega, ?_⟩
        rw [buildMultiAScript, Int.toNat_of_nonneg (by omega), ← hit, ← heq, buildPKScript,
          List.append_assoc]
        exact hscript
    · cases h
  · cases h

theorem serUint256_ofBytes (h : ∀ key ∈ keyspans, key.length = 32) :
    (keyspans.map CPQCPubKey.ofBytes).map serUint256 = keyspans := by
  rw [List.map_map]
  exact (List.map_congr_left fun key hkey => serUint256_ofLE (h key hkey)).trans (List.map_id _)

/-- **A script that is recognised is one of the two kinds**, with the keys and the threshold that
were found. -/
theorem signableScript_of_parse (h : parseP2MRScript script = some (pubkeys, threshold)) :
    SignableScript script (pubkeys.map serUint256) threshold := by
  rw [parseP2MRScript] at h
  split at h
  · next hpk =>
    cases h
    obtain ⟨hkey, hscript⟩ := eq_key_append (by omega) hpk.2.1 hpk.2.2
    have hnil : script.drop 34 = [] := List.drop_eq_nil_of_le (by omega)
    rw [hnil, List.append_nil] at hscript
    rw [List.map_singleton, CPQCPubKey.ofBytes, serUint256_ofLE hkey]
    nth_rewrite 1 [hscript]
    exact .pk hkey
  · split at h
    · cases h
    next threshold keyspans hmatch =>
    cases h
    obtain ⟨hkeys, hpos, hle, hmax, hscript⟩ := eq_of_matchMultiA hmatch
    rw [serUint256_ofBytes hkeys, hscript]
    exact .multiA hkeys (by omega) (by omega) hmax

theorem readMultiAKeys_push (first : Bool) (hkey : key.length = 32) (it : List UInt8) :
    readMultiAKeys (fuel + 1) first (pushData key ++ ([keyOpcode first] ++ it)) =
      (readMultiAKeys fuel false it).map fun r => (key :: r.1, r.2) := by
  have hop : (32 :: (key ++ ([keyOpcode first] ++ it)))[33]? = some (keyOpcode first) := by
    simp [hkey]
  have hdrop : (32 :: (key ++ ([keyOpcode first] ++ it))).drop 34 = it := by
    rw [List.drop_succ_cons, show 33 = key.length + 1 by rw [hkey], List.drop_length_add_append]
    rfl
  have htake : ((32 :: (key ++ ([keyOpcode first] ++ it))).drop 1).take 32 = key := by simp [hkey]
  rw [pushData_key hkey, List.cons_append, readMultiAKeys, if_neg, if_pos ⟨rfl, hop⟩, hdrop, htake]
  simp only [List.length_cons, List.length_append]
  omega

theorem readMultiAKeys_multiAKeys (hkeys : ∀ key ∈ keys, key.length = 32)
    (hfuel : keys.length < fuel) (hrest : rest.length < 34) :
    readMultiAKeys fuel false (multiAKeys keys ++ rest) = some (keys, rest) := by
  induction keys generalizing fuel with
  | nil =>
    obtain ⟨fuel, rfl⟩ : ∃ f, fuel = f + 1 := ⟨fuel - 1, by omega⟩
    exact if_pos hrest
  | cons key keys ih =>
    obtain ⟨fuel, rfl⟩ : ∃ f, fuel = f + 1 := ⟨fuel - 1, by omega⟩
    have hscript : multiAKeys (key :: keys) ++ rest =
        pushData key ++ ([keyOpcode false] ++ (multiAKeys keys ++ rest)) := by
      simp [multiAKeys, keyOpcode]
    rw [List.length_cons] at hfuel
    rw [hscript, readMultiAKeys_push false (hkeys key List.mem_cons_self),
      ih (fun k hk => hkeys k (List.mem_cons_of_mem _ hk)) (by omega)]
    rfl

theorem length_multiAKeys (hkeys : ∀ key ∈ keys, key.length = 32) :
    (multiAKeys keys).length = 34 * keys.length := by
  induction keys with
  | nil => rfl
  | cons key keys ih =>
    have hkey := hkeys key List.mem_cons_self
    have htail := ih fun k hk => hkeys k (List.mem_cons_of_mem _ hk)
    rw [multiAKeys, List.flatMap_cons, ← multiAKeys, List.length_append, htail, pushData_key hkey]
    simp [hkey]
    omega

theorem length_pushInt64 (hpos : 0 < n) (hn : n < 1000) :
    0 < (pushInt64 n).length ∧ (pushInt64 n).length < 4 := by
  have hall : ∀ m < 1000, 0 < m → 0 < (pushInt64 ((m : Nat) : Int)).length ∧
      (pushInt64 ((m : Nat) : Int)).length < 4 := by
    decide +kernel
  exact hall n hn hpos

theorem length_buildPKScript (hkey : key.length = 32) : (buildPKScript key).length = 34 := by
  simp [buildPKScript, pushData_key hkey, hkey]

theorem length_buildMultiAScript (threshold : Nat) (hkeys : ∀ key ∈ keys, key.length = 32)
    (hne : keys ≠ []) :
    (buildMultiAScript threshold keys).length =
      34 * keys.length + ((pushInt64 threshold).length + 1) := by
  obtain ⟨key, keys, rfl⟩ := List.exists_cons_of_ne_nil hne
  rw [buildMultiAScript, List.length_append, List.length_append,
    length_buildPKScript (hkeys key List.mem_cons_self),
    length_multiAKeys fun k hk => hkeys k (List.mem_cons_of_mem _ hk)]
  simp
  omega

/-- **A `multi_a` script is matched**, with the threshold and the keys it was built from. -/
theorem matchMultiA_buildMultiAScript (hkeys : ∀ key ∈ keys, key.length = 32) (hpos : 0 < threshold)
    (hle : threshold ≤ keys.length) (hmax : keys.length ≤ maxPubkeysPerMultiA) :
    matchMultiA (buildMultiAScript threshold keys) = some ((threshold : Int), keys) := by
  rw [maxPubkeysPerMultiA] at hmax
  have hne : keys ≠ [] := List.ne_nil_of_length_pos (by omega)
  obtain ⟨-, hnumberLen⟩ := length_pushInt64 hpos (by omega)
  obtain ⟨opcode, data, hop, hnumber⟩ := getScriptNumber_pushInt64 hpos hle (by omega) [opNumequal]
  have hlength := length_buildMultiAScript threshold hkeys hne
  obtain ⟨key, tail, rfl⟩ := List.exists_cons_of_ne_nil hne
  have hkey := hkeys key List.mem_cons_self
  have hscript : buildMultiAScript threshold (key :: tail) = pushData key ++ ([keyOpcode true] ++
      (multiAKeys tail ++ (pushInt64 threshold ++ [opNumequal]))) := by
    simp [buildMultiAScript, buildPKScript, keyOpcode]
  generalize buildMultiAScript threshold (key :: tail) = script at *
  rw [List.length_cons] at hlength
  have hread : readMultiAKeys script.length true script =
      some (key :: tail, pushInt64 threshold ++ [opNumequal]) := by
    obtain ⟨fuel, hfuel⟩ : ∃ fuel, script.length = fuel + 1 := ⟨script.length - 1, by omega⟩
    rw [hfuel, hscript, readMultiAKeys_push true hkey, readMultiAKeys_multiAKeys
      (fun k hk => hkeys k (List.mem_cons_of_mem _ hk)) (by omega) (by simp; omega)]
    rfl
  have hhead : script.head? = some 32 := by rw [hscript, pushData_key hkey]; rfl
  have hlast : script.getLast? = some opNumequal := by
    rw [hscript, ← List.append_assoc, ← List.append_assoc, ← List.append_assoc,
      List.getLast?_concat]
  rw [matchMultiA, if_pos ⟨hhead, hlast⟩, hread]
  dsimp only
  rw [if_neg (by rw [maxPubkeysPerMultiA]; omega), hop]
  dsimp only
  rw [if_pos rfl, hnumber]
  rfl

/-- **A `multi_a` script is recognised**. -/
theorem parseP2MRScript_multiA (hpos : 0 < threshold) (hle : threshold ≤ pubkeys.length)
    (hmax : pubkeys.length ≤ maxPubkeysPerMultiA) :
    parseP2MRScript (buildMultiAScript threshold (pubkeys.map serUint256)) =
      some (pubkeys, threshold) := by
  have hbytes : ∀ k ∈ pubkeys.map serUint256, k.length = 32 := by simp
  have hlen : (pubkeys.map serUint256).length = pubkeys.length := List.length_map _
  have hlength := length_buildMultiAScript threshold hbytes (List.ne_nil_of_length_pos (by omega))
  have hkeys : (pubkeys.map serUint256).map CPQCPubKey.ofBytes = pubkeys := by
    rw [List.map_map]
    refine (List.map_congr_left fun k _ => ?_).trans (List.map_id _)
    exact serUint256_injective (serUint256_ofLE (length_serUint256 k))
  rw [parseP2MRScript, if_neg (by omega),
    matchMultiA_buildMultiAScript hbytes hpos (by omega) (by omega)]
  simp [hkeys]

/-! ## Both templates -/

/-- `CPQCPubKey{data}`, which is valid if the span has the size of a key. -/
def CPQCPubKey.ofSpan (data : Valtype) : Option CPQCPubKey :=
  if data.length ≠ 32 then none else some (CPQCPubKey.ofBytes data)

/-- `MatchPK` -/
def matchPK (script : List UInt8) : Option CPQCPubKey :=
  if script.length ≠ 34 ∨ script.head? ≠ some 32 ∨ script[33]? ≠ some opChecksigpqc then none
  else CPQCPubKey.ofSpan ((script.drop 1).take 32)

theorem matchPK_eq_some_iff {pubkey : CPQCPubKey} :
    matchPK script = some pubkey ↔ script = buildPKScript (serUint256 pubkey) := by
  constructor
  · intro h
    rw [matchPK] at h
    split at h
    · cases h
    next hshape =>
    simp only [not_or, not_not] at hshape
    obtain ⟨hkey, hscript⟩ := eq_key_append (by omega) hshape.2.1 hshape.2.2
    rw [CPQCPubKey.ofSpan, if_neg (by omega)] at h
    cases h
    rw [CPQCPubKey.ofBytes, serUint256_ofLE hkey, buildPKScript]
    simpa [List.drop_eq_nil_of_le (by omega : script.length ≤ 34)] using hscript
  · rintro rfl
    have hkey := length_serUint256 pubkey
    have htake : ((buildPKScript (serUint256 pubkey)).drop 1).take 32 = serUint256 pubkey := by rfl
    rw [matchPK, if_neg, htake, CPQCPubKey.ofSpan, if_neg (by omega)]
    · exact congrArg some (serUint256_injective (serUint256_ofLE hkey))
    · simp [buildPKScript, pushData_key hkey]

/-- **Matching a template inverts building it**: `MatchMultiA` and `MatchPK` accept exactly the
bytes that `BuildScript` and `BuildPKScript` produce, and no script is of both kinds. -/
theorem templates_match_iff_built :
    (∀ script threshold keys, matchMultiA script = some (threshold, keys) ↔
      1 ≤ threshold ∧ threshold ≤ keys.length ∧ 1 ≤ keys.length ∧ keys.length ≤ 999 ∧
        (∀ key ∈ keys, key.length = 32) ∧ script = buildMultiAScript threshold.toNat keys) ∧
    (∀ script pubkey, matchPK script = some pubkey ↔
      script = buildPKScript (serUint256 pubkey)) ∧
    ∀ script, matchPK script = none ∨ matchMultiA script = none := by
  refine ⟨fun script threshold keys => ⟨fun h => ?_, ?_⟩, fun _ _ => matchPK_eq_some_iff,
    fun script => ?_⟩
  · obtain ⟨hkeys, hpos, hle, hmax, hscript⟩ := eq_of_matchMultiA h
    exact ⟨hpos, hle, by omega, hmax, hkeys, hscript⟩
  · rintro ⟨hpos, hle, -, hmax, hkeys, rfl⟩
    rw [matchMultiA_buildMultiAScript hkeys (by omega) (by omega) hmax,
      Int.toNat_of_nonneg (by omega)]
  · -- A script with the length of a single key has no room for a threshold.
    refine or_iff_not_imp_left.mpr fun hpk => ?_
    obtain ⟨pubkey, hpk⟩ := Option.ne_none_iff_exists'.mp hpk
    refine Option.eq_none_iff_forall_ne_some.mpr fun (threshold, keys) hmatch => ?_
    obtain ⟨hkeys, hpos, hle, -, hscript⟩ := eq_of_matchMultiA hmatch
    have hlength := length_buildMultiAScript threshold.toNat hkeys
      (List.ne_nil_of_length_pos (by omega))
    have hpkLength := length_buildPKScript (length_serUint256 pubkey)
    rw [← matchPK_eq_some_iff.mp hpk, hscript, hlength] at hpkLength
    omega

end Qbit
