import Qbit.AuxPow.Validate
import Qbit.Chain.BlockMap

/-!
# Reloading the block index

`WriteBlockIndexDB` keeps a `CDiskBlockIndex` of each entry, without its pointers.
`LoadBlockIndexGuts` makes entries of them again, in the order of the database, with a pointer to
the parent; `LoadBlockIndex` then goes through the entries by height and builds the rest.

What is on disk is enough: `loadBlockIndex_eq` says that the map that comes out is the map that was
written, whatever the order of the database and however `std::sort` orders blocks of one height.

`laneLinks_scan` is the payoff for the lane links: before and after a reload they find what a scan
back through the ancestors would find.
-/

open Checked

namespace Qbit

open CBlockIndex

/-- `CDiskBlockIndex`, as far as the block tree is concerned. -/
structure CDiskBlockIndex where
  hashPrev : Uint256
  nHeight : Int
  nAuxPow : Nat
  auxpow : Option CAuxPow
  nVersion : Int32
  hashMerkleRoot : Uint256
  nTime : UInt32
  nBits : UInt32
  nNonce : UInt32

open CDiskBlockIndex

namespace CDiskBlockIndex

/-- The constructor from an entry. -/
def ofEntry (e : IndexEntry) : CDiskBlockIndex :=
  { hashPrev := e.pprev.getD 0
    nHeight := e.nHeight
    nAuxPow := e.nAuxPow
    auxpow := e.auxpow
    nVersion := e.nVersion
    hashMerkleRoot := e.hashMerkleRoot
    nTime := e.nTime
    nBits := e.nBits
    nNonce := e.nNonce }

/-- `ConstructBlockHash` -/
def constructBlockHash (hash256 : HashFn) (d : CDiskBlockIndex) : Uint256 :=
  CPureBlockHeader.getHash hash256
    { nVersion := d.nVersion
      hashPrevBlock := d.hashPrev
      hashMerkleRoot := d.hashMerkleRoot
      nTime := d.nTime
      nBits := d.nBits
      nNonce := d.nNonce }

end CDiskBlockIndex

/-! ## Loading -/

namespace BlockMap

/-- `BlockManager::InsertBlockIndex`: a pointer to the entry of a hash, which is made if it is not
there, or null for the null hash. -/
def insertBlockIndex (m : BlockMap) (hash : Uint256) : BlockMap × Option Uint256 :=
  if hash = 0 then (m, none)
  else if (m.lookup hash).isSome then (m, some hash)
  else (m.insert hash {}, some hash)

/-- The check of `LoadBlockIndexGuts` on the header of an entry. -/
def checkLoaded (hash256 : HashFn) (params : Params) (hash : Uint256) (e : IndexEntry) : Bool :=
  let header := e.getBlockHeader
  if header.signalsAuxpow then
    !header.hasAuxpow || (Auxpow.validate hash256 header params true
      (Auxpow.commitmentValidationForHeight params e.nHeight)).isNone
  else checkProofOfWork hash e.nBits params

/-- The body of the loop of `LoadBlockIndexGuts`, for one entry of the database.  `none` is for
`return false`. -/
def loadEntry (hash256 : HashFn) (params : Params) (m : BlockMap) (d : CDiskBlockIndex) :
    Result (Option BlockMap) := do
  let hash := d.constructBlockHash hash256
  let (m, pindexNew) := m.insertBlockIndex hash
  let (m, pprev) := m.insertBlockIndex d.hashPrev
  match pindexNew with
  | none => .error .nullPointer
  | some pindexNew => do
    let old ← m.heap.deref pindexNew
    let e : IndexEntry := { old with
      pprev := pprev
      nHeight := d.nHeight
      nVersion := d.nVersion
      hashMerkleRoot := d.hashMerkleRoot
      nTime := d.nTime
      nBits := d.nBits
      nNonce := d.nNonce
      auxpow := d.auxpow
      nAuxPow := d.nAuxPow }
    return if checkLoaded hash256 params pindexNew e then some (m.insert pindexNew e) else none

/-- `BlockTreeDB::LoadBlockIndexGuts`, over the entries of the database. -/
def loadBlockIndexGuts (hash256 : HashFn) (params : Params) :
    List CDiskBlockIndex → BlockMap → Result (Option BlockMap)
  | [], m => return some m
  | d :: ds, m => do
    match ← m.loadEntry hash256 params d with
    | some m => loadBlockIndexGuts hash256 params ds m
    | none => return none

/-- The loop of `LoadBlockIndex` over the entries by height, where `previous` is the height of the
entry before. -/
def rebuildLinks : List Uint256 → Option Int → BlockMap → Result (Option BlockMap)
  | [], _, m => return some m
  | pindex :: rest, previous, m => do
    let e ← m.heap.deref pindex
    if previous.any fun h => decide (h + 1 < e.nHeight) then return none
    let e ← m.heap.buildCadenceLaneLinks e
    let e ← m.heap.addTotals e
    let e ← m.heap.buildSkip e
    rebuildLinks rest (some e.nHeight) (m.insert pindex e)

variable (m : BlockMap)

/-- What `std::sort` with `CBlockIndexHeightOnlyComparator` may make of the entries of a map: the
order of blocks of one height is not determined. -/
def SortedByHeight (vSortedByHeight : List Uint256) : Prop :=
  vSortedByHeight.Perm m.keys ∧
    vSortedByHeight.Pairwise fun a b => ∀ ea eb, m.heap a = some ea → m.heap b = some eb →
      ea.nHeight ≤ eb.nHeight

theorem exists_sortedByHeight : ∃ order, m.SortedByHeight order := by
  let height (k : Uint256) : Int := ((m.heap k).map (·.nHeight)).getD 0
  refine ⟨m.keys.insertionSort fun a b => height a ≤ height b, List.perm_insertionSort _ _, ?_⟩
  refine (List.pairwise_insertionSort _ _).imp ?_
  intro a b hab ea eb ha hb
  simpa [height, ha, hb] using hab

/-- What `WriteBlockIndexDB` has put into the database for the entries of a map, in some order. -/
def OnDisk (entries : List CDiskBlockIndex) : Prop :=
  entries.Perm (m.entries.map fun s => ofEntry s.2)

/-! ## What is loaded -/

theorem insertBlockIndex_null : m.insertBlockIndex 0 = (m, none) := if_pos rfl

end BlockMap

/-- What `LoadBlockIndexGuts` makes of an entry: the pointer to the parent is there, the rest is
still to be built. -/
def IndexEntry.loaded (e : IndexEntry) : IndexEntry :=
  { e with
    pskip := none
    pprev_permissionless := none
    pprev_auxpow := none
    nChainWork := 0
    nTimeMax := 0 }

variable {hash256 : HashFn} {t : IndexTree hash256} {p : CBlockIndex}

section Load

open BlockMap

/-- The entries that are there stand for blocks of the tree, and are loaded or still blank. -/
def Loading (t : IndexTree hash256) (m : BlockMap) : Prop :=
  ∀ k e, m.heap k = some e → ∃ p, t.find k = some p ∧ (e = {} ∨ e = p.entry.loaded)

theorem hashPrev_ofEntry (p : CBlockIndex) :
    (ofEntry p.entry).hashPrev = p.getBlockHeader.hashPrevBlock := by
  cases hprev : p.pprev <;> simp [ofEntry, entry, getBlockHeader, hprev]

variable {k : Uint256} {m : BlockMap} {params : Params} {entries : List CDiskBlockIndex}
  {done : List Uint256}

theorem constructBlockHash_ofEntry (hp : t.find k = some p) :
    (ofEntry p.entry).constructBlockHash hash256 = k := by
  rw [← t.hashed hp, constructBlockHash, hashPrev_ofEntry]
  rfl

theorem ne_zero_of_find (hp : t.find k = some p) : k ≠ 0 := by
  rintro rfl
  rw [t.nonnull] at hp
  cases hp

theorem Loading.insert {e : IndexEntry} (hm : Loading t m) (hp : t.find k = some p)
    (he : e = {} ∨ e = p.entry.loaded) : Loading t (m.insert k e) := by
  intro k' e' he'
  by_cases hk' : k' = k
  · rw [hk', heap_insert_self] at he'
    cases he'
    rw [hk']
    exact ⟨p, hp, he⟩
  · rw [heap_insert_of_ne _ _ hk'] at he'
    exact hm k' e' he'

/-- A block of the tree gets an entry, and an entry that is there stays as it is. -/
theorem Loading.insertBlockIndex (hm : Loading t m) (hp : t.find k = some p) :
    ∃ m', m.insertBlockIndex k = (m', some k) ∧ Loading t m' ∧ (∃ old, m'.heap k = some old) ∧
      ∀ k' e, m.heap k' = some e → m'.heap k' = some e := by
  rw [BlockMap.insertBlockIndex, if_neg (ne_zero_of_find hp)]
  rcases hlookup : m.lookup k with _ | e
  · refine ⟨_, rfl, hm.insert hp (.inl rfl), ⟨_, heap_insert_self m k {}⟩, fun k' e he => ?_⟩
    rw [heap_insert_of_ne, he]
    rintro rfl
    cases hlookup.symm.trans he
  · exact ⟨m, rfl, hm, ⟨e, hlookup⟩, fun _ _ h => h⟩

/-- **Loading one block** fills in its entry, and leaves what is loaded. -/
theorem loadEntry_eq (hm : Loading t m) (hp : t.find k = some p)
    (hcheck : checkLoaded hash256 params k p.entry = true) :
    ∃ m', m.loadEntry hash256 params (.ofEntry p.entry) = .ok (some m') ∧ Loading t m' ∧
      m'.heap k = some p.entry.loaded ∧
      ∀ k' p', t.find k' = some p' → m.heap k' = some p'.entry.loaded →
        m'.heap k' = some p'.entry.loaded := by
  -- The entry of the block itself, which may have been made for a child of it.
  obtain ⟨m₁, hm₁, hload₁, ⟨old, hold₁⟩, hkeep₁⟩ := hm.insertBlockIndex hp
  obtain ⟨_, hfind, hblank⟩ := hload₁ k old hold₁
  cases hp.symm.trans hfind
  -- The entry of its parent, which may be blank.
  obtain ⟨m₂, hm₂, hload₂, hkeep₂⟩ :
      ∃ m₂, m₁.insertBlockIndex (ofEntry p.entry).hashPrev =
          (m₂, p.pprev.map hashBlock) ∧ Loading t m₂ ∧
        ∀ k' e, m₁.heap k' = some e → m₂.heap k' = some e := by
    rw [hashPrev_ofEntry, getBlockHeader]
    rcases hprev : p.pprev with _ | q
    · exact ⟨m₁, insertBlockIndex_null m₁, hload₁, fun _ _ h => h⟩
    · obtain ⟨m₂, hm₂, hload₂, -, hkeep₂⟩ := hload₁.insertBlockIndex (t.closed hp hprev)
      exact ⟨m₂, hm₂, hload₂, hkeep₂⟩
  have hold := hkeep₂ k old hold₁
  refine ⟨m₂.insert k p.entry.loaded, ?_, hload₂.insert hp (.inr rfl), heap_insert_self m₂ k _, ?_⟩
  · simp only [loadEntry, constructBlockHash_ofEntry hp, hm₁, hm₂, IndexHeap.deref, hold, ok_bind]
    have hfilled : ({ old with
        pprev := p.pprev.map hashBlock
        nHeight := (ofEntry p.entry).nHeight
        nVersion := (ofEntry p.entry).nVersion
        hashMerkleRoot := (ofEntry p.entry).hashMerkleRoot
        nTime := (ofEntry p.entry).nTime
        nBits := (ofEntry p.entry).nBits
        nNonce := (ofEntry p.entry).nNonce
        auxpow := (ofEntry p.entry).auxpow
        nAuxPow := (ofEntry p.entry).nAuxPow } : IndexEntry) = p.entry.loaded := by
      rcases hblank with rfl | rfl <;> rfl
    rw [hfilled, if_pos (show checkLoaded hash256 params k p.entry.loaded = true from hcheck)]
    rfl
  · intro k' p' hp' hloaded
    by_cases hk' : k' = k
    · subst hk'
      rw [hp] at hp'
      cases hp'
      exact heap_insert_self m₂ k' _
    · rw [heap_insert_of_ne _ _ hk']
      exact hkeep₂ _ _ (hkeep₁ _ _ hloaded)

/-- **Loading the database** loads every block of the tree and nothing else. -/
theorem loadBlockIndexGuts_eq (params : Params)
    (hentries : ∀ d ∈ entries, ∃ k p, t.find k = some p ∧ d = .ofEntry p.entry)
    (hcheck : ∀ k p, t.find k = some p → checkLoaded hash256 params k p.entry = true)
    (hm : Loading t m) :
    ∃ m', loadBlockIndexGuts hash256 params entries m = .ok (some m') ∧ Loading t m' ∧
      ∀ k p, t.find k = some p →
        m.heap k = some p.entry.loaded ∨ ofEntry p.entry ∈ entries →
        m'.heap k = some p.entry.loaded := by
  induction entries generalizing m with
  | nil =>
    refine ⟨m, rfl, hm, fun k p _ h => ?_⟩
    exact h.resolve_right (List.not_mem_nil)
  | cons d ds ih =>
    obtain ⟨k, p, hp, rfl⟩ := hentries d List.mem_cons_self
    obtain ⟨m₁, hm₁, hload₁, hself, hkeep⟩ := loadEntry_eq hm hp (hcheck k p hp)
    obtain ⟨m', hm', hload', hall⟩ := ih (fun d hd => hentries d (List.mem_cons_of_mem _ hd)) hload₁
    refine ⟨m', ?_, hload', fun k' p' hp' h => ?_⟩
    · simp [loadBlockIndexGuts, hm₁, hm']
    · refine hall k' p' hp' ?_
      rcases h with h | h
      · exact .inl (hkeep k' p' hp' h)
      rcases List.mem_cons.mp h with heq | h
      · left
        have hkk : k' = k := by
          rw [← constructBlockHash_ofEntry hp', ← constructBlockHash_ofEntry hp, heq]
        subst hkk
        rw [hp] at hp'
        cases hp'
        exact hself
      · exact .inr h

/-! ## What is rebuilt -/

/-- The blocks of `done` are rebuilt and the others are as they were loaded. -/
def Rebuilding (t : IndexTree hash256) (done : List Uint256) (m : BlockMap) : Prop :=
  ∀ k, m.heap k = (t.find k).map fun p => if k ∈ done then p.entry else p.entry.loaded

theorem Rebuilding.represents (hm : Rebuilding t done m) (hp : t.find k = some p)
    (hdone : ∀ a, Ancestor a p → a.hashBlock ∈ done) : m.heap.Represents p := by
  intro a ha
  rw [hm, t.find_ancestor hp ha, Option.map_some, if_pos (hdone a ha)]

/-- **Rebuilding one block** whose ancestors are rebuilt. -/
theorem Rebuilding.step (hm : Rebuilding t done m) (hp : t.find k = some p) (hk : k ∉ done)
    (hdone : ∀ q, p.pprev = some q → ∀ a, Ancestor a q → a.hashBlock ∈ done) :
    m.heap.deref k = .ok p.entry.loaded ∧
      (do
        let e ← m.heap.buildCadenceLaneLinks p.entry.loaded
        let e ← m.heap.addTotals e
        m.heap.buildSkip e) = .ok p.entry ∧
      Rebuilding t (done ++ [k]) (m.insert k p.entry) := by
  refine ⟨?_, ?_, ?_⟩
  · rw [IndexHeap.deref, hm, hp, Option.map_some, if_neg hk]
  · have hrep : ∀ q, p.pprev = some q → m.heap.Represents q ∧ Built hash256 q :=
      fun q hq => ⟨hm.represents (t.closed hp hq) (hdone q hq), t.built (t.closed hp hq)⟩
    have hadd : ∃ h, p = addToBlockIndex hash256 p.pprev h := by
      cases t.built hp with
      | root h => exact ⟨h, rfl⟩
      | child hq h => exact ⟨h, rfl⟩
    obtain ⟨h, hh⟩ := hadd
    have hversion : p.nVersion = h.nVersion := by rw [hh]; rfl
    have htime : p.nTime = h.nTime := by rw [hh]; rfl
    have hbits : p.nBits = h.nBits := by rw [hh]; rfl
    refine bind_eq_ok_iff.mpr ⟨_, IndexHeap.buildCadenceLaneLinks_eq hash256
      (fun q hq => (hrep q hq).1) h rfl, bind_eq_ok_iff.mpr ⟨_, IndexHeap.addTotals_eq hash256
      (fun q hq => (hrep q hq).1) h rfl hversion htime hbits,
      (IndexHeap.buildSkip_eq hrep h rfl (congrArg CBlockIndex.nHeight hh) rfl).trans ?_⟩⟩
    rw [← hh]
    rfl
  · intro k'
    by_cases hk' : k' = k
    · simp [hk', heap_insert_self, hp]
    · rw [heap_insert_of_ne _ _ hk', hm]
      simp [hk']

theorem rebuildLinks_eq {rest : List Uint256} {previous : Option Int} (hm : Rebuilding t done m)
    (hall : ∀ k p, t.find k = some p → k ∈ done ++ rest)
    (hfind : ∀ k ∈ rest, ∃ p, t.find k = some p) (hnodup : (done ++ rest).Nodup)
    (hsorted : (done ++ rest).Pairwise fun a b => ∀ pa pb, t.find a = some pa →
      t.find b = some pb → pa.nHeight ≤ pb.nHeight)
    (hprevious : ∀ h, previous = some h → 0 ≤ h ∧
      ∀ k ∈ done, ∀ p, t.find k = some p → p.nHeight ≤ h) :
    ∃ m', rebuildLinks rest previous m = .ok (some m') ∧ IndexTree.Refines m'.heap t := by
  induction rest generalizing done previous m with
  | nil =>
    refine ⟨m, rfl, fun k => ?_⟩
    rw [hm]
    cases hk : t.find k with
    | none => rfl
    | some p => rw [Option.map_some, if_pos (by simpa using hall k p hk), Option.map_some]
  | cons k rest ih =>
    obtain ⟨p, hp⟩ := hfind k List.mem_cons_self
    have hk : k ∉ done := fun h => by
      exact (List.nodup_append.mp hnodup).2.2 k h k List.mem_cons_self rfl
    -- A block below `p` is neither `p` nor sorted after it.
    have hbelow {a : CBlockIndex} (ha : t.find a.hashBlock = some a) (hlt : a.nHeight < p.nHeight) :
        a.hashBlock ∈ done := by
      rcases List.mem_append.mp (hall _ a ha) with h | h
      · exact h
      rcases List.mem_cons.mp h with heq | h
      · rw [heq, hp] at ha
        cases ha
        exact absurd hlt (lt_irrefl _)
      · have hle := (List.pairwise_cons.mp (List.pairwise_append.mp hsorted).2.1).1 _ h p a hp ha
        exact absurd hlt (Int.not_lt.mpr hle)
    have hdone : ∀ q, p.pprev = some q → ∀ a, Ancestor a q → a.hashBlock ∈ done := by
      intro q hq a ha
      have hparent := (t.built hp).nHeight_pprev hq
      have hle := (t.built (t.closed hp hq)).nHeight_le ha
      exact hbelow (t.find_ancestor (t.closed hp hq) ha) (by omega)
    obtain ⟨hderef, hbuild, hm'⟩ := hm.step hp hk hdone
    obtain ⟨e₁, he₁, hbuild⟩ := bind_eq_ok_iff.mp hbuild
    obtain ⟨e₂, he₂, he₃⟩ := bind_eq_ok_iff.mp hbuild
    have hcontiguous : ¬ previous.any (fun h => decide (h + 1 < p.entry.loaded.nHeight)) = true := by
      rcases previous with _ | h
      · simp
      obtain ⟨h0, hmax⟩ := hprevious h rfl
      have hgap : p.nHeight ≤ h + 1 := by
        rcases hq : p.pprev with _ | q
        · have := (t.built hp).nHeight_root hq
          omega
        have hparent := (t.built hp).nHeight_pprev hq
        have hle := hmax _ (hdone q hq q (.refl q)) q (t.closed hp hq)
        omega
      have hfalse : decide (h + 1 < p.nHeight) = false := decide_eq_false (by omega)
      rw [Option.any_some]
      exact hfalse ▸ Bool.false_ne_true
    have hlast : ∀ h, some p.nHeight = some h → 0 ≤ h ∧
        ∀ k' ∈ done ++ [k], ∀ p', t.find k' = some p' → p'.nHeight ≤ h := by
      rintro h ⟨⟩
      refine ⟨(t.built hp).linked.nHeight_nonneg, fun k' hk' p' hp' => ?_⟩
      rcases List.mem_append.mp hk' with hk' | hk'
      · exact (List.pairwise_append.mp hsorted).2.2 k' hk' k List.mem_cons_self p' p hp' hp
      · rw [List.mem_singleton.mp hk', hp] at hp'
        cases hp'
        exact le_rfl
    obtain ⟨m', hrest, href⟩ := ih hm' (by simpa using hall)
      (fun k' hk' => hfind k' (List.mem_cons_of_mem _ hk')) (by simpa using hnodup)
      (by simpa using hsorted) hlast
    refine ⟨m', ?_, href⟩
    rw [rebuildLinks, hderef, ok_bind, if_neg hcontiguous, he₁, ok_bind, he₂, ok_bind, he₃, ok_bind]
    exact hrest

/-- **A reload restores the map.**  The blocks of a tree, written to disk and read back in any
order, sorted by height in any way: every entry is what it was, links and totals included. -/
theorem loadBlockIndex_eq (ht : IndexTree.Refines m.heap t)
    (hcheck : ∀ k e, m.heap k = some e → checkLoaded hash256 params k e = true)
    (hdisk : m.OnDisk entries) :
    ∃ loaded, loadBlockIndexGuts hash256 params entries ∅ = .ok (some loaded) ∧
      ∀ vSortedByHeight, loaded.SortedByHeight vSortedByHeight →
        ∃ m', rebuildLinks vSortedByHeight none loaded = .ok (some m') ∧
          IndexTree.Refines m'.heap t := by
  have hmem {d : CDiskBlockIndex} :
      d ∈ entries ↔ ∃ k p, t.find k = some p ∧ d = .ofEntry p.entry := by
    rw [hdisk.mem_iff, List.mem_map]
    constructor
    · rintro ⟨⟨k, e⟩, hs, rfl⟩
      obtain ⟨p, hp, -, rfl⟩ := ht.exists_block (AList.mem_lookup_iff.mpr hs)
      exact ⟨k, p, hp, rfl⟩
    · rintro ⟨k, p, hp, rfl⟩
      refine ⟨⟨k, p.entry⟩, AList.mem_lookup_iff.mp ?_, rfl⟩
      exact (ht k).trans (by rw [hp]; rfl)
  obtain ⟨loaded, hloaded, hloading, hall⟩ := loadBlockIndexGuts_eq (t := t) params
    (fun d hd => hmem.mp hd) (fun k p hp => hcheck k _ (by rw [ht, hp]; rfl)) (m := ∅)
    (by rintro k e ⟨⟩)
  have hheap : ∀ k, loaded.heap k = (t.find k).map fun p => p.entry.loaded := by
    intro k
    cases hk : t.find k with
    | none =>
      rcases hlookup : loaded.heap k with _ | e
      · rfl
      obtain ⟨p, hp, -⟩ := hloading k e hlookup
      rw [hk] at hp
      cases hp
    | some p => exact hall k p hk (.inr (hmem.mpr ⟨k, p, hk, rfl⟩))
  refine ⟨loaded, hloaded, fun order ⟨hperm, hsorted⟩ => ?_⟩
  have hkeys {k : Uint256} : k ∈ order ↔ ∃ p, t.find k = some p := by
    rw [hperm.mem_iff, ← AList.mem_keys, ← AList.lookup_isSome]
    rw [show loaded.lookup k = _ from hheap k, Option.isSome_map, Option.isSome_iff_exists]
  have hstart : Rebuilding t [] loaded := by
    intro k
    simp [hheap]
  refine rebuildLinks_eq hstart ?_ ?_ ?_ ?_ nofun
  · exact fun k p hp => hkeys.mpr ⟨p, hp⟩
  · exact fun k hk => hkeys.mp hk
  · exact hperm.nodup_iff.mpr loaded.keys_nodup
  · refine hsorted.imp fun {a b} hab pa pb ha hb => ?_
    exact hab _ _ (by rw [hheap, ha]; rfl) (by rw [hheap, hb]; rfl)

end Load

/-! ## The lanes -/

/-- The height that a pointer leads to. -/
def IndexHeap.height (heap : IndexHeap) (a : Uint256) : Int := ((heap a).map (·.nHeight)).getD 0

/-- What the lane links and the counter of a block stand for: `GetPreviousBlockForLane` is a scan
back through the ancestors, and `nAuxPow` is their count. -/
structure IndexHeap.LaneLinks (heap : IndexHeap) (b : Uint256) : Prop where
  own : ∀ auxpow min_height, heap.InLane auxpow b →
    heap.getPreviousBlockForLane b auxpow min_height = .ok (some b)
  other : ∀ auxpow min_height, ¬ heap.InLane auxpow b →
    ∃ r, heap.getPreviousBlockForLane b auxpow min_height = .ok r ∧
      ∀ a, r = some a ↔
        (heap.StrictAncestor a b ∧ heap.InLane auxpow a ∧
          ∀ a', heap.StrictAncestor a' b → heap.InLane auxpow a' → heap.height a' ≤ heap.height a) ∧
        min_height ≤ heap.height a
  count : ∀ e, heap b = some e →
    {a | heap.AncestorOrSelf a b ∧ heap.InLane true a}.ncard = e.nAuxPow

section Lanes

variable {heap : IndexHeap} {b : Uint256}

theorem IndexTree.Refines.inLane_iff (h : Refines heap t) (hp : t.find b = some p) {auxpow : Bool} :
    heap.InLane auxpow b ↔ p.signalsAuxpow = auxpow := by
  constructor
  · rintro ⟨e, he, hlane⟩
    rw [h, hp] at he
    cases he
    exact hlane
  · exact fun hlane => ⟨p.entry, by rw [h, hp]; rfl, hlane⟩

theorem IndexTree.Refines.height_eq (h : Refines heap t) (hp : t.find b = some p) :
    heap.height b = p.nHeight := by
  rw [IndexHeap.height, h, hp]
  rfl

/-- `GetPreviousBlockForLane` over pointers is the one on the blocks that they represent. -/
theorem IndexHeap.Represents.getPreviousBlockForLane (h : heap.Represents p)
    (hp : Built hash256 p) (auxpow : Bool) (min_height : Int) :
    heap.getPreviousBlockForLane p.hashBlock auxpow min_height =
      .ok ((p.getPreviousBlockForLane auxpow min_height).map CBlockIndex.hashBlock) := by
  rw [IndexHeap.getPreviousBlockForLane, h.deref, ok_bind, CBlockIndex.getPreviousBlockForLane]
  by_cases hlane : p.signalsAuxpow = auxpow
  · simp [hlane]
  rw [if_neg (p.signalsAuxpow_entry.trans_ne hlane), if_neg hlane]
  have hlink : (if auxpow then p.entry.pprev_auxpow else p.entry.pprev_permissionless) =
      (lastInLane auxpow p).map hashBlock := by
    rw [lastInLane, if_neg hlane]
    cases auxpow <;> rfl
  have hlast : (if auxpow then p.pprev_auxpow else p.pprev_permissionless) =
      lastInLane auxpow p := by rw [lastInLane, if_neg hlane]
  rw [hlink, hlast]
  rcases hc : lastInLane auxpow p with _ | c
  · rfl
  have hanc := ((hp.lastInLane_eq_some_iff auxpow).mp hc).1
  simp only [Option.map_some, (h.ancestor hanc).deref, ok_bind]
  by_cases hmin : min_height ≤ c.nHeight
  · simp [hmin]
  simp [hmin]

/-- **The links of a tree are the scan.** -/
theorem IndexTree.Refines.laneLinks (h : Refines heap t) (hb : (heap b).isSome) :
    heap.LaneLinks b := by
  obtain ⟨e, he⟩ := Option.isSome_iff_exists.mp hb
  obtain ⟨p, hp, rfl, rfl⟩ := h.exists_block he
  have hbuilt := t.built hp
  have hget := (h.represents hp).getPreviousBlockForLane hbuilt
  have hfind {x : CBlockIndex} (hx : Ancestor x p) := t.find_ancestor hp hx
  refine ⟨fun auxpow min_height hlane => ?_, fun auxpow min_height hlane => ?_, fun e he' => ?_⟩
  · rw [hget, getPreviousBlockForLane, if_pos ((h.inLane_iff hp).mp hlane)]
    rfl
  · have hother : p.signalsAuxpow ≠ auxpow := fun heq => hlane ((h.inLane_iff hp).mpr heq)
    -- The block itself is not in the lane, so its ancestors in the lane are strict.
    have hstrict {x : CBlockIndex} (hx : x.signalsAuxpow = auxpow) (hxp : Ancestor x p) :
        heap.StrictAncestor x.hashBlock p.hashBlock := by
      cases hxp with
      | refl => exact absurd hx hother
      | step hprev hxq => exact (h.strictAncestor_iff hp).mpr ⟨_, x, hprev, hxq, rfl⟩
    refine ⟨_, hget auxpow min_height, fun a => ?_⟩
    rw [getPreviousBlockForLane_eq, if_neg hother]
    constructor
    · intro ha
      obtain ⟨x, hx, rfl⟩ := Option.map_eq_some_iff.mp ha
      obtain ⟨hx, hmin⟩ := Option.filter_eq_some_iff.mp hx
      obtain ⟨hxp, hxlane, hmax⟩ := (hbuilt.lastInLane_eq_some_iff auxpow).mp hx
      rw [h.height_eq (hfind hxp)]
      refine ⟨⟨hstrict hxlane hxp, (h.inLane_iff (hfind hxp)).mpr hxlane, fun a' ha' ha'lane => ?_⟩,
        of_decide_eq_true hmin⟩
      obtain ⟨q, y, hq, hy, rfl⟩ := (h.strictAncestor_iff hp).mp ha'
      have hyp : Ancestor y p := .step hq hy
      rw [h.height_eq (hfind hyp)]
      exact hmax y hyp ((h.inLane_iff (hfind hyp)).mp ha'lane)
    · rintro ⟨⟨ha, halane, hmax⟩, hmin⟩
      obtain ⟨q, x, hq, hx, rfl⟩ := (h.strictAncestor_iff hp).mp ha
      have hxp : Ancestor x p := .step hq hx
      rw [h.height_eq (hfind hxp)] at hmin
      have hlast : lastInLane auxpow p = some x := by
        refine (hbuilt.lastInLane_eq_some_iff auxpow).mpr
          ⟨hxp, (h.inLane_iff (hfind hxp)).mp halane, fun y hyp hylane => ?_⟩
        have := hmax _ (hstrict hylane hyp) ((h.inLane_iff (hfind hyp)).mpr hylane)
        rwa [h.height_eq (hfind hyp), h.height_eq (hfind hxp)] at this
      rw [hlast, Option.filter_some_pos (by simpa using hmin)]
      rfl
  · rw [he] at he'
    cases he'
    have hset : {a | heap.AncestorOrSelf a p.hashBlock ∧ heap.InLane true a} =
        hashBlock '' {x | Ancestor x p ∧ x.signalsAuxpow = true} := by
      ext a
      constructor
      · rintro ⟨ha, hlane⟩
        obtain ⟨x, hx, rfl⟩ := (h.ancestorOrSelf_iff hp).mp ha
        exact ⟨x, ⟨hx, (h.inLane_iff (hfind hx)).mp hlane⟩, rfl⟩
      · rintro ⟨x, ⟨hx, hlane⟩, rfl⟩
        exact ⟨(h.ancestorOrSelf_iff hp).mpr ⟨x, hx, rfl⟩, (h.inLane_iff (hfind hx)).mpr hlane⟩
    have hinj : Set.InjOn hashBlock {x | Ancestor x p ∧ x.signalsAuxpow = true} := by
      rintro x ⟨hx, -⟩ y ⟨hy, -⟩ heq
      have hfx := hfind hx
      rw [heq, hfind hy] at hfx
      exact (Option.some.inj hfx).symm
    rw [hset, hinj.ncard_image, hbuilt.ncard_auxpow]
    rfl

end Lanes

open BlockMap in
/-- **The lane links are the linear backward scan.**  In the map that `AddToBlockIndex` has built
from headers in any order that puts parents first, and again in the map that `LoadBlockIndex` makes
of what was written to disk, for every block, lane and minimal height:

* `GetPreviousBlockForLane` is the block itself if it is in the lane, and otherwise its highest
  strict ancestor in the lane if there is one and it is high enough, else null;
* `nAuxPow` is the number of AuxPoW blocks among the block and its ancestors.

The database is read in any order and sorted by height in any way.  Blocks whose headers pass the
check of `LoadBlockIndexGuts` are what a reload is about: it stops at the first that does not. -/
theorem laneLinks_scan {hash256 : HashFn} {headers : List CBlockHeader}
    (ho : TreeOrder hash256 headers) :
    ∃ m, ofHeaders hash256 headers = .ok m ∧ (∀ b, (m.heap b).isSome → m.heap.LaneLinks b) ∧
      ∀ params entries, m.OnDisk entries →
        (∀ b e, m.heap b = some e → checkLoaded hash256 params b e = true) →
        ∃ loaded, loadBlockIndexGuts hash256 params entries ∅ = .ok (some loaded) ∧
          ∀ vSortedByHeight, loaded.SortedByHeight vSortedByHeight →
            ∃ m', rebuildLinks vSortedByHeight none loaded = .ok (some m') ∧
              (∀ b, m'.heap b = m.heap b) ∧ ∀ b, (m'.heap b).isSome → m'.heap.LaneLinks b := by
  obtain ⟨m, t, hm, ht, -⟩ := ho.exists_tree
  refine ⟨m, hm, fun b hb => ht.laneLinks hb, fun params entries hdisk hcheck => ?_⟩
  obtain ⟨loaded, hloaded, hrebuild⟩ := loadBlockIndex_eq ht hcheck hdisk
  refine ⟨loaded, hloaded, fun order horder => ?_⟩
  obtain ⟨m', hm', ht'⟩ := hrebuild order horder
  exact ⟨m', hm', fun b => by rw [ht', ht], fun b hb => ht'.laneLinks hb⟩

theorem checkLoaded_forkHeaders {m : BlockMap}
    (hm : BlockMap.ofHeaders nonceHash forkHeaders = .ok m) {b : Uint256} {e : IndexEntry}
    (he : m.heap b = some e) : BlockMap.checkLoaded nonceHash mainParams b e = true := by
  have hall : (BlockMap.ofHeaders nonceHash forkHeaders).toOption.map (fun m =>
      m.entries.all fun s => BlockMap.checkLoaded nonceHash mainParams s.1 s.2) = some true := by
    decide +kernel
  rw [hm] at hall
  exact List.all_eq_true.mp (Option.some.inj hall) ⟨b, e⟩ (AList.mem_lookup_iff.mp he)

/-- The fork, before and after a reload. -/
theorem laneLinks_scan_fork :
    TreeOrder nonceHash forkHeaders ∧ ∃ m, BlockMap.ofHeaders nonceHash forkHeaders = .ok m ∧
      (∀ b, (m.heap b).isSome → m.heap.LaneLinks b) ∧
      ∃ entries loaded order m', m.OnDisk entries ∧
        BlockMap.loadBlockIndexGuts nonceHash mainParams entries ∅ = .ok (some loaded) ∧
        loaded.SortedByHeight order ∧ BlockMap.rebuildLinks order none loaded = .ok (some m') ∧
        ∀ b, (m'.heap b).isSome → m'.heap.LaneLinks b := by
  refine ⟨treeOrder_forkHeaders, ?_⟩
  obtain ⟨m, hm, hlinks, hreload⟩ := laneLinks_scan treeOrder_forkHeaders
  obtain ⟨loaded, hloaded, hrebuild⟩ := hreload mainParams _ (List.Perm.refl _)
    fun b e he => checkLoaded_forkHeaders hm he
  obtain ⟨order, horder⟩ := loaded.exists_sortedByHeight
  obtain ⟨m', hm', -, hlinks'⟩ := hrebuild order horder
  exact ⟨m, hm, hlinks, _, loaded, order, m', List.Perm.refl _, hloaded, horder, hm', hlinks'⟩

end Qbit
