import Mathlib.Data.Finset.Basic
import Qbit.Lib.Files
import Qbit.Primitives.Block

/-!
# Installing a compacted block file

`BlockManager::InstallWitnessCompaction` of `node/blockstorage.cpp`.  A block file whose blocks were
written to a second file without their witnesses is replaced by it: the full file gets the name of a
backup, and the second file gets its name.  After each of the two renames the directory is synced,
and each call may fail.

`install_rolledBack_iff` says when an installation that fails leaves everything as it was: always,
unless the backup has its name and the sync after that fails.
-/

open Checked

namespace Qbit

/-! ## The block manager -/

/-- What a `CBlockIndex` says about where its block is stored. -/
structure StoredBlock where
  nFile : Int := 0
  nDataPos : UInt32 := 0
  /-- `BLOCK_HAVE_DATA` -/
  have_data : Bool := false
  /-- `BLOCK_OPT_WITNESS_PRUNED` -/
  witness_pruned : Bool := false
  deriving DecidableEq

/-- `CBlockFileInfo`, as far as compaction uses it. -/
structure CBlockFileInfo where
  nSize : UInt32 := 0
  nHeightLast : UInt32 := 0
  deriving DecidableEq

/-- `WitnessCompactionStage` -/
inductive WitnessCompactionStage where
  | prepared
  | installed
  deriving DecidableEq

/-- `WitnessCompactionTempPath` -/
def witnessCompactionTempPath (original_path : String) : String := original_path ++ ".wpruned"

/-- `WitnessCompactionBackupPath` -/
def witnessCompactionBackupPath (original_path : String) : String := original_path ++ ".wfull"

/-- `PendingWitnessCompaction`.  The paths of the other two files are made from that of the block
file. -/
structure PendingWitnessCompaction where
  target_file : Nat
  original_path : String
  compacted_file_size : UInt32
  /-- The blocks with their positions in the compacted file. -/
  new_positions : List (Uint256 × UInt32)
  stage : WitnessCompactionStage
  deriving DecidableEq

namespace PendingWitnessCompaction

variable (pending : PendingWitnessCompaction)

def temp_path : String :=
  witnessCompactionTempPath pending.original_path

def backup_path : String :=
  witnessCompactionBackupPath pending.original_path

theorem length_backup_path : pending.backup_path.length = pending.original_path.length + 6 :=
  String.length_append ..

theorem length_temp_path : pending.temp_path.length = pending.original_path.length + 8 :=
  String.length_append ..

theorem backup_path_ne : pending.backup_path ≠ pending.original_path := by
  intro h
  have hbackup := pending.length_backup_path
  rw [h] at hbackup
  omega

theorem temp_path_ne : pending.temp_path ≠ pending.original_path := by
  intro h
  have htemp := pending.length_temp_path
  rw [h] at htemp
  omega

theorem temp_path_ne_backup_path : pending.temp_path ≠ pending.backup_path := by
  intro h
  have htemp := pending.length_temp_path
  have hbackup := pending.length_backup_path
  rw [h] at htemp
  omega

end PendingWitnessCompaction

/-- `BlockManager`, as far as compaction uses it.  A pointer to an index is the hash of its block.
-/
structure BlockManager where
  m_block_index : Uint256 → StoredBlock := fun _ => {}
  m_dirty_blockindex : Finset Uint256 := ∅
  m_blockfile_info : List CBlockFileInfo := []
  m_dirty_fileinfo : Finset Nat := ∅
  m_have_witness_pruned : Bool := false
  m_write_witness_pruned_flag : Bool := false
  m_pending_witness_compaction : Option PendingWitnessCompaction := none

/-! ## Calls that may fail -/

/-- The files of the blocks directory. -/
abbrev BlockFiles := Files String (List UInt8)

/-- What the calls of an installation report: the two looks at
`m_force_witness_compaction_failure_for_test`, and whether a rename, a sync of the directory or a
removal goes without an error. -/
structure InstallCalls where
  forced_before : Bool := false
  backup_rename : Bool := true
  backup_sync : Bool := true
  forced_between : Bool := false
  install_rename : Bool := true
  install_sync : Bool := true
  rollback_rename : Bool := true
  rollback_sync : Bool := true
  rollback_remove : Bool := true

/-- `RemoveWitnessCompactionFile` -/
def removeWitnessCompactionFile (files : BlockFiles) (path : String) (removed : Bool) :
    Bool × BlockFiles :=
  if removed then (true, files.remove path) else (false, files)

/-- `RenameWitnessCompactionFile`.  A rename takes effect even if the sync after it fails. -/
def renameWitnessCompactionFile (files : BlockFiles) (source destination : String)
    (renamed synced : Bool) : Bool × BlockFiles :=
  match (if renamed then files.rename source destination else none) with
  | none => (false, files)
  | some files => (synced, files)

/-- `rollback_install` -/
def rollbackInstall (calls : InstallCalls) (pending : PendingWitnessCompaction)
    (files : BlockFiles) : Bool × BlockFiles :=
  let (rename_ok, files) := if (files pending.backup_path).isSome then
      renameWitnessCompactionFile files pending.backup_path pending.original_path
        calls.rollback_rename calls.rollback_sync
    else (true, files)
  let (remove_ok, files) := if (files pending.temp_path).isSome then
      removeWitnessCompactionFile files pending.temp_path calls.rollback_remove
    else (true, files)
  (rename_ok && remove_ok, files)

/-- The changes to the index and the file information once the compacted file has its name.  An
access beyond the end of `m_blockfile_info` throws. -/
def BlockManager.install (bm : BlockManager) (pending : PendingWitnessCompaction) :
    Result BlockManager :=
  let bm := pending.new_positions.foldl (fun bm (position : Uint256 × UInt32) => { bm with
    m_block_index := Function.update bm.m_block_index position.1
      { bm.m_block_index position.1 with nDataPos := position.2, witness_pruned := true }
    m_dirty_blockindex := insert position.1 bm.m_dirty_blockindex }) bm
  if pending.target_file < bm.m_blockfile_info.length then .ok { bm with
    m_blockfile_info := bm.m_blockfile_info.modify pending.target_file fun fileinfo =>
      { fileinfo with nSize := pending.compacted_file_size }
    m_dirty_fileinfo := insert pending.target_file bm.m_dirty_fileinfo
    m_write_witness_pruned_flag := bm.m_write_witness_pruned_flag || !bm.m_have_witness_pruned
    m_pending_witness_compaction := some { pending with stage := .installed } }
  else .error .exception

/-- `InstallWitnessCompaction` -/
def installWitnessCompaction (calls : InstallCalls) (files : BlockFiles) (bm : BlockManager) :
    Result (Bool × BlockFiles × BlockManager) :=
  match bm.m_pending_witness_compaction with
  | none => .ok (true, files, bm)
  | some pending =>
    if pending.stage ≠ .prepared then .ok (true, files, bm)
    else if calls.forced_before then .ok (false, files, bm)
    else
      let (ok, files) := renameWitnessCompactionFile files pending.original_path pending.backup_path
        calls.backup_rename calls.backup_sync
      if !ok then .ok (false, files, bm)
      else if calls.forced_between then .ok (false, (rollbackInstall calls pending files).2, bm)
      else
        let (ok, files) := renameWitnessCompactionFile files pending.temp_path
          pending.original_path calls.install_rename calls.install_sync
        if !ok then .ok (false, (rollbackInstall calls pending files).2, bm)
        else do
          let bm ← bm.install pending
          return (true, files, bm)

/-! ## Rolling back -/

/-- A compaction that has been prepared: the block file is there, and it has no backup. -/
structure ReadyToInstall (files : BlockFiles) (bm : BlockManager)
    (pending : PendingWitnessCompaction) : Prop where
  pending_eq : bm.m_pending_witness_compaction = some pending
  stage : pending.stage = .prepared
  original : (files pending.original_path).isSome = true
  backup : files pending.backup_path = none

/-- The calls that the rollback makes succeed. -/
structure InstallCalls.RollbackSucceeds (calls : InstallCalls) : Prop where
  rename : calls.rollback_rename = true
  sync : calls.rollback_sync = true
  remove : calls.rollback_remove = true

/-- Everything is as it was before, but for the compacted file. -/
structure RolledBack (pending : PendingWitnessCompaction) (files : BlockFiles) (bm : BlockManager)
    (files' : BlockFiles) (bm' : BlockManager) : Prop where
  files_eq : ∀ path, path ≠ pending.temp_path → files' path = files path
  manager : bm' = bm

section Install

variable {calls : InstallCalls} {files files' : BlockFiles} {bm bm' : BlockManager}
  {pending : PendingWitnessCompaction}

/-- After a rollback the compaction can be tried again: the block file has its contents, and there is
no backup. -/
theorem RolledBack.prepared (hback : RolledBack pending files bm files' bm')
    (h : ReadyToInstall files bm pending) :
    ReadyToInstall files' bm' pending ∧
      files' pending.original_path = files pending.original_path := by
  have horiginal := hback.files_eq _ pending.temp_path_ne.symm
  have hbackup := hback.files_eq _ pending.temp_path_ne_backup_path.symm
  obtain ⟨-, rfl⟩ := hback
  refine ⟨⟨h.pending_eq, h.stage, ?_, ?_⟩, horiginal⟩
  · rw [horiginal, h.original]
  · rw [hbackup, h.backup]

theorem renameWitnessCompactionFile_of_ne {source destination path : String}
    (hsource : path ≠ source) (hdestination : path ≠ destination) (renamed synced : Bool) :
    (renameWitnessCompactionFile files source destination renamed synced).2 path = files path := by
  rw [renameWitnessCompactionFile]
  split
  · rfl
  next hrename =>
  split at hrename
  · obtain ⟨content, -, rfl⟩ := Option.map_eq_some_iff.mp hrename
    simp [Files.write_of_ne _ hdestination, Files.remove_of_ne _ hsource]
  · cases hrename

theorem rollbackInstall_spec (hcalls : calls.RollbackSucceeds) {content : List UInt8}
    (hbackup : files pending.backup_path = some content) {path : String}
    (hpath : path ≠ pending.temp_path) :
    (rollbackInstall calls pending files).2 path =
      ((files.remove pending.backup_path).write pending.original_path content) path := by
  have hrename : renameWitnessCompactionFile files pending.backup_path pending.original_path
      calls.rollback_rename calls.rollback_sync =
        (true, (files.remove pending.backup_path).write pending.original_path content) := by
    rw [renameWitnessCompactionFile, hcalls.rename, if_pos rfl, files.rename_eq_some hbackup,
      hcalls.sync]
  rw [rollbackInstall, hbackup, Option.isSome_some, if_pos rfl, hrename]
  dsimp only
  split
  · rw [removeWitnessCompactionFile, hcalls.remove, if_pos rfl]
    exact Files.remove_of_ne _ hpath
  · rfl

/-- **A rollback restores the files**, if the block file was renamed and nothing else was changed
than it and the compacted file. -/
theorem rolledBack_of_rollbackInstall (hcalls : calls.RollbackSucceeds)
    (h : ReadyToInstall files bm pending)
    (hrenamed : files' pending.backup_path = files pending.original_path)
    (hothers : ∀ path, path ≠ pending.temp_path → path ≠ pending.original_path →
      path ≠ pending.backup_path → files' path = files path) :
    RolledBack pending files bm (rollbackInstall calls pending files').2 bm := by
  refine ⟨fun path hpath => ?_, rfl⟩
  obtain ⟨content, hcontent⟩ := Option.isSome_iff_exists.mp h.original
  rw [rollbackInstall_spec hcalls (hrenamed.trans hcontent) hpath]
  by_cases horiginal : path = pending.original_path
  · rw [horiginal, Files.write_self, hcontent]
  rw [Files.write_of_ne _ horiginal]
  by_cases hbackup : path = pending.backup_path
  · rw [hbackup, Files.remove_self, h.backup]
  · rw [Files.remove_of_ne _ hbackup, hothers path hpath horiginal hbackup]

/-- **When a failed installation is rolled back.**  An installation that fails leaves the index, the
file information and all files as they were, but for the compacted file, if and only if it is not the
sync after the rename to the backup that fails: there it returns without a rollback. -/
theorem install_rolledBack_iff (h : ReadyToInstall files bm pending)
    (hcalls : calls.RollbackSucceeds) :
    (∀ files' bm', installWitnessCompaction calls files bm = .ok (false, files', bm') →
      RolledBack pending files bm files' bm') ↔
        calls.forced_before = true ∨ calls.backup_rename = false ∨ calls.backup_sync = true := by
  obtain ⟨content, hcontent⟩ := Option.isSome_iff_exists.mp h.original
  rw [installWitnessCompaction, h.pending_eq]
  dsimp only
  rw [if_neg (not_not.mpr h.stage)]
  cases hforced : calls.forced_before with
  | true =>
    rw [if_pos rfl]
    refine iff_of_true ?_ (Or.inl rfl)
    rintro _ _ ⟨⟩
    exact ⟨fun _ _ => rfl, rfl⟩
  | false =>
    rw [if_neg Bool.false_ne_true, renameWitnessCompactionFile]
    cases hrename : calls.backup_rename with
    | false =>
      rw [if_neg Bool.false_ne_true]
      refine iff_of_true ?_ (Or.inr (Or.inl rfl))
      rintro _ _ ⟨⟩
      exact ⟨fun _ _ => rfl, rfl⟩
    | true =>
      rw [if_pos rfl, files.rename_eq_some hcontent]
      dsimp only
      have hbackup : ((files.remove pending.original_path).write pending.backup_path content)
          pending.backup_path = files pending.original_path := by
        rw [Files.write_self, hcontent]
      have hothers : ∀ path, path ≠ pending.original_path → path ≠ pending.backup_path →
          ((files.remove pending.original_path).write pending.backup_path content) path =
            files path := fun path horiginal hbackup => by
        rw [Files.write_of_ne _ hbackup, Files.remove_of_ne _ horiginal]
      cases hsync : calls.backup_sync with
      | false =>
        -- the block file has the name of the backup, and the function returns
        rw [Bool.not_false, if_pos rfl]
        refine iff_of_false (fun hall => ?_) (by simp)
        have hlost := (hall _ _ rfl).files_eq _ pending.temp_path_ne.symm
        rw [Files.write_of_ne _ pending.backup_path_ne.symm, Files.remove_self, hcontent] at hlost
        cases hlost
      | true =>
        rw [Bool.not_true, if_neg Bool.false_ne_true]
        refine iff_of_true (fun files' bm' hresult => ?_) (Or.inr (Or.inr rfl))
        split at hresult
        · cases hresult
          exact rolledBack_of_rollbackInstall hcalls h hbackup fun path _ => hothers path
        split at hresult
        · cases hresult
          refine rolledBack_of_rollbackInstall hcalls h ?_ fun path htemp horiginal hpath => ?_
          · rw [renameWitnessCompactionFile_of_ne pending.temp_path_ne_backup_path.symm
              pending.backup_path_ne, hbackup]
          · rw [renameWitnessCompactionFile_of_ne htemp horiginal, hothers path horiginal hpath]
        · obtain ⟨_, -, hresult⟩ := bind_eq_ok_iff.mp hresult
          cases hresult

end Install

/-! ## One block -/

/-- The compaction of a file with one block. -/
def oneBlockCompaction : PendingWitnessCompaction where
  target_file := 0
  original_path := "blk00000.dat"
  compacted_file_size := 1
  new_positions := [(1, 8)]
  stage := .prepared

def oneBlockManager : BlockManager where
  m_block_index := fun _ => { nDataPos := 8, have_data := true }
  m_blockfile_info := [{ nSize := 2 }]
  m_pending_witness_compaction := some oneBlockCompaction

/-- The full file and the compacted file. -/
def oneBlockFiles : BlockFiles := fun path =>
  if path = "blk00000.dat" then some [1, 2]
  else if path = "blk00000.dat.wpruned" then some [1]
  else none

theorem readyToInstall_oneBlock : ReadyToInstall oneBlockFiles oneBlockManager oneBlockCompaction :=
  ⟨rfl, rfl, by decide, by decide⟩

/-- The sync after the second rename fails, and the file has its contents again. -/
theorem install_rolledBack_sync : ∃ files' bm',
    installWitnessCompaction { install_sync := false } oneBlockFiles oneBlockManager =
      .ok (false, files', bm') ∧
    RolledBack oneBlockCompaction oneBlockFiles oneBlockManager files' bm' := by
  have hcalls : InstallCalls.RollbackSucceeds { install_sync := false } := ⟨rfl, rfl, rfl⟩
  refine ⟨_, _, rfl, ?_⟩
  exact (install_rolledBack_iff readyToInstall_oneBlock hcalls).mpr (Or.inr (Or.inr rfl)) _ _ rfl

/-- The sync after the first rename fails, and the file is gone. -/
theorem install_rolledBack_lost : ∃ files' bm',
    installWitnessCompaction { backup_sync := false } oneBlockFiles oneBlockManager =
      .ok (false, files', bm') ∧
    files' "blk00000.dat" = none ∧ files' "blk00000.dat.wfull" = some [1, 2] :=
  ⟨_, _, rfl, by decide, by decide⟩

end Qbit
