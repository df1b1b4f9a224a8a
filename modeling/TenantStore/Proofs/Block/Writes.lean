import Mathlib.Data.List.Basic
import Mathlib.Tactic.Common
import TenantStore.Block.Partition
import TenantStore.Proofs.ContentId.RoundTrip
import TenantStore.Proofs.Database.Answers
import TenantStore.Proofs.Database.Refusal
import TenantStore.Proofs.Key.Ranges

/-!
# Writing blocks

A key tells the partition and the identifier of its block, whatever the names are made of.  Blocks
are written in one batch if each has the digest of its identifier, and otherwise none is.
-/

namespace TenantStore

namespace BlockPartition

variable {partition owner : BlockPartition} {identifier found : ContentId}

theorem blockKey_eq_encode (partition : BlockPartition) (identifier : ContentId) :
    partition.blockKey identifier = Key.encode (partition.scope.path ++ [identifier.toBytes]) :=
  Scope.keyOf_eq_encode _ _

/-- A key tells the partition and the identifier. -/
theorem blockKey_eq_iff :
    owner.blockKey found = partition.blockKey identifier ↔
      owner = partition ∧ found = identifier := by
  rw [blockKey_eq_encode, blockKey_eq_encode, Key.encode_inj]
  constructor
  · intro same
    rcases List.append_inj' same rfl with ⟨paths, names⟩
    refine ⟨?_, ContentId.toBytes_injective (List.cons.inj names).1⟩
    cases partition with
    | mk scope =>
        cases scope
        cases owner with
        | mk other => cases other; cases paths; rfl
  · rintro ⟨rfl, rfl⟩
    rfl

theorem blockKey_inj : partition.blockKey identifier = partition.blockKey found ↔
    identifier = found := by
  rw [blockKey_eq_iff, and_iff_right rfl]

variable {blocks : List (ContentId × Bytes)}

/-- Blocks that have the digests of their identifiers are all admitted. -/
theorem mapM_putChange (areNamed : ∀ block ∈ blocks, block.1.names block.2 = true) :
    (blocks.mapM fun block => partition.putChange block.1 block.2) =
      .ok (blocks.map fun block => .put (partition.blockKey block.1) block.2) := by
  induction blocks with
  | nil => rfl
  | cons block blocks ih =>
      rw [List.forall_mem_cons] at areNamed
      have first : partition.putChange block.1 block.2 =
          .ok (.put (partition.blockKey block.1) block.2) := by
        rw [putChange, ContentId.verify, if_pos areNamed.1]
        rfl
      rw [List.mapM_cons, first, ih areNamed.2]
      rfl

theorem on_putMany {database : Database} {context : Context} (admits : database.Admits context)
    (areNamed : ∀ block ∈ blocks, block.1.names block.2 = true) :
    (partition.putMany context blocks).on database =
      (.ok (), { database with
        contents := database.contents.applyAll
          (blocks.map fun block => .put (partition.blockKey block.1) block.2) }) := by
  rw [putMany, mapM_putChange areNamed]
  exact Database.on_write admits _

/-- A batch with a block that has not the digest of its identifier is not even begun. -/
theorem isRefused_putMany_of_not_named (mismatch : ¬∀ block ∈ blocks, block.1.names block.2 = true)
    (context : Context) (database : Database) :
    (partition.putMany context blocks).IsRefused database := by
  rw [putMany]
  cases planned : blocks.mapM fun block => partition.putChange block.1 block.2 with
  | error problem => exact StoreM.isRefused_throw problem
  | ok batch =>
      refine absurd (fun block member => ?_) mismatch
      rcases exists_of_mapM_eq_ok planned block member with ⟨change, isChange⟩
      by_contra notNamed
      rw [putChange, ContentId.verify, if_neg notNamed] at isChange
      cases isChange

end BlockPartition

end TenantStore
