import EccoinValidation.Finality.SequenceLocks

/-!
# Mempool — the pool and its spend index

The transaction pool as `AcceptToMemoryPoolWorker` reads and writes it: the entries of
`mapTx`, and `mapNextTx`, which maps an outpoint to the hash of the pool transaction spending
it.  `txmempool.cpp` is not part of the sources, so the two operations that change the pool
are modelled from the spec (§3, "created on successful admission; removed on conflict,
expiry, size-limit eviction, or inclusion in a block") and from what the worker reads of
them, `mapNextTx` for conflicts: `addUnchecked` stores the entry and records every input in `mapNextTx`, and
`removeUnchecked` drops an entry and the `mapNextTx` records of its inputs.

`PoolInv` says every input of every entry is recorded in `mapNextTx` as spent by that entry,
and no two entries share a hash.  Both operations keep it, and from it no outpoint is spent
by two distinct pool transactions.

* `PoolInv.addUnchecked`, `PoolInv.removeUnchecked`: the two operations keep the invariant.
* `PoolInv.conflictFree`: under the invariant no two pool transactions spend one outpoint.
-/

namespace Ecc

/-- A pool entry: the transaction and what `CTxMemPoolEntry`'s constructor is given. -/
structure CTxMemPoolEntry where
  tx : CTransaction
  nFee : Int
  nTime : Int
  entryPriority : ℚ
  entryHeight : Int
  hadNoDependencies : Bool
  inChainInputValue : Int
  spendsCoinbase : Bool
  sigOpCount : Nat
  lockPoints : LockPoints
  nTxSize : Nat

/-- `CTxMemPool`: the entries and the spend index. -/
structure CTxMemPool where
  mapTx : List CTxMemPoolEntry
  mapNextTx : COutPoint → Option Nat

namespace CTxMemPool

/-- The empty pool. -/
def empty : CTxMemPool := ⟨[], fun _ => none⟩

/-- `exists(hash)`. -/
def «exists» (pool : CTxMemPool) (hash : Nat) : Bool := pool.mapTx.any fun e => e.tx.hash == hash

/-- `GetTotalTxSize()`: the bytes of all entries. -/
def GetTotalTxSize (pool : CTxMemPool) : Nat := (pool.mapTx.map CTxMemPoolEntry.nTxSize).sum

/-- `HasNoInputsOf(tx)`: no input of `tx` spends an output of a pool transaction. -/
def HasNoInputsOf (pool : CTxMemPool) (tx : CTransaction) : Bool :=
  tx.vin.all fun txin => !pool.exists txin.prevout.hash

/-- Modelled from the spec: `addUnchecked(hash, entry)` stores the entry and records each of
its inputs as spent by it. -/
def addUnchecked (pool : CTxMemPool) (entry : CTxMemPoolEntry) : CTxMemPool :=
  ⟨entry :: pool.mapTx,
   fun o => if o ∈ entry.tx.prevouts then some entry.tx.hash else pool.mapNextTx o⟩

/-- Modelled from the spec: `removeUnchecked` of the entry with hash `hash` drops it and the
spend records of its inputs; without such an entry nothing changes. -/
def removeUnchecked (pool : CTxMemPool) (hash : Nat) : CTxMemPool :=
  match pool.mapTx.find? fun e => e.tx.hash == hash with
  | none => pool
  | some e =>
    ⟨pool.mapTx.filter fun e' => e'.tx.hash != hash,
     fun o => if o ∈ e.tx.prevouts then none else pool.mapNextTx o⟩

/-- Remove each of the given entries in turn. -/
def removeAll (pool : CTxMemPool) (hashes : List Nat) : CTxMemPool :=
  hashes.foldl removeUnchecked pool

/-! ### The invariant -/

/-- Every input of every entry is recorded as spent by it, and entries have distinct
hashes. -/
structure PoolInv (pool : CTxMemPool) : Prop where
  spends : ∀ e ∈ pool.mapTx, ∀ o ∈ e.tx.prevouts, pool.mapNextTx o = some e.tx.hash
  nodup : (pool.mapTx.map fun e => e.tx.hash).Nodup

/-- No outpoint is spent by two pool transactions with different hashes. -/
def ConflictFree (pool : CTxMemPool) : Prop :=
  ∀ e₁ ∈ pool.mapTx, ∀ e₂ ∈ pool.mapTx, e₁.tx.hash ≠ e₂.tx.hash →
    ∀ o ∈ e₁.tx.prevouts, o ∉ e₂.tx.prevouts

theorem PoolInv.conflictFree {pool : CTxMemPool} (h : PoolInv pool) : pool.ConflictFree := by
  intro e₁ h₁ e₂ h₂ hne o ho₁ ho₂
  have := (h.spends e₁ h₁ o ho₁).symm.trans (h.spends e₂ h₂ o ho₂)
  exact hne (Option.some.inj this)

theorem poolInv_empty : PoolInv empty := ⟨fun _ h => absurd h (List.not_mem_nil _), List.nodup_nil⟩

theorem mem_exists {pool : CTxMemPool} {hash : Nat} :
    pool.exists hash = true ↔ ∃ e ∈ pool.mapTx, e.tx.hash = hash := by
  simp [«exists»]

/-- Adding an entry whose hash is new and whose inputs are unspent keeps the invariant. -/
theorem PoolInv.addUnchecked {pool : CTxMemPool} (h : PoolInv pool) (entry : CTxMemPoolEntry)
    (hnew : pool.exists entry.tx.hash = false)
    (hfree : ∀ o ∈ entry.tx.prevouts, pool.mapNextTx o = none) :
    PoolInv (pool.addUnchecked entry) := by
  refine ⟨fun e he o ho => ?_, ?_⟩
  · rcases List.mem_cons.mp he with rfl | he
    · simp [CTxMemPool.addUnchecked, ho]
    · have hs := h.spends e he o ho
      have hno : o ∉ entry.tx.prevouts := fun hm => by simp [hfree o hm] at hs
      simp [CTxMemPool.addUnchecked, hno, hs]
  · refine List.nodup_cons.mpr ⟨fun hm => ?_, h.nodup⟩
    obtain ⟨e, he, heq⟩ := List.mem_map.mp hm
    exact absurd (mem_exists.mpr ⟨e, he, heq⟩) (by simp [hnew])

/-- Removing an entry keeps the invariant. -/
theorem PoolInv.removeUnchecked {pool : CTxMemPool} (h : PoolInv pool) (hash : Nat) :
    PoolInv (pool.removeUnchecked hash) := by
  unfold CTxMemPool.removeUnchecked
  split
  · exact h
  · rename_i e hfind
    have he := List.mem_of_find?_eq_some hfind
    have hhash : e.tx.hash = hash := by simpa using List.find?_some hfind
    refine ⟨fun e' he' o ho => ?_, ?_⟩
    · simp only [List.mem_filter, bne_iff_ne, ne_eq, decide_eq_true_eq] at he'
      have hs := h.spends e' he'.1 o ho
      -- `o` is not an input of the removed entry, whose hash differs
      have hno : o ∉ e.tx.prevouts := fun hm => he'.2 (by
        rw [← hhash]; exact Option.some.inj ((h.spends e he o hm).symm.trans hs).symm)
      simp [hno, hs]
    · exact h.nodup.sublist ((List.filter_sublist _).map _)

theorem PoolInv.removeAll {pool : CTxMemPool} (h : PoolInv pool) :
    ∀ hashes : List Nat, PoolInv (pool.removeAll hashes)
  | [] => h
  | hash :: rest => (h.removeUnchecked hash).removeAll rest

end CTxMemPool

end Ecc
