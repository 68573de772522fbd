import EccoinValidation.Mempool.Accept

/-!
# Mempool — the congestion controller and the free-transaction limiter

A call of `AcceptToMemoryPoolWorker` that gets past the priority check runs the congestion
controller: it decays the function-static `feeCutoff` and raises `nFreeLimit` by the time
since the static `nLastTime`, clamps both by the pool's occupancy, and sets `minRelayTxFee`
from `feeCutoff`.  The statics are initialised by the first call that gets there, and
`nLastTime` is never written again; the free-transaction counter a few lines below sets its
own `nLastTime = nNow` on every call.  The limiter then compares its decayed counter with
`-limitfreerelay * 10 * 1000`, the configured quota, and not with the `nFreeLimit` the
controller has just computed; that value is only logged.

* `acceptToMemoryPool_feeFloor_nLastTime`: over every sequence of admissions and removals the
  controller's `nLastTime` stays at the time of the call that initialised it, so every call
  decays over the whole time since then.
* `acceptToMemoryPool_decays_since_initialisation`: two updates one second apart after the
  initialisation; the second decays over two seconds.
* `acceptToMemoryPoolWorker_ignores_nFreeLimit`: with the pool full the controller's quota is
  `DEFAULT_MIN_LIMITFREERELAY`, and a free transaction is admitted with the counter above it.
-/

namespace Ecc

section Controller

variable (P : MempoolParams) (E : MempoolEnv) (nNow : Int)

@[simp] theorem updateFeeFloor_nLastTime (poolBytes : Nat) (ff : FeeFloor) :
    (updateFeeFloor P nNow poolBytes ff).nLastTime = ff.nLastTime := by
  unfold updateFeeFloor; dsimp only; split_ifs <;> rfl

@[simp] theorem limitFree_feeFloor (fLimitFree : Bool) (a : Admission) (minRelayTxFee : Int)
    (lim : Limiter) : (limitFree P E nNow fLimitFree a minRelayTxFee lim).2.feeFloor = lim.feeFloor := by
  unfold limitFree freeLimiter; dsimp only; split_ifs <;> rfl

/-- A call either stops before the controller and keeps its statics, or stores the
controller's update of the statics it found, or of their initial values at `nNow`. -/
theorem acceptToMemoryPoolWorker_feeFloor (ms : MempoolState) (state : CValidationState)
    (tx : CTransaction) (fLimitFree pfMissingInputs fOverrideMempoolLimit fRejectAbsurdFee : Bool) :
    (AcceptToMemoryPoolWorker P E nNow ms state tx fLimitFree pfMissingInputs
        fOverrideMempoolLimit fRejectAbsurdFee).mem.limiter.feeFloor = ms.limiter.feeFloor ∨
    (AcceptToMemoryPoolWorker P E nNow ms state tx fLimitFree pfMissingInputs
        fOverrideMempoolLimit fRejectAbsurdFee).mem.limiter.feeFloor =
      some (updateFeeFloor P nNow ms.pool.GetTotalTxSize
        (ms.limiter.feeFloor.getD ⟨P.initFeeCutoff, P.nLimitFreeRelay, nNow⟩)) := by
  unfold AcceptToMemoryPoolWorker
  split
  · exact .inl rfl
  · dsimp only
    split
    · exact .inr (by simp)
    · split
      · exact .inr (by simp)
      · split <;> exact .inr (by simp)

end Controller

/-- Once initialised, the controller's `nLastTime` is never written again: over every sequence
of admissions and removals it stays at the time of the call that initialised it. -/
theorem acceptToMemoryPool_feeFloor_nLastTime (P : MempoolParams) :
    ∀ (events : List PoolEvent) (ms : MempoolState) (ff : FeeFloor),
      ms.limiter.feeFloor = some ff →
      ∃ ff', (events.foldl (PoolEvent.apply P) ms).limiter.feeFloor = some ff' ∧
        ff'.nLastTime = ff.nLastTime
  | [], _, ff, h => ⟨ff, h, rfl⟩
  | .remove hash :: rest, ms, ff, h => acceptToMemoryPool_feeFloor_nLastTime P rest _ ff h
  | .accept E nNow state tx f₁ f₂ f₃ f₄ :: rest, ms, ff, h => by
    have hstep : ∃ ff', (AcceptToMemoryPool P E nNow ms state tx f₁ f₂ f₃ f₄).mem.limiter.feeFloor =
        some ff' ∧ ff'.nLastTime = ff.nLastTime := by
      rcases acceptToMemoryPoolWorker_feeFloor P E nNow ms state tx f₁ f₂ f₃ f₄ with he | he
      · exact ⟨ff, he.trans h, rfl⟩
      · exact ⟨_, he, by simp [h]⟩
    obtain ⟨ff', hff', hlast⟩ := hstep
    obtain ⟨ff'', h'', hlast'⟩ := acceptToMemoryPool_feeFloor_nLastTime P rest _ ff' hff'
    exact ⟨ff'', h'', hlast'.trans hlast⟩

/-- The controller initialised at time 0 with `feeCutoff` 1, and a 3000-byte entry filling the
pool.  At time 1 an admission finds the pool full and raises `feeCutoff` to its cap 10; both
entries are then removed; at time 2 an admission finds the pool empty.  It decays `feeCutoff`
over the two seconds since the initialisation, not over the second since the last update. -/
theorem acceptToMemoryPool_decays_since_initialisation :
    let P : MempoolParams := ⟨100, 20, 10, 1, 15, 5, 1000, 3⟩
    let E : MempoolEnv := ⟨fun _ => none, false, fun _ => none, fun _ => true, fun _ _ => true,
      fun _ _ => 0, fun _ _ => some ⟨0, 0, none⟩, fun _ => true, fun _ => 0, fun _ => 0,
      fun _ n => n, fun _ _ => (0, 0), 10, fun _ => false, fun _ => 250, fun _ _ => 0, false,
      fun _ => false, fun _ _ => 0, fun _ _ => none, fun _ _ => none, fun _ => []⟩
    let tx : Nat → CTransaction := fun h => ⟨h, 1, 0, [⟨⟨h + 100, 0⟩, [], 0xffffffff⟩], [], 0, 0, false⟩
    let ms₀ : MempoolState := ⟨⟨[⟨tx 1, 0, 0, 0, 0, true, 0, false, 0, ⟨0, 0, none⟩, 3000⟩],
      fun _ => none⟩, ⟨some ⟨1, 15, 0⟩, 0, 0, 0⟩⟩
    let ms₁ := PoolEvent.apply P ms₀ (.accept E 1 .fresh (tx 7) false false false false)
    let ms₂ := [PoolEvent.remove 1, .remove 7, .accept E 2 .fresh (tx 8) false false false false].foldl
      (PoolEvent.apply P) ms₁
    ms₁.limiter.feeFloor = some ⟨10, 5, 0⟩ ∧
      ms₂.limiter.feeFloor.map FeeFloor.feeCutoff = some (10 * (1 - 1 / 86400) ^ 2) := by
  norm_num [PoolEvent.apply, AcceptToMemoryPool, AcceptToMemoryPoolWorker, preChecks,
    updateFeeFloor, limitFree, postChecks, CTxMemPool.exists, CTxMemPool.removeUnchecked,
    CTransaction.IsCoinBase, CTransaction.IsCoinStake, COutPoint.IsNull,
    CTransaction.GetLegacySigOpCount, CTransaction.GetValueOut, CTxMemPool.GetTotalTxSize,
    addAndTrim, CTxMemPool.addUnchecked, CTxMemPool.removeAll, CTransaction.prevouts,
    CTxMemPool.HasNoInputsOf]

/-- A pool holding `MAX_BLOCK_SIZE * MAX_BLOCK_SIZE_MULTIPLIER` bytes pins the controller's quota
`nFreeLimit` at `DEFAULT_MIN_LIMITFREERELAY`, 5, that is 50000 bytes.  With the limiter's
counter at 100000 bytes, a free transaction of 250 bytes is admitted and counted: the limiter
compares the counter with `-limitfreerelay`, 15, that is 150000 bytes. -/
theorem acceptToMemoryPoolWorker_ignores_nFreeLimit :
    let tx : Nat → CTransaction := fun h => ⟨h, 1, 0, [⟨⟨h + 100, 0⟩, [], 0xffffffff⟩], [], 0, 0, false⟩
    let r : AtmpResult := AcceptToMemoryPoolWorker ⟨100, 20, 10, 1, 15, 5, 1000, 3⟩
      ⟨fun _ => none, false, fun _ => none, fun _ => true, fun _ _ => true, fun _ _ => 0,
        fun _ _ => some ⟨0, 0, none⟩, fun _ => true, fun _ => 0, fun _ => 0, fun _ n => n,
        fun _ _ => (0, 0), 10, fun _ => false, fun _ => 250, fun _ _ => 0, false, fun _ => false,
        fun _ _ => 1000, fun _ _ => none, fun _ _ => none, fun _ => []⟩
      0 ⟨⟨[⟨tx 1, 0, 0, 0, 0, true, 0, false, 0, ⟨0, 0, none⟩, 3000⟩], fun _ => none⟩,
        ⟨some ⟨1, 15, 0⟩, 100000, 0, 0⟩⟩ CValidationState.fresh (tx 7) true false false false
    r.ok = true ∧ r.mem.limiter.feeFloor.map FeeFloor.nFreeLimit = some 5 ∧
      r.mem.limiter.dFreeCount = 100250 := by
  norm_num [AcceptToMemoryPoolWorker, preChecks, updateFeeFloor, limitFree, freeLimiter,
    decayedFreeCount, postChecks, CTxMemPool.exists, CTransaction.IsCoinBase,
    CTransaction.IsCoinStake, COutPoint.IsNull, CTransaction.GetLegacySigOpCount,
    CTransaction.GetValueOut, CTxMemPool.GetTotalTxSize, addAndTrim, CTxMemPool.addUnchecked,
    CTransaction.prevouts, CTxMemPool.HasNoInputsOf, CTxMemPool.removeAll]

end Ecc
