import EccoinValidation.Mempool.Pool
import EccoinValidation.Primitives.ValidationState

/-!
# Mempool — admission

`AcceptToMemoryPoolWorker` runs a fixed sequence of gates on a loose transaction, updates
its congestion controller (the fee floor `feeCutoff` and the free quota `nFreeLimit`), rate
limits free transactions with the decaying counter `dFreeCount`, runs the absurd-fee, script
and ancestor gates, and finally stores the transaction and trims the pool.

The gates whose code is not under `src/` are the fields of `MempoolEnv`, one function per
call the worker makes, each given the pool where the call reads it: the theorems hold for
every outcome of them.  The configuration read once into function statics is
`MempoolParams`.  The statics themselves, with the global `minRelayTxFee`, are `Limiter`:
`feeFloor` is `none` until the first call reaches its initialisation.  Doubles are exact
rationals, and the clock `GetTime()` is one reading `nNow` per call.

* `acceptToMemoryPoolWorker_poolInv`: every call keeps `PoolInv`.
* `acceptToMemoryPool_conflictFree`: every pool reachable from the empty pool by admissions
  and removals is conflict free.
* `acceptToMemoryPoolWorker_counts_rejected`: a free transaction that passes the rate
  limiter and then fails `CheckInputs` is rejected with the pool unchanged and `dFreeCount`
  raised by its size.
-/

namespace Ecc

/-- The configuration the worker reads into statics, and the policy constants. -/
structure MempoolParams where
  MAX_STANDARD_TX_SIGOPS : Nat
  nBytesPerSigOp : Nat
  maxFeeCutoff : ℚ
  initFeeCutoff : ℚ
  nLimitFreeRelay : Int
  DEFAULT_MIN_LIMITFREERELAY : Int
  MAX_BLOCK_SIZE : Nat
  MAX_BLOCK_SIZE_MULTIPLIER : Nat

/-- The calls of the worker whose code is not under `src/`, as functions of what they read:
`CheckTransaction` and `CheckInputs` (`true` for the standard flags, `false` for the
mandatory ones) give the rejection they record; `IsStandardTx` gives its reason; `HaveCoin`,
`GetValueIn`, `CheckSequenceLocks` (with the lock points it computes) and the coinbase test
read the view over the chain and the pool; `GetFee rate size` is `CFeeRate(rate).GetFee(size)`;
`AllowFree` is `AllowFree(entry.GetPriority(height + 1))`; `LimitMempoolSize` gives the hashes
it evicts. -/
structure MempoolEnv where
  CheckTransaction : CTransaction → Option Rejection
  fRequireStandard : Bool
  IsStandardTx : CTransaction → Option String
  CheckFinalTx : CTransaction → Bool
  HaveCoin : CTxMemPool → COutPoint → Bool
  GetValueIn : CTxMemPool → CTransaction → Int
  CheckSequenceLocks : CTxMemPool → CTransaction → Option LockPoints
  AreInputsStandard : CTransaction → Bool
  GetSigOpCount : List UInt8 → Nat
  GetP2SHSigOpCount : CTransaction → Nat
  ApplyDeltas : Nat → Int → Int
  GetPriority : CTransaction → Int → ℚ × Int
  Height : Int
  CoinIsCoinBase : COutPoint → Bool
  GetTxSize : CTransaction → Nat
  GetMinFee : CTxMemPool → Nat → Int
  fRelayPriority : Bool
  AllowFree : CTransaction → Bool
  GetFee : Int → Nat → Int
  CheckInputs : CTransaction → Bool → Option Rejection
  CalculateMemPoolAncestors : CTxMemPool → CTransaction → Option String
  LimitMempoolSize : CTxMemPool → List Nat

/-- The statics of the congestion controller: `feeCutoff`, `nFreeLimit` and the `nLastTime`
they were initialised at. -/
structure FeeFloor where
  feeCutoff : ℚ
  nFreeLimit : ℚ
  nLastTime : Int

/-- The worker's statics and the global `minRelayTxFee` (satoshis per 1000 bytes). -/
structure Limiter where
  feeFloor : Option FeeFloor
  dFreeCount : ℚ
  nLastTimeFree : Int
  minRelayTxFee : Int

/-- The pool and the limiter. -/
structure MempoolState where
  pool : CTxMemPool
  limiter : Limiter

/-- A double converted to `CAmount`: truncated toward zero. -/
def ratTrunc (q : ℚ) : Int := q.num.tdiv q.den

/-- What the gates before the fee floor compute. -/
structure Admission where
  nFees : Int
  nModifiedFees : Int
  nSize : Nat
  entry : CTxMemPoolEntry

/-- The outcome of a call: the verdict, the validation state, `*pfMissingInputs`, and the new
pool and statics. -/
structure AtmpResult where
  ok : Bool
  state : CValidationState
  fMissingInputs : Bool
  mem : MempoolState

section Worker

variable (P : MempoolParams) (E : MempoolEnv) (nNow : Int) (pool : CTxMemPool)
  (state : CValidationState) (tx : CTransaction)

/-- The gates from `CheckTransaction` to the priority check.  A rejection gives the state it
records and `*pfMissingInputs`; they change nothing else. -/
def preChecks (pfMissingInputs : Bool) (minRelayTxFee : Int) :
    Except (CValidationState × Bool) Admission :=
  match E.CheckTransaction tx with
  | some r => .error (state.reject r, false)
  | none =>
  if tx.IsCoinBase || tx.IsCoinStake then .error (state.DoS 100 .REJECT_INVALID "coinbase" false "", false)
  else match (if E.fRequireStandard then E.IsStandardTx tx else none) with
  | some reason => .error (state.DoS 0 .REJECT_NONSTANDARD reason false "", false)
  | none =>
  if !E.CheckFinalTx tx then .error (state.DoS 0 .REJECT_NONSTANDARD "non-final" false "", false)
  else if pool.exists tx.hash then
    .error (state.Invalid .REJECT_ALREADY_KNOWN "txn-already-in-mempool" "", false)
  else if tx.vin.any fun txin => (pool.mapNextTx txin.prevout).isSome then
    .error (state.Invalid .REJECT_CONFLICT "txn-mempool-conflict" "", false)
  else if pfMissingInputs && tx.vin.any fun txin => !E.HaveCoin pool txin.prevout then
    .error (state, true)
  else
  let nValueIn := E.GetValueIn pool tx
  match E.CheckSequenceLocks pool tx with
  | none => .error (state.DoS 0 .REJECT_NONSTANDARD "non-BIP68-final" false "", false)
  | some lp =>
  if E.fRequireStandard && !E.AreInputsStandard tx then
    .error (state.Invalid .REJECT_NONSTANDARD "bad-txns-nonstandard-inputs" "", false)
  else
  let nSigOps := tx.GetLegacySigOpCount E.GetSigOpCount + E.GetP2SHSigOpCount tx
  let nFees := nValueIn - tx.GetValueOut
  let nModifiedFees := E.ApplyDeltas tx.hash nFees
  let nSize := E.GetTxSize tx
  let entry : CTxMemPoolEntry := ⟨tx, nFees, nNow, (E.GetPriority tx E.Height).1, E.Height,
    pool.HasNoInputsOf tx, (E.GetPriority tx E.Height).2,
    tx.vin.any fun txin => E.CoinIsCoinBase txin.prevout, nSigOps, lp, nSize⟩
  if nSigOps > P.MAX_STANDARD_TX_SIGOPS ||
      (P.nBytesPerSigOp != 0 && nSigOps > nSize / P.nBytesPerSigOp) then
    .error (state.DoS 0 .REJECT_NONSTANDARD "bad-txns-too-many-sigops" false (toString nSigOps), false)
  else if 0 < E.GetMinFee pool nSize && nModifiedFees < E.GetMinFee pool nSize then
    .error (state.DoS 0 .REJECT_INSUFFICIENTFEE "mempool min fee not met" false
      (toString nFees ++ " < " ++ toString (E.GetMinFee pool nSize)), false)
  else if E.fRelayPriority && nModifiedFees < E.GetFee minRelayTxFee nSize && !E.AllowFree tx then
    .error (state.DoS 0 .REJECT_INSUFFICIENTFEE "insufficient priority" false "", false)
  else .ok ⟨nFees, nModifiedFees, nSize, entry⟩

/-- The congestion controller: decay both statics by the time since `nLastTime`, then clamp
them by the pool's occupancy.  `nLastTime` itself is never written after initialisation. -/
def updateFeeFloor (poolBytes : Nat) (ff : FeeFloor) : FeeFloor :=
  let decay : ℚ := (1 - 1 / 86400) ^ (nNow - ff.nLastTime)
  let nFreeLimit := ff.nFreeLimit / decay
  let feeCutoff := ff.feeCutoff * decay
  let L := P.MAX_BLOCK_SIZE
  if poolBytes < L then ⟨max feeCutoff P.initFeeCutoff, min nFreeLimit P.nLimitFreeRelay, ff.nLastTime⟩
  else if poolBytes < L * P.MAX_BLOCK_SIZE_MULTIPLIER then
    let span : ℚ := ((poolBytes - L : Nat) : ℚ) / ((L * (P.MAX_BLOCK_SIZE_MULTIPLIER - 1) : Nat) : ℚ)
    let nFreeLimit := min nFreeLimit
      (P.nLimitFreeRelay - (P.nLimitFreeRelay - P.DEFAULT_MIN_LIMITFREERELAY : ℚ) * span)
    ⟨max feeCutoff (P.initFeeCutoff + (P.maxFeeCutoff - P.initFeeCutoff) * span),
     if nFreeLimit < P.DEFAULT_MIN_LIMITFREERELAY then P.DEFAULT_MIN_LIMITFREERELAY else nFreeLimit,
     ff.nLastTime⟩
  else ⟨P.maxFeeCutoff, P.DEFAULT_MIN_LIMITFREERELAY, ff.nLastTime⟩

/-- `dFreeCount *= pow(1.0 - 1.0/600.0, nNow - nLastTime)`: the counter decayed to `nNow`. -/
def decayedFreeCount (lim : Limiter) : ℚ :=
  lim.dFreeCount * (1 - 1 / 600) ^ (nNow - lim.nLastTimeFree)

/-- The free-transaction rate limiter: decay the counter, reject when it is at the quota,
else count the transaction's bytes.  The first component is whether it rejects. -/
def freeLimiter (nSize : Nat) (lim : Limiter) : Bool × Limiter :=
  let dFreeCount := decayedFreeCount nNow lim
  if dFreeCount ≥ P.nLimitFreeRelay * 10 * 1000 then
    (true, { lim with dFreeCount := dFreeCount, nLastTimeFree := nNow })
  else (false, { lim with dFreeCount := dFreeCount + nSize, nLastTimeFree := nNow })

/-- `if (fLimitFree && nModifiedFees < minRelayTxFee.GetFee(nSize))` around the rate
limiter. -/
def limitFree (fLimitFree : Bool) (a : Admission) (minRelayTxFee : Int) (lim : Limiter) :
    Bool × Limiter :=
  if fLimitFree && a.nModifiedFees < E.GetFee minRelayTxFee a.nSize then
    freeLimiter P nNow a.nSize lim
  else (false, lim)

/-- The gates after the rate limiter: the absurd-fee checks, `CheckInputs` under the standard
and then the mandatory flags, and the ancestor limits.  `some` is the state of a
rejection. -/
def postChecks (a : Admission) (fRejectAbsurdFee : Bool) (minRelayTxFee : Int) :
    Option CValidationState :=
  if fRejectAbsurdFee && tx.nVersion == 1 && a.nFees > E.GetFee minRelayTxFee a.nSize * 10000 then
    some (state.Invalid .REJECT_HIGHFEE "absurdly-high-fee"
      (toString a.nFees ++ " > " ++ toString (E.GetFee minRelayTxFee a.nSize * 10000)))
  else if fRejectAbsurdFee && tx.nVersion == 2 && a.nFees > 100000000 then
    some (state.Invalid .REJECT_HIGHFEE "absurdly-high-fee" (toString a.nFees ++ " > 100000000"))
  else match E.CheckInputs tx true with
  | some r => some (state.reject r)
  | none => match E.CheckInputs tx false with
    | some r => some (state.reject r)
    | none => (E.CalculateMemPoolAncestors pool tx).map fun err =>
      state.DoS 0 .REJECT_NONSTANDARD "too-long-mempool-chain" false err

/-- Store the entry and, unless the size limit is overridden, trim the pool. -/
def addAndTrim (entry : CTxMemPoolEntry) (fOverrideMempoolLimit : Bool) : CTxMemPool :=
  let pool := pool.addUnchecked entry
  if fOverrideMempoolLimit then pool else pool.removeAll (E.LimitMempoolSize pool)

/-- `AcceptToMemoryPoolWorker(pool, state, tx, fLimitFree, pfMissingInputs,
fOverrideMempoolLimit, fRejectAbsurdFee, vCoinsToUncache)` at time `nNow`;
`pfMissingInputs` is whether the pointer is set.  The coins it lists for uncaching belong to
the coin cache and are not modelled. -/
def AcceptToMemoryPoolWorker (ms : MempoolState) (state : CValidationState) (tx : CTransaction)
    (fLimitFree pfMissingInputs fOverrideMempoolLimit fRejectAbsurdFee : Bool) : AtmpResult :=
  match preChecks P E nNow ms.pool state tx pfMissingInputs ms.limiter.minRelayTxFee with
  | .error (st, fMissing) => ⟨false, st, fMissing, ms⟩
  | .ok a =>
    let ff := updateFeeFloor P nNow ms.pool.GetTotalTxSize
      (ms.limiter.feeFloor.getD ⟨P.initFeeCutoff, P.nLimitFreeRelay, nNow⟩)
    let minRelayTxFee := ratTrunc (ff.feeCutoff * 1000)
    let lim := { ms.limiter with feeFloor := some ff, minRelayTxFee := minRelayTxFee }
    let limited := limitFree P E nNow fLimitFree a minRelayTxFee lim
    let ms := { ms with limiter := limited.2 }
    if limited.1 then
      ⟨false, state.DoS 0 .REJECT_INSUFFICIENTFEE "rate limited free transaction" false "", false, ms⟩
    else match postChecks E ms.pool state tx a fRejectAbsurdFee minRelayTxFee with
    | some st => ⟨false, st, false, ms⟩
    | none =>
      let ms := { ms with pool := addAndTrim E ms.pool a.entry fOverrideMempoolLimit }
      if !fOverrideMempoolLimit && !ms.pool.exists tx.hash then
        ⟨false, state.DoS 0 .REJECT_INSUFFICIENTFEE "mempool full" false "", false, ms⟩
      else ⟨true, state, false, ms⟩

/-! ### What a call does to the pool -/

variable {P E nNow pool state tx}

/-- The gates before the fee floor pass only for a transaction that is new to the pool and
spends no outpoint a pool transaction spends; the entry they build holds it. -/
theorem preChecks_ok {pfMissingInputs : Bool} {minRelayTxFee : Int} {a : Admission}
    (h : preChecks P E nNow pool state tx pfMissingInputs minRelayTxFee = .ok a) :
    pool.exists tx.hash = false ∧ (∀ o ∈ tx.prevouts, pool.mapNextTx o = none) ∧
      a.entry.tx = tx := by
  unfold preChecks at h
  -- each gate either rejects, which contradicts `h`, or passes on to the next
  cases hc : E.CheckTransaction tx <;> simp only [hc, reduceCtorEq] at h
  cases hc : (tx.IsCoinBase || tx.IsCoinStake) <;>
    simp only [hc, if_true, Bool.false_eq_true, if_false, reduceCtorEq] at h
  cases hc : (if E.fRequireStandard then E.IsStandardTx tx else none) <;>
    simp only [hc, reduceCtorEq] at h
  cases hc : !E.CheckFinalTx tx <;>
    simp only [hc, if_true, Bool.false_eq_true, if_false, reduceCtorEq] at h
  cases hex : pool.exists tx.hash <;>
    simp only [hex, if_true, Bool.false_eq_true, if_false, reduceCtorEq] at h
  cases hconf : tx.vin.any fun txin => (pool.mapNextTx txin.prevout).isSome <;>
    simp only [hconf, if_true, Bool.false_eq_true, if_false, reduceCtorEq] at h
  cases hc : (pfMissingInputs && tx.vin.any fun txin => !E.HaveCoin pool txin.prevout) <;>
    simp only [hc, if_true, Bool.false_eq_true, if_false, reduceCtorEq] at h
  cases hc : E.CheckSequenceLocks pool tx <;> simp only [hc, reduceCtorEq] at h
  cases hc : (E.fRequireStandard && !E.AreInputsStandard tx) <;>
    simp only [hc, if_true, Bool.false_eq_true, if_false, reduceCtorEq] at h
  split at h; · cases h -- sigops
  split at h; · cases h -- mempool minimum fee
  split at h; · cases h -- priority
  cases h
  refine ⟨rfl, fun o ho => ?_, rfl⟩
  obtain ⟨txin, hin, rfl⟩ := List.mem_map.mp ho
  simp only [List.any_eq_false, Option.isSome_iff_ne_none, ne_eq, Decidable.not_not] at hconf
  exact hconf txin hin

variable (P E nNow state tx) (ms : MempoolState)
  (fLimitFree pfMissingInputs fOverrideMempoolLimit fRejectAbsurdFee : Bool)

/-- **The three outcomes of a call.**  Either it returns false and leaves the pool as it was,
or every gate passed, the entry was stored and the pool trimmed, and the call returns true or
reports "mempool full". -/
theorem acceptToMemoryPoolWorker_cases :
    ((AcceptToMemoryPoolWorker P E nNow ms state tx fLimitFree pfMissingInputs
        fOverrideMempoolLimit fRejectAbsurdFee).ok = false ∧
      (AcceptToMemoryPoolWorker P E nNow ms state tx fLimitFree pfMissingInputs
        fOverrideMempoolLimit fRejectAbsurdFee).mem.pool = ms.pool) ∨
    ∃ a, preChecks P E nNow ms.pool state tx pfMissingInputs ms.limiter.minRelayTxFee = .ok a ∧
      (AcceptToMemoryPoolWorker P E nNow ms state tx fLimitFree pfMissingInputs
        fOverrideMempoolLimit fRejectAbsurdFee).mem.pool =
          addAndTrim E ms.pool a.entry fOverrideMempoolLimit ∧
      ((AcceptToMemoryPoolWorker P E nNow ms state tx fLimitFree pfMissingInputs
        fOverrideMempoolLimit fRejectAbsurdFee).ok = true ∨
       (AcceptToMemoryPoolWorker P E nNow ms state tx fLimitFree pfMissingInputs
        fOverrideMempoolLimit fRejectAbsurdFee).state =
          state.DoS 0 .REJECT_INSUFFICIENTFEE "mempool full" false "") := by
  unfold AcceptToMemoryPoolWorker
  split
  · exact .inl ⟨rfl, rfl⟩
  · rename_i a ha
    dsimp only
    split
    · exact .inl ⟨rfl, rfl⟩
    · split
      · exact .inl ⟨rfl, rfl⟩
      · refine .inr ⟨a, ha, ?_⟩
        split
        · exact ⟨rfl, .inr rfl⟩
        · exact ⟨rfl, .inl rfl⟩

/-- Every call keeps the pool invariant: the entry it stores spends nothing the pool spends,
and trimming only removes entries. -/
theorem acceptToMemoryPoolWorker_poolInv (h : ms.pool.PoolInv) :
    (AcceptToMemoryPoolWorker P E nNow ms state tx fLimitFree pfMissingInputs
      fOverrideMempoolLimit fRejectAbsurdFee).mem.pool.PoolInv := by
  rcases acceptToMemoryPoolWorker_cases P E nNow state tx ms fLimitFree pfMissingInputs
    fOverrideMempoolLimit fRejectAbsurdFee with ⟨-, hp⟩ | ⟨a, ha, hp, -⟩
  · rw [hp]; exact h
  · obtain ⟨hnew, hfree, htx⟩ := preChecks_ok ha
    have h' := h.addUnchecked a.entry (htx ▸ hnew) (htx ▸ hfree)
    rw [hp, addAndTrim]
    split
    · exact h'
    · exact h'.removeAll _

end Worker

/-- A transaction below the relay fee, submitted with `fLimitFree` to an empty pool with an
empty limiter, passes the rate limiter and then fails `CheckInputs`: the call returns false
with the script failure, the pool is unchanged, and `dFreeCount` has grown from 0 by the
transaction's 250 bytes. -/
theorem acceptToMemoryPoolWorker_counts_rejected :
    let r : AtmpResult := AcceptToMemoryPoolWorker ⟨100, 20, 1, 1, 15, 5, 1000, 3⟩
      ⟨fun _ => none, false, fun _ => none, fun _ => true, fun _ _ => true, fun _ _ => 0,
        fun _ _ => some ⟨0, 0, none⟩, fun _ => true, fun _ => 0, fun _ => 0, fun _ n => n,
        fun _ _ => (0, 0), 10, fun _ => false, fun _ => 250, fun _ _ => 0, false, fun _ => false,
        fun _ _ => 1000,
        fun _ _ => some ⟨100, .REJECT_INVALID, "mandatory-script-verify-flag-failed", ""⟩,
        fun _ _ => none, fun _ => []⟩
      0 ⟨CTxMemPool.empty, ⟨none, 0, 0, 1000⟩⟩ CValidationState.fresh
      ⟨7, 1, 0, [⟨⟨5, 0⟩, [], 0xffffffff⟩], [], 0, 0, false⟩ true false false false
    r.ok = false ∧ r.state.strRejectReason = "mandatory-script-verify-flag-failed" ∧
      r.mem.pool.mapTx = [] ∧ r.mem.limiter.dFreeCount = 250 := by
  norm_num [AcceptToMemoryPoolWorker, preChecks, updateFeeFloor, limitFree, freeLimiter,
    decayedFreeCount, postChecks, CTxMemPool.exists, CTxMemPool.empty, CTransaction.IsCoinBase,
    CTransaction.IsCoinStake, COutPoint.IsNull, CValidationState.reject,
    CTransaction.GetLegacySigOpCount, CTransaction.GetValueOut, CTxMemPool.GetTotalTxSize]

/-- `AcceptToMemoryPool`: the worker, after which the coins it listed are uncached when it
failed for another reason than missing inputs.  The coin cache is not modelled, so the pool
and the statics are the worker's. -/
def AcceptToMemoryPool (P : MempoolParams) (E : MempoolEnv) (nNow : Int) (ms : MempoolState)
    (state : CValidationState) (tx : CTransaction)
    (fLimitFree pfMissingInputs fOverrideMempoolLimit fRejectAbsurdFee : Bool) : AtmpResult :=
  AcceptToMemoryPoolWorker P E nNow ms state tx fLimitFree pfMissingInputs fOverrideMempoolLimit
    fRejectAbsurdFee

/-! ### Runs of admissions and removals -/

/-- What happens to the pool between two observations: an `AcceptToMemoryPool` call with any
transaction, flags and environment, or the removal of an entry. -/
inductive PoolEvent
  | accept (E : MempoolEnv) (nNow : Int) (state : CValidationState) (tx : CTransaction)
      (fLimitFree pfMissingInputs fOverrideMempoolLimit fRejectAbsurdFee : Bool)
  | remove (hash : Nat)

/-- The state after one event. -/
def PoolEvent.apply (P : MempoolParams) (ms : MempoolState) : PoolEvent → MempoolState
  | .accept E nNow state tx f₁ f₂ f₃ f₄ => (AcceptToMemoryPool P E nNow ms state tx f₁ f₂ f₃ f₄).mem
  | .remove hash => { ms with pool := ms.pool.removeUnchecked hash }

theorem poolInv_apply (P : MempoolParams) {ms : MempoolState} (h : ms.pool.PoolInv) :
    ∀ ev : PoolEvent, (ev.apply P ms).pool.PoolInv
  | .accept E nNow state tx f₁ f₂ f₃ f₄ =>
    acceptToMemoryPoolWorker_poolInv P E nNow state tx ms f₁ f₂ f₃ f₄ h
  | .remove hash => h.removeUnchecked hash

theorem poolInv_foldl (P : MempoolParams) :
    ∀ (events : List PoolEvent) (ms : MempoolState), ms.pool.PoolInv →
      (events.foldl (PoolEvent.apply P) ms).pool.PoolInv
  | [], _, h => h
  | ev :: rest, _, h => poolInv_foldl P rest _ (poolInv_apply P h ev)

/-- **No conflicts in the pool.**  Start from the empty pool with any limiter state; after
any sequence of `AcceptToMemoryPool` calls and removals, no outpoint is spent by two pool
transactions with different hashes. -/
theorem acceptToMemoryPool_conflictFree (P : MempoolParams) (lim : Limiter)
    (events : List PoolEvent) :
    (events.foldl (PoolEvent.apply P) ⟨CTxMemPool.empty, lim⟩).pool.ConflictFree :=
  (poolInv_foldl P events _ CTxMemPool.poolInv_empty).conflictFree

end Ecc
