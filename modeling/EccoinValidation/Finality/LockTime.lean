import EccoinValidation.Primitives.Transaction
import EccoinValidation.Primitives.ValidationState
import EccoinValidation.Chain.BlockIndex

/-!
# Finality — absolute lock times

`IsFinalTx(tx, height, time)` decides whether `nLockTime` lets `tx` into a block at that
height and time.  Two callers use it.  The mempool gate `CheckFinalTx(tx, flags)` asks about
the next block: height `Tip().nHeight + 1`, and time the tip's median time past when
`LOCKTIME_MEDIAN_TIME_PAST` is set, the adjusted clock otherwise.  `ContextualCheckBlock`
tests every transaction of a block at the block's height and at its parent's median time
past, the flag being always set there.

* `isFinalTx_mono`: `IsFinalTx` is monotone in the height and in the time.
* `checkFinalTx_eq_block`: for non-negative flags with `LOCKTIME_MEDIAN_TIME_PAST`, the
  mempool gate at tip `T` is the block test in a block whose parent is `T`, and a transaction
  it admits passes the block test under every parent at least as high and as late.
* `checkFinalTx_negative_flags`: `CheckFinalTx` clamps negative flags to `0` ("the current
  network rules"), so `-1`, whose bits include `LOCKTIME_MEDIAN_TIME_PAST`, is read at the
  adjusted clock and can disagree with the block test.

The node's active chain always has a tip; `CheckFinalTx` is given it.  Median time past
(`GetMedianTimePast`, in `chain.h`) is a function of the entry.  `ContextualCheckBlock` and
`IsSuperMajority` are defined here; `Block.Contextual` has what the supermajority window
counts and what the call does under a `NULL` parent.
-/

namespace Ecc

/-- `IsFinalTx(tx, nBlockHeight, nBlockTime)`. -/
def IsFinalTx (tx : CTransaction) (nBlockHeight nBlockTime : Int) : Bool :=
  if tx.nLockTime = 0 then true
  else if (tx.nLockTime.toNat : Int) <
      (if (tx.nLockTime.toNat : Int) < LOCKTIME_THRESHOLD then nBlockHeight else nBlockTime) then true
  else tx.vin.all fun txin => txin.nSequence == SEQUENCE_FINAL

theorem isFinalTx_mono {tx : CTransaction} {h h' t t' : Int} (hh : h ≤ h') (ht : t ≤ t')
    (hf : IsFinalTx tx h t = true) : IsFinalTx tx h' t' = true := by
  unfold IsFinalTx at *
  split_ifs at hf ⊢ <;> first | rfl | exact hf | omega

/-- `CheckFinalTx(tx, flags)` at tip `tip`, with `nAdjustedTime` the value of
`GetAdjustedTime()`. -/
def CheckFinalTx (m : BlockMap) (GetMedianTimePast : Nat → Int) (nAdjustedTime : Int)
    (tip : Nat) (tx : CTransaction) (flags : Int) : Bool :=
  let flags := max flags 0
  let nBlockHeight : Int := (m.entry tip).nHeight + 1
  let nBlockTime := if HasFlag flags LOCKTIME_MEDIAN_TIME_PAST then GetMedianTimePast tip
    else nAdjustedTime
  IsFinalTx tx nBlockHeight nBlockTime

/-! ### `ContextualCheckBlock` -/

/-- The consensus parameters `main.cpp` reads. -/
structure ConsensusParams where
  nMajorityEnforceBlockUpgrade : Nat
  nMajorityWindow : Int

/-- The loop of `IsSuperMajority`: `i` runs to `nMajorityWindow` (here counted down in
`window`), and stops early at `nRequired` or at a `NULL` ancestor. -/
def superMajorityLoop (m : BlockMap) (minVersion : Int) (nRequired : Nat) :
    Nat → Option Nat → Nat → Nat
  | 0, _, nFound => nFound
  | _ + 1, none, nFound => nFound
  | window + 1, some b, nFound =>
    if nFound < nRequired then
      superMajorityLoop m minVersion nRequired window (m.entry b).pprev
        (if minVersion ≤ (m.entry b).nVersion then nFound + 1 else nFound)
    else nFound

/-- `IsSuperMajority(minVersion, pstart, nRequired, params)`. -/
def IsSuperMajority (m : BlockMap) (params : ConsensusParams) (minVersion : Int)
    (pstart : Option Nat) (nRequired : Nat) : Bool :=
  nRequired ≤ superMajorityLoop m minVersion nRequired params.nMajorityWindow.toNat pstart 0

/-- `nHeight` of `ContextualCheckBlock`: `0` for a `NULL` parent. -/
def lockTimeHeight (m : BlockMap) : Option Nat → Int
  | none => 0
  | some p => (m.entry p).nHeight + 1

/-- `nLockTimeCutoff` of `ContextualCheckBlock`: the flags there always hold
`LOCKTIME_MEDIAN_TIME_PAST`, so it is the parent's median time past, and `none` (a `NULL`
dereference) for a `NULL` parent. -/
def lockTimeCutoff (GetMedianTimePast : Nat → Int) (block : CBlock) (pindexPrev : Option Nat) :
    Option Int :=
  let nLockTimeFlags : Int := LOCKTIME_MEDIAN_TIME_PAST
  if HasFlag nLockTimeFlags LOCKTIME_MEDIAN_TIME_PAST then pindexPrev.map GetMedianTimePast
  else some block.GetBlockTime

/-- `ContextualCheckBlock(block, state, pindexPrev)`.  `none` is a `NULL` or out-of-range
dereference.  `ScriptOfHeight n` is `CScript() << n`. -/
def ContextualCheckBlock (params : ConsensusParams) (ScriptOfHeight : Int → List UInt8)
    (m : BlockMap) (GetMedianTimePast : Nat → Int) (block : CBlock) (state : CValidationState)
    (pindexPrev : Option Nat) : Option (Bool × CValidationState) := do
  let nHeight := lockTimeHeight m pindexPrev
  let nLockTimeCutoff ← lockTimeCutoff GetMedianTimePast block pindexPrev
  if !block.vtx.all fun tx => IsFinalTx tx nHeight nLockTimeCutoff then
    return (false, state.DoS 10 .REJECT_INVALID "bad-txns-nonfinal" false "")
  if 2 ≤ block.nVersion &&
      IsSuperMajority m params 2 pindexPrev params.nMajorityEnforceBlockUpgrade then
    let expect := ScriptOfHeight nHeight
    let tx0 ← block.vtx.head?
    let txin0 ← tx0.vin.head?
    if txin0.scriptSig.length < expect.length || !expect.isPrefixOf txin0.scriptSig then
      return (false, state.DoS 100 .REJECT_INVALID "bad-cb-height" false "")
  return (true, state)

@[simp] theorem lockTimeCutoff_some (GetMedianTimePast : Nat → Int) (block : CBlock) (p : Nat) :
    lockTimeCutoff GetMedianTimePast block (some p) = some (GetMedianTimePast p) := rfl

/-! ### The mempool gate against the block rule -/

/-- **The mempool gate is the block rule at the next block.**  For non-negative flags with
`LOCKTIME_MEDIAN_TIME_PAST`, `CheckFinalTx(tx, flags)` at tip `T` is `ContextualCheckBlock`'s
test of `tx` in a block whose parent is `T`; and a transaction admitted at `T` passes that test
under every parent `P` at least as high and with a median time past at least `T`'s. -/
theorem checkFinalTx_eq_block (m : BlockMap) (GetMedianTimePast : Nat → Int)
    (nAdjustedTime : Int) (T : Nat) (tx : CTransaction) (flags : Int) (hpos : 0 ≤ flags)
    (hmtp : HasFlag flags LOCKTIME_MEDIAN_TIME_PAST = true) :
    (∀ block, ∃ c, lockTimeCutoff GetMedianTimePast block (some T) = some c ∧
      CheckFinalTx m GetMedianTimePast nAdjustedTime T tx flags =
        IsFinalTx tx (lockTimeHeight m (some T)) c) ∧
    (∀ h h' t t' : Int, h ≤ h' → t ≤ t' → IsFinalTx tx h t = true → IsFinalTx tx h' t' = true) ∧
    (CheckFinalTx m GetMedianTimePast nAdjustedTime T tx flags = true →
      ∀ block P, (m.entry T).nHeight ≤ (m.entry P).nHeight →
        GetMedianTimePast T ≤ GetMedianTimePast P →
        ∃ c, lockTimeCutoff GetMedianTimePast block (some P) = some c ∧
          IsFinalTx tx (lockTimeHeight m (some P)) c = true) := by
  have hgate : CheckFinalTx m GetMedianTimePast nAdjustedTime T tx flags =
      IsFinalTx tx ((m.entry T).nHeight + 1) (GetMedianTimePast T) := by
    simp [CheckFinalTx, Int.max_eq_left hpos, hmtp]
  refine ⟨fun block => ⟨_, rfl, hgate⟩, fun _ _ _ _ => isFinalTx_mono, ?_⟩
  intro hok block P hh ht
  refine ⟨_, rfl, isFinalTx_mono ?_ ht (hgate ▸ hok)⟩
  simp only [lockTimeHeight]; omega

/-- `STANDARD_LOCKTIME_VERIFY_FLAGS` at a one-block chain. -/
theorem checkFinalTx_eq_block_standard :
    let m : BlockMap := ⟨[0], fun _ => ⟨none, 0, ⟨3, true, false, false⟩, 1, 1, 1, 1, 0, 0, 0, 1, 0⟩⟩
    let tx : CTransaction := ⟨1, 1, 0, [⟨⟨7, 0⟩, [], 0⟩], [], 600000000, 0, false⟩
    (∀ block, ∃ c, lockTimeCutoff (fun _ => 600000000) block (some 0) = some c ∧
      CheckFinalTx m (fun _ => 600000000) 700000000 0 tx STANDARD_LOCKTIME_VERIFY_FLAGS =
        IsFinalTx tx (lockTimeHeight m (some 0)) c) ∧
    (∀ h h' t t' : Int, h ≤ h' → t ≤ t' → IsFinalTx tx h t = true → IsFinalTx tx h' t' = true) ∧
    (CheckFinalTx m (fun _ => 600000000) 700000000 0 tx STANDARD_LOCKTIME_VERIFY_FLAGS = true →
      ∀ block P, (m.entry 0).nHeight ≤ (m.entry P).nHeight →
        (fun _ => (600000000 : Int)) 0 ≤ (fun _ => (600000000 : Int)) P →
        ∃ c, lockTimeCutoff (fun _ => 600000000) block (some P) = some c ∧
          IsFinalTx tx (lockTimeHeight m (some P)) c = true) :=
  checkFinalTx_eq_block _ _ _ _ _ _ (by decide) (by decide)

/-- At flags `-1` the gate reads the adjusted clock: with the clock past a time lock that the
tip's median time past has not reached, the gate admits what the block rule rejects. -/
theorem checkFinalTx_negative_flags :
    ¬ ∀ (m : BlockMap) (GetMedianTimePast : Nat → Int) (nAdjustedTime : Int) (T : Nat)
      (tx : CTransaction) (flags : Int), HasFlag flags LOCKTIME_MEDIAN_TIME_PAST = true →
        CheckFinalTx m GetMedianTimePast nAdjustedTime T tx flags =
          IsFinalTx tx (lockTimeHeight m (some T)) (GetMedianTimePast T) := by
  intro h
  have := h ⟨[0], fun _ => ⟨none, 0, ⟨3, true, false, false⟩, 1, 1, 1, 1, 0, 0, 0, 1, 0⟩⟩
    (fun _ => 600000000) 700000000 0 ⟨1, 1, 0, [⟨⟨7, 0⟩, [], 0⟩], [], 600000000, 0, false⟩ (-1)
    (by decide)
  revert this
  decide

end Ecc
