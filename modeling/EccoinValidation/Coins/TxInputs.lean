import EccoinValidation.Chain.BlockIndex
import EccoinValidation.Primitives.Transaction
import EccoinValidation.Primitives.ValidationState

/-!
# Coins — the input checks of a transaction

`Consensus::CheckTxInputs` walks a transaction's inputs in the coin view: every coin it
spends must be unspent, a coinbase coin (or any coin of a coinstake) must have matured, and
the running input value stays in `MoneyRange`.  An ordinary transaction must not pay out more
than it takes in; a coinstake must not claim more than `GetProofOfStakeReward` allows for its
coin age.

Two of its inputs do not come from the view or from the transaction: the maturity rule is
enforced only while `chainActive.Tip()` is above height 1600000, and the reward ceiling is
computed from `chainActive.Tip()->nMoneySupply`.  The spend height itself is the view's best
block's height plus one (`GetSpendHeight`).

`coins.h`, `amount.h` and the coin-age code are not part of the sources: a coin is its output,
height and coinbase flag; `HaveInputs` and `MoneyRange` are the protocol's; the monetary
constants are the fields of `MoneyParams`; and the coin age, money formatting and hash
printing are the fields of `TxEnv`.  Amounts are unbounded integers: every partial sum
`CheckTxInputs` forms is checked against `MoneyRange` before the next is formed, so it stays
in `int64_t` whenever the view's coins are in range.  `GetProofOfStakeReward` multiplies a coin
age by a rate, which can leave `int64_t`, so it computes in `int64_t` arithmetic (`int64`).

* `getProofOfStakeReward_bounds`: while the coin age times the rate stays within `int64_t`, the
  reward is never negative, and from height 1005000 on (or at `CMS = MAX_MONEY`) it is at most
  `MAX_MONEY - CMS`.
* `getProofOfStakeReward_exceeds_headroom`: below that height it is not, in either regime.
* `checkTxInputs_tip_reads`: two chain states that agree on `mapBlockIndex`, on whether the
  tip is above the hysteresis height, and on the tip's money supply give the same result, for
  every transaction, state and view.
* `checkTxInputs_verdict_depends_on_tip`: agreeing on the view and on `mapBlockIndex` is not
  enough.
-/

namespace Ecc

/-- A coin of the view: the output, the height of the block that created it, and whether
that transaction was a coinbase. -/
structure Coin where
  out : CTxOut
  nHeight : Int
  fCoinBase : Bool
deriving DecidableEq, Repr

/-- `CCoinsViewCache` as the checks read it: `AccessCoin` (`none` for a spent or missing
coin) and the hash of the best block. -/
structure CCoinsViewCache where
  AccessCoin : COutPoint → Option Coin
  hashBestBlock : Nat

namespace CCoinsViewCache

/-- `HaveInputs(tx)`: every input of a transaction that is not a coinbase is in the view. -/
def HaveInputs (v : CCoinsViewCache) (tx : CTransaction) : Bool :=
  tx.IsCoinBase || tx.vin.all fun txin => (v.AccessCoin txin.prevout).isSome

end CCoinsViewCache

/-- The monetary constants of `amount.h` and `consensus.h`. -/
structure MoneyParams where
  COIN : Int
  CENT : Int
  MAX_MONEY : Int
  MAX_MINT_PROOF_OF_STAKE : Int
  COINBASE_MATURITY : Int

/-- `DEFAULT_TRANSACTION_MINFEE` of `wallet.h`. -/
def DEFAULT_TRANSACTION_MINFEE : Int := 1000

/-- `MoneyRange(v)`. -/
def MoneyRange (P : MoneyParams) (v : Int) : Bool := 0 ≤ v && v ≤ P.MAX_MONEY

/-- The functions `CheckTxInputs` calls whose code is not under `src/`: `GetCoinAge` is
`tx.GetCoinAge(nCoinAge)` (`none` when it returns false), `GetCoinAgeByValue` is the value of
the expression `tx.GetCoinAge(nCoinAge, true)` that is passed to `GetProofOfStakeReward`,
`FormatMoney` formats an amount and `HashToString` is `GetHash().ToString()`. -/
structure TxEnv where
  GetCoinAge : CTransaction → Option Nat
  GetCoinAgeByValue : CTransaction → Int
  FormatMoney : Int → String
  HashToString : Nat → String

/-! ### The reward ceiling -/

/-- `ValueFromAmountAsInt(amount)`: whole coins, truncated toward zero. -/
def ValueFromAmountAsInt (P : MoneyParams) (amount : Int) : Int := amount.tdiv P.COIN

/-- `int64_t` arithmetic: the value of `x` in 64-bit two's complement.  Signed overflow is
undefined in C++; on the platforms the node is built for it wraps. -/
def int64 (x : Int) : Int := (x + 2 ^ 63) % 2 ^ 64 - 2 ^ 63

theorem int64_of_lt {x : Int} (h₁ : -2 ^ 63 ≤ x) (h₂ : x < 2 ^ 63) : int64 x = x := by
  unfold int64; omega

/-- The `nRewardCoinYear` that `GetProofOfStakeReward` multiplies the coin age by, on a supply
below `MAX_MONEY`: for `500000 < nHeight < 1005000` the yearly rate
`2.5 * MAX_MINT_PROOF_OF_STAKE`, capped against the supply in whole coins, and `25 * CENT`
otherwise.  The yearly rate is computed in `double` and truncated, which is
`(5 * MAX_MINT_PROOF_OF_STAKE).tdiv 2` for every constant below `2 ^ 52`. -/
def stakeRewardRate (P : MoneyParams) (CMS nHeight : Int) : Int :=
  let nRewardCoinYear := (5 * P.MAX_MINT_PROOF_OF_STAKE).tdiv 2
  if 500000 < nHeight ∧ nHeight < 1005000 then
    let nextMoney := int64 (ValueFromAmountAsInt P CMS + nRewardCoinYear)
    let nRewardCoinYear :=
      if nextMoney > P.MAX_MONEY then int64 (nextMoney - int64 (nextMoney - P.MAX_MONEY))
      else nRewardCoinYear
    if nextMoney = P.MAX_MONEY then 0 else nRewardCoinYear
  else int64 (25 * P.CENT)

/-- `GetProofOfStakeReward(nCoinAge, nHeight)` with `CMS` the tip's `nMoneySupply`, in
`int64_t` arithmetic.  Both regimes compute `nSubsidy = nCoinAge * nRewardCoinYear / 365` from
their rate; from height 1005000 on, a subsidy that would pass `MAX_MONEY` is cut back. -/
def GetProofOfStakeReward (P : MoneyParams) (CMS nCoinAge nHeight : Int) : Int :=
  if CMS = P.MAX_MONEY then 0
  else
    let nSubsidy := (int64 (nCoinAge * stakeRewardRate P CMS nHeight)).tdiv 365
    if nHeight ≥ 1005000 then
      let nextMoney := int64 (CMS + nSubsidy)
      if nextMoney > P.MAX_MONEY then int64 (nSubsidy - int64 (nextMoney - P.MAX_MONEY))
      else nSubsidy
    else nSubsidy

section Reward

variable {P : MoneyParams} {CMS nCoinAge nHeight : Int}

/-- The rate is never negative when the constants are `int64_t` values with a bit to spare. -/
theorem stakeRewardRate_nonneg (hCENT : 0 ≤ P.CENT) (hCENT64 : 25 * P.CENT < 2 ^ 63)
    (hMint : 0 ≤ P.MAX_MINT_PROOF_OF_STAKE) (hMint64 : (5 * P.MAX_MINT_PROOF_OF_STAKE).tdiv 2 < 2 ^ 62)
    (hMax64 : P.MAX_MONEY < 2 ^ 62) (hCMS : 0 ≤ CMS) (hMax : CMS ≤ P.MAX_MONEY) :
    0 ≤ stakeRewardRate P CMS nHeight := by
  have hrate : 0 ≤ (5 * P.MAX_MINT_PROOF_OF_STAKE).tdiv 2 := Int.tdiv_nonneg (by omega) (by decide)
  -- the supply in whole coins is no larger than the supply
  have hv : (ValueFromAmountAsInt P CMS).natAbs ≤ CMS.natAbs := by
    rw [ValueFromAmountAsInt, Int.natAbs_tdiv]; exact Nat.div_le_self _ _
  have hnext : int64 (ValueFromAmountAsInt P CMS + (5 * P.MAX_MINT_PROOF_OF_STAKE).tdiv 2) =
      ValueFromAmountAsInt P CMS + (5 * P.MAX_MINT_PROOF_OF_STAKE).tdiv 2 :=
    int64_of_lt (by omega) (by omega)
  unfold stakeRewardRate
  dsimp only
  rw [hnext, int64_of_lt (x := 25 * P.CENT) (by omega) hCENT64]
  simp only [int64]
  split_ifs <;> omega

/-- **The stake reward is nonnegative, and bounded by the headroom where the code caps it.**
From a supply `0 ≤ CMS ≤ MAX_MONEY` and a nonnegative coin age whose product with the rate
stays within `int64_t`, the reward is never negative at any height; at heights from 1005000
on, and at `CMS = MAX_MONEY`, it is at most `MAX_MONEY - CMS`, so a coinstake there never
pushes the supply past `MAX_MONEY`. -/
theorem getProofOfStakeReward_bounds (hCENT : 0 ≤ P.CENT) (hCENT64 : 25 * P.CENT < 2 ^ 63)
    (hMint : 0 ≤ P.MAX_MINT_PROOF_OF_STAKE) (hMint64 : (5 * P.MAX_MINT_PROOF_OF_STAKE).tdiv 2 < 2 ^ 62)
    (hMax64 : P.MAX_MONEY < 2 ^ 62) (hAge : 0 ≤ nCoinAge) (hCMS : 0 ≤ CMS)
    (hMax : CMS ≤ P.MAX_MONEY) (hOverflow : nCoinAge * stakeRewardRate P CMS nHeight < 2 ^ 63) :
    0 ≤ GetProofOfStakeReward P CMS nCoinAge nHeight ∧
      (1005000 ≤ nHeight ∨ CMS = P.MAX_MONEY →
        GetProofOfStakeReward P CMS nCoinAge nHeight ≤ P.MAX_MONEY - CMS) := by
  have hrate : 0 ≤ stakeRewardRate P CMS nHeight :=
    stakeRewardRate_nonneg hCENT hCENT64 hMint hMint64 hMax64 hCMS hMax
  have hp := Int.mul_nonneg hAge hrate
  unfold GetProofOfStakeReward
  dsimp only
  -- under the side condition the product does not wrap, and the subsidy is its quotient
  rw [int64_of_lt (by omega) hOverflow, Int.tdiv_eq_ediv hp (by decide)]
  generalize nCoinAge * stakeRewardRate P CMS nHeight = p at hp hOverflow
  simp only [int64]
  split_ifs <;> omega

/-- A stake at the fork height with the supply one unit below `MAX_MONEY` (25 billion coins
of `10 ^ 6` units). -/
theorem getProofOfStakeReward_bounds_at_fork :
    let P : MoneyParams := ⟨1000000, 10000, 25000000000 * 1000000, 100000, 30⟩
    0 ≤ GetProofOfStakeReward P (P.MAX_MONEY - 1) 365 1005000 ∧
      (1005000 ≤ (1005000 : Int) ∨ P.MAX_MONEY - 1 = P.MAX_MONEY →
        GetProofOfStakeReward P (P.MAX_MONEY - 1) 365 1005000 ≤ P.MAX_MONEY - (P.MAX_MONEY - 1)) :=
  getProofOfStakeReward_bounds (by decide) (by decide) (by decide) (by decide) (by decide)
    (by decide) (by decide) (by decide) (by decide)

/-- Without the side condition the product wraps: a coin age of `4 * 10 ^ 13` coin-days at
height 0 gives a negative reward. -/
example : GetProofOfStakeReward ⟨1000000, 10000, 25000000000 * 1000000, 100000, 30⟩ 0
    40000000000000 0 = -23141764585505620 := by
  decide

/-- **Below the fork the reward is not capped by the headroom.**  With the supply one unit
below `MAX_MONEY` and a coin age of 365 coin-days, the reward at height 0 is `25 * CENT`, and
at height 600000 it is the yearly rate `2.5 * MAX_MINT_PROOF_OF_STAKE`: the middle regime's
cap compares the supply in whole coins plus that rate with `MAX_MONEY`. -/
theorem getProofOfStakeReward_exceeds_headroom :
    let P : MoneyParams := ⟨1000000, 10000, 25000000000 * 1000000, 100000, 30⟩
    let CMS := P.MAX_MONEY - 1
    0 ≤ CMS ∧ CMS ≤ P.MAX_MONEY ∧
      P.MAX_MONEY - CMS < GetProofOfStakeReward P CMS 365 0 ∧
      P.MAX_MONEY - CMS < GetProofOfStakeReward P CMS 365 600000 := by
  decide

end Reward

/-! ### What is read of the chain -/

/-- `GetSpendHeight(inputs)`: one above the view's best block, which must be in
`mapBlockIndex`. -/
def GetSpendHeight (m : BlockMap) (inputs : CCoinsViewCache) : Option Int :=
  if inputs.hashBestBlock ∈ m.keys then some ((m.entry inputs.hashBestBlock).nHeight + 1)
  else none

/-- `chainActive.Tip()->nHeight > 1600000`, with `none` for a null tip. -/
def tipPastHysteresis (m : BlockMap) (chainActive : CChain) : Option Bool :=
  chainActive.Tip.map fun t => decide (1600000 < (m.entry t).nHeight)

/-- `chainActive.Tip()->nMoneySupply`, with `none` for a null tip. -/
def tipMoneySupply (m : BlockMap) (chainActive : CChain) : Option Int :=
  chainActive.Tip.map fun t => (m.entry t).nMoneySupply

/-! ### `CheckTxInputs` -/

section Inputs

variable (P : MoneyParams) (m : BlockMap) (chainActive : CChain) (tx : CTransaction)
  (state : CValidationState) (inputs : CCoinsViewCache)

/-- The loop over the inputs, from the running `nValueIn` and `nSpendHeight` (`-1` until a
coinbase coin or a coinstake asks for it).  It ends in the state of a rejection, or in the
input total and the spend height; `none` is a failed `assert` or a dereferenced null. -/
def checkInputsLoop : List CTxIn → Int → Int → Option (Except CValidationState (Int × Int))
  | [], nValueIn, nSpendHeight => some (.ok (nValueIn, nSpendHeight))
  | txin :: rest, nValueIn, nSpendHeight => do
    let coin ← inputs.AccessCoin txin.prevout
    let nSpendHeight ←
      if (coin.fCoinBase || tx.IsCoinStake) && nSpendHeight = -1 then GetSpendHeight m inputs
      else some nSpendHeight
    let premature ←
      if (coin.fCoinBase || tx.IsCoinStake) && nSpendHeight - coin.nHeight < P.COINBASE_MATURITY
      then tipPastHysteresis m chainActive else some false
    if premature then
      return .error (state.Invalid .REJECT_INVALID "bad-txns-premature-spend-of-coinbase"
        ("tried to spend coinbase at depth " ++ toString (nSpendHeight - coin.nHeight)))
    let nValueIn := nValueIn + coin.out.nValue
    if !MoneyRange P coin.out.nValue || !MoneyRange P nValueIn then
      return .error (state.DoS 100 .REJECT_INVALID "bad-txns-inputvalues-outofrange" false "")
    checkInputsLoop rest nValueIn nSpendHeight

/-- What follows the loop: the fee checks of an ordinary transaction, the reward ceiling of
a coinstake. -/
def checkTxValues (E : TxEnv) (nValueIn nSpendHeight : Int) : Option (Bool × CValidationState) :=
  if !tx.IsCoinStake then
    if nValueIn < tx.GetValueOut then
      some (false, state.DoS 100 .REJECT_INVALID "bad-txns-in-belowout" false
        ("value in (" ++ E.FormatMoney nValueIn ++ ") < value out (" ++
          E.FormatMoney tx.GetValueOut ++ ")"))
    else if nValueIn - tx.GetValueOut < 0 then
      some (false, state.DoS 100 .REJECT_INVALID "bad-txns-fee-negative" false "")
    else if !MoneyRange P (0 + (nValueIn - tx.GetValueOut)) then
      some (false, state.DoS 100 .REJECT_INVALID "bad-txns-fee-outofrange" false "")
    else some (true, state)
  else
    match E.GetCoinAge tx with
    | none => some (false, state.DoS 100 .REJECT_INVALID "bad-txns-cant-get-coin-age" false
        ("ConnectInputs() : " ++ (E.HashToString tx.hash).take 10 ++
          " unable to get coin age for coinstake"))
    | some _ => do
      let CMS ← tipMoneySupply m chainActive
      if tx.GetValueOut - nValueIn >
          GetProofOfStakeReward P CMS (E.GetCoinAgeByValue tx) nSpendHeight +
            DEFAULT_TRANSACTION_MINFEE then
        some (false, state.DoS 100 .REJECT_INVALID "bad-txns-stake-reward-too-high" false
          ("ConnectInputs() : " ++ (E.HashToString tx.hash).take 10 ++ " stake reward exceeded"))
      else some (true, state)

/-- `Consensus::CheckTxInputs(tx, state, inputs, nSpendHeight)`.  The `nSpendHeight` argument
is overwritten with `-1` before it is read, so the model does not take it. -/
def CheckTxInputs (E : TxEnv) : Option (Bool × CValidationState) :=
  if !inputs.HaveInputs tx then some (false, state.Invalid .unset "" "Inputs unavailable")
  else do
    match ← checkInputsLoop P m chainActive tx state inputs tx.vin 0 (-1) with
    | .error s => some (false, s)
    | .ok (nValueIn, nSpendHeight) => checkTxValues P m chainActive tx state E nValueIn nSpendHeight

end Inputs

/-! ### What the verdict depends on -/

section TipReads

variable {P : MoneyParams} {m : BlockMap} {c₁ c₂ : CChain} {tx : CTransaction}
  {state : CValidationState} {inputs : CCoinsViewCache}

theorem checkInputsLoop_congr (h : tipPastHysteresis m c₁ = tipPastHysteresis m c₂) :
    ∀ (vin : List CTxIn) (nValueIn nSpendHeight : Int),
      checkInputsLoop P m c₁ tx state inputs vin nValueIn nSpendHeight =
        checkInputsLoop P m c₂ tx state inputs vin nValueIn nSpendHeight
  | [], _, _ => rfl
  | txin :: rest, nValueIn, nSpendHeight => by
    simp only [checkInputsLoop, h, checkInputsLoop_congr h rest]

theorem checkTxValues_congr (E : TxEnv) (h : tipMoneySupply m c₁ = tipMoneySupply m c₂)
    (nValueIn nSpendHeight : Int) :
    checkTxValues P m c₁ tx state E nValueIn nSpendHeight =
      checkTxValues P m c₂ tx state E nValueIn nSpendHeight := by
  simp only [checkTxValues, h]

/-- **The tip is read through two values only.**  Two chain states with the same
`mapBlockIndex` that agree on whether the tip is above height 1600000 and on the tip's money
supply give the same verdict and the same state, for every transaction and view. -/
theorem checkTxInputs_tip_reads (P : MoneyParams) (E : TxEnv) (m : BlockMap) (c₁ c₂ : CChain)
    (tx : CTransaction) (state : CValidationState) (inputs : CCoinsViewCache)
    (hHeight : tipPastHysteresis m c₁ = tipPastHysteresis m c₂)
    (hSupply : tipMoneySupply m c₁ = tipMoneySupply m c₂) :
    CheckTxInputs P m c₁ tx state inputs E = CheckTxInputs P m c₂ tx state inputs E := by
  simp only [CheckTxInputs, checkInputsLoop_congr hHeight, checkTxValues_congr E hSupply]

/-- Two active chains ending in different blocks below the hysteresis height, with the same
money supply, give the same result. -/
theorem checkTxInputs_same_below_hysteresis :
    CheckTxInputs ⟨100, 1, 10000, 10, 30⟩
      ⟨[0, 1], fun b => ⟨none, b, ⟨3, true, false, false⟩, 1, 1, 1, 0, 0, 0, 0, 1, 50⟩⟩ ⟨[0]⟩
      ⟨9, 1, 0, [⟨⟨5, 0⟩, [], 0⟩], [], 0, 0, false⟩ CValidationState.fresh
      ⟨fun _ => some ⟨⟨0, []⟩, 1, true⟩, 0⟩ ⟨fun _ => none, fun _ => 0, toString, toString⟩ =
    CheckTxInputs ⟨100, 1, 10000, 10, 30⟩
      ⟨[0, 1], fun b => ⟨none, b, ⟨3, true, false, false⟩, 1, 1, 1, 0, 0, 0, 0, 1, 50⟩⟩ ⟨[0, 1]⟩
      ⟨9, 1, 0, [⟨⟨5, 0⟩, [], 0⟩], [], 0, 0, false⟩ CValidationState.fresh
      ⟨fun _ => some ⟨⟨0, []⟩, 1, true⟩, 0⟩ ⟨fun _ => none, fun _ => 0, toString, toString⟩ :=
  checkTxInputs_tip_reads _ _ _ _ _ _ _ _ (by decide) (by decide)

/-- The same view and the same `mapBlockIndex` are not enough: a coinbase coin spent at depth
0 is rejected under a tip at height 1600001 and accepted under a tip at height 0. -/
theorem checkTxInputs_verdict_depends_on_tip :
    ¬ ∀ (P : MoneyParams) (E : TxEnv) (m : BlockMap) (c₁ c₂ : CChain) (tx : CTransaction)
        (state : CValidationState) (inputs : CCoinsViewCache),
      (CheckTxInputs P m c₁ tx state inputs E).map Prod.fst =
        (CheckTxInputs P m c₂ tx state inputs E).map Prod.fst := by
  intro h
  have := h ⟨100, 1, 10000, 10, 30⟩ ⟨fun _ => none, fun _ => 0, toString, toString⟩
    ⟨[0, 1], fun b => ⟨none, if b = 1 then 1600001 else 0, ⟨3, true, false, false⟩, 1, 1, 1, 0,
      0, 0, 0, 1, 50⟩⟩ ⟨[1]⟩ ⟨[0]⟩ ⟨9, 1, 0, [⟨⟨5, 0⟩, [], 0⟩], [], 0, 0, false⟩
    CValidationState.fresh ⟨fun _ => some ⟨⟨0, []⟩, 1, true⟩, 0⟩
  revert this
  decide

end TipReads

end Ecc
