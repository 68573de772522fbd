import EccoinValidation.Coins.TxInputs

/-!
# Coins — the script checks of a transaction's inputs

`CheckInputs(tx, state, inputs, fScriptChecks, flags, cacheStore, pvChecks)` runs
`Consensus::CheckTxInputs` on a transaction that is not a coinbase and then, when
`fScriptChecks` is set, builds one `CScriptCheck` per input over the spent coin's
`scriptPubKey` and amount.  With `pvChecks` it appends each check to the vector for the
caller to run later, as block connection does; without it, it runs each check at once and
returns at the first failure, as the mempool does, recording the failure as non-mandatory
when the check passes without `STANDARD_NOT_MANDATORY_VERIFY_FLAGS`.  A coinbase passes at
once and builds no check.

The script interpreter and the policy flags are not part of the sources: `ScriptEnv` gives
`VerifyScript` with its signature checker as a function to the script error, and the flag
constant.

* `checkScriptsLoop_deferred` and `checkScriptsLoop_immediate`: with every coin in the view,
  the deferred loop appends `scriptChecksFrom`, and the immediate loop returns true exactly
  when each of those checks succeeds.
* `checkInputs_deferred_agrees`: the immediate call returns true exactly when the deferred call
  returns true and every check it appended succeeds; a true deferred call on a transaction
  that is not a coinbase appends one check per input, in input order, over the spent coin,
  and any other call appends none.
* `checkInputs_coinbase_appends_none`: a coinbase with one input appends no check.
-/

namespace Ecc

/-- `CScriptCheck(scriptPubKey, amount, txTo, nIn, nFlags, cacheStore)`. -/
structure CScriptCheck where
  scriptPubKey : List UInt8
  amount : Int
  ptxTo : CTransaction
  nIn : Nat
  nFlags : UInt32
  cacheStore : Bool
deriving DecidableEq, Repr

/-- The script interpreter, whose code is not under `src/`.  `VerifyScript scriptSig
scriptPubKey flags txTo nIn cacheStore` is `none` when `VerifyScript` with the checker
`CachingTransactionSignatureChecker(txTo, nIn, cacheStore)` succeeds, and the
`ScriptErrorString` of its error when it fails. -/
structure ScriptEnv where
  VerifyScript : List UInt8 → List UInt8 → UInt32 → CTransaction → Nat → Bool → Option String
  STANDARD_NOT_MANDATORY_VERIFY_FLAGS : UInt32

/-- `CScriptCheck::operator()()`: `none` inside for success, the script error for a failure;
the outer `none` is `vin[nIn]` out of range. -/
def CScriptCheck.call (S : ScriptEnv) (c : CScriptCheck) : Option (Option String) :=
  (c.ptxTo.vin[c.nIn]?).map fun txin =>
    S.VerifyScript txin.scriptSig c.scriptPubKey c.nFlags c.ptxTo c.nIn c.cacheStore

section CheckInputs

variable (P : MoneyParams) (m : BlockMap) (chainActive : CChain) (E : TxEnv) (S : ScriptEnv)

/-- The check `CheckInputs` builds for input `i`, spending `coin`. -/
def inputCheck (tx : CTransaction) (flags : UInt32) (cacheStore : Bool) (i : Nat) (coin : Coin) :
    CScriptCheck :=
  ⟨coin.out.scriptPubKey, coin.out.nValue, tx, i, flags, cacheStore⟩

/-- The script loop of `CheckInputs` from input `i` on.  With `pvChecks` each check is
appended; without it each is run, and the first failure is reported.  `none` is the failed
`assert(!coin.IsSpent())`, or a check whose input is out of range. -/
def checkScriptsLoop (tx : CTransaction) (inputs : CCoinsViewCache) (flags : UInt32)
    (cacheStore : Bool) (state : CValidationState) :
    Nat → List CTxIn → Option (List CScriptCheck) →
      Option (Bool × CValidationState × Option (List CScriptCheck))
  | _, [], pvChecks => some (true, state, pvChecks)
  | i, txin :: rest, pvChecks => (inputs.AccessCoin txin.prevout).bind fun coin =>
    let check := inputCheck tx flags cacheStore i coin
    match pvChecks with
    | some v => checkScriptsLoop tx inputs flags cacheStore state (i + 1) rest (some (v ++ [check]))
    | none => (check.call S).bind fun
      | none => checkScriptsLoop tx inputs flags cacheStore state (i + 1) rest none
      | some err =>
        let mandatory := some (false, state.DoS 100 .REJECT_INVALID
          ("mandatory-script-verify-flag-failed (" ++ err ++ ")") false "", none)
        if flags &&& S.STANDARD_NOT_MANDATORY_VERIFY_FLAGS != 0 then
          let check2 := { check with
            nFlags := flags &&& ~~~S.STANDARD_NOT_MANDATORY_VERIFY_FLAGS }
          (check2.call S).bind fun r2 =>
            if r2 = none then
              some (false, state.Invalid .REJECT_NONSTANDARD
                ("non-mandatory-script-verify-flag (" ++ err ++ ")") "", none)
            else mandatory
        else mandatory

/-- `CheckInputs(tx, state, inputs, fScriptChecks, flags, cacheStore, pvChecks)`: the verdict,
the state, and the vector `pvChecks` points at (`none` for a null pointer).  `none` is a
crash: `GetSpendHeight(inputs)`, evaluated as `CheckTxInputs`'s argument, dereferences the
best block's index entry. -/
def CheckInputs (tx : CTransaction) (state : CValidationState) (inputs : CCoinsViewCache)
    (fScriptChecks : Bool) (flags : UInt32) (cacheStore : Bool)
    (pvChecks : Option (List CScriptCheck)) :
    Option (Bool × CValidationState × Option (List CScriptCheck)) :=
  if tx.IsCoinBase then some (true, state, pvChecks)
  else (GetSpendHeight m inputs).bind fun _ =>
    (CheckTxInputs P m chainActive tx state inputs E).bind fun r =>
      if !r.1 then some (false, r.2, pvChecks)
      else if fScriptChecks then
        checkScriptsLoop S tx inputs flags cacheStore r.2 0 tx.vin pvChecks
      else some (true, r.2, pvChecks)

/-- The checks of the inputs from index `i` on, for those the view holds a coin for. -/
def scriptChecksFrom (tx : CTransaction) (inputs : CCoinsViewCache) (flags : UInt32)
    (cacheStore : Bool) : Nat → List CTxIn → List CScriptCheck
  | _, [] => []
  | i, txin :: rest => ((inputs.AccessCoin txin.prevout).map
      (inputCheck tx flags cacheStore i)).toList ++ scriptChecksFrom tx inputs flags cacheStore (i + 1) rest

end CheckInputs

/-! ### The two loops -/

section Loops

variable {S : ScriptEnv} {tx : CTransaction} {inputs : CCoinsViewCache} {flags : UInt32}
  {cacheStore : Bool} {state : CValidationState}

/-- With every coin in the view, `scriptChecksFrom` has one check per input, the `k`-th over
the `k`-th input's coin. -/
theorem scriptChecksFrom_getElem? : ∀ {l : List CTxIn} {i : Nat},
    (∀ txin ∈ l, (inputs.AccessCoin txin.prevout).isSome) →
    (scriptChecksFrom tx inputs flags cacheStore i l).length = l.length ∧
    ∀ k (hk : k < l.length), ∃ coin, inputs.AccessCoin l[k].prevout = some coin ∧
      (scriptChecksFrom tx inputs flags cacheStore i l)[k]? =
        some (inputCheck tx flags cacheStore (i + k) coin)
  | [], _, _ => ⟨rfl, fun _ hk => absurd hk (Nat.not_lt_zero _)⟩
  | txin :: rest, i, h => by
    obtain ⟨coin, hc⟩ := Option.isSome_iff_exists.mp (h txin (List.mem_cons_self _ _))
    obtain ⟨hlen, hget⟩ := scriptChecksFrom_getElem? (i := i + 1)
      fun t ht => h t (List.mem_cons_of_mem _ ht)
    simp only [scriptChecksFrom, hc, Option.map_some', Option.toList_some, List.singleton_append,
      List.length_cons, hlen, true_and]
    rintro (_ | k) hk
    · exact ⟨coin, hc, by simp⟩
    · obtain ⟨c, hc', he⟩ := hget k (by simpa using hk)
      exact ⟨c, hc', by simpa [Nat.add_right_comm] using he⟩

/-- **The deferred loop appends the inputs' checks.**  With every coin in the view, it
returns true and appends `scriptChecksFrom`. -/
theorem checkScriptsLoop_deferred : ∀ {l : List CTxIn} {i : Nat} (v : List CScriptCheck),
    (∀ txin ∈ l, (inputs.AccessCoin txin.prevout).isSome) →
    checkScriptsLoop S tx inputs flags cacheStore state i l (some v) =
      some (true, state, some (v ++ scriptChecksFrom tx inputs flags cacheStore i l))
  | [], _, v, _ => by simp [checkScriptsLoop, scriptChecksFrom]
  | txin :: rest, i, v, h => by
    obtain ⟨coin, hc⟩ := Option.isSome_iff_exists.mp (h txin (List.mem_cons_self _ _))
    simp only [checkScriptsLoop, scriptChecksFrom, hc, Option.some_bind, Option.map_some',
      Option.toList_some, checkScriptsLoop_deferred _ fun t ht => h t (List.mem_cons_of_mem _ ht),
      List.append_assoc, List.singleton_append]

/-- **The immediate loop runs the same checks.**  With every coin in the view, it returns true
exactly when every check of `scriptChecksFrom` succeeds. -/
theorem checkScriptsLoop_immediate : ∀ {l : List CTxIn} {i : Nat},
    (∀ txin ∈ l, (inputs.AccessCoin txin.prevout).isSome) →
    ((∃ s, checkScriptsLoop S tx inputs flags cacheStore state i l none = some (true, s, none)) ↔
      ∀ c ∈ scriptChecksFrom tx inputs flags cacheStore i l, c.call S = some none)
  | [], _, _ => by simp [checkScriptsLoop, scriptChecksFrom]
  | txin :: rest, i, h => by
    obtain ⟨coin, hc⟩ := Option.isSome_iff_exists.mp (h txin (List.mem_cons_self _ _))
    have ih := checkScriptsLoop_immediate (i := i + 1)
      fun t ht => h t (List.mem_cons_of_mem _ ht)
    simp only [checkScriptsLoop, scriptChecksFrom, hc, Option.some_bind, Option.map_some',
      Option.toList_some, List.singleton_append, List.forall_mem_cons]
    cases hcall : (inputCheck tx flags cacheStore i coin).call S with
    | none => simp
    | some r =>
      cases r with
      | none => simp [ih]
      | some err =>
        -- the first failure returns false, whether or not it is non-mandatory
        have hne : ¬(some (some err) : Option (Option String)) = some none := by simp
        simp only [Option.some_bind, hne, false_and, iff_false, not_exists]
        intro s hs
        split_ifs at hs
        · obtain ⟨r₂, -, hs⟩ := Option.bind_eq_some.mp hs
          split_ifs at hs <;> simp at hs
        · simp at hs

end Loops

/-! ### The two paths of `CheckInputs` -/

section Paths

variable (P : MoneyParams) (m : BlockMap) (chainActive : CChain) (E : TxEnv) (S : ScriptEnv)

/-- A true `CheckTxInputs` found every input of a transaction that is not a coinbase in the
view. -/
theorem accessCoin_isSome_of_checkTxInputs {tx : CTransaction} {state s : CValidationState}
    {inputs : CCoinsViewCache} (hcb : tx.IsCoinBase = false)
    (h : CheckTxInputs P m chainActive tx state inputs E = some (true, s)) :
    ∀ txin ∈ tx.vin, (inputs.AccessCoin txin.prevout).isSome := by
  have hhave : inputs.HaveInputs tx = true := by
    unfold CheckTxInputs at h
    by_contra hn
    simp [hn] at h
  simpa [CCoinsViewCache.HaveInputs, hcb] using hhave

/-- **The deferred and the immediate paths agree.**  With `fScriptChecks` set, the call without
`pvChecks` returns true exactly when the call with `pvChecks = &v` returns true and every
check it appended to `v` succeeds.  A true call with `pvChecks` on a transaction that is not a
coinbase appends one check per input, in input order, over the spent coin's `scriptPubKey`
and amount, the transaction, the input's index and the same flags; a coinbase, or a false
call, appends none. -/
theorem checkInputs_deferred_agrees (tx : CTransaction) (state : CValidationState)
    (inputs : CCoinsViewCache) (flags : UInt32) (cacheStore : Bool) (v : List CScriptCheck) :
    ((∃ s, CheckInputs P m chainActive E S tx state inputs true flags cacheStore none =
        some (true, s, none)) ↔
      ∃ s v', CheckInputs P m chainActive E S tx state inputs true flags cacheStore (some v) =
          some (true, s, some v') ∧ ∀ c ∈ v'.drop v.length, c.call S = some none) ∧
    ∀ r s v', CheckInputs P m chainActive E S tx state inputs true flags cacheStore (some v) =
        some (r, s, some v') →
      ∃ L, v' = v ++ L ∧ (r = false ∨ tx.IsCoinBase = true → L = []) ∧
        (r = true → tx.IsCoinBase = false → L.length = tx.vin.length ∧
          ∀ i (hi : i < tx.vin.length), ∃ coin, inputs.AccessCoin tx.vin[i].prevout = some coin ∧
            L[i]? = some ⟨coin.out.scriptPubKey, coin.out.nValue, tx, i, flags, cacheStore⟩) := by
  unfold CheckInputs
  cases hcb : tx.IsCoinBase
  · cases GetSpendHeight m inputs with
    | none => simp
    | some _ =>
      cases hct : CheckTxInputs P m chainActive tx state inputs E with
      | none => simp
      | some r =>
        obtain ⟨_ | _, s₁⟩ := r
        · -- `CheckTxInputs` failed: both return false before any check
          simp only [Option.some_bind, Bool.not_false, if_true, Option.some.injEq, Prod.mk.injEq]
          refine ⟨by simp, ?_⟩
          intro r s v' h
          simp only [Bool.false_eq_true, if_false, Option.some.injEq, Prod.mk.injEq] at h
          obtain ⟨rfl, -, rfl⟩ := h
          exact ⟨[], by simp, fun _ => rfl, fun h => absurd h Bool.false_ne_true⟩
        · have hall := accessCoin_isSome_of_checkTxInputs P m chainActive E hcb hct
          simp only [Option.some_bind, Bool.not_true, Bool.false_eq_true, if_false, if_true,
            checkScriptsLoop_deferred _ hall]
          refine ⟨?_, ?_⟩
          · simp only [checkScriptsLoop_immediate hall, Option.some.injEq, Prod.mk.injEq,
              exists_and_left, exists_eq_left', List.drop_left]
            exact ⟨fun h => ⟨s₁, _, ⟨trivial, rfl, rfl⟩, by simpa using h⟩,
              fun ⟨_, _, ⟨_, _, hv⟩, h⟩ => by subst hv; simpa using h⟩
          rintro r s v' h
          simp only [Option.some.injEq, Prod.mk.injEq] at h
          obtain ⟨rfl, rfl, rfl⟩ := h
          obtain ⟨hlen, hget⟩ := scriptChecksFrom_getElem? (i := 0) hall
          exact ⟨_, rfl, by simp, fun _ _ => ⟨hlen, fun i hi => by simpa [inputCheck] using hget i hi⟩⟩
  · simp only [if_true, Option.some.injEq, Prod.mk.injEq]
    refine ⟨⟨fun _ => ⟨state, v, ⟨trivial, rfl, rfl⟩, by simp⟩, fun _ => ⟨state, trivial, rfl, trivial⟩⟩, ?_⟩
    rintro r s v' ⟨rfl, -, h⟩
    exact ⟨[], by simpa using h.symm, fun _ => rfl, by simp⟩

end Paths

/-- A coinbase with one input: the call with `pvChecks` returns true and appends no check. -/
theorem checkInputs_coinbase_appends_none :
    let cb : CTransaction := ⟨1, 1, 0, [⟨⟨0, 0xffffffff⟩, [], 0⟩], [⟨50, []⟩], 0, 0, false⟩
    cb.vin.length = 1 ∧
      CheckInputs ⟨100, 1, 10000, 10, 30⟩
        ⟨[0], fun _ => ⟨none, 0, ⟨3, true, false, false⟩, 1, 1, 1, 0, 0, 0, 0, 1, 50⟩⟩ ⟨[0]⟩
        ⟨fun _ => none, fun _ => 0, toString, toString⟩ ⟨fun _ _ _ _ _ _ => none, 0⟩ cb
        CValidationState.fresh ⟨fun _ => none, 0⟩ true 0 false (some []) =
        some (true, CValidationState.fresh, some []) := by
  decide

end Ecc
