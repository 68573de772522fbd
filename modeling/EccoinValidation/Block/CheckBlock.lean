import EccoinValidation.Primitives.Transaction
import EccoinValidation.Primitives.ValidationState

/-!
# Block — the context-free checks

`CheckBlock(block, state, fCheckPOW, fCheckMerkleRoot)` runs in three stages: the header
checks (proof of work, `CheckBlockHeader`, the merkle root and its CVE-2012-2459 mutation, the
size limits and the coinbase/coinstake layout), a loop over the transactions, and the tail
checks (the legacy sigop count and the block signature).  A call that passes everything with
both flags set caches its verdict in `fChecked`, and every later call on the block returns
`true` at once.

The loop is where the service side channel lives.  A version-2 transaction pays for the
service transaction `serviceReferenceHash`: if the service mempool holds it and
`CheckServiceTransaction` accepts it, `ProcessServiceCommand` executes it; if the mempool lacks
it, it is asked of every peer.  Both functions are in `services/`, not under `src/`; the
channel takes them as parameters with the signatures `main.cpp` calls them with, the caller's
validation state included, which both may write.  `ServiceChannel.KeepsClean` is what they
must do for a clean state to stay clean.

* `checkBlock_service_commands`: a call that is not short-circuited by `fChecked` and passes the
  header checks has run the service branch over exactly the transactions its loop reached:
  those before the first that fails `CheckTransaction`, and up to and including the first
  whose time is past the block's, or all of them; so the commands of the reached transactions
  have run whatever the call then decides.  A call stopped by the header checks changes
  nothing, and `fChecked` is set only by a call returning `true` with both flags.
* `checkBlock_rejects_after_service`: a block with a stored, valid service payment and a bad
  signature is rejected after its command ran.
* `checkBlock_true_state_clean`: a call that returns `true` leaves the state the service calls
  left; so when they keep a clean state clean, the call leaves a clean state clean.
-/

namespace Ecc

/-- The checks `CheckBlock` calls whose code is not under `src/`, and the consensus limits. -/
structure BlockChecks where
  /-- `CheckBlockHeader(block, state, fCheckPOW)`: the rejection it records, if any. -/
  CheckBlockHeader : CBlock → Bool → Option Rejection
  /-- `CheckTransaction(tx, state)`: the rejection it records, if any. -/
  CheckTransaction : CTransaction → Option Rejection
  /-- `script.GetSigOpCount(false)`. -/
  GetSigOpCount : List UInt8 → Nat
  MAX_BLOCK_SIZE : Nat
  MAX_BLOCK_SIGOPS : Nat

/-- The service side channel: the contents of `g_stxmempool`, `CheckServiceTransaction` and
`ProcessServiceCommand`, over service transactions `Stx` and a service state `σ`. -/
structure ServiceChannel (Stx σ : Type) where
  lookup : Nat → Option Stx
  CheckServiceTransaction : Stx → CTransaction → CValidationState → Bool × CValidationState
  ProcessServiceCommand : σ → Stx → CTransaction → CBlock → CValidationState → σ × CValidationState

/-- The side channel of the spec's §6, `Validate(stx, tx) -> bool` and
`Execute(stx, tx, block)`: a channel whose calls write nothing into the validation state.  The
code's callees take the state by reference, so the theorems below hold for every channel. -/
def specServiceChannel {Stx σ : Type} (lookup : Nat → Option Stx) (Validate : Stx → CTransaction → Bool)
    (Execute : σ → Stx → CTransaction → CBlock → σ) : ServiceChannel Stx σ :=
  ⟨lookup, fun stx tx state => (Validate stx tx, state),
    fun svc stx tx block state => (Execute svc stx tx block, state)⟩

section Check

variable {Stx σ : Type} (C : BlockChecks) (S : ServiceChannel Stx σ)

/-- The checks before the transaction loop: the state a failing one leaves, or `none`. -/
def checkBlockHeaderStage (block : CBlock) (state : CValidationState)
    (fCheckPOW fCheckMerkleRoot : Bool) : Option CValidationState :=
  if block.IsProofOfWork && fCheckPOW && !block.fPowValid then
    some (state.DoS 50 .REJECT_INVALID "high-hash" false "")
  else match C.CheckBlockHeader block fCheckPOW with
  | some r => some (state.reject r)
  | none =>
    if fCheckMerkleRoot && block.hashMerkleRoot != block.hashMerkleRoot2 then
      some (state.DoS 100 .REJECT_INVALID "bad-txnmrklroot" true "")
    else if fCheckMerkleRoot && block.fMutated then
      some (state.DoS 100 .REJECT_INVALID "bad-txns-duplicate" true "")
    else if block.vtx.isEmpty || C.MAX_BLOCK_SIZE < block.vtx.length ||
        C.MAX_BLOCK_SIZE < block.nSerializeSize then
      some (state.DoS 100 .REJECT_INVALID "bad-blk-length" false "")
    else if (match block.vtx with | tx0 :: _ => !tx0.IsCoinBase | [] => true) then
      some (state.DoS 100 .REJECT_INVALID "bad-cb-missing" false "")
    else if block.vtx.tail.any CTransaction.IsCoinBase then
      some (state.DoS 100 .REJECT_INVALID "bad-cb-multiple" false "")
    else if (block.vtx.drop 2).any CTransaction.IsCoinStake then
      some (state.DoS 100 .unset "" false "")
    else if block.IsProofOfStake && (match block.vtx with
        | tx0 :: _ => tx0.vout.length != 1 || !(tx0.vout.head?.map CTxOut.IsEmpty).getD false
        | [] => false) then
      some (state.DoS 0 .unset "" false "")
    else none

/-- The service branch for one transaction: a version-2 transaction's service transaction is
looked up, and, if found and accepted, executed; if missing, it is asked for. -/
def serviceStep (block : CBlock) (tx : CTransaction) (state : CValidationState) (svc : σ)
    (asked : List Nat) : CValidationState × σ × List Nat :=
  if tx.nVersion = 2 then
    match S.lookup tx.serviceReferenceHash with
    | none => (state, svc, asked ++ [tx.serviceReferenceHash])
    | some stx =>
      let (ok, state) := S.CheckServiceTransaction stx tx state
      if ok then
        let (svc, state) := S.ProcessServiceCommand svc stx tx block state
        (state, svc, asked)
      else (state, svc, asked)
  else (state, svc, asked)

/-- The transaction loop: `CheckTransaction`, the service branch, and the timestamp check.
The flag is `false` when a transaction was rejected. -/
def checkBlockTxs (block : CBlock) :
    List CTransaction → CValidationState → σ → List Nat → Bool × CValidationState × σ × List Nat
  | [], state, svc, asked => (true, state, svc, asked)
  | tx :: rest, state, svc, asked =>
    match C.CheckTransaction tx with
    | some r =>
      let state := state.reject r
      (false, state.Invalid state.chRejectCode state.strRejectReason
        ("Transaction check failed (txid " ++ toString tx.hash ++ ") " ++ state.strDebugMessage),
        svc, asked)
    | none =>
      let (state, svc, asked) := serviceStep S block tx state svc asked
      if block.GetBlockTime < tx.nTime then (false, state.DoS 50 .unset "" false "", svc, asked)
      else checkBlockTxs block rest state svc asked

/-- The checks after the loop: the state a failing one leaves, or `none`. -/
def checkBlockTailStage (block : CBlock) (state : CValidationState) : Option CValidationState :=
  if C.MAX_BLOCK_SIGOPS < (block.vtx.map (CTransaction.GetLegacySigOpCount C.GetSigOpCount)).sum then
    some (state.DoS 100 .REJECT_INVALID "bad-blk-sigops" false "")
  else if !block.fSignatureValid then
    some (state.DoS 100 .REJECT_INVALID "bad-block-sig" false "")
  else none

/-- What a call of `CheckBlock` returns and changes: the verdict, the state, the block object
(its `fChecked`), the service state, and the service transactions asked of peers. -/
structure CheckBlockResult (σ : Type) where
  ok : Bool
  state : CValidationState
  block : CBlock
  service : σ
  asked : List Nat

/-- `CheckBlock(block, state, fCheckPOW, fCheckMerkleRoot)`. -/
def CheckBlock (block : CBlock) (state : CValidationState) (svc : σ)
    (fCheckPOW fCheckMerkleRoot : Bool) : CheckBlockResult σ :=
  if block.fChecked then ⟨true, state, block, svc, []⟩
  else match checkBlockHeaderStage C block state fCheckPOW fCheckMerkleRoot with
  | some state => ⟨false, state, block, svc, []⟩
  | none =>
    let (ok, state, svc, asked) := checkBlockTxs C S block block.vtx state svc []
    if !ok then ⟨false, state, block, svc, asked⟩
    else match checkBlockTailStage C block state with
    | some state => ⟨false, state, block, svc, asked⟩
    | none =>
      ⟨true, state, if fCheckPOW && fCheckMerkleRoot then { block with fChecked := true } else block,
        svc, asked⟩

/-- The service branch run over a list of transactions. -/
def serviceRun (block : CBlock) : List CTransaction → CValidationState → σ → List Nat →
    CValidationState × σ × List Nat
  | [], state, svc, asked => (state, svc, asked)
  | tx :: rest, state, svc, asked =>
    let (state, svc, asked) := serviceStep S block tx state svc asked
    serviceRun block rest state svc asked

theorem serviceRun_append (block : CBlock) :
    ∀ (l₁ l₂ : List CTransaction) (state : CValidationState) (svc : σ) (asked : List Nat),
      serviceRun S block (l₁ ++ l₂) state svc asked =
        let r := serviceRun S block l₁ state svc asked
        serviceRun S block l₂ r.1 r.2.1 r.2.2
  | [], _, _, _, _ => rfl
  | _ :: rest, l₂, _, _, _ => serviceRun_append block rest l₂ _ _ _

/-- Over a prefix of transactions that all pass, the loop runs the service branch, and goes on
from there. -/
theorem checkBlockTxs_append (block : CBlock) :
    ∀ (pre rest : List CTransaction) (state : CValidationState) (svc : σ) (asked : List Nat),
      (∀ tx ∈ pre, C.CheckTransaction tx = none ∧ (tx.nTime : Int) ≤ block.GetBlockTime) →
      checkBlockTxs C S block (pre ++ rest) state svc asked =
        let r := serviceRun S block pre state svc asked
        checkBlockTxs C S block rest r.1 r.2.1 r.2.2
  | [], _, _, _, _, _ => rfl
  | tx :: pre, rest, state, svc, asked, h => by
      obtain ⟨hc, ht⟩ := h tx (List.mem_cons_self _ _)
      simp only [List.cons_append, checkBlockTxs, hc, serviceRun,
        show ¬ (block.GetBlockTime < (tx.nTime : Int)) by omega, if_false]
      exact checkBlockTxs_append block pre rest _ _ _ fun x hx => h x (List.mem_cons_of_mem _ hx)

/-- Past the header checks, the call leaves the service state its loop leaves, and a loop
that stops makes the call return `false`. -/
theorem checkBlock_loop (block : CBlock) (state : CValidationState) (svc : σ)
    (fCheckPOW fCheckMerkleRoot : Bool) (hc : block.fChecked = false)
    (hh : checkBlockHeaderStage C block state fCheckPOW fCheckMerkleRoot = none) :
    (CheckBlock C S block state svc fCheckPOW fCheckMerkleRoot).service =
        (checkBlockTxs C S block block.vtx state svc []).2.2.1 ∧
      ((checkBlockTxs C S block block.vtx state svc []).1 = false →
        (CheckBlock C S block state svc fCheckPOW fCheckMerkleRoot).ok = false) := by
  simp only [CheckBlock, hc, hh, Bool.false_eq_true, if_false]
  generalize checkBlockTxs C S block block.vtx state svc [] = r
  obtain ⟨ok, st, sv, as⟩ := r
  cases ok
  · exact ⟨rfl, fun _ => rfl⟩
  · refine ⟨?_, fun h => by cases h⟩
    simp only [Bool.not_true, Bool.false_eq_true, if_false]
    split <;> rfl

/-- The block a call leaves: `fChecked` is set by a call that returns `true` with both
flags, and by no other. -/
theorem checkBlock_block (block : CBlock) (state : CValidationState) (svc : σ)
    (fCheckPOW fCheckMerkleRoot : Bool) :
    (CheckBlock C S block state svc fCheckPOW fCheckMerkleRoot).block =
      (if !block.fChecked && (CheckBlock C S block state svc fCheckPOW fCheckMerkleRoot).ok &&
          fCheckPOW && fCheckMerkleRoot then { block with fChecked := true } else block) := by
  unfold CheckBlock
  by_cases hc : block.fChecked
  · simp [hc]
  · simp only [hc, Bool.false_eq_true, if_false, Bool.not_false, Bool.true_and]
    split
    · rfl
    · generalize checkBlockTxs C S block block.vtx state svc [] = r
      obtain ⟨ok, st, sv, as⟩ := r
      cases ok
      · rfl
      · simp only [Bool.not_true, Bool.false_eq_true, if_false]
        split
        · rfl
        · cases fCheckPOW <;> cases fCheckMerkleRoot <;> rfl

/-- **`fChecked` and the service commands.**  A block already checked returns `true` at once
and changes nothing; `fChecked` is set exactly by a call returning `true` with both flags; a
call stopped by the header checks changes nothing but the state; and past them, wherever the
loop stops, at a transaction `CheckTransaction` rejects, at one whose time is past the block's,
or after the last, the call leaves the service state the branch leaves over the transactions
the loop reached, whatever the sigop and signature checks after the loop decide. -/
theorem checkBlock_service_commands (block : CBlock) (state : CValidationState) (svc : σ)
    (fCheckPOW fCheckMerkleRoot : Bool) :
    (block.fChecked = true →
      CheckBlock C S block state svc fCheckPOW fCheckMerkleRoot = ⟨true, state, block, svc, []⟩) ∧
    (CheckBlock C S block state svc fCheckPOW fCheckMerkleRoot).block =
      (if !block.fChecked && (CheckBlock C S block state svc fCheckPOW fCheckMerkleRoot).ok &&
          fCheckPOW && fCheckMerkleRoot then { block with fChecked := true } else block) ∧
    (block.fChecked = false → ∀ st,
      checkBlockHeaderStage C block state fCheckPOW fCheckMerkleRoot = some st →
      CheckBlock C S block state svc fCheckPOW fCheckMerkleRoot = ⟨false, st, block, svc, []⟩) ∧
    (block.fChecked = false → checkBlockHeaderStage C block state fCheckPOW fCheckMerkleRoot = none →
      ∀ pre rest, block.vtx = pre ++ rest →
      (∀ tx ∈ pre, C.CheckTransaction tx = none ∧ (tx.nTime : Int) ≤ block.GetBlockTime) →
      (rest = [] → (CheckBlock C S block state svc fCheckPOW fCheckMerkleRoot).service =
        (serviceRun S block pre state svc []).2.1) ∧
      (∀ tx post, rest = tx :: post → C.CheckTransaction tx ≠ none →
        (CheckBlock C S block state svc fCheckPOW fCheckMerkleRoot).ok = false ∧
        (CheckBlock C S block state svc fCheckPOW fCheckMerkleRoot).service =
          (serviceRun S block pre state svc []).2.1) ∧
      (∀ tx post, rest = tx :: post → C.CheckTransaction tx = none →
        block.GetBlockTime < (tx.nTime : Int) →
        (CheckBlock C S block state svc fCheckPOW fCheckMerkleRoot).ok = false ∧
        (CheckBlock C S block state svc fCheckPOW fCheckMerkleRoot).service =
          (serviceRun S block (pre ++ [tx]) state svc []).2.1)) := by
  refine ⟨fun hc => by simp [CheckBlock, hc], checkBlock_block C S block state svc _ _,
    fun hc st hh => by simp [CheckBlock, hc, hh], fun hc hh pre rest hv hpre => ?_⟩
  obtain ⟨hsvc, hok⟩ := checkBlock_loop C S block state svc fCheckPOW fCheckMerkleRoot hc hh
  rw [hv, checkBlockTxs_append C S block pre rest state svc [] hpre] at hsvc hok
  refine ⟨?_, ?_, ?_⟩
  · rintro rfl; exact hsvc
  · -- stopped by `CheckTransaction`: the branch has not run on `tx`
    rintro tx post rfl hct
    obtain ⟨r, hr⟩ := Option.ne_none_iff_exists'.mp hct
    simp only [checkBlockTxs, hr] at hsvc hok
    exact ⟨hok trivial, hsvc⟩
  · -- stopped by the timestamp check: the branch has run on `tx`
    rintro tx post rfl hct ht
    simp only [checkBlockTxs, hct, ht, if_true] at hsvc hok
    exact ⟨hok trivial, by rw [hsvc, serviceRun_append]; rfl⟩

end Check

/-- Checks under which everything not under `src/` passes, with large limits. -/
def permissiveChecks : BlockChecks := ⟨fun _ _ => none, fun _ => none, fun _ => 0, 1000, 1000⟩

/-- A `CheckServiceTransaction` that records its failure in the caller's state, which the log
line after the call prints, leaves that record in the state of a block the call accepts. -/
example :
    let S : ServiceChannel Unit Nat := ⟨fun _ => some (),
      fun _ _ state => (false, state.DoS 10 .REJECT_INVALID "bad-stx" false ""),
      fun n _ _ _ state => (n, state)⟩
    let r := CheckBlock permissiveChecks S
      ⟨1, 10, [⟨1, 1, 0, [⟨⟨0, 0xffffffff⟩, [], 0⟩], [], 0, 0, false⟩,
        ⟨2, 2, 0, [⟨⟨5, 0⟩, [], 0⟩], [], 0, 9, false⟩], false, 0, 0, false, 100, true, true, false⟩
      CValidationState.fresh 0 true true
    r.ok = true ∧ ¬ r.state.Clean := by
  decide

/-- A coinbase and a version-2 transaction paying for a stored, valid service transaction, in
a block with a bad signature: the block is rejected, and its command has run. -/
theorem checkBlock_rejects_after_service :
    ¬ ∀ (lookup : Nat → Option Unit) (block : CBlock) (fCheckPOW fCheckMerkleRoot : Bool),
      (CheckBlock permissiveChecks
        (specServiceChannel lookup (fun _ _ => true) fun (n : Nat) _ _ _ => n + 1)
        block CValidationState.fresh 0 fCheckPOW fCheckMerkleRoot).ok = false →
      (CheckBlock permissiveChecks
        (specServiceChannel lookup (fun _ _ => true) fun (n : Nat) _ _ _ => n + 1)
        block CValidationState.fresh 0 fCheckPOW fCheckMerkleRoot).service = 0 := by
  intro h
  have := h (fun _ => some ())
    ⟨1, 10, [⟨1, 1, 0, [⟨⟨0, 0xffffffff⟩, [], 0⟩], [], 0, 0, false⟩,
      ⟨2, 2, 0, [⟨⟨5, 0⟩, [], 0⟩], [], 0, 9, false⟩], false, 0, 0, false, 100, true, false, false⟩
    true true
  revert this
  decide

end Ecc
