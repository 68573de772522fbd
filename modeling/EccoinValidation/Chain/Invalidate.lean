import EccoinValidation.Chain.State

/-!
# Chain — invalidating a block

`InvalidateBlock(pindex)` marks `pindex` `BLOCK_FAILED_VALID`, then disconnects the active
tip while the active chain contains `pindex`, marking each tip `BLOCK_FAILED_CHILD` and
erasing it from the candidates before disconnecting it.  It then walks `mapBlockIndex` and
re-inserts into the candidates every entry that is valid up to `BLOCK_VALID_TRANSACTIONS`,
linked, and not below the new tip, and records `pindex` with `InvalidChainFound`.

`DisconnectTip` and `InvalidChainFound` are not under `src/`.  `DisconnectTip` is modelled
from the spec (§4.4, "disconnect blocks from the active tip"): it succeeds or fails, and on
success the active chain loses its tip; whether it succeeds is the parameter `disconnectOk`.
`InvalidChainFound` records the block as `pindexBestInvalid`.  The mempool calls
(`removeForReorg`, `LimitMempoolSize`) touch no part of the chain state.

The disconnect loop runs at most once per block of the active chain, so the model gives it
that many turns plus one; `none` is a turn count exhausted or a null tip dereferenced.

Only the blocks of the former active chain are marked: a descendant of `pindex` on a side
branch keeps its status, and the re-insertion walk puts it back into the candidates when it
has more work than the new tip.

* `disconnectLoop_spec`: the loop drops a suffix of the active chain and marks every block of
  it failed and not a candidate.
* `invalidateBlock_marks_pindex`: on a true return `pindex` is `BLOCK_FAILED_VALID`, is no
  longer on the active chain, and is not a candidate.
* `invalidateBlock_side_branch`: on the tree genesis–A–B with a side branch C under A,
  invalidating A leaves C unmarked and a candidate.
-/

namespace Ecc

namespace ChainState

/-- Modelled from the spec: a successful `DisconnectTip` moves the active tip to its
parent. -/
def DisconnectTip (s : ChainState) : ChainState :=
  { s with chainActive := ⟨s.chainActive.vChain.dropLast⟩ }

/-- `InvalidChainFound(pindex)` is not under `src/`.  The model records `pindex` as
`pindexBestInvalid`, the global `ReconsiderBlock` reads and resets, and nothing else. -/
def InvalidChainFound (pindex : Nat) (s : ChainState) : ChainState :=
  { s with pindexBestInvalid := some pindex }

/-- `b->nStatus |= bit; setDirtyBlockIndex.insert(b); setBlockIndexCandidates.erase(b)`, the
three lines `InvalidateBlock` runs on `pindex` (with `BLOCK_FAILED_VALID`) and on each tip it
disconnects (with `BLOCK_FAILED_CHILD`). -/
def markFailed (bit : BlockStatus → BlockStatus) (b : Nat) (s : ChainState) : ChainState :=
  let m := s.mapBlockIndex.setStatus b bit
  { s with mapBlockIndex := m, setDirtyBlockIndex := s.setDirtyBlockIndex.insert b,
           setBlockIndexCandidates := candErase s.setBlockIndexCandidates b }

/-- The `while (chainActive.Contains(pindex))` loop, with at most `fuel` turns.  It ends in
`.ok` once `pindex` is off the active chain, and in `.error` with the state of the failed
`DisconnectTip`. -/
def disconnectLoop (disconnectOk : Nat → Bool) (pindex : Nat) :
    Nat → ChainState → Option (Except ChainState ChainState)
  | 0, _ => none
  | fuel + 1, s =>
    if s.chainActive.Contains s.mapBlockIndex pindex then
      match s.chainActive.Tip with
      | none => none
      | some w =>
        let s := s.markFailed BlockStatus.setFailedChild w
        if disconnectOk w then disconnectLoop disconnectOk pindex fuel s.DisconnectTip
        else some (.error s)
    else some (.ok s)

/-- The walk over `mapBlockIndex` that re-inserts the candidates: an entry valid up to
`BLOCK_VALID_TRANSACTIONS`, linked, and not below the tip.  The comparator dereferences the
tip, so a null tip is `none` once an entry gets that far. -/
def reinsertCandidates (s : ChainState) : List Nat → Option ChainState
  | [] => some s
  | b :: rest =>
    if (s.mapBlockIndex.entry b).nStatus.IsValid BLOCK_VALID_TRANSACTIONS &&
        0 < (s.mapBlockIndex.entry b).nChainTx then
      match s.chainActive.Tip with
      | none => none
      | some t =>
        if !CBlockIndexWorkComparator s.mapBlockIndex b t then
          reinsertCandidates { s with setBlockIndexCandidates := candInsert s.setBlockIndexCandidates b }
            rest
        else reinsertCandidates s rest
    else reinsertCandidates s rest

/-- `InvalidateBlock(state, params, pindex)`: the verdict and the new chain state. -/
def InvalidateBlock (disconnectOk : Nat → Bool) (pindex : Nat) (s : ChainState) :
    Option (Bool × ChainState) :=
  let s := s.markFailed BlockStatus.setFailedValid pindex
  match disconnectLoop disconnectOk pindex (s.chainActive.vChain.length + 1) s with
  | none => none
  | some (.error s) => some (false, s)
  | some (.ok s) => do
    let s ← reinsertCandidates s s.mapBlockIndex.keys
    some (true, InvalidChainFound pindex s)

/-! ### Frame lemmas -/

section Frame

variable (bit : BlockStatus → BlockStatus) (b c : Nat) (s : ChainState)

@[simp] theorem keys_markFailed : (s.markFailed bit b).mapBlockIndex.keys = s.mapBlockIndex.keys :=
  rfl

@[simp] theorem chainActive_markFailed : (s.markFailed bit b).chainActive = s.chainActive := rfl

theorem entry_markFailed : (s.markFailed bit b).mapBlockIndex.entry c =
    if c = b then { s.mapBlockIndex.entry c with nStatus := bit (s.mapBlockIndex.entry c).nStatus }
    else s.mapBlockIndex.entry c :=
  BlockMap.entry_setStatus _ _ _ _

@[simp] theorem nHeight_markFailed :
    ((s.markFailed bit b).mapBlockIndex.entry c).nHeight = (s.mapBlockIndex.entry c).nHeight := by
  rw [entry_markFailed]; split <;> rfl

@[simp] theorem keys_DisconnectTip : s.DisconnectTip.mapBlockIndex = s.mapBlockIndex := rfl

@[simp] theorem setBlockIndexCandidates_DisconnectTip :
    s.DisconnectTip.setBlockIndexCandidates = s.setBlockIndexCandidates := rfl

theorem failed_markFailed (hbit : ∀ st, (bit st).Failed = true) :
    ((s.markFailed bit b).mapBlockIndex.entry c).nStatus.Failed =
      (decide (c = b) || (s.mapBlockIndex.entry c).nStatus.Failed) := by
  rw [entry_markFailed]; split <;> simp [*]

/-- `erase(b)` removes `b` itself. -/
theorem not_mem_markFailed : b ∉ (s.markFailed bit b).setBlockIndexCandidates :=
  fun h => (mem_candErase.mp h).2 rfl

end Frame

/-! ### The two walks -/

section Marks

variable {disconnectOk : Nat → Bool} {pindex : Nat}

/-- The re-insertion walk changes only the candidates, and adds only entries valid up to
`BLOCK_VALID_TRANSACTIONS`. -/
theorem reinsertCandidates_spec : ∀ (L : List Nat) (s s' : ChainState),
    reinsertCandidates s L = some s' →
    s'.mapBlockIndex = s.mapBlockIndex ∧ s'.chainActive = s.chainActive ∧
    ∀ c ∈ s'.setBlockIndexCandidates, c ∈ s.setBlockIndexCandidates ∨
      (s.mapBlockIndex.entry c).nStatus.IsValid BLOCK_VALID_TRANSACTIONS = true
  | [], s, s', h => by
    cases h; exact ⟨rfl, rfl, fun c hc => .inl hc⟩
  | b :: rest, s, s', h => by
    unfold reinsertCandidates at h
    split at h
    · rename_i hvalid
      split at h
      · cases h
      · split at h
        · obtain ⟨hm, hch, hc⟩ := reinsertCandidates_spec rest _ _ h
          refine ⟨hm, hch, fun c hc' => ?_⟩
          rcases hc c hc' with hc'' | hv
          · rcases mem_candInsert.mp hc'' with rfl | hc''
            · simp only [Bool.and_eq_true] at hvalid; exact .inr hvalid.1
            · exact .inl hc''
          · exact .inr hv
        · exact reinsertCandidates_spec rest _ _ h
    · exact reinsertCandidates_spec rest _ _ h

theorem getElem?_of_isPrefix {l₁ l₂ : List Nat} (h : l₁ <+: l₂) {i : Nat} (hi : i < l₁.length) :
    l₁[i]? = l₂[i]? := by
  rw [List.prefix_iff_eq_take.mp h, List.getElem?_take_of_lt hi]

/-- What the disconnect loop does between `s` and `s₁`: heights and failure bits are kept, the
active chain loses a suffix, the candidates only shrink, and every block of the lost suffix is
failed and not a candidate. -/
structure DisconnectSpec (s s₁ : ChainState) : Prop where
  height : ∀ c, (s₁.mapBlockIndex.entry c).nHeight = (s.mapBlockIndex.entry c).nHeight
  failedValid : ∀ c, (s.mapBlockIndex.entry c).nStatus.fFailedValid = true →
    (s₁.mapBlockIndex.entry c).nStatus.fFailedValid = true
  failed : ∀ c, (s.mapBlockIndex.entry c).nStatus.Failed = true →
    (s₁.mapBlockIndex.entry c).nStatus.Failed = true
  isPrefix : s₁.chainActive.vChain <+: s.chainActive.vChain
  cand : s₁.setBlockIndexCandidates ⊆ s.setBlockIndexCandidates
  marked : ∀ i b, s₁.chainActive.vChain.length ≤ i → s.chainActive.vChain[i]? = some b →
    (s₁.mapBlockIndex.entry b).nStatus.Failed = true ∧ b ∉ s₁.setBlockIndexCandidates

theorem DisconnectSpec.refl (s : ChainState) : DisconnectSpec s s :=
  ⟨fun _ => rfl, fun _ h => h, fun _ h => h, List.prefix_refl _, List.Subset.refl _,
    fun _ _ hi hb => absurd hb (by simp [List.getElem?_eq_none hi])⟩

theorem DisconnectSpec.trans {s₁ s₂ s₃ : ChainState} (h₁ : DisconnectSpec s₁ s₂)
    (h₂ : DisconnectSpec s₂ s₃) : DisconnectSpec s₁ s₃ where
  height c := (h₂.height c).trans (h₁.height c)
  failedValid c hc := h₂.failedValid c (h₁.failedValid c hc)
  failed c hc := h₂.failed c (h₁.failed c hc)
  isPrefix := h₂.isPrefix.trans h₁.isPrefix
  cand := List.Subset.trans h₂.cand h₁.cand
  marked i b hi hb := by
    by_cases hi₂ : s₂.chainActive.vChain.length ≤ i
    · obtain ⟨hf, hc⟩ := h₁.marked i b hi₂ hb
      exact ⟨h₂.failed b hf, fun hm => hc (h₂.cand hm)⟩
    · exact h₂.marked i b hi ((getElem?_of_isPrefix h₁.isPrefix (by omega)).trans hb)

/-- One turn of the loop marks the tip `BLOCK_FAILED_CHILD`, erases it from the candidates and
disconnects it. -/
theorem disconnectSpec_step {s : ChainState} {w : Nat} (hw : s.chainActive.Tip = some w) :
    DisconnectSpec s (s.markFailed BlockStatus.setFailedChild w).DisconnectTip where
  height c := nHeight_markFailed _ _ _ _
  failedValid c hc := by
    simp only [DisconnectTip, entry_markFailed]
    split <;> simpa [BlockStatus.setFailedChild] using hc
  failed c hc := by
    simp [DisconnectTip, failed_markFailed _ _ _ _ BlockStatus.failed_setFailedChild, hc]
  isPrefix := List.dropLast_prefix _
  cand := candErase_subset _ _
  marked i b hi hb := by
    have hlt := (List.getElem?_eq_some_iff.mp hb).1
    simp only [DisconnectTip, chainActive_markFailed, List.length_dropLast] at hi
    rw [CChain.Tip, List.getLast?_eq_getElem?, show s.chainActive.vChain.length - 1 = i by omega,
      hb] at hw
    cases hw
    exact ⟨by simp [DisconnectTip, failed_markFailed _ _ _ _ BlockStatus.failed_setFailedChild],
      not_mem_markFailed BlockStatus.setFailedChild w s⟩

/-- The loop ends only once `pindex` is off the active chain. -/
theorem disconnectLoop_spec : ∀ (fuel : Nat) (s s₁ : ChainState),
    disconnectLoop disconnectOk pindex fuel s = some (.ok s₁) →
      DisconnectSpec s s₁ ∧ s₁.chainActive.Contains s₁.mapBlockIndex pindex = false
  | 0, _, _, h => by simp [disconnectLoop] at h
  | fuel + 1, s, s₁, h => by
    unfold disconnectLoop at h
    split at h
    · split at h
      · cases h
      · rename_i w hw
        split at h
        · obtain ⟨hspec, hn⟩ := disconnectLoop_spec fuel _ _ h
          exact ⟨(disconnectSpec_step hw).trans hspec, hn⟩
        · cases h
    · rename_i hnc
      cases h
      exact ⟨DisconnectSpec.refl s, Bool.eq_false_iff.mpr hnc⟩

/-! ### What a true return guarantees -/

/-- **What the code guarantees.**  When `InvalidateBlock` returns true, `pindex` carries
`BLOCK_FAILED_VALID`, the active chain no longer contains it, and it is not a candidate. -/
theorem invalidateBlock_marks_pindex (s s' : ChainState)
    (h : InvalidateBlock disconnectOk pindex s = some (true, s')) :
    (s'.mapBlockIndex.entry pindex).nStatus.fFailedValid = true ∧
    s'.chainActive.Contains s'.mapBlockIndex pindex = false ∧
    pindex ∉ s'.setBlockIndexCandidates := by
  simp only [InvalidateBlock] at h
  split at h
  · cases h
  · simp at h
  · rename_i s₁ hloop
    obtain ⟨s₂, hre, rfl⟩ : ∃ s₂, reinsertCandidates s₁ s₁.mapBlockIndex.keys = some s₂ ∧
        InvalidChainFound pindex s₂ = s' := by
      simpa [Option.bind_eq_some] using h
    obtain ⟨hspec, hn⟩ := disconnectLoop_spec _ _ _ hloop
    obtain ⟨hm, hch, hadd⟩ := reinsertCandidates_spec _ _ _ hre
    have hfv : (s₁.mapBlockIndex.entry pindex).nStatus.fFailedValid = true :=
      hspec.failedValid _ (by simp [entry_markFailed, BlockStatus.setFailedValid])
    refine ⟨by simpa [InvalidChainFound, hm] using hfv, by simpa [InvalidChainFound, hm, hch] using hn,
      fun hp => ?_⟩
    rcases hadd pindex hp with hp' | hval
    · exact not_mem_markFailed _ _ _ (hspec.cand hp')
    · simp [BlockStatus.IsValid, BlockStatus.Failed, hfv] at hval

end Marks

/-- Invalidating the middle block of genesis–A–B under all successful disconnects: `A` is
marked, off the active chain, and not a candidate. -/
example :
    let s₀ : ChainState := ⟨⟨[0, 1, 2], fun b => ⟨[none, some 0, some 1].getD b none, b,
      ⟨5, true, false, false⟩, 1, b + 1, b + 1, b + 1, 0, 0, 0, 1, 0⟩⟩, ⟨[0, 1, 2]⟩, [2], [], [], 4,
      none⟩
    ∃ s', InvalidateBlock (fun _ => true) 1 s₀ = some (true, s') ∧
      (s'.mapBlockIndex.entry 1).nStatus.fFailedValid = true ∧
      s'.chainActive.Contains s'.mapBlockIndex 1 = false ∧ 1 ∉ s'.setBlockIndexCandidates := by
  intro s₀
  have h : InvalidateBlock (fun _ => true) 1 s₀ = some (true, _) := rfl
  exact ⟨_, h, invalidateBlock_marks_pindex s₀ _ h⟩

/-! ### A side branch under the invalidated block -/

/-- Genesis `0`, `A = 1`, `B = 2` on the active chain with `B` the tip and the only candidate,
and `C = 3` a child of `A` on a side branch, linked, with less work than `B` and more than
genesis.  Invalidating `A` with every `DisconnectTip` succeeding returns true, marks `A` and
`B`, leaves `C` unmarked, and re-inserts `C` into the candidates, although `C` descends from
`A`. -/
theorem invalidateBlock_side_branch :
    (InvalidateBlock (fun _ => true) 1
      ⟨⟨[0, 1, 2, 3], fun b => ⟨[none, some 0, some 1, some 1].getD b none, [0, 1, 2, 2].getD b 0,
        ⟨5, true, false, false⟩, 1, [1, 2, 3, 3].getD b 0, b + 1, [1, 2, 4, 3].getD b 0, 0, 0, 0,
        1, 0⟩⟩, ⟨[0, 1, 2]⟩, [2], [], [], 5, none⟩).map
      (fun r => (r.1, (r.2.mapBlockIndex.entry 2).nStatus.Failed,
        (r.2.mapBlockIndex.entry 3).nStatus.Failed, decide (3 ∈ r.2.setBlockIndexCandidates),
        (r.2.mapBlockIndex.GetAncestor 3 1))) =
      some (true, true, false, true, some 1) := by
  decide

end ChainState

end Ecc
