import EccoinValidation.Chain.Runs

/-!
# Chain — a block stranded by a failed parent

`ReceivedBlockTransactions` links a block whose parent is linked.  Otherwise it records the pair
(parent, block) in `mapBlocksUnlinked`, where the loop that links the parent will find it, but
only when the parent `IsValid(BLOCK_VALID_TREE)`.  A block whose data arrives while its parent
is both unlinked and marked failed is recorded nowhere, and nothing records it later:
`ReconsiderBlock` clears the failure bits without revisiting `mapBlocksUnlinked`, and the linking
loop takes only the blocks of its queue and the pairs it finds there.

`Stranded s c` says that `c` has its data and `nChainTx = 0`, that no pair waits to link it, and
that it is not a candidate.

* `Stranded.apply`: no call of the four operations takes a block out of `Stranded`.
* `receivedBlockTransactions_stranded`: a block whose data arrives while its parent is unlinked
  and marked failed is `Stranded`.
* `chainRun_stranded`: **such a block is never linked.**  Along every run that follows, even one
  that reconsiders the parent and then links it, the block keeps `nChainTx = 0` and never
  becomes a candidate, so it is never connected.
-/

namespace Ecc

namespace ChainState

/-- `c` has its data but is not linked, no pair of `mapBlocksUnlinked` waits to link it, and it
is not a candidate. -/
structure Stranded (s : ChainState) (c : Nat) : Prop where
  data : (s.mapBlockIndex.entry c).nStatus.fHaveData = true
  unlinked : (s.mapBlockIndex.entry c).nChainTx = 0
  waiting : ∀ p, (p, c) ∉ s.mapBlocksUnlinked
  not_cand : c ∉ s.setBlockIndexCandidates

variable {s s' : ChainState} {c : Nat}

/-- `Stranded` reads the entry of `c` only through its data bit and `nChainTx`. -/
theorem Stranded.of_fields (h : Stranded s c)
    (hd : (s'.mapBlockIndex.entry c).nStatus.fHaveData =
      (s.mapBlockIndex.entry c).nStatus.fHaveData)
    (hl : (s'.mapBlockIndex.entry c).nChainTx = (s.mapBlockIndex.entry c).nChainTx)
    (hU : ∀ p, (p, c) ∈ s'.mapBlocksUnlinked → (p, c) ∈ s.mapBlocksUnlinked)
    (hC : c ∈ s'.setBlockIndexCandidates → c ∈ s.setBlockIndexCandidates) :
    Stranded s' c where
  data := hd.trans h.data
  unlinked := hl.trans h.unlinked
  waiting p hp := h.waiting p (hU p hp)
  not_cand hc := h.not_cand (hC hc)

/-- No primitive update links a block or inserts an unlinked one into the candidates. -/
theorem Stranded.update (h : Stranded s c) (hu : Update s s') : Stranded s' c := by
  cases hu with
  | markFailed bit hbit b =>
    exact h.of_fields (setStatus_fields hbit c).2.2 (setStatus_fields hbit c).2.1
      (fun _ hp => hp) fun hc => candErase_subset _ _ hc
  | clearFailed b =>
    have hf := setStatus_fields (m := s.mapBlockIndex) (b := b) (f := BlockStatus.clearFailed)
      (fun _ => rfl) c
    exact h.of_fields hf.2.2 hf.2.1 (fun _ hp => hp) id
  | disconnectTip | setBestInvalid => exact ⟨h.data, h.unlinked, h.waiting, h.not_cand⟩
  | insertCandidate b _ hlinked =>
    refine { h with not_cand := fun hc => ?_ }
    rcases mem_candInsert.mp hc with rfl | hc
    · rw [h.unlinked] at hlinked; exact absurd hlinked (lt_irrefl 0)
    · exact h.not_cand hc
  | keepCandidates C hC => exact { h with not_cand := fun hc => h.not_cand (hC hc) }

theorem Stranded.updates (h : Stranded s c) (hu : Updates s s') : Stranded s' c := by
  induction hu with
  | refl => exact h
  | tail _ hu ih => exact ih.update hu

/-- A turn of the linking loop on another block. -/
theorem Stranded.linkBlock (h : Stranded s c) {p : Nat} (hp : p ≠ c) :
    Stranded (s.linkBlock p) c := by
  refine h.of_fields (by rw [nStatus_linkBlock]) (by rw [nChainTx_linkBlock, if_neg hp.symm])
    (fun q hq => (List.mem_filter.mp hq).1) fun hc => ?_
  simp only [ChainState.linkBlock] at hc
  split at hc
  · exact (mem_candInsert.mp hc).resolve_left hp.symm
  · exact hc

/-- The linking loop never reaches a block that is neither queued nor waiting. -/
theorem Stranded.linkQueue (s : ChainState) (Q : List Nat) (h : Stranded s c) (hQ : c ∉ Q) :
    Stranded (s.linkQueue Q) c := by
  induction s, Q using ChainState.linkQueue.induct with
  | case1 s => rw [ChainState.linkQueue]; exact h
  | case2 s p rest ih =>
    rw [ChainState.linkQueue]
    rw [List.mem_cons, not_or] at hQ
    refine ih (h.linkBlock (Ne.symm hQ.1)) fun hc => ?_
    rcases List.mem_append.mp hc with hc | hc
    · exact hQ.2 hc
    · exact h.waiting p (mem_unlinkedChildren.mp hc)

/-- The data of another block, one without data, arrives. -/
theorem Stranded.receivedBlockTransactions (h : Stranded s c) (block : CBlock)
    (pos : CDiskBlockPos) {x : Nat} (hx : (s.mapBlockIndex.entry x).nStatus.fHaveData = false) :
    Stranded (s.ReceivedBlockTransactions block x pos) c := by
  have hxc : x ≠ c := by rintro rfl; rw [h.data] at hx; cases hx
  have h₁ : Stranded (s.recordData block x pos) c :=
    h.of_fields (by rw [entry_recordData_of_ne _ _ _ hxc.symm])
      (by rw [entry_recordData_of_ne _ _ _ hxc.symm]) (fun _ hp => hp) id
  unfold ReceivedBlockTransactions
  dsimp only
  split
  · exact h₁.linkQueue _ _ (by simpa using hxc.symm)
  · split
    · split
      · refine h₁.of_fields rfl rfl (fun q hq => ?_) id
        rcases List.mem_append.mp hq with hq | hq
        · exact hq
        · simp only [List.mem_singleton, Prod.mk.injEq] at hq
          exact absurd hq.2.symm hxc
      · exact h₁
    · exact h₁

/-- **One call keeps a block stranded.** -/
theorem Stranded.apply {op : ChainOp} (h : Stranded s c) (hop : op.Allowed s)
    (happ : op.apply s = some s') : Stranded s' c := by
  obtain ⟨block, x, pos, rfl, rfl⟩ | hu := apply_cases hop happ
  · exact h.receivedBlockTransactions block pos hop.2.1
  · exact h.updates hu

theorem Stranded.run {ops : List ChainOp} (h : Stranded s c) (hr : ChainRun s ops s') :
    Stranded s' c := by
  induction hr with
  | nil => exact h
  | cons hop happ _ ih => exact ih (h.apply hop happ)

/-- **How a block is stranded.**  The data of `c` arrives while its parent `p` is not linked and
is marked failed: `ReceivedBlockTransactions` neither links `c` nor records it in
`mapBlocksUnlinked`. -/
theorem receivedBlockTransactions_stranded (hc : CandInv s) (block : CBlock)
    (pos : CDiskBlockPos) {p : Nat} (hnd : (s.mapBlockIndex.entry c).nStatus.fHaveData = false)
    (hp : (s.mapBlockIndex.entry c).pprev = some p) (hpc : p ≠ c)
    (hlink : (s.mapBlockIndex.entry p).nChainTx = 0)
    (hfail : (s.mapBlockIndex.entry p).nStatus.IsValid BLOCK_VALID_TREE = false) :
    Stranded (s.ReceivedBlockTransactions block c pos) c := by
  have h₁ : Stranded (s.recordData block c pos) c := by
    refine ⟨by simp [entry_recordData], by simp [entry_recordData], fun q hq => ?_,
      fun hcand => ?_⟩
    · simpa [hnd] using (hc.unlinked q c hq).2
    · obtain ⟨hk, hl⟩ := hc.cand c hcand
      simpa [hnd] using hc.linked c hk hl
  have hpl : parentLinked (s.recordData block c pos).mapBlockIndex c = false := by
    simp [parentLinked, hp, entry_recordData_of_ne _ _ _ hpc, hlink]
  unfold ReceivedBlockTransactions
  simp only [hpl, Bool.false_eq_true, if_false, pprev_recordData, hp,
    entry_recordData_of_ne _ _ _ hpc, hfail]
  exact h₁

/-- **A block stranded by a failed parent is never linked.**  From globals meeting `CandInv`,
let the data of `c` arrive while its parent `p` is not linked and is marked failed.  Along every
run of the four operations that follows, in any order, even one that reconsiders `p` and stores
its data, `c` keeps its data and `nChainTx = 0`, no pair of `mapBlocksUnlinked` waits to link
it, and it is never a candidate. -/
theorem chainRun_stranded (hc : CandInv s) (block : CBlock) (pos : CDiskBlockPos) {p : Nat}
    {ops : List ChainOp} (hnd : (s.mapBlockIndex.entry c).nStatus.fHaveData = false)
    (hp : (s.mapBlockIndex.entry c).pprev = some p) (hpc : p ≠ c)
    (hlink : (s.mapBlockIndex.entry p).nChainTx = 0)
    (hfail : (s.mapBlockIndex.entry p).nStatus.IsValid BLOCK_VALID_TREE = false)
    (hr : ChainRun (s.ReceivedBlockTransactions block c pos) ops s') : Stranded s' c :=
  (receivedBlockTransactions_stranded hc block pos hnd hp hpc hlink hfail).run hr

/-- The genesis header `0` is marked failed, as `InvalidateBlock(0)` does off the active chain,
and the data of its child `1` arrives.  `ReconsiderBlock(0)` clears the failure and the genesis
data then links `0`, but `1` stays stranded. -/
theorem chainRun_stranded_reconsidered :
    let s := twoHeaders.markFailed BlockStatus.setFailedValid 0
    let ops := [ChainOp.reconsiderBlock 0, .receivedBlockTransactions (oneTxBlock 2) 0 ⟨0, 1⟩]
    ∃ s', ChainRun (s.ReceivedBlockTransactions (oneTxBlock 1) 1 ⟨0, 0⟩) ops s' ∧
      0 < (s'.mapBlockIndex.entry 0).nChainTx ∧ Stranded s' 1 := by
  intro s ops
  have hr : ChainRun (s.ReceivedBlockTransactions (oneTxBlock 1) 1 ⟨0, 0⟩) ops _ :=
    .cons (show 0 ∈ [0, 1] by decide) rfl
      (.cons ⟨by decide, rfl, List.cons_ne_nil _ _⟩ rfl (.nil _))
  -- the genesis data links `0`: nothing waits for it
  have hu : ∀ s : ChainState, s.mapBlocksUnlinked = [] → s.unlinkedChildren 0 = [] :=
    fun s h => by simp [unlinkedChildren, h]
  refine ⟨_, hr, ?_, chainRun_stranded (s := s) (c := 1) (p := 0)
    (candInv_of_headers rfl rfl (by decide) (by decide)) _ _ rfl rfl (by decide) rfl rfl hr⟩
  rw [ReceivedBlockTransactions, if_pos (by decide), ChainState.linkQueue, hu _ (by rfl),
    List.nil_append, ChainState.linkQueue, nChainTx_linkBlock, if_pos rfl]
  decide

end ChainState

end Ecc
