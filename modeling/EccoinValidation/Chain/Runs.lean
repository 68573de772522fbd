import EccoinValidation.Chain.Received
import EccoinValidation.Chain.Reconsider
import EccoinValidation.Chain.Prune

/-!
# Chain — runs of the block-index operations

`ReceivedBlockTransactions`, `InvalidateBlock`, `ReconsiderBlock` and
`PruneBlockIndexCandidates` work on the same globals: the map, the candidate set, the orphan
links, the dirty set.  This module follows those globals over any sequence of calls, in any
order.

The last three are made of a few primitive updates (`Update`): mark an entry failed, clear its
failure bits, disconnect the tip, insert a candidate whose `nChainTx` the code has tested, set
`pindexBestInvalid`, keep part of the candidates.  Each invariant is proved once per update,
and each call is shown to be a sequence of updates (`updates_invalidateBlock`,
`updates_reconsiderBlock`, `updates_pruneBlockIndexCandidates`).  The linking loop of
`ReceivedBlockTransactions` is followed on its own, with the blocks still in its queue.

* `CandInv`: every candidate is an entry of the map with `nChainTx ≠ 0`, every linked entry has
  its data, every entry with data has transactions, and every block waiting in
  `mapBlocksUnlinked` is an entry with data.
* `chainRun_candInv`: **every run keeps `CandInv`**, whatever the order of the calls, when each
  `ReceivedBlockTransactions` is on an entry of the map without data, for a block with
  transactions, and each `ReconsiderBlock` on an entry of the map.
* `chainRun_unlinkedInv`: **every waiting block waits for its own, unlinked parent.**  Over any
  run, each pair `(p, b)` of `mapBlocksUnlinked` has `b`'s parent `p`, not linked, and no pair is
  there twice.  Linking `p` erases the pairs keyed by `p`, and a pair is added only for a parent
  that is not linked.  The converse does not hold over runs: a block whose parent is marked
  failed when its data arrives is not added, and nothing adds it after `ReconsiderBlock`
  (`Chain.Stranded`).
* `chainRun_dirtyFrame`: **no change escapes the dirty set.**  Over any run, an entry outside
  `setDirtyBlockIndex` keeps every field but its link fields `nChainTx` and `nSequenceId`; so
  `FlushStateToDisk`, which writes the dirty entries, writes every other change.
* `invalidateBlock_then_prune`: after `InvalidateBlock` returns true, a new tip that is valid
  and linked is a candidate again ("The resulting new best tip may not be in
  setBlockIndexCandidates anymore, so add it again"), and a following
  `PruneBlockIndexCandidates` keeps it and does not abort.
-/

namespace Ecc

/-- An entry with its link fields `nChainTx` and `nSequenceId` cleared. -/
def CBlockIndex.withoutLinks (e : CBlockIndex) : CBlockIndex :=
  { e with nChainTx := 0, nSequenceId := 0 }

namespace ChainState

/-! ### The primitive updates -/

/-- The updates `InvalidateBlock`, `ReconsiderBlock` and `PruneBlockIndexCandidates` are made
of, each with what its call site has checked. -/
inductive Update (s : ChainState) : ChainState → Prop
  /-- `markFailed` with a bit that leaves `BLOCK_HAVE_DATA` alone. -/
  | markFailed (bit : BlockStatus → BlockStatus) (hbit : ∀ st, (bit st).fHaveData = st.fHaveData)
      (b : Nat) : Update s (s.markFailed bit b)
  | clearFailed (b : Nat) : Update s (s.clearFailed b)
  | disconnectTip : Update s s.DisconnectTip
  /-- `setBlockIndexCandidates.insert(b)` on an entry of the map whose `nChainTx` is not 0. -/
  | insertCandidate (b : Nat) (hb : b ∈ s.mapBlockIndex.keys)
      (hlinked : 0 < (s.mapBlockIndex.entry b).nChainTx) :
      Update s { s with setBlockIndexCandidates := candInsert s.setBlockIndexCandidates b }
  | setBestInvalid (o : Option Nat) : Update s { s with pindexBestInvalid := o }
  /-- Erasing candidates. -/
  | keepCandidates (C : List Nat) (hC : C ⊆ s.setBlockIndexCandidates) :
      Update s { s with setBlockIndexCandidates := C }

/-- Any number of updates. -/
def Updates : ChainState → ChainState → Prop := Relation.ReflTransGen Update

variable {s s' : ChainState}

theorem Update.keys (h : Update s s') : s'.mapBlockIndex.keys = s.mapBlockIndex.keys := by
  cases h <;> rfl

theorem Updates.keys (h : Updates s s') : s'.mapBlockIndex.keys = s.mapBlockIndex.keys := by
  induction h with
  | refl => rfl
  | tail _ hu ih => exact hu.keys.trans ih

/-! ### Each call is a sequence of updates -/

section Calls

variable {disconnectOk : Nat → Bool} {pindex : Nat}

/-- The state the disconnect loop ends in, on either exit. -/
def loopExit : Except ChainState ChainState → ChainState
  | .ok s | .error s => s

theorem updates_disconnectLoop : ∀ (fuel : Nat) (s : ChainState) (r : Except ChainState ChainState),
    disconnectLoop disconnectOk pindex fuel s = some r → Updates s (loopExit r)
  | 0, _, _, h => by simp [disconnectLoop] at h
  | fuel + 1, s, r, h => by
    unfold disconnectLoop at h
    split at h
    · split at h
      · cases h
      · rename_i w _
        have hmark : Updates s (s.markFailed BlockStatus.setFailedChild w) :=
          .single (.markFailed BlockStatus.setFailedChild (fun _ => rfl) w)
        split at h
        · exact hmark.trans (.head .disconnectTip (updates_disconnectLoop fuel _ _ h))
        · cases h; exact hmark
    · cases h; exact .refl

theorem updates_reinsertCandidates : ∀ (L : List Nat) (s s' : ChainState),
    (∀ b ∈ L, b ∈ s.mapBlockIndex.keys) → reinsertCandidates s L = some s' → Updates s s'
  | [], s, s', _, h => by cases h; exact .refl
  | b :: rest, s, s', hL, h => by
    rw [List.forall_mem_cons] at hL
    unfold reinsertCandidates at h
    split at h
    · rename_i hvalid
      split at h
      · cases h
      · split at h
        · have hlinked : 0 < (s.mapBlockIndex.entry b).nChainTx := by
            simp only [Bool.and_eq_true, decide_eq_true_eq] at hvalid; exact hvalid.2
          exact .head (.insertCandidate b hL.1 hlinked) (updates_reinsertCandidates rest _ _ hL.2 h)
        · exact updates_reinsertCandidates rest _ _ hL.2 h
    · exact updates_reinsertCandidates rest _ _ hL.2 h

theorem updates_invalidateBlock {r : Bool} (h : s.InvalidateBlock disconnectOk pindex = some (r, s')) :
    Updates s s' := by
  have hmark : Updates s (s.markFailed BlockStatus.setFailedValid pindex) :=
    .single (.markFailed BlockStatus.setFailedValid (fun _ => rfl) pindex)
  unfold InvalidateBlock at h
  dsimp only at h
  split at h
  · cases h
  · rename_i hloop
    cases h
    exact hmark.trans (updates_disconnectLoop _ _ _ hloop)
  · rename_i s₁ hloop
    obtain ⟨s₂, h₂, h⟩ := Option.bind_eq_some.mp h
    cases h
    exact ((hmark.trans (updates_disconnectLoop _ _ (.ok s₁) hloop)).trans
      (updates_reinsertCandidates _ _ _ (fun _ hb => hb) h₂)).tail (.setBestInvalid (some pindex))

theorem updates_insertIfAboveTip {b : Nat} (hb : b ∈ s.mapBlockIndex.keys)
    (h : insertIfAboveTip b s = some s') : Updates s s' := by
  unfold insertIfAboveTip at h
  dsimp only at h
  split at h
  · rename_i hc
    obtain ⟨t, -, rfl⟩ := Option.map_eq_some'.mp h
    split
    · simp only [Bool.and_eq_true, decide_eq_true_eq] at hc
      exact .single (.insertCandidate b hb hc.2)
    · exact .refl
  · cases h; exact .refl

theorem updates_resetBestInvalid (b : Nat) (s : ChainState) : Updates s (resetBestInvalid b s) := by
  unfold resetBestInvalid
  split
  · exact .single (.setBestInvalid none)
  · exact .refl

theorem updates_reconsiderEntry {b : Nat} (hb : b ∈ s.mapBlockIndex.keys)
    (h : reconsiderEntry b s = some s') : Updates s s' := by
  obtain ⟨s₁, h₁, rfl⟩ := Option.map_eq_some'.mp h
  have hb₁ : b ∈ (s.clearFailed b).mapBlockIndex.keys := hb
  exact ((Relation.ReflTransGen.single (.clearFailed b)).trans (updates_insertIfAboveTip hb₁ h₁)).trans
    (updates_resetBestInvalid b s₁)

theorem updates_reconsiderDescendants {nHeight : Nat} : ∀ (L : List Nat) (s s' : ChainState),
    (∀ b ∈ L, b ∈ s.mapBlockIndex.keys) → reconsiderDescendants pindex nHeight s L = some s' →
      Updates s s'
  | [], s, s', _, h => by cases h; exact .refl
  | b :: rest, s, s', hL, h => by
    rw [List.forall_mem_cons] at hL
    unfold reconsiderDescendants at h
    split at h
    · obtain ⟨s₁, h₁, h⟩ := Option.bind_eq_some.mp h
      have hu := updates_reconsiderEntry hL.1 h₁
      exact hu.trans (updates_reconsiderDescendants rest _ _ (fun c hc => hu.keys ▸ hL.2 c hc) h)
    · exact updates_reconsiderDescendants rest _ _ hL.2 h

theorem updates_clearAncestors : ∀ (fuel : Nat) (o : Option Nat) (s s' : ChainState),
    clearAncestors fuel o s = some s' → Updates s s'
  | _, none, s, s', h => by
    simp only [clearAncestors, Option.some.injEq] at h; subst h; exact .refl
  | 0, some _, _, _, h => by simp [clearAncestors] at h
  | fuel + 1, some b, s, s', h => by
    simp only [clearAncestors] at h
    refine Relation.ReflTransGen.trans ?_ (updates_clearAncestors fuel _ _ _ h)
    split
    · exact .single (.clearFailed b)
    · exact .refl

theorem updates_reconsiderBlock {r : Bool} (hp : pindex ∈ s.mapBlockIndex.keys)
    (h : s.ReconsiderBlock pindex = some (r, s')) : Updates s s' := by
  simp only [ReconsiderBlock, Option.bind_eq_some, Option.map_eq_some', Prod.mk.injEq] at h
  obtain ⟨s₁, h₁, s₂, h₂, _, h₃, -, rfl⟩ := h
  have hu₁ : Updates s s₁ := by
    split at h₁
    · exact updates_reconsiderEntry hp h₁
    · cases h₁; exact .refl
  exact (hu₁.trans (updates_reconsiderDescendants _ _ _ (fun _ hb => hb) h₂)).trans
    (updates_clearAncestors _ _ _ _ h₃)

theorem updates_pruneBlockIndexCandidates (h : s.PruneBlockIndexCandidates = some s') :
    Updates s s' := by
  obtain ⟨C, hC, h⟩ := Option.bind_eq_some.mp h
  split at h
  · cases h
  · cases h
    refine .single (.keepCandidates C fun c hc => ?_)
    split at hC
    · cases hC; exact absurd hc (List.not_mem_nil c)
    · obtain ⟨t, -, rfl⟩ := Option.map_eq_some'.mp hC
      exact mem_candidatesByWork.mp (List.dropWhile_sublist _ |>.subset hc)

end Calls

/-! ### The candidate invariant -/

/-- What keeps the candidate set meaningful: every candidate is an entry of the map with
`nChainTx ≠ 0`; every linked entry has its data, and every entry with data has transactions;
every block waiting in `mapBlocksUnlinked` is an entry with data. -/
structure CandInv (s : ChainState) : Prop where
  cand : ∀ c ∈ s.setBlockIndexCandidates,
    c ∈ s.mapBlockIndex.keys ∧ 0 < (s.mapBlockIndex.entry c).nChainTx
  linked : ∀ b ∈ s.mapBlockIndex.keys, 0 < (s.mapBlockIndex.entry b).nChainTx →
    (s.mapBlockIndex.entry b).nStatus.fHaveData = true
  nTx_pos : ∀ b ∈ s.mapBlockIndex.keys, (s.mapBlockIndex.entry b).nStatus.fHaveData = true →
    0 < (s.mapBlockIndex.entry b).nTx
  unlinked : ∀ p b, (p, b) ∈ s.mapBlocksUnlinked →
    b ∈ s.mapBlockIndex.keys ∧ (s.mapBlockIndex.entry b).nStatus.fHaveData = true

/-- A status update that leaves the data bit alone keeps `nTx`, `nChainTx` and the data bit. -/
theorem setStatus_fields {m : BlockMap} {b : Nat} {f : BlockStatus → BlockStatus}
    (hf : ∀ st, (f st).fHaveData = st.fHaveData) (c : Nat) :
    ((m.setStatus b f).entry c).nTx = (m.entry c).nTx ∧
      ((m.setStatus b f).entry c).nChainTx = (m.entry c).nChainTx ∧
      ((m.setStatus b f).entry c).nStatus.fHaveData = (m.entry c).nStatus.fHaveData := by
  rw [BlockMap.entry_setStatus]; split <;> simp [hf]

/-- The invariant reads the entries only through `nTx`, `nChainTx` and the data bit. -/
theorem CandInv.of_fields (h : CandInv s) (hkeys : s'.mapBlockIndex.keys = s.mapBlockIndex.keys)
    (hf : ∀ c, (s'.mapBlockIndex.entry c).nTx = (s.mapBlockIndex.entry c).nTx ∧
      (s'.mapBlockIndex.entry c).nChainTx = (s.mapBlockIndex.entry c).nChainTx ∧
      (s'.mapBlockIndex.entry c).nStatus.fHaveData = (s.mapBlockIndex.entry c).nStatus.fHaveData)
    (hU : s'.mapBlocksUnlinked = s.mapBlocksUnlinked)
    (hC : s'.setBlockIndexCandidates ⊆ s.setBlockIndexCandidates) : CandInv s' where
  cand c hc := by rw [hkeys, (hf c).2.1]; exact h.cand c (hC hc)
  linked b hb := by rw [hkeys] at hb; rw [(hf b).2.1, (hf b).2.2]; exact h.linked b hb
  nTx_pos b hb := by rw [hkeys] at hb; rw [(hf b).1, (hf b).2.2]; exact h.nTx_pos b hb
  unlinked p b hpb := by rw [hkeys, (hf b).2.2]; exact h.unlinked p b (hU ▸ hpb)

/-- **One update keeps the invariant.** -/
theorem CandInv.update (h : CandInv s) (hu : Update s s') : CandInv s' := by
  cases hu with
  | markFailed bit hbit b => exact h.of_fields rfl (setStatus_fields hbit) rfl (candErase_subset _ _)
  | clearFailed b => exact h.of_fields rfl (setStatus_fields fun _ => rfl) rfl (List.Subset.refl _)
  | disconnectTip => exact ⟨h.cand, h.linked, h.nTx_pos, h.unlinked⟩
  | insertCandidate b hb hlinked =>
    refine { h with cand := fun c hc => ?_ }
    rcases mem_candInsert.mp hc with rfl | hc
    · exact ⟨hb, hlinked⟩
    · exact h.cand c hc
  | setBestInvalid o => exact ⟨h.cand, h.linked, h.nTx_pos, h.unlinked⟩
  | keepCandidates C hC => exact { h with cand := fun c hc => h.cand c (hC hc) }

theorem CandInv.updates (h : CandInv s) (hu : Updates s s') : CandInv s' := by
  induction hu with
  | refl => exact h
  | tail _ hu ih => exact ih.update hu

/-! ### `ReceivedBlockTransactions` keeps the invariant -/

section Received

variable (block : CBlock) (pos : CDiskBlockPos) {x p : Nat}

theorem mem_unlinkedChildren {c : Nat} : c ∈ s.unlinkedChildren p ↔ (p, c) ∈ s.mapBlocksUnlinked := by
  simp [unlinkedChildren]

/-- Recording the data of an entry that had none, for a block with transactions. -/
theorem CandInv.recordData (h : CandInv s) (hx : x ∈ s.mapBlockIndex.keys)
    (hnd : (s.mapBlockIndex.entry x).nStatus.fHaveData = false) (hv : block.vtx ≠ []) :
    CandInv (s.recordData block x pos) where
  cand c hc := by
    obtain ⟨hk, hl⟩ := h.cand c hc
    have hne : c ≠ x := by rintro rfl; simp [h.linked c hk hl] at hnd
    rw [entry_recordData_of_ne _ _ _ hne]; exact ⟨hk, hl⟩
  linked b hb hl := by
    by_cases hbx : b = x
    · subst hbx; simp [entry_recordData] at hl
    · rw [entry_recordData_of_ne _ _ _ hbx] at hl ⊢; exact h.linked b hb hl
  nTx_pos b hb hd := by
    by_cases hbx : b = x
    · subst hbx; simpa [entry_recordData, List.length_pos] using hv
    · rw [entry_recordData_of_ne _ _ _ hbx] at hd ⊢; exact h.nTx_pos b hb hd
  unlinked p b hpb := by
    by_cases hbx : b = x
    · subst hbx; simpa [entry_recordData] using hx
    · rw [entry_recordData_of_ne _ _ _ hbx]; exact h.unlinked p b hpb

/-- One turn of the linking loop, on an entry with data. -/
theorem CandInv.linkBlock (h : CandInv s) (hp : p ∈ s.mapBlockIndex.keys)
    (hd : (s.mapBlockIndex.entry p).nStatus.fHaveData = true) : CandInv (s.linkBlock p) := by
  have hpos : ∀ c, c = p ∨ 0 < (s.mapBlockIndex.entry c).nChainTx →
      0 < ((s.linkBlock p).mapBlockIndex.entry c).nChainTx := by
    intro c hc
    have := h.nTx_pos p hp hd
    rw [nChainTx_linkBlock]; split
    · omega
    · exact hc.resolve_left ‹_›
  refine ⟨fun c hc => ?_, fun b hb hl => ?_, fun b hb hd' => ?_, fun q b hqb => ?_⟩
  · have hc' : c = p ∨ c ∈ s.setBlockIndexCandidates := by
      simp only [ChainState.linkBlock] at hc; split at hc
      · exact mem_candInsert.mp hc
      · exact .inr hc
    rcases hc' with rfl | hc'
    · exact ⟨hp, hpos c (.inl rfl)⟩
    · exact ⟨(h.cand c hc').1, hpos c (.inr (h.cand c hc').2)⟩
  · rw [nStatus_linkBlock]
    rw [nChainTx_linkBlock] at hl; split at hl
    · subst_vars; exact hd
    · exact h.linked b hb hl
  · rw [nTx_linkBlock]; rw [nStatus_linkBlock] at hd'; exact h.nTx_pos b hb hd'
  · rw [nStatus_linkBlock]
    exact h.unlinked q b (List.mem_of_mem_filter hqb)

/-- The linking loop, from a queue of entries with data. -/
theorem CandInv.linkQueue (s : ChainState) (Q : List Nat) (h : CandInv s)
    (hQ : ∀ q ∈ Q, q ∈ s.mapBlockIndex.keys ∧ (s.mapBlockIndex.entry q).nStatus.fHaveData = true) :
    CandInv (s.linkQueue Q) := by
  induction s, Q using ChainState.linkQueue.induct with
  | case1 s => rw [ChainState.linkQueue]; exact h
  | case2 s p rest ih =>
    rw [ChainState.linkQueue]
    rw [List.forall_mem_cons] at hQ
    refine ih (h.linkBlock hQ.1.1 hQ.1.2) fun q hq => ?_
    rw [keys_linkBlock, nStatus_linkBlock]
    rcases List.mem_append.mp hq with hq | hq
    · exact hQ.2 q hq
    · exact h.unlinked p q (mem_unlinkedChildren.mp hq)

theorem CandInv.receivedBlockTransactions (h : CandInv s) (hx : x ∈ s.mapBlockIndex.keys)
    (hnd : (s.mapBlockIndex.entry x).nStatus.fHaveData = false) (hv : block.vtx ≠ []) :
    CandInv (s.ReceivedBlockTransactions block x pos) := by
  have h₁ := h.recordData block pos hx hnd hv
  have hdata : ((s.recordData block x pos).mapBlockIndex.entry x).nStatus.fHaveData = true := by
    simp [entry_recordData]
  unfold ReceivedBlockTransactions
  dsimp only
  split
  · exact h₁.linkQueue _ _ (by simpa using ⟨hx, hdata⟩)
  · split
    · split
      · refine { h₁ with unlinked := fun q b hqb => ?_ }
        rcases List.mem_append.mp hqb with hqb | hqb
        · exact h₁.unlinked q b hqb
        · simp only [List.mem_singleton, Prod.mk.injEq] at hqb
          obtain ⟨-, rfl⟩ := hqb
          exact ⟨hx, hdata⟩
      · exact h₁
    · exact h₁

end Received

/-! ### The dirty set -/

/-- From `s` to `s'`: the map keeps its handles, the dirty set only grows, and an entry outside
the new dirty set keeps every field but its link fields. -/
structure DirtyFrame (s s' : ChainState) : Prop where
  keys : s'.mapBlockIndex.keys = s.mapBlockIndex.keys
  dirty : ∀ b ∈ s.setDirtyBlockIndex, b ∈ s'.setDirtyBlockIndex
  clean : ∀ b, b ∉ s'.setDirtyBlockIndex →
    (s'.mapBlockIndex.entry b).withoutLinks = (s.mapBlockIndex.entry b).withoutLinks

namespace DirtyFrame

theorem refl (s : ChainState) : DirtyFrame s s := ⟨rfl, fun _ h => h, fun _ _ => rfl⟩

theorem trans {s₁ s₂ s₃ : ChainState} (h₁ : DirtyFrame s₁ s₂) (h₂ : DirtyFrame s₂ s₃) :
    DirtyFrame s₁ s₃ where
  keys := h₂.keys.trans h₁.keys
  dirty b hb := h₂.dirty b (h₁.dirty b hb)
  clean b hb := (h₂.clean b hb).trans (h₁.clean b fun h => hb (h₂.dirty b h))

/-- A change to nothing the frame reads. -/
theorem of_eq {s s' : ChainState} (hm : s'.mapBlockIndex = s.mapBlockIndex)
    (hd : s'.setDirtyBlockIndex = s.setDirtyBlockIndex) : DirtyFrame s s' :=
  ⟨by rw [hm], fun _ h => hd ▸ h, fun _ _ => by rw [hm]⟩

/-- A change to one entry that is put in the dirty set. -/
theorem of_dirty {s s' : ChainState} {x : Nat} (hkeys : s'.mapBlockIndex.keys = s.mapBlockIndex.keys)
    (hd : s'.setDirtyBlockIndex = s.setDirtyBlockIndex.insert x)
    (he : ∀ b, b ≠ x → s'.mapBlockIndex.entry b = s.mapBlockIndex.entry b) : DirtyFrame s s' where
  keys := hkeys
  dirty b hb := hd ▸ List.mem_insert_of_mem hb
  clean b hb := by rw [he b fun e => hb (hd ▸ e ▸ List.mem_insert_self x _)]

end DirtyFrame

theorem dirtyFrame_update (hu : Update s s') : DirtyFrame s s' := by
  cases hu with
  | markFailed bit _ b =>
    exact .of_dirty rfl rfl fun c hc => by simp [markFailed, BlockMap.entry_setStatus, hc]
  | clearFailed b =>
    exact .of_dirty rfl rfl fun c hc => by simp [clearFailed, BlockMap.entry_setStatus, hc]
  | disconnectTip | insertCandidate | setBestInvalid | keepCandidates => exact .of_eq rfl rfl

theorem dirtyFrame_updates (hu : Updates s s') : DirtyFrame s s' := by
  induction hu with
  | refl => exact DirtyFrame.refl s
  | tail _ hu ih => exact ih.trans (dirtyFrame_update hu)

/-- A turn of the linking loop sets only link fields. -/
theorem dirtyFrame_linkBlock (s : ChainState) (p : Nat) : DirtyFrame s (s.linkBlock p) where
  keys := rfl
  dirty _ h := h
  clean b _ := by rw [entry_linkBlock]; split <;> simp [CBlockIndex.withoutLinks, *]

theorem dirtyFrame_linkQueue (s : ChainState) (Q : List Nat) : DirtyFrame s (s.linkQueue Q) := by
  induction s, Q using linkQueue.induct with
  | case1 s => rw [linkQueue]; exact DirtyFrame.refl s
  | case2 s p rest ih => rw [linkQueue]; exact (dirtyFrame_linkBlock s p).trans ih

theorem dirtyFrame_receivedBlockTransactions (block : CBlock) (x : Nat) (pos : CDiskBlockPos) :
    DirtyFrame s (s.ReceivedBlockTransactions block x pos) := by
  have h₁ : DirtyFrame s (s.recordData block x pos) :=
    .of_dirty rfl rfl fun b hb => entry_recordData_of_ne block pos s hb
  unfold ReceivedBlockTransactions
  dsimp only
  split
  · exact h₁.trans (dirtyFrame_linkQueue _ _)
  · split
    · split
      · exact h₁.trans (.of_eq rfl rfl)
      · exact h₁
    · exact h₁

/-! ### The orphan links -/

/-- What keeps `mapBlocksUnlinked` meaningful: every pair `(p, b)` is a block waiting for its
own parent `p`, and `p` is not linked, so the loop that links `p` will take `b`; and no pair is
there twice, so no block is linked twice. -/
structure UnlinkedInv (s : ChainState) : Prop where
  parent : ∀ p b, (p, b) ∈ s.mapBlocksUnlinked →
    (s.mapBlockIndex.entry b).pprev = some p ∧ (s.mapBlockIndex.entry p).nChainTx = 0
  nodup : s.mapBlocksUnlinked.Nodup

/-- A status update keeps `pprev` and `nChainTx`. -/
theorem setStatus_links {m : BlockMap} {b : Nat} {f : BlockStatus → BlockStatus} (c : Nat) :
    ((m.setStatus b f).entry c).pprev = (m.entry c).pprev ∧
      ((m.setStatus b f).entry c).nChainTx = (m.entry c).nChainTx := by
  rw [BlockMap.entry_setStatus]; split <;> simp

/-- The invariant reads the entries only through `pprev` and `nChainTx`. -/
theorem UnlinkedInv.of_fields (h : UnlinkedInv s)
    (hf : ∀ c, (s'.mapBlockIndex.entry c).pprev = (s.mapBlockIndex.entry c).pprev ∧
      (s'.mapBlockIndex.entry c).nChainTx = (s.mapBlockIndex.entry c).nChainTx)
    (hU : s'.mapBlocksUnlinked = s.mapBlocksUnlinked) : UnlinkedInv s' where
  parent p b hpb := by rw [(hf b).1, (hf p).2]; exact h.parent p b (hU ▸ hpb)
  nodup := hU ▸ h.nodup

theorem UnlinkedInv.update (h : UnlinkedInv s) (hu : Update s s') : UnlinkedInv s' := by
  cases hu with
  | markFailed | clearFailed => exact h.of_fields setStatus_links rfl
  | disconnectTip | insertCandidate | setBestInvalid | keepCandidates => exact ⟨h.parent, h.nodup⟩

theorem UnlinkedInv.updates (h : UnlinkedInv s) (hu : Updates s s') : UnlinkedInv s' := by
  induction hu with
  | refl => exact h
  | tail _ hu ih => exact ih.update hu

section Received

variable (block : CBlock) (pos : CDiskBlockPos) {x : Nat}

/-- Recording the data only clears `nChainTx` of the entry, which keeps its pairs. -/
theorem UnlinkedInv.recordData (h : UnlinkedInv s) : UnlinkedInv (s.recordData block x pos) where
  parent p b hpb := by
    obtain ⟨hb, hp⟩ := h.parent p b hpb
    refine ⟨by rw [pprev_recordData]; exact hb, ?_⟩
    rw [entry_recordData]; split
    · rfl
    · exact hp
  nodup := h.nodup

/-- Linking `p` sets only `p`'s `nChainTx`, and erases every pair keyed by `p`. -/
theorem UnlinkedInv.linkBlock (h : UnlinkedInv s) (p : Nat) : UnlinkedInv (s.linkBlock p) where
  parent q b hqb := by
    simp only [mapBlocksUnlinked_linkBlock, List.mem_filter, bne_iff_ne, ne_eq] at hqb
    rw [pprev_linkBlock, nChainTx_linkBlock, if_neg hqb.2]
    exact h.parent q b hqb.1
  nodup := h.nodup.filter _

theorem UnlinkedInv.linkQueue (s : ChainState) (Q : List Nat) (h : UnlinkedInv s) :
    UnlinkedInv (s.linkQueue Q) := by
  induction s, Q using ChainState.linkQueue.induct with
  | case1 s => rw [ChainState.linkQueue]; exact h
  | case2 s p rest ih => rw [ChainState.linkQueue]; exact ih (h.linkBlock p)

/-- A block whose parent is not linked waits for it; it had no data, so it was not waiting
already. -/
theorem UnlinkedInv.receivedBlockTransactions (h : UnlinkedInv s) (hc : CandInv s)
    (hnd : (s.mapBlockIndex.entry x).nStatus.fHaveData = false) :
    UnlinkedInv (s.ReceivedBlockTransactions block x pos) := by
  have h₁ := h.recordData block pos (x := x)
  unfold ReceivedBlockTransactions
  dsimp only
  split
  · exact h₁.linkQueue _ _
  · rename_i hunlinked
    split
    · rename_i p hp
      split
      · have hnew : (p, x) ∉ s.mapBlocksUnlinked := fun hpx => by
          simp [(hc.unlinked p x hpx).2] at hnd
        refine ⟨fun q b hqb => ?_, List.nodup_append.mpr
          ⟨h.nodup, List.nodup_singleton _, List.disjoint_singleton.mpr hnew⟩⟩
        rcases List.mem_append.mp hqb with hqb | hqb
        · exact h₁.parent q b hqb
        · simp only [List.mem_singleton, Prod.mk.injEq] at hqb
          obtain ⟨rfl, rfl⟩ := hqb
          simp only [parentLinked, hp, decide_eq_true_eq, Nat.not_lt, Nat.le_zero] at hunlinked
          exact ⟨hp, hunlinked⟩
      · exact h₁
    · exact h₁

end Received

/-! ### Runs -/

end ChainState

/-- A call of one of the four operations, with its arguments; `disconnectOk` says which
`DisconnectTip` calls of an `InvalidateBlock` succeed. -/
inductive ChainOp
  | receivedBlockTransactions (block : CBlock) (pindexNew : Nat) (pos : CDiskBlockPos)
  | invalidateBlock (disconnectOk : Nat → Bool) (pindex : Nat)
  | reconsiderBlock (pindex : Nat)
  | pruneBlockIndexCandidates

namespace ChainOp

/-- The globals after the call; `none` when it aborts. -/
def apply (s : ChainState) : ChainOp → Option ChainState
  | receivedBlockTransactions block pindexNew pos =>
    some (s.ReceivedBlockTransactions block pindexNew pos)
  | invalidateBlock disconnectOk pindex => (s.InvalidateBlock disconnectOk pindex).map Prod.snd
  | reconsiderBlock pindex => (s.ReconsiderBlock pindex).map Prod.snd
  | pruneBlockIndexCandidates => s.PruneBlockIndexCandidates

/-- What the callers guarantee: `ReceivedBlockTransactions` is called on an entry of the map
whose data has not been stored, for a block with transactions (`CheckBlock` rejects a block
without); `ReconsiderBlock` on an entry of the map. -/
def Allowed (s : ChainState) : ChainOp → Prop
  | receivedBlockTransactions block pindexNew _ => pindexNew ∈ s.mapBlockIndex.keys ∧
    (s.mapBlockIndex.entry pindexNew).nStatus.fHaveData = false ∧ block.vtx ≠ []
  | reconsiderBlock pindex => pindex ∈ s.mapBlockIndex.keys
  | _ => True

end ChainOp

/-- A run: each call allowed in the globals it starts from, and each returning. -/
inductive ChainRun : ChainState → List ChainOp → ChainState → Prop
  | nil (s : ChainState) : ChainRun s [] s
  | cons {s s₁ s' : ChainState} {op : ChainOp} {ops : List ChainOp} (hop : op.Allowed s)
      (happ : op.apply s = some s₁) (hrest : ChainRun s₁ ops s') : ChainRun s (op :: ops) s'

namespace ChainState

variable {s s' : ChainState} {op : ChainOp} {ops : List ChainOp}

/-- What one call is: a `ReceivedBlockTransactions`, or a sequence of updates. -/
theorem apply_cases (hop : op.Allowed s) (happ : op.apply s = some s') :
    (∃ block x pos, op = .receivedBlockTransactions block x pos ∧
      s' = s.ReceivedBlockTransactions block x pos) ∨ Updates s s' := by
  cases op with
  | receivedBlockTransactions block x pos => cases happ; exact .inl ⟨block, x, pos, rfl, rfl⟩
  | invalidateBlock disconnectOk pindex =>
    obtain ⟨⟨r, _⟩, hr, rfl⟩ := Option.map_eq_some'.mp happ
    exact .inr (updates_invalidateBlock hr)
  | reconsiderBlock pindex =>
    obtain ⟨⟨r, _⟩, hr, rfl⟩ := Option.map_eq_some'.mp happ
    exact .inr (updates_reconsiderBlock hop hr)
  | pruneBlockIndexCandidates => exact .inr (updates_pruneBlockIndexCandidates happ)

/-- **One call keeps the invariant.** -/
theorem CandInv.apply (h : CandInv s) (hop : op.Allowed s) (happ : op.apply s = some s') :
    CandInv s' := by
  obtain ⟨block, x, pos, rfl, rfl⟩ | hu := apply_cases hop happ
  · exact h.receivedBlockTransactions block pos hop.1 hop.2.1 hop.2.2
  · exact h.updates hu

theorem dirtyFrame_apply (hop : op.Allowed s) (happ : op.apply s = some s') : DirtyFrame s s' := by
  obtain ⟨block, x, pos, rfl, rfl⟩ | hu := apply_cases hop happ
  · exact dirtyFrame_receivedBlockTransactions block x pos
  · exact dirtyFrame_updates hu

theorem UnlinkedInv.apply (h : UnlinkedInv s) (hc : CandInv s) (hop : op.Allowed s)
    (happ : op.apply s = some s') : UnlinkedInv s' := by
  obtain ⟨block, x, pos, rfl, rfl⟩ | hu := apply_cases hop happ
  · exact h.receivedBlockTransactions block pos hc hop.2.1
  · exact h.updates hu

/-- Headers only: no candidate, nothing waiting, and no entry of the map linked or with data. -/
theorem candInv_of_headers (hC : s.setBlockIndexCandidates = []) (hU : s.mapBlocksUnlinked = [])
    (hdata : ∀ b ∈ s.mapBlockIndex.keys, (s.mapBlockIndex.entry b).nStatus.fHaveData = false)
    (h0 : ∀ b ∈ s.mapBlockIndex.keys, (s.mapBlockIndex.entry b).nChainTx = 0) : CandInv s where
  cand c hc := by simp [hC] at hc
  linked b hb hl := by simp [h0 b hb] at hl
  nTx_pos b hb hd := by simp [hdata b hb] at hd
  unlinked p b hpb := by simp [hU] at hpb

/-- **Every run keeps the invariant.**  From globals meeting `CandInv`, any sequence of calls
of the four operations, in any order, each allowed and returning, ends in globals meeting
`CandInv`: every candidate is an entry of the map with `nChainTx ≠ 0`, whose data is stored
and which has transactions. -/
theorem chainRun_candInv (h₀ : CandInv s) (hr : ChainRun s ops s') : CandInv s' := by
  induction hr with
  | nil => exact h₀
  | cons hop happ _ ih => exact ih (h₀.apply hop happ)

/-- A genesis header `0` and its child `1`, nothing stored, no active chain. -/
def twoHeaders : ChainState :=
  ⟨⟨[0, 1], fun b => ⟨if b = 1 then some 0 else none, b, ⟨2, false, false, false⟩, 0, 0, 0, 0, 0,
    0, 0, 1, 0⟩⟩, ⟨[]⟩, [], [], [], 1, none⟩

/-- A block with one transaction, told apart by the transaction's hash. -/
def oneTxBlock (hash : Nat) : CBlock :=
  ⟨1, 10, [⟨hash, 1, 0, [], [], 0, 0, false⟩], false, 0, 0, false, 100, true, true, false⟩

/-- The child's data arrives first and waits in `mapBlocksUnlinked`; the genesis data then links
both. -/
theorem twoHeaders_run : ChainRun twoHeaders
    [.receivedBlockTransactions (oneTxBlock 1) 1 ⟨0, 0⟩,
      .receivedBlockTransactions (oneTxBlock 2) 0 ⟨0, 1⟩]
    ((twoHeaders.ReceivedBlockTransactions (oneTxBlock 1) 1 ⟨0, 0⟩).ReceivedBlockTransactions
      (oneTxBlock 2) 0 ⟨0, 1⟩) :=
  .cons ⟨by decide, rfl, List.cons_ne_nil _ _⟩ rfl
    (.cons ⟨by decide, rfl, List.cons_ne_nil _ _⟩ rfl (.nil _))

theorem chainRun_candInv_twoHeaders :
    CandInv ((twoHeaders.ReceivedBlockTransactions (oneTxBlock 1) 1 ⟨0, 0⟩).ReceivedBlockTransactions
      (oneTxBlock 2) 0 ⟨0, 1⟩) :=
  chainRun_candInv (candInv_of_headers rfl rfl (by decide) (by decide)) twoHeaders_run

/-- **No change escapes the dirty set.**  Over any run, the map keeps its handles, the dirty set
only grows, and an entry outside the final dirty set has every field but `nChainTx` and
`nSequenceId` as it was at the start. -/
theorem chainRun_dirtyFrame (hr : ChainRun s ops s') : DirtyFrame s s' := by
  induction hr with
  | nil s => exact DirtyFrame.refl s
  | cons hop happ _ ih => exact (dirtyFrame_apply hop happ).trans ih

theorem chainRun_dirtyFrame_twoHeaders :
    DirtyFrame twoHeaders
      ((twoHeaders.ReceivedBlockTransactions (oneTxBlock 1) 1 ⟨0, 0⟩).ReceivedBlockTransactions
        (oneTxBlock 2) 0 ⟨0, 1⟩) :=
  chainRun_dirtyFrame twoHeaders_run

/-- **Every waiting block waits for its own, unlinked parent.**  From globals meeting
`CandInv` and `UnlinkedInv`, over any run, every pair `(p, b)` of `mapBlocksUnlinked` has
`b`'s parent `p`, with `nChainTx` 0, and no pair is there twice: whatever was invalidated or
reconsidered in between, the loop that links `p` finds each of its waiting blocks once. -/
theorem chainRun_unlinkedInv (h₀ : UnlinkedInv s) (hc₀ : CandInv s) (hr : ChainRun s ops s') :
    UnlinkedInv s' := by
  induction hr with
  | nil => exact h₀
  | cons hop happ _ ih => exact ih (h₀.apply hc₀ hop happ) (hc₀.apply hop happ)

/-- The child's data arrives first: it waits for the genesis block. -/
theorem chainRun_unlinkedInv_childFirst :
    UnlinkedInv (twoHeaders.ReceivedBlockTransactions (oneTxBlock 1) 1 ⟨0, 0⟩) :=
  chainRun_unlinkedInv (s := twoHeaders) ⟨fun _ _ h => absurd h (List.not_mem_nil _), List.nodup_nil⟩
    (candInv_of_headers rfl rfl (by decide) (by decide))
    (show ChainRun _ [.receivedBlockTransactions (oneTxBlock 1) 1 ⟨0, 0⟩] _ from
      .cons ⟨by decide, rfl, List.cons_ne_nil _ _⟩ rfl (.nil _))

/-! ### After `InvalidateBlock` -/

/-- What the re-insertion walk tests before inserting `b`. -/
def ReinsertCond (s : ChainState) (b : Nat) : Prop :=
  (s.mapBlockIndex.entry b).nStatus.IsValid BLOCK_VALID_TRANSACTIONS = true ∧
    0 < (s.mapBlockIndex.entry b).nChainTx ∧
    ∀ t, s.chainActive.Tip = some t → CBlockIndexWorkComparator s.mapBlockIndex b t = false

theorem subset_reinsertCandidates : ∀ (L : List Nat) (s s' : ChainState),
    reinsertCandidates s L = some s' → s.setBlockIndexCandidates ⊆ s'.setBlockIndexCandidates
  | [], s, s', h => by cases h; exact List.Subset.refl _
  | b :: rest, s, s', h => by
    unfold reinsertCandidates at h
    split at h
    · split at h
      · cases h
      · split at h
        · exact List.Subset.trans (subset_candInsert _ _) (subset_reinsertCandidates rest _ _ h)
        · exact subset_reinsertCandidates rest _ _ h
    · exact subset_reinsertCandidates rest _ _ h

/-- The walk inserts every entry of the list that passes its test. -/
theorem mem_reinsertCandidates : ∀ (L : List Nat) (s s' : ChainState),
    reinsertCandidates s L = some s' → ∀ b ∈ L, ReinsertCond s b → b ∈ s'.setBlockIndexCandidates
  | [], _, _, _, b, hb, _ => absurd hb (List.not_mem_nil b)
  | c :: rest, s, s', h, b, hb, hc => by
    unfold reinsertCandidates at h
    rcases List.mem_cons.mp hb with rfl | hb
    · obtain ⟨hv, hl, htip⟩ := hc
      rw [if_pos (by simp [hv, hl])] at h
      cases ht : s.chainActive.Tip with
      | none => simp [ht] at h
      | some t =>
        simp only [ht, htip t ht, Bool.not_false, if_true] at h
        exact subset_reinsertCandidates rest _ _ h (mem_candInsert_self _ _)
    · split at h
      · split at h
        · cases h
        · split at h
          · exact mem_reinsertCandidates rest _ _ h b hb hc
          · exact mem_reinsertCandidates rest _ _ h b hb hc
      · exact mem_reinsertCandidates rest _ _ h b hb hc

/-- **The new tip is a candidate again.**  When `InvalidateBlock` returns true and the new tip
is an entry of the map valid up to `BLOCK_VALID_TRANSACTIONS` with `nChainTx ≠ 0`, the walk over
the map has put it back into the candidates; a following `PruneBlockIndexCandidates` then
keeps it, and its assertion holds. -/
theorem invalidateBlock_then_prune {disconnectOk : Nat → Bool} {pindex t : Nat}
    (h : s.InvalidateBlock disconnectOk pindex = some (true, s'))
    (ht : s'.chainActive.Tip = some t) (hk : t ∈ s'.mapBlockIndex.keys)
    (hv : (s'.mapBlockIndex.entry t).nStatus.IsValid BLOCK_VALID_TRANSACTIONS = true)
    (hl : 0 < (s'.mapBlockIndex.entry t).nChainTx) :
    t ∈ s'.setBlockIndexCandidates ∧
      ∃ s'', s'.PruneBlockIndexCandidates = some s'' ∧ t ∈ s''.setBlockIndexCandidates := by
  have hc : t ∈ s'.setBlockIndexCandidates := by
    unfold InvalidateBlock at h
    dsimp only at h
    split at h
    · cases h
    · simp at h
    · obtain ⟨s₂, h₂, h⟩ := Option.bind_eq_some.mp h
      cases h
      obtain ⟨hm, hch, -⟩ := reinsertCandidates_spec _ _ _ h₂
      simp only [InvalidChainFound] at hk hv hl ht ⊢
      rw [hm] at hk hv hl
      rw [hch] at ht
      exact mem_reinsertCandidates _ _ _ h₂ t hk ⟨hv, hl, fun t' ht' => by
        rw [ht] at ht'; cases ht'; exact comparator_irrefl _ t⟩
  exact ⟨hc, pruneBlockIndexCandidates_keeps_tip ht hc⟩

/-- Invalidating the tip `1` of `linkedPair` disconnects it; the genesis block is the new tip and
stays a candidate. -/
theorem invalidateBlock_then_prune_linkedPair :
    0 ∈ ((linkedPair.InvalidateBlock (fun _ => true) 1).getD (false, linkedPair)).2.setBlockIndexCandidates ∧
      ∃ s'', ((linkedPair.InvalidateBlock (fun _ => true) 1).getD
        (false, linkedPair)).2.PruneBlockIndexCandidates = some s'' ∧ 0 ∈ s''.setBlockIndexCandidates :=
  invalidateBlock_then_prune (show linkedPair.InvalidateBlock (fun _ => true) 1 = some (true, _) from rfl)
    rfl (by decide) (by decide) (by decide)

end ChainState

end Ecc
