import EccoinValidation.Chain.State
import EccoinValidation.Primitives.Transaction

/-!
# Chain — linking received blocks

`ReceivedBlockTransactions` records that a block's data has arrived.  A block is *linked*
when its `nChainTx` is not zero: it and all its ancestors have data, and `nChainTx` counts
their transactions.  When the new block's parent is linked (or it has none), a breadth-first
loop links it and then every descendant that was waiting for it in `mapBlocksUnlinked`, giving
each the next sequence id and making it a candidate tip unless it sorts below the active tip.
Otherwise the block waits in `mapBlocksUnlinked` under its parent.

The loop is well founded on `2 * |mapBlocksUnlinked| + |queue|`: each turn takes one block
off the queue and moves `k` pairs from the map to the queue.

`LinkInv s Q` is the invariant of the loop with queue `Q`; between calls the queue is empty.
The nodes of the tree are the keys of `mapBlockIndex`; every one is unfailed and at least
`BLOCK_VALID_TREE`.

* `LinkInv.linkBlock`: one turn of the loop keeps the invariant.
* `linkQueue_spec`: the loop ends with an empty queue, links exactly the blocks it touches,
  gives them fresh sequence ids, and makes each a candidate unless it sorts below the tip.
* `chainTx_eq_sum`: under the invariant, `nChainTx` is the sum of `nTx` over the block and its
  ancestors when all of them have data, and `0` otherwise.
* `receivedBlockTransactions_run`: over any run of calls, one per block, each call meets
  `ReceivedSpec`: it records the block's data, links the block with a fresh sequence id when its
  parent is linked and leaves it waiting under its parent otherwise; `nChainTx` stays the sum
  over the ancestry, each waiting pair is held once, sequence ids are fresh and distinct, and a
  newly linked block that does not sort below the tip is a candidate.
-/

namespace Ecc

/-- `pindex->pprev ? pindex->pprev->nChainTx : 0`. -/
def parentChainTx (m : BlockMap) (b : Nat) : Nat :=
  match (m.entry b).pprev with
  | some p => (m.entry p).nChainTx
  | none => 0

/-- `pindex->pprev == NULL || pindex->pprev->nChainTx`. -/
def parentLinked (m : BlockMap) (b : Nat) : Bool :=
  match (m.entry b).pprev with
  | some p => 0 < (m.entry p).nChainTx
  | none => true

namespace ChainState

/-- `mapBlocksUnlinked.equal_range(p)`: the blocks waiting for `p`, in insertion order. -/
def unlinkedChildren (s : ChainState) (p : Nat) : List Nat :=
  (s.mapBlocksUnlinked.filter (·.1 == p)).map Prod.snd

/-- One turn of the loop on `pindex`: set `nChainTx` from the parent's, take the next sequence
id, insert into the candidates unless it sorts below the tip, and erase the pairs keyed by it
from `mapBlocksUnlinked` (their blocks join the queue). -/
def linkBlock (s : ChainState) (p : Nat) : ChainState :=
  let m := s.mapBlockIndex
  let e := { m.entry p with nChainTx := parentChainTx m p + (m.entry p).nTx,
                            nSequenceId := s.nBlockSequenceId }
  let m' := m.set p e
  { s with
    mapBlockIndex := m'
    nBlockSequenceId := s.nBlockSequenceId + 1
    setBlockIndexCandidates :=
      if s.chainActive.Tip.all fun t => !CBlockIndexWorkComparator m' p t then
        candInsert s.setBlockIndexCandidates p
      else s.setBlockIndexCandidates
    mapBlocksUnlinked := s.mapBlocksUnlinked.filter (·.1 != p) }

/-- Each turn moves the pairs keyed by `p` from `mapBlocksUnlinked` to the queue and takes
`p` off it, so twice the pairs plus the queue goes down. -/
theorem linkQueue_measure_lt (s : ChainState) (p : Nat) (rest : List Nat) :
    2 * (s.linkBlock p).mapBlocksUnlinked.length + (rest ++ s.unlinkedChildren p).length <
      2 * s.mapBlocksUnlinked.length + (p :: rest).length := by
  have := List.length_eq_length_filter_add (l := s.mapBlocksUnlinked) (fun x => x.1 == p)
  simp only [linkBlock, unlinkedChildren, List.length_append, List.length_map, List.length_cons,
    bne]
  omega

/-- The `while (!queue.empty())` loop of `ReceivedBlockTransactions`. -/
def linkQueue (s : ChainState) : List Nat → ChainState
  | [] => s
  | p :: rest => linkQueue (s.linkBlock p) (rest ++ s.unlinkedChildren p)
termination_by Q => 2 * s.mapBlocksUnlinked.length + Q.length
decreasing_by exact linkQueue_measure_lt _ _ _

/-- The first lines of `ReceivedBlockTransactions`: record the block's data on `pindexNew`
(`nTx`, position, `BLOCK_HAVE_DATA`, `RaiseValidity(BLOCK_VALID_TRANSACTIONS)`, `nChainTx = 0`)
and mark the entry dirty. -/
def recordData (block : CBlock) (pindexNew : Nat) (pos : CDiskBlockPos) (s : ChainState) :
    ChainState :=
  let e := s.mapBlockIndex.entry pindexNew
  let e := { e with
    nTx := block.vtx.length, nChainTx := 0, nFile := pos.nFile, nDataPos := pos.nPos,
    nUndoPos := 0,
    nStatus := ({ e.nStatus with fHaveData := true } : BlockStatus).RaiseValidity
      BLOCK_VALID_TRANSACTIONS }
  { s with mapBlockIndex := s.mapBlockIndex.set pindexNew e,
           setDirtyBlockIndex := s.setDirtyBlockIndex.insert pindexNew }

/-- `ReceivedBlockTransactions(block, state, pindexNew, pos)`.  It returns true and records
nothing in `state` on every path, so the model returns the new chain state. -/
def ReceivedBlockTransactions (block : CBlock) (pindexNew : Nat) (pos : CDiskBlockPos)
    (s : ChainState) : ChainState :=
  let s := s.recordData block pindexNew pos
  if parentLinked s.mapBlockIndex pindexNew then s.linkQueue [pindexNew]
  else match (s.mapBlockIndex.entry pindexNew).pprev with
    | some p =>
      if (s.mapBlockIndex.entry p).nStatus.IsValid BLOCK_VALID_TREE then
        { s with mapBlocksUnlinked := s.mapBlocksUnlinked ++ [(p, pindexNew)] }
      else s
    | none => s

/-! ### One turn of the loop -/

section LinkBlock

variable (s : ChainState) (p b : Nat)

@[simp] theorem keys_linkBlock : (s.linkBlock p).mapBlockIndex.keys = s.mapBlockIndex.keys := rfl

@[simp] theorem chainActive_linkBlock : (s.linkBlock p).chainActive = s.chainActive := rfl

@[simp] theorem nBlockSequenceId_linkBlock :
    (s.linkBlock p).nBlockSequenceId = s.nBlockSequenceId + 1 := rfl

@[simp] theorem mapBlocksUnlinked_linkBlock :
    (s.linkBlock p).mapBlocksUnlinked = s.mapBlocksUnlinked.filter (·.1 != p) := rfl

theorem entry_linkBlock : (s.linkBlock p).mapBlockIndex.entry b =
    if b = p then { s.mapBlockIndex.entry p with
      nChainTx := parentChainTx s.mapBlockIndex p + (s.mapBlockIndex.entry p).nTx,
      nSequenceId := s.nBlockSequenceId }
    else s.mapBlockIndex.entry b := by
  simp only [linkBlock, BlockMap.entry_set]

@[simp] theorem pprev_linkBlock :
    ((s.linkBlock p).mapBlockIndex.entry b).pprev = (s.mapBlockIndex.entry b).pprev := by
  rw [entry_linkBlock]; split <;> simp_all

@[simp] theorem nStatus_linkBlock :
    ((s.linkBlock p).mapBlockIndex.entry b).nStatus = (s.mapBlockIndex.entry b).nStatus := by
  rw [entry_linkBlock]; split <;> simp_all

@[simp] theorem nTx_linkBlock :
    ((s.linkBlock p).mapBlockIndex.entry b).nTx = (s.mapBlockIndex.entry b).nTx := by
  rw [entry_linkBlock]; split <;> simp_all

theorem nChainTx_linkBlock : ((s.linkBlock p).mapBlockIndex.entry b).nChainTx =
    if b = p then parentChainTx s.mapBlockIndex p + (s.mapBlockIndex.entry p).nTx
    else (s.mapBlockIndex.entry b).nChainTx := by
  rw [entry_linkBlock]; split <;> rfl

theorem nSequenceId_linkBlock : ((s.linkBlock p).mapBlockIndex.entry b).nSequenceId =
    if b = p then s.nBlockSequenceId else (s.mapBlockIndex.entry b).nSequenceId := by
  rw [entry_linkBlock]; split <;> rfl

theorem entry_linkBlock_of_ne {b p : Nat} (h : b ≠ p) :
    (s.linkBlock p).mapBlockIndex.entry b = s.mapBlockIndex.entry b := by
  simp [entry_linkBlock, h]

end LinkBlock

/-! ### The invariant -/

/-- `nChainTx` as the loop computes it: the parent's plus the block's own `nTx` when the block
has data and its parent is linked, `0` otherwise. -/
def localChainTx (m : BlockMap) (b : Nat) : Nat :=
  if (m.entry b).nStatus.fHaveData && parentLinked m b then parentChainTx m b + (m.entry b).nTx
  else 0

/-- The invariant of the linking loop with queue `Q`. -/
structure LinkInv (s : ChainState) (Q : List Nat) : Prop where
  valid : ∀ b ∈ s.mapBlockIndex.keys,
    (s.mapBlockIndex.entry b).nStatus.IsValid BLOCK_VALID_TREE = true
  nTx_pos : ∀ b ∈ s.mapBlockIndex.keys,
    (s.mapBlockIndex.entry b).nStatus.fHaveData = true → 0 < (s.mapBlockIndex.entry b).nTx
  chainTx : ∀ b ∈ s.mapBlockIndex.keys, b ∉ Q →
    (s.mapBlockIndex.entry b).nChainTx = localChainTx s.mapBlockIndex b
  queued : ∀ b ∈ Q, b ∈ s.mapBlockIndex.keys ∧ (s.mapBlockIndex.entry b).nChainTx = 0 ∧
    (s.mapBlockIndex.entry b).nStatus.fHaveData = true ∧ parentLinked s.mapBlockIndex b = true
  queue_nodup : Q.Nodup
  unlinked : ∀ p b, (p, b) ∈ s.mapBlocksUnlinked ↔ b ∈ s.mapBlockIndex.keys ∧
    (s.mapBlockIndex.entry b).nStatus.fHaveData = true ∧ (s.mapBlockIndex.entry b).pprev = some p ∧
    (s.mapBlockIndex.entry p).nChainTx = 0
  unlinked_nodup : s.mapBlocksUnlinked.Nodup
  seq_lt : ∀ b ∈ s.mapBlockIndex.keys, 0 < (s.mapBlockIndex.entry b).nChainTx →
    (s.mapBlockIndex.entry b).nSequenceId < s.nBlockSequenceId
  seq_inj : ∀ a ∈ s.mapBlockIndex.keys, ∀ b ∈ s.mapBlockIndex.keys,
    0 < (s.mapBlockIndex.entry a).nChainTx → 0 < (s.mapBlockIndex.entry b).nChainTx →
    (s.mapBlockIndex.entry a).nSequenceId = (s.mapBlockIndex.entry b).nSequenceId → a = b
  cand : ∀ c ∈ s.setBlockIndexCandidates,
    c ∈ s.mapBlockIndex.keys ∧ 0 < (s.mapBlockIndex.entry c).nChainTx
  tip : ∀ t, s.chainActive.Tip = some t →
    t ∈ s.mapBlockIndex.keys ∧ 0 < (s.mapBlockIndex.entry t).nChainTx

section Step

variable {s : ChainState} {p : Nat} {rest : List Nat}

/-- A queued block is not its own parent. -/
theorem LinkInv.pprev_ne (h : LinkInv s (p :: rest)) : (s.mapBlockIndex.entry p).pprev ≠ some p := by
  intro hp
  have := (h.queued p (List.mem_cons_self p rest)).2
  simp [parentLinked, hp] at this
  omega

theorem parentChainTx_linkBlock (b : Nat) :
    parentChainTx (s.linkBlock p).mapBlockIndex b =
      if (s.mapBlockIndex.entry b).pprev = some p then
        parentChainTx s.mapBlockIndex p + (s.mapBlockIndex.entry p).nTx
      else parentChainTx s.mapBlockIndex b := by
  rcases hq : (s.mapBlockIndex.entry b).pprev with _ | q <;>
    simp [hq, nChainTx_linkBlock, parentChainTx]

theorem LinkInv.parentLinked_linkBlock (h : LinkInv s (p :: rest)) (b : Nat) :
    parentLinked (s.linkBlock p).mapBlockIndex b =
      (parentLinked s.mapBlockIndex b || (s.mapBlockIndex.entry b).pprev = some p) := by
  have hpos := h.nTx_pos p (h.queued p (List.mem_cons_self p rest)).1
    (h.queued p (List.mem_cons_self p rest)).2.2.1
  unfold parentLinked
  rw [pprev_linkBlock]
  rcases hq : (s.mapBlockIndex.entry b).pprev with _ | q
  · rfl
  · by_cases hqp : q = p
    · subst hqp; simp [nChainTx_linkBlock, hpos]
    · simp [nChainTx_linkBlock, hqp]

/-- The blocks waiting for `p` are its children with data. -/
theorem LinkInv.mem_unlinkedChildren (h : LinkInv s (p :: rest)) {c : Nat} :
    c ∈ s.unlinkedChildren p ↔ c ∈ s.mapBlockIndex.keys ∧
      (s.mapBlockIndex.entry c).nStatus.fHaveData = true ∧ (s.mapBlockIndex.entry c).pprev = some p := by
  have h0 := (h.queued p (List.mem_cons_self p rest)).2.1
  simp [unlinkedChildren, h.unlinked, h0]

/-- A child waiting for `p` is neither `p` nor queued: its parent is not linked yet. -/
theorem LinkInv.not_mem_of_unlinkedChildren (h : LinkInv s (p :: rest)) {c : Nat}
    (hc : c ∈ s.unlinkedChildren p) : c ∉ p :: rest := by
  intro hm
  have hl := (h.queued c hm).2.2.2
  have h0 := (h.queued p (List.mem_cons_self p rest)).2.1
  simp [parentLinked, ((h.mem_unlinkedChildren).mp hc).2.2, h0] at hl

theorem LinkInv.unlinkedChildren_nodup (h : LinkInv s (p :: rest)) :
    (s.unlinkedChildren p).Nodup := by
  refine List.Nodup.map_on ?_ (h.unlinked_nodup.filter _)
  rintro ⟨a, b⟩ ha ⟨a', b'⟩ ha' (rfl : b = b')
  simp only [List.mem_filter, beq_iff_eq] at ha ha'
  rw [ha.2, ha'.2]

/-- **One turn keeps the invariant.** -/
theorem LinkInv.linkBlock (h : LinkInv s (p :: rest)) :
    LinkInv (s.linkBlock p) (rest ++ s.unlinkedChildren p) := by
  obtain ⟨hpk, hp0, hpd, hpl⟩ := h.queued p (List.mem_cons_self p rest)
  have hpos := h.nTx_pos p hpk hpd
  have hnd := List.nodup_cons.mp h.queue_nodup
  have hne : ∀ b, 0 < (s.mapBlockIndex.entry b).nChainTx → b ≠ p := by
    rintro b hb rfl; omega
  constructor
  · intro b hb; simpa using h.valid b hb
  · intro b hb; simpa using h.nTx_pos b hb
  · -- chainTx
    intro b hb hbQ
    simp only [List.mem_append, not_or] at hbQ
    simp only [localChainTx, nChainTx_linkBlock, nStatus_linkBlock, nTx_linkBlock,
      parentChainTx_linkBlock, h.parentLinked_linkBlock]
    by_cases hbp : b = p
    · subst hbp
      simp [hpd, hpl, h.pprev_ne]
    · have hloc := h.chainTx b hb (by simp [hbp, hbQ.1])
      by_cases hq : (s.mapBlockIndex.entry b).pprev = some p
      · have hnd : (s.mapBlockIndex.entry b).nStatus.fHaveData = false := by
          by_contra hd
          exact hbQ.2 ((h.mem_unlinkedChildren).mpr ⟨hb, by simpa using hd, hq⟩)
        simp [hbp, hq, hnd, hloc, localChainTx]
      · simp [hbp, hq, hloc, localChainTx]
  · -- queued
    intro b hb
    rcases List.mem_append.mp hb with hb | hb
    · obtain ⟨hk, h0, hd, hl⟩ := h.queued b (List.mem_cons_of_mem p hb)
      have hbp : b ≠ p := fun e => hnd.1 (e ▸ hb)
      exact ⟨hk, by simp [nChainTx_linkBlock, hbp, h0], by simpa using hd,
        by simp [h.parentLinked_linkBlock, hl]⟩
    · obtain ⟨hk, hd, hq⟩ := (h.mem_unlinkedChildren).mp hb
      have hnq := h.not_mem_of_unlinkedChildren hb
      have hbp : b ≠ p := fun e => hnq (e ▸ List.mem_cons_self p rest)
      have h0 : (s.mapBlockIndex.entry b).nChainTx = 0 := by
        rw [h.chainTx b hk hnq, localChainTx, parentLinked, hq]; simp [hp0]
      exact ⟨hk, by simp [nChainTx_linkBlock, hbp, h0], by simpa using hd,
        by simp [h.parentLinked_linkBlock, hq]⟩
  · -- queue_nodup
    refine List.nodup_append.mpr ⟨hnd.2, h.unlinkedChildren_nodup, ?_⟩
    intro c hc hc'
    exact h.not_mem_of_unlinkedChildren hc' (List.mem_cons_of_mem p hc)
  · -- unlinked
    intro q b
    simp only [mapBlocksUnlinked_linkBlock, List.mem_filter, h.unlinked, bne_iff_ne, ne_eq,
      decide_eq_true_eq, keys_linkBlock, nStatus_linkBlock, pprev_linkBlock, nChainTx_linkBlock]
    by_cases hqp : q = p
    · subst hqp; simp; omega
    · simp [hqp]
  · exact h.unlinked_nodup.filter _
  · -- seq_lt
    intro b hb hpos'
    simp only [nSequenceId_linkBlock, nBlockSequenceId_linkBlock]
    by_cases hbp : b = p
    · simp [hbp]
    · have := h.seq_lt b hb (by simpa [nChainTx_linkBlock, hbp] using hpos')
      simp [hbp]; omega
  · -- seq_inj
    intro a ha b hb hpa hpb hseq
    simp only [nSequenceId_linkBlock] at hseq
    by_cases hap : a = p <;> by_cases hbp : b = p
    · rw [hap, hbp]
    · have := h.seq_lt b hb (by simpa [nChainTx_linkBlock, hbp] using hpb)
      simp [hap, hbp] at hseq; omega
    · have := h.seq_lt a ha (by simpa [nChainTx_linkBlock, hap] using hpa)
      simp [hap, hbp] at hseq; omega
    · simp only [hap, hbp, if_false] at hseq
      exact h.seq_inj a ha b hb (by simpa [nChainTx_linkBlock, hap] using hpa)
        (by simpa [nChainTx_linkBlock, hbp] using hpb) hseq
  · -- cand
    intro c hc
    have hc' : c = p ∨ c ∈ s.setBlockIndexCandidates := by
      simp only [ChainState.linkBlock] at hc
      split at hc
      · exact mem_candInsert.mp hc
      · exact .inr hc
    rcases hc' with rfl | hc'
    · exact ⟨hpk, by simp only [nChainTx_linkBlock, if_true]; omega⟩
    · obtain ⟨hk, hpc⟩ := h.cand c hc'
      exact ⟨hk, by simpa [nChainTx_linkBlock, hne c hpc] using hpc⟩
  · -- tip
    intro t ht
    obtain ⟨hk, hpt⟩ := h.tip t ht
    exact ⟨hk, by simpa [nChainTx_linkBlock, hne t hpt] using hpt⟩

end Step

/-- What a stretch of the loop does: it writes only `nChainTx` and `nSequenceId`, touches
only the blocks it links, takes their sequence ids from the counter, and makes each a
candidate unless it sorts below the tip. -/
structure LinkSpec (s s' : ChainState) : Prop where
  keys : s'.mapBlockIndex.keys = s.mapBlockIndex.keys
  chainActive : s'.chainActive = s.chainActive
  writes : ∀ b, s'.mapBlockIndex.entry b = { s.mapBlockIndex.entry b with
    nChainTx := (s'.mapBlockIndex.entry b).nChainTx,
    nSequenceId := (s'.mapBlockIndex.entry b).nSequenceId }
  frame : ∀ b, s'.mapBlockIndex.entry b = s.mapBlockIndex.entry b ∨
    ((s.mapBlockIndex.entry b).nChainTx = 0 ∧ 0 < (s'.mapBlockIndex.entry b).nChainTx)
  counter_le : s.nBlockSequenceId ≤ s'.nBlockSequenceId
  seq_new : ∀ b, (s.mapBlockIndex.entry b).nChainTx = 0 →
    0 < (s'.mapBlockIndex.entry b).nChainTx →
    s.nBlockSequenceId ≤ (s'.mapBlockIndex.entry b).nSequenceId ∧
      (s'.mapBlockIndex.entry b).nSequenceId < s'.nBlockSequenceId
  cand_sub : s.setBlockIndexCandidates ⊆ s'.setBlockIndexCandidates
  cand_new : ∀ b, (s.mapBlockIndex.entry b).nChainTx = 0 →
    0 < (s'.mapBlockIndex.entry b).nChainTx →
    (s'.chainActive.Tip.all fun t =>
      !workComparator (s'.mapBlockIndex.entry b) (s'.mapBlockIndex.entry t)) = true →
    b ∈ s'.setBlockIndexCandidates

theorem LinkSpec.refl (s : ChainState) : LinkSpec s s :=
  ⟨rfl, rfl, fun _ => rfl, fun _ => .inl rfl, le_rfl, fun _ h h' => by omega,
    List.Subset.refl _, fun _ h h' => by omega⟩

/-- Changing only `mapBlocksUnlinked` links nothing. -/
theorem LinkSpec.of_mapBlocksUnlinked (s : ChainState) (U : List (Nat × Nat)) :
    LinkSpec s { s with mapBlocksUnlinked := U } :=
  ⟨rfl, rfl, fun _ => rfl, fun _ => .inl rfl, le_rfl,
    fun _ h h' => absurd h (Nat.pos_iff_ne_zero.mp h'), List.Subset.refl _,
    fun _ h h' => absurd h (Nat.pos_iff_ne_zero.mp h')⟩

/-- A block linked by the first stretch is not touched by the second. -/
theorem LinkSpec.entry_of_pos {s s' : ChainState} (h : LinkSpec s s') {b : Nat}
    (hb : 0 < (s.mapBlockIndex.entry b).nChainTx) :
    s'.mapBlockIndex.entry b = s.mapBlockIndex.entry b :=
  (h.frame b).resolve_right fun ⟨h0, _⟩ => by omega

theorem LinkSpec.trans {s₁ s₂ s₃ : ChainState} (h₁ : LinkSpec s₁ s₂) (h₂ : LinkSpec s₂ s₃)
    (htip : ∀ t, s₂.chainActive.Tip = some t → 0 < (s₂.mapBlockIndex.entry t).nChainTx) :
    LinkSpec s₁ s₃ := by
  -- a block newly linked from `s₁` to `s₃` was linked in exactly one of the two stretches
  have hnew : ∀ b, (s₁.mapBlockIndex.entry b).nChainTx = 0 →
      0 < (s₃.mapBlockIndex.entry b).nChainTx →
      (s₂.mapBlockIndex.entry b = s₁.mapBlockIndex.entry b ∧
        (s₂.mapBlockIndex.entry b).nChainTx = 0) ∨
      (0 < (s₂.mapBlockIndex.entry b).nChainTx ∧
        s₃.mapBlockIndex.entry b = s₂.mapBlockIndex.entry b) := by
    intro b h0 hpos
    rcases h₁.frame b with he | ⟨-, hp⟩
    · exact .inl ⟨he, he ▸ h0⟩
    · exact .inr ⟨hp, h₂.entry_of_pos hp⟩
  refine ⟨h₂.keys.trans h₁.keys, h₂.chainActive.trans h₁.chainActive, fun b => ?_, fun b => ?_,
    h₁.counter_le.trans h₂.counter_le, fun b h0 hpos => ?_,
    h₁.cand_sub.trans h₂.cand_sub, fun b h0 hpos hc => ?_⟩
  · rw [h₂.writes b, h₁.writes b]
  · rcases h₂.frame b with he | ⟨h0, hp⟩
    · rcases h₁.frame b with he' | ⟨h0', hp'⟩
      · exact .inl (he.trans he')
      · exact .inr ⟨h0', he ▸ hp'⟩
    · rcases h₁.frame b with he' | ⟨-, hp'⟩
      · exact .inr ⟨he' ▸ h0, hp⟩
      · omega
  · rcases hnew b h0 hpos with ⟨-, h20⟩ | ⟨hp, he⟩
    · have := h₂.seq_new b h20 hpos
      have := h₁.counter_le
      omega
    · have := h₁.seq_new b h0 hp
      have := h₂.counter_le
      rw [he]; omega
  · rcases hnew b h0 hpos with ⟨-, h20⟩ | ⟨hp, he⟩
    · exact h₂.cand_new b h20 hpos hc
    · apply h₂.cand_sub
      apply h₁.cand_new b h0 hp
      rw [h₂.chainActive] at hc
      rcases ht : s₂.chainActive.Tip with _ | t
      · rfl
      · simpa [ht, he, h₂.entry_of_pos (htip t ht)] using hc

section Step

variable {s : ChainState} {p : Nat} {rest : List Nat}

/-- One turn links `p` and nothing else. -/
theorem LinkInv.linkSpec (h : LinkInv s (p :: rest)) : LinkSpec s (s.linkBlock p) := by
  obtain ⟨hpk, hp0, hpd, -⟩ := h.queued p (List.mem_cons_self p rest)
  have hpos := h.nTx_pos p hpk hpd
  have hne : ∀ b, 0 < (s.mapBlockIndex.entry b).nChainTx → b ≠ p := by
    rintro b hb rfl; omega
  refine ⟨rfl, rfl, fun b => ?_, fun b => ?_, by simp, fun b h0 hb => ?_,
    ?_, fun b h0 hb hc => ?_⟩
  · by_cases hbp : b = p
    · subst hbp; simp [entry_linkBlock]
    · simp [entry_linkBlock, hbp]
  · by_cases hbp : b = p
    · subst hbp; exact .inr ⟨hp0, by simp [nChainTx_linkBlock]; omega⟩
    · exact .inl (entry_linkBlock_of_ne s hbp)
  · have hbp : b = p := by by_contra hbp; simp [nChainTx_linkBlock, hbp, h0] at hb
    subst hbp; simp [nSequenceId_linkBlock]
  · simp only [ChainState.linkBlock]
    split
    · exact subset_candInsert _ _
    · exact List.Subset.refl _
  · have hbp : b = p := by by_contra hbp; simp [nChainTx_linkBlock, hbp, h0] at hb
    subst hbp
    simp only [ChainState.linkBlock]
    rw [if_pos]
    · exact mem_candInsert_self _ _
    · -- the linked block has a fresh sequence id, so it is not tied with the tip
      rcases ht : s.chainActive.Tip with _ | t
      · rfl
      · obtain ⟨htk, htpos⟩ := h.tip t ht
        have htb := hne t htpos
        have := h.seq_lt t htk htpos
        rw [chainActive_linkBlock, ht] at hc
        simpa [comparator_eq_of_nSequenceId_ne, BlockMap.entry_set, htb, entry_linkBlock,
          Nat.ne_of_gt this] using hc

end Step

/-- **The loop.**  From a state meeting the invariant with queue `Q`, the loop ends meeting
it with an empty queue, and it links the blocks it touches as `LinkSpec` says. -/
theorem linkQueue_spec (s : ChainState) (Q : List Nat) (h : LinkInv s Q) :
    LinkInv (s.linkQueue Q) [] ∧ LinkSpec s (s.linkQueue Q) := by
  induction s, Q using linkQueue.induct with
  | case1 s => rw [linkQueue]; exact ⟨h, LinkSpec.refl s⟩
  | case2 s p rest ih =>
    rw [linkQueue]
    have h' := h.linkBlock
    obtain ⟨hinv, hspec⟩ := ih h'
    exact ⟨hinv, h.linkSpec.trans hspec fun t ht => (h'.tip t ht).2⟩

/-! ### `nChainTx` counts the transactions of the ancestry -/

/-- `b` and its ancestors, walking `pprev` at most `k` times. -/
def lineage (m : BlockMap) (b : Nat) : Nat → List Nat
  | 0 => [b]
  | k + 1 => b :: match (m.entry b).pprev with
    | some p => lineage m p k
    | none => []

/-- A block and all its ancestors, from the block down to the root. -/
def ancestry (m : BlockMap) (b : Nat) : List Nat := lineage m b (m.entry b).nHeight

/-- The `nChainTx` a block should have: the transactions of its whole ancestry when every
block of it has data, and `0` otherwise. -/
def ancestryChainTx (m : BlockMap) (b : Nat) : Nat :=
  if (ancestry m b).all fun a => (m.entry a).nStatus.fHaveData then
    ((ancestry m b).map fun a => (m.entry a).nTx).sum
  else 0

section Ancestry

variable {m : BlockMap} {b p : Nat}

theorem ancestry_cons : ∃ l, ancestry m b = b :: l := by
  unfold ancestry
  cases (m.entry b).nHeight with
  | zero => exact ⟨[], rfl⟩
  | succ k => exact ⟨_, rfl⟩

theorem ancestry_of_root (hwf : m.TreeWF) (hb : b ∈ m.keys) (hp : (m.entry b).pprev = none) :
    ancestry m b = [b] := by
  have := hwf b hb
  rw [hp] at this
  simp [ancestry, this, lineage]

theorem ancestry_of_pprev (hwf : m.TreeWF) (hb : b ∈ m.keys) (hp : (m.entry b).pprev = some p) :
    ancestry m b = b :: ancestry m p := by
  have := hwf b hb
  rw [hp] at this
  simp [ancestry, ← this.2, lineage, hp]

end Ancestry

section ChainTx

variable {s : ChainState} {b p : Nat}

theorem LinkInv.chainTx_root (hwf : s.mapBlockIndex.TreeWF) (h : LinkInv s [])
    (hb : b ∈ s.mapBlockIndex.keys) (hp : (s.mapBlockIndex.entry b).pprev = none) :
    (s.mapBlockIndex.entry b).nChainTx = ancestryChainTx s.mapBlockIndex b := by
  rw [h.chainTx b hb (List.not_mem_nil b), localChainTx, ancestryChainTx,
    ancestry_of_root hwf hb hp]
  simp [parentLinked, parentChainTx, hp]

theorem LinkInv.chainTx_child (hwf : s.mapBlockIndex.TreeWF) (h : LinkInv s [])
    (hb : b ∈ s.mapBlockIndex.keys) (hp : (s.mapBlockIndex.entry b).pprev = some p)
    (ih : (s.mapBlockIndex.entry p).nChainTx = ancestryChainTx s.mapBlockIndex p) :
    (s.mapBlockIndex.entry b).nChainTx = ancestryChainTx s.mapBlockIndex b := by
  have hpk : p ∈ s.mapBlockIndex.keys := by
    have := hwf b hb; rw [hp] at this; exact this.1
  rw [h.chainTx b hb (List.not_mem_nil b), localChainTx, ancestryChainTx,
    ancestry_of_pprev hwf hb hp]
  rw [ancestryChainTx] at ih
  simp only [parentLinked, parentChainTx, hp, List.all_cons, List.map_cons, List.sum_cons]
  by_cases hall : (ancestry s.mapBlockIndex p).all fun a => (s.mapBlockIndex.entry a).nStatus.fHaveData
  · -- every ancestor has data, so the parent is linked
    rw [if_pos hall] at ih
    obtain ⟨l, hl⟩ := ancestry_cons (m := s.mapBlockIndex) (b := p)
    have hpd : (s.mapBlockIndex.entry p).nStatus.fHaveData = true := by
      rw [hl, List.all_cons, Bool.and_eq_true] at hall; exact hall.1
    have hpos : 0 < (s.mapBlockIndex.entry p).nChainTx := by
      have := h.nTx_pos p hpk hpd
      rw [ih, hl, List.map_cons, List.sum_cons]; omega
    rw [ih] at hpos ⊢
    by_cases hd : (s.mapBlockIndex.entry b).nStatus.fHaveData <;> simp [hd, hall, hpos]
    omega
  · rw [if_neg hall] at ih
    simp [hall, ih]

/-- **(i)** Under the invariant, `nChainTx` is the number of transactions of the block and all
its ancestors when every one of them has data, and `0` otherwise. -/
theorem LinkInv.chainTx_eq_sum (hwf : s.mapBlockIndex.TreeWF) (h : LinkInv s []) :
    ∀ b ∈ s.mapBlockIndex.keys,
      (s.mapBlockIndex.entry b).nChainTx = ancestryChainTx s.mapBlockIndex b := by
  suffices H : ∀ k b, b ∈ s.mapBlockIndex.keys → (s.mapBlockIndex.entry b).nHeight = k →
      (s.mapBlockIndex.entry b).nChainTx = ancestryChainTx s.mapBlockIndex b from
    fun b hb => H _ b hb rfl
  intro k
  induction k with
  | zero =>
    intro b hb hk
    rcases hp : (s.mapBlockIndex.entry b).pprev with _ | p
    · exact h.chainTx_root hwf hb hp
    · have := hwf b hb; rw [hp] at this; omega
  | succ k ih =>
    intro b hb hk
    rcases hp : (s.mapBlockIndex.entry b).pprev with _ | p
    · exact h.chainTx_root hwf hb hp
    · have := hwf b hb
      rw [hp] at this
      exact h.chainTx_child hwf hb hp (ih p this.1 (by omega))

end ChainTx

/-! ### One call -/

section RecordData

variable (block : CBlock) (x : Nat) (pos : CDiskBlockPos) (s : ChainState) (b : Nat)

@[simp] theorem keys_recordData :
    (s.recordData block x pos).mapBlockIndex.keys = s.mapBlockIndex.keys := rfl

@[simp] theorem chainActive_recordData : (s.recordData block x pos).chainActive = s.chainActive :=
  rfl

@[simp] theorem mapBlocksUnlinked_recordData :
    (s.recordData block x pos).mapBlocksUnlinked = s.mapBlocksUnlinked := rfl

@[simp] theorem setBlockIndexCandidates_recordData :
    (s.recordData block x pos).setBlockIndexCandidates = s.setBlockIndexCandidates := rfl

@[simp] theorem nBlockSequenceId_recordData :
    (s.recordData block x pos).nBlockSequenceId = s.nBlockSequenceId := rfl

theorem entry_recordData : (s.recordData block x pos).mapBlockIndex.entry b =
    if b = x then { s.mapBlockIndex.entry x with
      nTx := block.vtx.length, nChainTx := 0, nFile := pos.nFile, nDataPos := pos.nPos,
      nUndoPos := 0,
      nStatus := ({ (s.mapBlockIndex.entry x).nStatus with fHaveData := true } : BlockStatus).RaiseValidity
        BLOCK_VALID_TRANSACTIONS }
    else s.mapBlockIndex.entry b := by
  simp only [recordData, BlockMap.entry_set]

theorem entry_recordData_of_ne {b x : Nat} (h : b ≠ x) :
    (s.recordData block x pos).mapBlockIndex.entry b = s.mapBlockIndex.entry b := by
  simp [entry_recordData, h]

@[simp] theorem pprev_recordData :
    ((s.recordData block x pos).mapBlockIndex.entry b).pprev = (s.mapBlockIndex.entry b).pprev := by
  rw [entry_recordData]; split <;> simp_all

@[simp] theorem nHeight_recordData :
    ((s.recordData block x pos).mapBlockIndex.entry b).nHeight = (s.mapBlockIndex.entry b).nHeight := by
  rw [entry_recordData]; split <;> simp_all

@[simp] theorem nSequenceId_recordData :
    ((s.recordData block x pos).mapBlockIndex.entry b).nSequenceId =
      (s.mapBlockIndex.entry b).nSequenceId := by
  rw [entry_recordData]; split <;> simp_all

end RecordData

section Call

variable (block : CBlock) {x : Nat} (pos : CDiskBlockPos) {s : ChainState}

/-- A block without data is not linked. -/
theorem LinkInv.nChainTx_of_no_data (h : LinkInv s []) (hx : x ∈ s.mapBlockIndex.keys)
    (hnd : (s.mapBlockIndex.entry x).nStatus.fHaveData = false) :
    (s.mapBlockIndex.entry x).nChainTx = 0 := by
  simp [h.chainTx x hx (List.not_mem_nil x), localChainTx, hnd]

/-- Recording the data of an unlinked block changes no `nChainTx`. -/
theorem nChainTx_recordData (h0 : (s.mapBlockIndex.entry x).nChainTx = 0) (b : Nat) :
    ((s.recordData block x pos).mapBlockIndex.entry b).nChainTx =
      (s.mapBlockIndex.entry b).nChainTx := by
  rw [entry_recordData]; split <;> simp_all

theorem parentLinked_recordData (h0 : (s.mapBlockIndex.entry x).nChainTx = 0) (b : Nat) :
    parentLinked (s.recordData block x pos).mapBlockIndex b = parentLinked s.mapBlockIndex b := by
  simp only [parentLinked, pprev_recordData, nChainTx_recordData block pos h0]

theorem localChainTx_recordData (h0 : (s.mapBlockIndex.entry x).nChainTx = 0) {b : Nat}
    (hb : b ≠ x) :
    localChainTx (s.recordData block x pos).mapBlockIndex b = localChainTx s.mapBlockIndex b := by
  simp only [localChainTx, parentLinked_recordData block pos h0, parentChainTx, pprev_recordData,
    nChainTx_recordData block pos h0, entry_recordData_of_ne _ _ _ hb]

/-- The fields of the invariant that recording the data of `x` cannot break. -/
theorem LinkInv.recordData_common (h : LinkInv s []) (hx : x ∈ s.mapBlockIndex.keys)
    (hnd : (s.mapBlockIndex.entry x).nStatus.fHaveData = false) (hn : block.vtx ≠ []) :
    let s₁ := s.recordData block x pos
    (∀ b ∈ s₁.mapBlockIndex.keys, (s₁.mapBlockIndex.entry b).nStatus.IsValid BLOCK_VALID_TREE) ∧
    (∀ b ∈ s₁.mapBlockIndex.keys, (s₁.mapBlockIndex.entry b).nStatus.fHaveData = true →
      0 < (s₁.mapBlockIndex.entry b).nTx) ∧
    (∀ b ∈ s₁.mapBlockIndex.keys, 0 < (s₁.mapBlockIndex.entry b).nChainTx →
      (s₁.mapBlockIndex.entry b).nSequenceId < s₁.nBlockSequenceId) ∧
    (∀ a ∈ s₁.mapBlockIndex.keys, ∀ b ∈ s₁.mapBlockIndex.keys,
      0 < (s₁.mapBlockIndex.entry a).nChainTx → 0 < (s₁.mapBlockIndex.entry b).nChainTx →
      (s₁.mapBlockIndex.entry a).nSequenceId = (s₁.mapBlockIndex.entry b).nSequenceId → a = b) ∧
    (∀ c ∈ s₁.setBlockIndexCandidates,
      c ∈ s₁.mapBlockIndex.keys ∧ 0 < (s₁.mapBlockIndex.entry c).nChainTx) ∧
    (∀ t, s₁.chainActive.Tip = some t →
      t ∈ s₁.mapBlockIndex.keys ∧ 0 < (s₁.mapBlockIndex.entry t).nChainTx) := by
  have h0 := h.nChainTx_of_no_data hx hnd
  refine ⟨fun b hb => ?_, fun b hb hd => ?_, fun b hb => ?_, fun a ha b hb => ?_,
    fun c hc => ?_, fun t ht => ?_⟩ <;>
    simp only [nChainTx_recordData block pos h0, nSequenceId_recordData, keys_recordData,
      nBlockSequenceId_recordData, setBlockIndexCandidates_recordData,
      chainActive_recordData] at *
  · rw [entry_recordData]
    split
    · subst_vars
      have hv : ({ (s.mapBlockIndex.entry b).nStatus with fHaveData := true } : BlockStatus).IsValid
          BLOCK_VALID_TREE = true := h.valid b hb
      exact BlockStatus.IsValid.raiseValidity hv _
    · exact h.valid b hb
  · by_cases hbx : b = x
    · subst hbx; simpa [entry_recordData, List.length_pos] using hn
    · rw [entry_recordData_of_ne _ _ _ hbx] at hd ⊢
      exact h.nTx_pos b hb hd
  · exact h.seq_lt b hb
  · exact h.seq_inj a ha b hb
  · exact h.cand c hc
  · exact h.tip t ht

/-- When the parent of `x` is linked, the loop starts from `[x]` with the invariant. -/
theorem LinkInv.recordData_linked (h : LinkInv s []) (hx : x ∈ s.mapBlockIndex.keys)
    (hnd : (s.mapBlockIndex.entry x).nStatus.fHaveData = false) (hn : block.vtx ≠ [])
    (hl : parentLinked (s.recordData block x pos).mapBlockIndex x = true) :
    LinkInv (s.recordData block x pos) [x] := by
  have h0 := h.nChainTx_of_no_data hx hnd
  obtain ⟨hv, hntx, hsl, hsi, hc, ht⟩ := h.recordData_common block pos hx hnd hn
  refine ⟨hv, hntx, fun b hb hbx => ?_, fun b hb => ?_, List.nodup_singleton x,
    fun q b => ?_, h.unlinked_nodup, hsl, hsi, hc, ht⟩
  · have hbx : b ≠ x := by simpa using hbx
    rw [nChainTx_recordData block pos h0, localChainTx_recordData block pos h0 hbx]
    exact h.chainTx b hb (List.not_mem_nil b)
  · rw [List.mem_singleton.mp hb]
    exact ⟨hx, by rw [nChainTx_recordData block pos h0, h0], by simp [entry_recordData], hl⟩
  · simp only [mapBlocksUnlinked_recordData, h.unlinked, keys_recordData, pprev_recordData,
      nChainTx_recordData block pos h0]
    by_cases hbx : b = x
    · subst hbx
      simp only [hnd, Bool.false_eq_true, false_and, and_false, false_iff, not_and]
      intro _ _ hq h0'
      simp [parentLinked, hq, h0', nChainTx_recordData block pos h0] at hl
    · rw [entry_recordData_of_ne _ _ _ hbx]

/-- When the parent of `x` is not linked, `x` waits under it and the invariant holds with an
empty queue. -/
theorem LinkInv.recordData_unlinked (h : LinkInv s []) (hx : x ∈ s.mapBlockIndex.keys)
    (hnd : (s.mapBlockIndex.entry x).nStatus.fHaveData = false) (hn : block.vtx ≠ [])
    {p : Nat} (hp : (s.mapBlockIndex.entry x).pprev = some p)
    (hl : parentLinked (s.recordData block x pos).mapBlockIndex x = false) :
    LinkInv { s.recordData block x pos with
      mapBlocksUnlinked := (s.recordData block x pos).mapBlocksUnlinked ++ [(p, x)] } [] := by
  have h0 := h.nChainTx_of_no_data hx hnd
  have hp0 : (s.mapBlockIndex.entry p).nChainTx = 0 := by
    simpa [parentLinked, hp, nChainTx_recordData block pos h0] using hl
  have hxU : ∀ q, (q, x) ∉ s.mapBlocksUnlinked := fun q hq => by
    simp [h.unlinked, hnd] at hq
  obtain ⟨hv, hntx, hsl, hsi, hc, ht⟩ := h.recordData_common block pos hx hnd hn
  refine ⟨hv, hntx, fun b hb _ => ?_, fun b hb => absurd hb (List.not_mem_nil b),
    List.nodup_nil, fun q b => ?_, ?_, hsl, hsi, hc, ht⟩
  · by_cases hbx : b = x
    · subst hbx
      simp [nChainTx_recordData block pos h0, h0, localChainTx, hl]
    · rw [nChainTx_recordData block pos h0, localChainTx_recordData block pos h0 hbx]
      exact h.chainTx b hb (List.not_mem_nil b)
  · simp only [mapBlocksUnlinked_recordData, List.mem_append, List.mem_singleton,
      Prod.mk.injEq, h.unlinked, keys_recordData, pprev_recordData, nChainTx_recordData block pos h0]
    by_cases hbx : b = x
    · subst hbx
      simp only [hnd, Bool.false_eq_true, false_and, and_false, and_true, false_or, hp,
        Option.some.injEq]
      constructor
      · rintro rfl; exact ⟨hx, by simp [entry_recordData], rfl, hp0⟩
      · rintro ⟨-, -, rfl, -⟩; rfl
    · simp [hbx, entry_recordData_of_ne _ _ _ hbx]
  · exact List.nodup_append.mpr ⟨h.unlinked_nodup, List.nodup_singleton _,
      fun a ha ha' => by rw [List.mem_singleton.mp ha'] at ha; exact hxU p ha⟩

/-- A call keeps the invariant, and from the recorded state on it links blocks as `LinkSpec`
says. -/
theorem LinkInv.receivedBlockTransactions (hwf : s.mapBlockIndex.TreeWF) (h : LinkInv s [])
    (hx : x ∈ s.mapBlockIndex.keys) (hnd : (s.mapBlockIndex.entry x).nStatus.fHaveData = false)
    (hn : block.vtx ≠ []) :
    LinkInv (s.ReceivedBlockTransactions block x pos) [] ∧
      LinkSpec (s.recordData block x pos) (s.ReceivedBlockTransactions block x pos) := by
  by_cases hl : parentLinked (s.recordData block x pos).mapBlockIndex x = true
  · simp only [ReceivedBlockTransactions, hl, if_true]
    exact linkQueue_spec _ _ (h.recordData_linked block pos hx hnd hn hl)
  · simp only [Bool.not_eq_true] at hl
    rcases hp : (s.mapBlockIndex.entry x).pprev with _ | p
    · simp [parentLinked, hp] at hl
    · -- the parent is a key other than `x`, so it is still valid at `BLOCK_VALID_TREE`
      have hwx := hwf x hx
      rw [hp] at hwx
      have hpx : p ≠ x := by rintro rfl; omega
      simp only [ReceivedBlockTransactions, hl, Bool.false_eq_true, if_false, pprev_recordData, hp,
        entry_recordData_of_ne _ _ _ hpx, h.valid p hwx.1, if_true]
      exact ⟨h.recordData_unlinked block pos hx hnd hn hp hl, LinkSpec.of_mapBlocksUnlinked _ _⟩

/-- A call changes no key, parent or height, and no other entry's status. -/
theorem LinkInv.receivedBlockTransactions_shape (hwf : s.mapBlockIndex.TreeWF) (h : LinkInv s [])
    (hx : x ∈ s.mapBlockIndex.keys) (hnd : (s.mapBlockIndex.entry x).nStatus.fHaveData = false)
    (hn : block.vtx ≠ []) :
    (s.ReceivedBlockTransactions block x pos).mapBlockIndex.keys = s.mapBlockIndex.keys ∧
    ∀ b, ((s.ReceivedBlockTransactions block x pos).mapBlockIndex.entry b).pprev =
        (s.mapBlockIndex.entry b).pprev ∧
      ((s.ReceivedBlockTransactions block x pos).mapBlockIndex.entry b).nHeight =
        (s.mapBlockIndex.entry b).nHeight ∧
      (b ≠ x → ((s.ReceivedBlockTransactions block x pos).mapBlockIndex.entry b).nStatus =
        (s.mapBlockIndex.entry b).nStatus) := by
  have hs := (h.receivedBlockTransactions block pos hwf hx hnd hn).2
  refine ⟨hs.keys, fun b => ?_⟩
  rw [hs.writes b]
  exact ⟨pprev_recordData .., nHeight_recordData .., fun hbx => by
    rw [entry_recordData_of_ne _ _ _ hbx]⟩

end Call

theorem treeWF_of_shape {m m' : BlockMap} (hwf : m.TreeWF) (hk : m'.keys = m.keys)
    (hs : ∀ b, (m'.entry b).pprev = (m.entry b).pprev ∧ (m'.entry b).nHeight = (m.entry b).nHeight) :
    m'.TreeWF := by
  intro b hb
  have := hwf b (hk ▸ hb)
  rw [(hs b).1, (hs b).2]
  rcases hp : (m.entry b).pprev with _ | p <;> rw [hp] at this
  · exact this
  · exact ⟨hk ▸ this.1, by rw [(hs p).2]; exact this.2⟩

/-! ### What every call guarantees -/

/-- What one call of `ReceivedBlockTransactions(block, pindexNew)` guarantees, from `s` to
`s'`: (o) `pindexNew` has its data and `nTx = vtx.size()`; when its parent is linked (or it has
none) it is linked with a fresh sequence id, and otherwise it waits under its parent in
`mapBlocksUnlinked`; (i) `nChainTx` counts the transactions of the ancestry; (ii)
`mapBlocksUnlinked` holds each waiting pair once; (iii) sequence ids are given only to the
blocks the call links, from the counter, they are pairwise distinct among linked blocks, and
no candidate's id changes; (iv) a block the call links is a candidate unless it sorts below the
tip. -/
structure ReceivedSpec (s : ChainState) (block : CBlock) (pindexNew : Nat) (s' : ChainState) :
    Prop where
  data : (s'.mapBlockIndex.entry pindexNew).nStatus.fHaveData = true ∧
    (s'.mapBlockIndex.entry pindexNew).nTx = block.vtx.length
  linked : parentLinked s.mapBlockIndex pindexNew = true →
    0 < (s'.mapBlockIndex.entry pindexNew).nChainTx ∧
      s.nBlockSequenceId ≤ (s'.mapBlockIndex.entry pindexNew).nSequenceId ∧
      (s'.mapBlockIndex.entry pindexNew).nSequenceId < s'.nBlockSequenceId
  waits : ∀ p, (s.mapBlockIndex.entry pindexNew).pprev = some p →
    (s.mapBlockIndex.entry p).nChainTx = 0 → (p, pindexNew) ∈ s'.mapBlocksUnlinked
  chainTx_sum : ∀ b ∈ s'.mapBlockIndex.keys,
    (s'.mapBlockIndex.entry b).nChainTx = ancestryChainTx s'.mapBlockIndex b
  unlinked : ∀ p b, (p, b) ∈ s'.mapBlocksUnlinked ↔ b ∈ s'.mapBlockIndex.keys ∧
    (s'.mapBlockIndex.entry b).nStatus.fHaveData = true ∧ (s'.mapBlockIndex.entry b).pprev = some p ∧
    (s'.mapBlockIndex.entry p).nChainTx = 0
  unlinked_nodup : s'.mapBlocksUnlinked.Nodup
  frame : ∀ b, b ≠ pindexNew → s'.mapBlockIndex.entry b = s.mapBlockIndex.entry b ∨
    ((s.mapBlockIndex.entry b).nChainTx = 0 ∧ 0 < (s'.mapBlockIndex.entry b).nChainTx)
  seq_of_link : ∀ b, (s'.mapBlockIndex.entry b).nSequenceId ≠ (s.mapBlockIndex.entry b).nSequenceId →
    (s.mapBlockIndex.entry b).nChainTx = 0 ∧ 0 < (s'.mapBlockIndex.entry b).nChainTx
  seq_new : ∀ b, (s.mapBlockIndex.entry b).nChainTx = 0 → 0 < (s'.mapBlockIndex.entry b).nChainTx →
    s.nBlockSequenceId ≤ (s'.mapBlockIndex.entry b).nSequenceId ∧
      (s'.mapBlockIndex.entry b).nSequenceId < s'.nBlockSequenceId
  seq_inj : ∀ a ∈ s'.mapBlockIndex.keys, ∀ b ∈ s'.mapBlockIndex.keys,
    0 < (s'.mapBlockIndex.entry a).nChainTx → 0 < (s'.mapBlockIndex.entry b).nChainTx →
    (s'.mapBlockIndex.entry a).nSequenceId = (s'.mapBlockIndex.entry b).nSequenceId → a = b
  cand_seq : ∀ b ∈ s.setBlockIndexCandidates,
    (s'.mapBlockIndex.entry b).nSequenceId = (s.mapBlockIndex.entry b).nSequenceId
  cand_new : ∀ b, (s.mapBlockIndex.entry b).nChainTx = 0 → 0 < (s'.mapBlockIndex.entry b).nChainTx →
    (s'.chainActive.Tip.all fun t =>
      !workComparator (s'.mapBlockIndex.entry b) (s'.mapBlockIndex.entry t)) = true →
    b ∈ s'.setBlockIndexCandidates

section Spec

variable {block : CBlock} {x : Nat} {pos : CDiskBlockPos} {s : ChainState}

theorem LinkInv.receivedSpec (hwf : s.mapBlockIndex.TreeWF) (h : LinkInv s [])
    (hx : x ∈ s.mapBlockIndex.keys) (hnd : (s.mapBlockIndex.entry x).nStatus.fHaveData = false)
    (hn : block.vtx ≠ []) :
    ReceivedSpec s block x (s.ReceivedBlockTransactions block x pos) := by
  obtain ⟨hinv, hs⟩ := h.receivedBlockTransactions block pos hwf hx hnd hn
  obtain ⟨hk, hshape⟩ := h.receivedBlockTransactions_shape block pos hwf hx hnd hn
  have h0 := h.nChainTx_of_no_data hx hnd
  have hwf' := treeWF_of_shape hwf hk fun b => ⟨(hshape b).1, (hshape b).2.1⟩
  -- the recorded state has the same counts and ids as `s`
  have hc₁ := nChainTx_recordData block pos h0
  have hq₁ := nSequenceId_recordData block x pos s
  -- the call writes `x`'s data and `nTx`, and the loop only its link fields
  have hdata : ((s.ReceivedBlockTransactions block x pos).mapBlockIndex.entry x).nStatus.fHaveData =
      true ∧ ((s.ReceivedBlockTransactions block x pos).mapBlockIndex.entry x).nTx =
        block.vtx.length := by
    rw [hs.writes x]; simp [entry_recordData]
  refine ⟨hdata, fun hpl => ?_, fun p hp hp0 => ?_, hinv.chainTx_eq_sum hwf', hinv.unlinked,
    hinv.unlinked_nodup, fun b hbx => ?_, fun b hb => ?_, fun b h0' hpos => ?_, hinv.seq_inj,
    fun b hb => ?_, fun b h0' hpos hc => ?_⟩
  · -- a linked parent stays linked, so the invariant links `x`
    have hpl' : parentLinked (s.ReceivedBlockTransactions block x pos).mapBlockIndex x = true := by
      rcases hp : (s.mapBlockIndex.entry x).pprev with _ | p
      · simp [parentLinked, (hshape x).1, hp]
      · have hp0 : 0 < ((s.recordData block x pos).mapBlockIndex.entry p).nChainTx := by
          simpa [parentLinked, hp, hc₁] using hpl
        simpa [parentLinked, (hshape x).1, hp, hs.entry_of_pos hp0] using hp0
    have hpos : 0 < ((s.ReceivedBlockTransactions block x pos).mapBlockIndex.entry x).nChainTx := by
      rw [hinv.chainTx x (hk ▸ hx) (List.not_mem_nil x)]
      simp [localChainTx, hdata.1, hpl', hdata.2, List.length_pos.mpr hn]
    exact ⟨hpos, by simpa using hs.seq_new x (by rw [hc₁, h0]) hpos⟩
  · -- an unlinked parent: the pair is recorded, the parent being valid at `BLOCK_VALID_TREE`
    have hwx := hwf x hx
    rw [hp] at hwx
    have hpx : p ≠ x := by rintro rfl; omega
    have hl : parentLinked (s.recordData block x pos).mapBlockIndex x = false := by
      simp [parentLinked, hp, hc₁, hp0]
    simp only [ReceivedBlockTransactions, hl, Bool.false_eq_true, if_false, pprev_recordData, hp,
      entry_recordData_of_ne _ _ _ hpx, h.valid p hwx.1, if_true, mapBlocksUnlinked_recordData]
    exact List.mem_append_right _ (List.mem_singleton_self _)
  · rw [← hc₁ b, ← entry_recordData_of_ne block pos s hbx]
    exact hs.frame b
  · rcases hs.frame b with he | hnew
    · exact absurd (by rw [he, hq₁]) hb
    · rwa [hc₁] at hnew
  · simpa using hs.seq_new b (by rwa [hc₁]) hpos
  · rw [← hq₁, hs.entry_of_pos (by rw [hc₁]; exact (h.cand b hb).2)]
  · exact hs.cand_new b (by rwa [hc₁]) hpos hc

end Spec

/-- **`ReceivedBlockTransactions` over a run.**  From a state meeting the invariant on a
well-formed tree, take any run of calls, one per block, on blocks that had no data, each with
at least one transaction.  Every call of the run meets `ReceivedSpec`. -/
theorem receivedBlockTransactions_run (s₀ : ChainState) (hwf : s₀.mapBlockIndex.TreeWF)
    (h₀ : LinkInv s₀ []) (run : List (CBlock × Nat × CDiskBlockPos))
    (hkeys : ∀ a ∈ run, a.2.1 ∈ s₀.mapBlockIndex.keys)
    (hdata : ∀ a ∈ run, (s₀.mapBlockIndex.entry a.2.1).nStatus.fHaveData = false)
    (hnodup : (run.map fun a => a.2.1).Nodup) (hntx : ∀ a ∈ run, a.1.vtx ≠ [])
    (pre : List (CBlock × Nat × CDiskBlockPos)) (a : CBlock × Nat × CDiskBlockPos)
    (post : List (CBlock × Nat × CDiskBlockPos)) (hsplit : run = pre ++ a :: post) :
    ReceivedSpec (pre.foldl (fun s a => s.ReceivedBlockTransactions a.1 a.2.1 a.2.2) s₀) a.1 a.2.1
      ((pre.foldl (fun s a => s.ReceivedBlockTransactions a.1 a.2.1 a.2.2) s₀).ReceivedBlockTransactions
        a.1 a.2.1 a.2.2) := by
  subst hsplit
  induction pre generalizing s₀ with
  | nil =>
    simp only [List.nil_append, List.mem_cons, forall_eq_or_imp] at hkeys hdata hntx
    exact h₀.receivedSpec hwf hkeys.1 hdata.1 hntx.1
  | cons a₀ pre ih =>
    simp only [List.cons_append, List.mem_cons, forall_eq_or_imp, List.map_cons,
      List.nodup_cons] at hkeys hdata hntx hnodup
    obtain ⟨hk, hshape⟩ := h₀.receivedBlockTransactions_shape a₀.1 a₀.2.2 hwf hkeys.1 hdata.1
      hntx.1
    refine ih _ (treeWF_of_shape hwf hk fun b => ⟨(hshape b).1, (hshape b).2.1⟩)
      (h₀.receivedBlockTransactions a₀.1 a₀.2.2 hwf hkeys.1 hdata.1 hntx.1).1 (fun a' ha' => hk ▸ hkeys.2 a' ha')
      (fun a' ha' => ?_) hnodup.2 hntx.2
    have hne : a'.2.1 ≠ a₀.2.1 := fun e => hnodup.1 (List.mem_map.mpr ⟨a', ha', e⟩)
    rw [(hshape _).2.2 hne]
    exact hdata.2 a' ha'

/-! ### The trees a run starts from -/

/-- A tree of headers: every entry unfailed and at least `BLOCK_VALID_TREE`, no data, nothing
linked, nothing waiting, no candidate and no active chain.  It meets the invariant. -/
theorem linkInv_of_headers (s : ChainState)
    (hvalid : ∀ b ∈ s.mapBlockIndex.keys,
      (s.mapBlockIndex.entry b).nStatus.IsValid BLOCK_VALID_TREE = true)
    (hdata : ∀ b ∈ s.mapBlockIndex.keys, (s.mapBlockIndex.entry b).nStatus.fHaveData = false)
    (h0 : ∀ b ∈ s.mapBlockIndex.keys, (s.mapBlockIndex.entry b).nChainTx = 0)
    (hU : s.mapBlocksUnlinked = []) (hC : s.setBlockIndexCandidates = [])
    (hT : s.chainActive.Tip = none) : LinkInv s [] := by
  refine ⟨hvalid, fun b hb hd => ?_, fun b hb _ => ?_, fun b hb => absurd hb (List.not_mem_nil b),
    List.nodup_nil, fun p b => ?_, by simp [hU], fun b hb hp => ?_, fun a ha b hb hp => ?_,
    fun c hc => ?_, fun t ht => ?_⟩
  · simp [hdata b hb] at hd
  · simp [h0 b hb, localChainTx, hdata b hb]
  · simp only [hU, List.not_mem_nil, false_iff, not_and]
    intro hb hd; simp [hdata b hb] at hd
  · simp [h0 b hb] at hp
  · simp [h0 a ha] at hp
  · simp [hC] at hc
  · simp [hT] at ht

/-- A genesis block and its child, headers only; the child's data arrives first and waits,
then the genesis data arrives and links both. -/
theorem receivedBlockTransactions_child_first :
    ReceivedSpec
      ⟨⟨[0, 1], fun b => ⟨if b = 1 then some 0 else none, b, ⟨2, false, false, false⟩, 0, 0, 0, 0,
        0, 0, 0, 1, 0⟩⟩, ⟨[]⟩, [], [], [], 1, none⟩
      ⟨1, 10, [⟨1, 1, 0, [], [], 0, 0, false⟩], false, 0, 0, false, 100, true, true, false⟩ 1
      (ReceivedBlockTransactions ⟨1, 10, [⟨1, 1, 0, [], [], 0, 0, false⟩], false, 0, 0, false, 100,
        true, true, false⟩ 1 ⟨0, 0⟩
      ⟨⟨[0, 1], fun b => ⟨if b = 1 then some 0 else none, b, ⟨2, false, false, false⟩, 0, 0, 0, 0,
        0, 0, 0, 1, 0⟩⟩, ⟨[]⟩, [], [], [], 1, none⟩) :=
  receivedBlockTransactions_run _
    (fun b hb => by simp at hb; rcases hb with rfl | rfl <;> simp)
    (by exact linkInv_of_headers _ (by decide) (by decide) (by decide) rfl rfl rfl)
    [(⟨1, 10, [⟨1, 1, 0, [], [], 0, 0, false⟩], false, 0, 0, false, 100, true, true, false⟩, 1, ⟨0, 0⟩),
      (⟨1, 10, [⟨2, 1, 0, [], [], 0, 0, false⟩], false, 0, 0, false, 100, true, true, false⟩, 0, ⟨0, 1⟩)]
    (by decide) (by decide) (by decide) (by decide) [] _ _ rfl

end ChainState

end Ecc
