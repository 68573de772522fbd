import EccoinValidation.Chain.Invalidate

/-!
# Chain — reconsidering a block

`ReconsiderBlock(pindex)` undoes `InvalidateBlock`.  When `pindex` is not valid it clears
its failure bits; then it clears those of every entry of `mapBlockIndex` that is not valid and
whose ancestor at `pindex`'s height is `pindex`.  Each of these is marked dirty, re-inserted
into the candidates when it is valid up to `BLOCK_VALID_TRANSACTIONS`, linked and above the
tip, and un-recorded as `pindexBestInvalid`.  Last it walks up from `pindex` through `pprev`
and clears the failure bits of every ancestor, marking those dirty, with no candidate and no
`pindexBestInvalid` update.

`IsValid()` is `IsValid(BLOCK_VALID_TRANSACTIONS)`, the default of `chain.h`.  The comparator
dereferences the tip, so a null tip is `none` once an entry gets that far; the walk up `pprev`
gets its height plus one turns, which a well-formed tree never exhausts.

* `StatusFrame`: the call changes the entries only in their statuses.
* `reconsiderBlock_some`: in a well-formed tree with an active tip the call returns true.
* `reconsiderBlock_clears_ancestors`: afterwards `pindex` and all its ancestors carry no
  failure bit.
* `BodySpec`: what running the body on a set of entries does, closed under composition; the
  first stage and the walk over the map are each an instance.
* `reconsiderBlock_frame`: in a well-formed tree the walk over the map selects exactly the
  descendants of `pindex`, so the call clears `pindex`, its ancestors and its descendants,
  keeps every other status, and adds to the candidates exactly the cleared descendants-or-self
  that meet the insertion condition (`ReconsiderSpec`).
-/

namespace Ecc

namespace ChainState

/-- `nStatus &= ~BLOCK_FAILED_MASK; setDirtyBlockIndex.insert(b)`. -/
def clearFailed (b : Nat) (s : ChainState) : ChainState :=
  { s with mapBlockIndex := s.mapBlockIndex.setStatus b BlockStatus.clearFailed,
           setDirtyBlockIndex := s.setDirtyBlockIndex.insert b }

/-- `if (b->IsValid(BLOCK_VALID_TRANSACTIONS) && b->nChainTx && value_comp()(Tip(), b))
setBlockIndexCandidates.insert(b)`. -/
def insertIfAboveTip (b : Nat) (s : ChainState) : Option ChainState :=
  let e := s.mapBlockIndex.entry b
  if e.nStatus.IsValid BLOCK_VALID_TRANSACTIONS && 0 < e.nChainTx then
    s.chainActive.Tip.map fun t =>
      if CBlockIndexWorkComparator s.mapBlockIndex t b then
        { s with setBlockIndexCandidates := candInsert s.setBlockIndexCandidates b }
      else s
  else some s

/-- `if (b == pindexBestInvalid) pindexBestInvalid = NULL`. -/
def resetBestInvalid (b : Nat) (s : ChainState) : ChainState :=
  if s.pindexBestInvalid = some b then { s with pindexBestInvalid := none } else s

/-- The body run on `pindex` and on each descendant the walk reaches. -/
def reconsiderEntry (b : Nat) (s : ChainState) : Option ChainState :=
  (insertIfAboveTip b (s.clearFailed b)).map (resetBestInvalid b)

/-- The walk over `mapBlockIndex`: every entry that is not valid and whose ancestor at
`nHeight` is `pindex` gets the body. -/
def reconsiderDescendants (pindex nHeight : Nat) (s : ChainState) : List Nat → Option ChainState
  | [] => some s
  | b :: rest =>
    if !(s.mapBlockIndex.entry b).nStatus.IsValid BLOCK_VALID_TRANSACTIONS &&
        s.mapBlockIndex.GetAncestor b nHeight == some pindex then
      (reconsiderEntry b s).bind fun s => reconsiderDescendants pindex nHeight s rest
    else reconsiderDescendants pindex nHeight s rest

/-- The `while (pindex != NULL)` walk up `pprev`, clearing the failure bits it finds, with at
most `fuel` turns. -/
def clearAncestors : Nat → Option Nat → ChainState → Option ChainState
  | _, none, s => some s
  | 0, some _, _ => none
  | fuel + 1, some b, s =>
    clearAncestors fuel (s.mapBlockIndex.entry b).pprev
      (if (s.mapBlockIndex.entry b).nStatus.Failed then s.clearFailed b else s)

/-- `ReconsiderBlock(state, pindex)`: the verdict and the new chain state. -/
def ReconsiderBlock (pindex : Nat) (s : ChainState) : Option (Bool × ChainState) :=
  let nHeight := (s.mapBlockIndex.entry pindex).nHeight
  let first := if !(s.mapBlockIndex.entry pindex).nStatus.IsValid BLOCK_VALID_TRANSACTIONS then
    reconsiderEntry pindex s else some s
  first.bind fun s => (reconsiderDescendants pindex nHeight s s.mapBlockIndex.keys).bind fun s =>
    (clearAncestors (nHeight + 1) (some pindex) s).map fun s => (true, s)

/-- The body inserts an entry into the candidates when it is valid up to
`BLOCK_VALID_TRANSACTIONS`, linked, and above the active tip. -/
def CandidateCond (s : ChainState) (c : Nat) : Prop :=
  (s.mapBlockIndex.entry c).nStatus.IsValid BLOCK_VALID_TRANSACTIONS = true ∧
    0 < (s.mapBlockIndex.entry c).nChainTx ∧
    ∃ t, s.chainActive.Tip = some t ∧ CBlockIndexWorkComparator s.mapBlockIndex t c = true

/-- An entry that meets the insertion condition has no failure bit. -/
theorem CandidateCond.failed_eq_false {s : ChainState} {c : Nat} (h : CandidateCond s c) :
    (s.mapBlockIndex.entry c).nStatus.Failed = false := by
  have := h.1
  simp only [BlockStatus.IsValid, Bool.and_eq_true, Bool.not_eq_true'] at this
  exact this.1

/-! ### The call changes only statuses -/

/-- `s'` differs from `s` at most in the entries' statuses, the dirty set, the candidates and
`pindexBestInvalid`. -/
structure StatusFrame (s s' : ChainState) : Prop where
  keys : s'.mapBlockIndex.keys = s.mapBlockIndex.keys
  chainActive : s'.chainActive = s.chainActive
  entry : ∀ c, { s'.mapBlockIndex.entry c with nStatus := (s.mapBlockIndex.entry c).nStatus } =
    s.mapBlockIndex.entry c

namespace StatusFrame

theorem refl (s : ChainState) : StatusFrame s s := ⟨rfl, rfl, fun _ => rfl⟩

theorem trans {s₁ s₂ s₃ : ChainState} (h₁ : StatusFrame s₁ s₂) (h₂ : StatusFrame s₂ s₃) :
    StatusFrame s₁ s₃ where
  keys := h₂.keys.trans h₁.keys
  chainActive := h₂.chainActive.trans h₁.chainActive
  entry c := by rw [← h₁.entry c, ← h₂.entry c]

theorem pprev {s s' : ChainState} (h : StatusFrame s s') (c : Nat) :
    (s'.mapBlockIndex.entry c).pprev = (s.mapBlockIndex.entry c).pprev := by
  have := congrArg CBlockIndex.pprev (h.entry c); exact this

theorem nHeight {s s' : ChainState} (h : StatusFrame s s') (c : Nat) :
    (s'.mapBlockIndex.entry c).nHeight = (s.mapBlockIndex.entry c).nHeight := by
  have := congrArg CBlockIndex.nHeight (h.entry c); exact this

theorem walkBack {s s' : ChainState} (h : StatusFrame s s') :
    s'.mapBlockIndex.walkBack = s.mapBlockIndex.walkBack := by
  funext b k
  induction k generalizing b with
  | zero => rfl
  | succ k ih => simp only [BlockMap.walkBack, h.pprev, ih]

theorem treeWF {s s' : ChainState} (h : StatusFrame s s') (hwf : s.mapBlockIndex.TreeWF) :
    s'.mapBlockIndex.TreeWF := by
  intro b hb
  rw [h.keys] at hb
  have := hwf b hb
  rw [h.pprev, h.nHeight]
  split <;> simp_all [h.keys, h.nHeight]

theorem nChainTx {s s' : ChainState} (h : StatusFrame s s') (c : Nat) :
    (s'.mapBlockIndex.entry c).nChainTx = (s.mapBlockIndex.entry c).nChainTx := by
  have := congrArg CBlockIndex.nChainTx (h.entry c); exact this

/-- The comparator reads only work and sequence ids, which the frame keeps. -/
theorem comparator {s s' : ChainState} (h : StatusFrame s s') :
    CBlockIndexWorkComparator s'.mapBlockIndex = CBlockIndexWorkComparator s.mapBlockIndex := by
  funext a b
  have hw := fun c => congrArg CBlockIndex.nChainWork (h.entry c)
  have hq := fun c => congrArg CBlockIndex.nSequenceId (h.entry c)
  simp only at hw hq
  simp only [CBlockIndexWorkComparator, equivWork, workComparator, hw, hq]

theorem getAncestor {s s' : ChainState} (h : StatusFrame s s') :
    s'.mapBlockIndex.GetAncestor = s.mapBlockIndex.GetAncestor := by
  funext b k; simp only [BlockMap.GetAncestor, h.nHeight, h.walkBack]

/-- An entry whose status the frame keeps meets the insertion condition in both states or in
neither. -/
theorem candidateCond_iff {s s' : ChainState} (h : StatusFrame s s') {c : Nat}
    (hst : (s'.mapBlockIndex.entry c).nStatus = (s.mapBlockIndex.entry c).nStatus) :
    CandidateCond s' c ↔ CandidateCond s c := by
  simp only [CandidateCond, hst, h.nChainTx, h.chainActive, h.comparator]

end StatusFrame

section Steps

variable {b : Nat} {s s' : ChainState}

theorem statusFrame_clearFailed (b : Nat) (s : ChainState) : StatusFrame s (s.clearFailed b) :=
  ⟨rfl, rfl, fun c => by
    simp only [clearFailed, BlockMap.entry_setStatus]; split <;> simp_all⟩

theorem failed_clearFailed (b c : Nat) (s : ChainState) :
    ((s.clearFailed b).mapBlockIndex.entry c).nStatus.Failed =
      (!decide (c = b) && (s.mapBlockIndex.entry c).nStatus.Failed) := by
  simp only [clearFailed, BlockMap.entry_setStatus]; split <;> simp_all

theorem entry_clearFailed (b c : Nat) (s : ChainState) :
    ((s.clearFailed b).mapBlockIndex.entry c).nStatus =
      if c = b then (s.mapBlockIndex.entry c).nStatus.clearFailed
      else (s.mapBlockIndex.entry c).nStatus := by
  simp only [clearFailed, BlockMap.entry_setStatus]; split <;> rfl

theorem statusFrame_reconsiderEntry (h : reconsiderEntry b s = some s') : StatusFrame s s' := by
  obtain ⟨s₁, h₁, rfl⟩ := Option.map_eq_some'.mp h
  have hf : StatusFrame (s.clearFailed b) s₁ := by
    unfold insertIfAboveTip at h₁
    dsimp only at h₁
    split at h₁
    · obtain ⟨t, -, rfl⟩ := Option.map_eq_some'.mp h₁
      split
      · exact ⟨rfl, rfl, fun _ => rfl⟩
      · exact StatusFrame.refl _
    · cases h₁; exact StatusFrame.refl _
  refine (statusFrame_clearFailed b s).trans (hf.trans ?_)
  unfold resetBestInvalid; split
  · exact ⟨rfl, rfl, fun _ => rfl⟩
  · exact StatusFrame.refl _

theorem statusFrame_reconsiderDescendants {pindex nHeight : Nat} :
    ∀ (L : List Nat) (s s' : ChainState), reconsiderDescendants pindex nHeight s L = some s' →
      StatusFrame s s'
  | [], s, s', h => by cases h; exact StatusFrame.refl s
  | b :: rest, s, s', h => by
    unfold reconsiderDescendants at h
    split at h
    · obtain ⟨s₁, h₁, h⟩ := Option.bind_eq_some.mp h
      exact (statusFrame_reconsiderEntry h₁).trans (statusFrame_reconsiderDescendants rest _ _ h)
    · exact statusFrame_reconsiderDescendants rest _ _ h

/-- The step of the walk up `pprev`: clear `b` if it is failed. -/
theorem statusFrame_clearIfFailed (b : Nat) (s : ChainState) :
    StatusFrame s (if (s.mapBlockIndex.entry b).nStatus.Failed then s.clearFailed b else s) := by
  split
  · exact statusFrame_clearFailed b s
  · exact StatusFrame.refl s

theorem statusFrame_clearAncestors :
    ∀ (fuel : Nat) (o : Option Nat) (s s' : ChainState), clearAncestors fuel o s = some s' →
      StatusFrame s s'
  | _, none, s, s', h => by
    simp only [clearAncestors, Option.some.injEq] at h; subst h; exact StatusFrame.refl s
  | 0, some _, _, _, h => by simp [clearAncestors] at h
  | fuel + 1, some b, s, s', h => by
    simp only [clearAncestors] at h
    exact (statusFrame_clearIfFailed b s).trans (statusFrame_clearAncestors fuel _ _ _ h)

end Steps

/-! ### The walk up `pprev` -/

theorem failed_clearIfFailed (b c : Nat) (s : ChainState) :
    ((if (s.mapBlockIndex.entry b).nStatus.Failed then s.clearFailed b else s).mapBlockIndex.entry
      c).nStatus.Failed = (!decide (c = b) && (s.mapBlockIndex.entry c).nStatus.Failed) := by
  split
  · exact failed_clearFailed b c s
  · by_cases hc : c = b <;> simp_all

/-- A walk that returns sets no failure bit and leaves every ancestor of its start
unfailed. -/
theorem clearAncestors_spec : ∀ (fuel : Nat) (o : Option Nat) (s s' : ChainState),
    clearAncestors fuel o s = some s' →
    (∀ c, (s'.mapBlockIndex.entry c).nStatus.Failed = true →
      (s.mapBlockIndex.entry c).nStatus.Failed = true) ∧
    ∀ b ∈ o, ∀ k a, s.mapBlockIndex.walkBack b k = some a →
      (s'.mapBlockIndex.entry a).nStatus.Failed = false
  | _, none, s, s', h => by
    simp only [clearAncestors, Option.some.injEq] at h
    subst h; exact ⟨fun _ h => h, fun _ hb => absurd hb (by simp)⟩
  | 0, some _, _, _, h => by simp [clearAncestors] at h
  | fuel + 1, some b, s, s', h => by
    simp only [clearAncestors] at h
    obtain ⟨hmono, hclr⟩ := clearAncestors_spec fuel _ _ _ h
    have hb : ∀ c, (s'.mapBlockIndex.entry c).nStatus.Failed = true →
        (s.mapBlockIndex.entry c).nStatus.Failed = true ∧ c ≠ b := fun c hc => by
      have := hmono c hc
      rw [failed_clearIfFailed] at this
      simp only [Bool.and_eq_true, Bool.not_eq_true', decide_eq_false_iff_not] at this
      exact ⟨this.2, this.1⟩
    refine ⟨fun c hc => (hb c hc).1, fun b' hb' k a hk => ?_⟩
    cases Option.mem_some_iff.mp hb'
    cases k with
    | zero =>
      cases hk
      exact Bool.eq_false_iff.mpr fun hc => (hb _ hc).2 rfl
    | succ k =>
      simp only [BlockMap.walkBack] at hk
      obtain ⟨p, hp, hk⟩ := Option.bind_eq_some.mp hk
      rw [← (statusFrame_clearIfFailed b s).walkBack] at hk
      exact hclr p hp k a hk

/-- In a well-formed tree the walk from a key returns once it has more turns than the key's
height. -/
theorem clearAncestors_some : ∀ (fuel b : Nat) (s : ChainState), s.mapBlockIndex.TreeWF →
    b ∈ s.mapBlockIndex.keys → (s.mapBlockIndex.entry b).nHeight < fuel →
    ∃ s', clearAncestors fuel (some b) s = some s'
  | 0, _, _, _, _, h => absurd h (Nat.not_lt_zero _)
  | fuel + 1, b, s, hwf, hb, hlt => by
    have hf := statusFrame_clearIfFailed b s
    simp only [clearAncestors]
    have hwb := hwf b hb
    rcases hp : (s.mapBlockIndex.entry b).pprev with _ | p
    · exact ⟨_, by cases fuel <;> rfl⟩
    · rw [hp] at hwb
      exact clearAncestors_some fuel p _ (hf.treeWF hwf) (hf.keys ▸ hwb.1)
        (by rw [hf.nHeight]; omega)

/-- The walk up `pprev` changes only the statuses of `o` and its ancestors, by clearing their
failure bits. -/
theorem clearAncestors_frame : ∀ (fuel : Nat) (o : Option Nat) (s s' : ChainState),
    clearAncestors fuel o s = some s' →
    s'.setBlockIndexCandidates = s.setBlockIndexCandidates ∧
    s'.pindexBestInvalid = s.pindexBestInvalid ∧
    ∀ c, (s'.mapBlockIndex.entry c).nStatus = (s.mapBlockIndex.entry c).nStatus ∨
      ((∃ b ∈ o, s.mapBlockIndex.IsDescendant b c) ∧
        (s'.mapBlockIndex.entry c).nStatus = (s.mapBlockIndex.entry c).nStatus.clearFailed)
  | _, none, s, s', h => by
    simp only [clearAncestors, Option.some.injEq] at h
    subst h; exact ⟨rfl, rfl, fun _ => .inl rfl⟩
  | 0, some _, _, _, h => by simp [clearAncestors] at h
  | fuel + 1, some b, s, s', h => by
    simp only [clearAncestors] at h
    obtain ⟨hc, hb, hst⟩ := clearAncestors_frame fuel _ _ _ h
    have hf := statusFrame_clearIfFailed b s
    -- the turn on `b` clears `b` at most
    have hturn : ∀ c, ((if (s.mapBlockIndex.entry b).nStatus.Failed then s.clearFailed b else s
        ).mapBlockIndex.entry c).nStatus = (s.mapBlockIndex.entry c).nStatus ∨
        (c = b ∧ ((if (s.mapBlockIndex.entry b).nStatus.Failed then s.clearFailed b else s
          ).mapBlockIndex.entry c).nStatus = (s.mapBlockIndex.entry c).nStatus.clearFailed) := by
      intro c
      split
      · rw [entry_clearFailed]; split
        · exact .inr ⟨‹_›, rfl⟩
        · exact .inl rfl
      · exact .inl rfl
    refine ⟨by rw [hc]; split <;> rfl, by rw [hb]; split <;> rfl, fun c => ?_⟩
    rcases hst c with he | ⟨⟨p, hp, k, hk⟩, he⟩ <;> rcases hturn c with he' | ⟨rfl, he'⟩
    · exact .inl (he.trans he')
    · exact .inr ⟨⟨c, rfl, 0, rfl⟩, he.trans he'⟩
    · refine .inr ⟨⟨b, rfl, k + 1, ?_⟩, by rw [he, he']⟩
      rw [hf.walkBack] at hk
      simp only [BlockMap.walkBack, Option.mem_def.mp hp, Option.some_bind, hk]
    · exact .inr ⟨⟨c, rfl, 0, rfl⟩, by rw [he, he', BlockStatus.clearFailed_clearFailed]⟩

/-! ### The whole call -/

section Call

variable {pindex : Nat} {s s' : ChainState}

theorem reconsiderEntry_some (b : Nat) (ht : s.chainActive.Tip ≠ none) :
    ∃ s', reconsiderEntry b s = some s' := by
  obtain ⟨t, ht⟩ := Option.ne_none_iff_exists'.mp ht
  unfold reconsiderEntry insertIfAboveTip
  dsimp only
  split
  · simp [clearFailed, ht]
  · exact ⟨_, rfl⟩

theorem reconsiderDescendants_some (nHeight : Nat) :
    ∀ (L : List Nat) (s : ChainState), s.chainActive.Tip ≠ none →
      ∃ s', reconsiderDescendants pindex nHeight s L = some s'
  | [], s, _ => ⟨s, rfl⟩
  | b :: rest, s, ht => by
    unfold reconsiderDescendants
    split
    · obtain ⟨s₁, h₁⟩ := reconsiderEntry_some b ht
      rw [h₁, Option.some_bind]
      exact reconsiderDescendants_some nHeight rest s₁
        ((statusFrame_reconsiderEntry h₁).chainActive ▸ ht)
    · exact reconsiderDescendants_some nHeight rest s ht

/-- The first two stages of the call: `pindex` itself, then the walk over the map. -/
theorem reconsiderBlock_eq :
    ReconsiderBlock pindex s = some (true, s') ↔ ∃ s₁ s₂,
      (if !(s.mapBlockIndex.entry pindex).nStatus.IsValid BLOCK_VALID_TRANSACTIONS then
        reconsiderEntry pindex s else some s) = some s₁ ∧
      reconsiderDescendants pindex (s.mapBlockIndex.entry pindex).nHeight s₁
        s₁.mapBlockIndex.keys = some s₂ ∧
      clearAncestors ((s.mapBlockIndex.entry pindex).nHeight + 1) (some pindex) s₂ = some s' := by
  simp [ReconsiderBlock, Option.bind_eq_some]

theorem statusFrame_first :
    (if !(s.mapBlockIndex.entry pindex).nStatus.IsValid BLOCK_VALID_TRANSACTIONS then
      reconsiderEntry pindex s else some s) = some s' → StatusFrame s s' := by
  split
  · exact statusFrame_reconsiderEntry
  · intro h; cases h; exact StatusFrame.refl s

/-- **The call returns.**  In a well-formed tree with an active tip, reconsidering a key returns
true. -/
theorem reconsiderBlock_some (hwf : s.mapBlockIndex.TreeWF) (hp : pindex ∈ s.mapBlockIndex.keys)
    (ht : s.chainActive.Tip ≠ none) : ∃ s', ReconsiderBlock pindex s = some (true, s') := by
  obtain ⟨s₁, h₁⟩ : ∃ s₁, (if !(s.mapBlockIndex.entry pindex).nStatus.IsValid
      BLOCK_VALID_TRANSACTIONS then reconsiderEntry pindex s else some s) = some s₁ := by
    split
    · exact reconsiderEntry_some pindex ht
    · exact ⟨s, rfl⟩
  have hf₁ := statusFrame_first h₁
  obtain ⟨s₂, h₂⟩ : ∃ s₂, reconsiderDescendants pindex (s.mapBlockIndex.entry pindex).nHeight s₁
      s₁.mapBlockIndex.keys = some s₂ :=
    reconsiderDescendants_some _ _ s₁ (hf₁.chainActive ▸ ht)
  have hf := hf₁.trans (statusFrame_reconsiderDescendants _ _ _ h₂)
  obtain ⟨s', h₃⟩ := clearAncestors_some ((s.mapBlockIndex.entry pindex).nHeight + 1) pindex s₂
    (hf.treeWF hwf) (hf.keys ▸ hp)
    (by rw [hf.nHeight]; omega)
  exact ⟨s', reconsiderBlock_eq.mpr ⟨s₁, s₂, h₁, h₂, h₃⟩⟩

/-- **`pindex` and its ancestors are cleared.**  After the call no ancestor of `pindex`, itself
included, carries a failure bit. -/
theorem reconsiderBlock_clears_ancestors (h : ReconsiderBlock pindex s = some (true, s')) :
    ∀ k a, s.mapBlockIndex.walkBack pindex k = some a →
      (s'.mapBlockIndex.entry a).nStatus.Failed = false := by
  obtain ⟨s₁, s₂, h₁, h₂, h₃⟩ := reconsiderBlock_eq.mp h
  have hf := (statusFrame_first h₁).trans (statusFrame_reconsiderDescendants _ _ _ h₂)
  intro k a hk
  exact (clearAncestors_spec _ _ _ _ h₃).2 pindex rfl k a (hf.walkBack ▸ hk)

/-! ### What the body does -/

/-- **One run of the body.**  It clears `b`'s failure bits, inserts `b` when the insertion
condition holds afterwards, and resets `pindexBestInvalid` when it is `b`. -/
theorem reconsiderEntry_spec {b : Nat} (h : reconsiderEntry b s = some s') :
    StatusFrame s s' ∧
    (∀ c, (s'.mapBlockIndex.entry c).nStatus = if c = b then
      (s.mapBlockIndex.entry c).nStatus.clearFailed else (s.mapBlockIndex.entry c).nStatus) ∧
    (∀ c, c ∈ s'.setBlockIndexCandidates ↔
      c ∈ s.setBlockIndexCandidates ∨ (c = b ∧ CandidateCond s' b)) ∧
    s'.pindexBestInvalid = if s.pindexBestInvalid = some b then none else s.pindexBestInvalid := by
  have hf := statusFrame_reconsiderEntry h
  obtain ⟨s₁, h₁, rfl⟩ := Option.map_eq_some'.mp h
  have hs₁ : s₁.mapBlockIndex = (s.clearFailed b).mapBlockIndex ∧
      s₁.pindexBestInvalid = s.pindexBestInvalid := by
    unfold insertIfAboveTip at h₁
    dsimp only at h₁
    split at h₁
    · obtain ⟨t, -, rfl⟩ := Option.map_eq_some'.mp h₁
      split <;> exact ⟨rfl, rfl⟩
    · cases h₁; exact ⟨rfl, rfl⟩
  have hm : (resetBestInvalid b s₁).mapBlockIndex = (s.clearFailed b).mapBlockIndex := by
    unfold resetBestInvalid; split <;> exact hs₁.1
  have hcond : CandidateCond (resetBestInvalid b s₁) b ↔ CandidateCond (s.clearFailed b) b := by
    simp only [CandidateCond, hm, hf.chainActive]; rfl
  refine ⟨hf, fun c => by rw [hm, entry_clearFailed], fun c => ?_, ?_⟩
  · rw [hcond, show (resetBestInvalid b s₁).setBlockIndexCandidates = s₁.setBlockIndexCandidates by
      unfold resetBestInvalid; split <;> rfl]
    unfold insertIfAboveTip at h₁
    dsimp only at h₁
    split at h₁
    · rename_i hv
      obtain ⟨t, ht, rfl⟩ := Option.map_eq_some'.mp h₁
      have ht' : s.chainActive.Tip = some t := ht
      simp only [Bool.and_eq_true, decide_eq_true_eq] at hv
      split
      · rename_i hlt
        simp only [mem_candInsert, clearFailed]
        constructor
        · rintro (rfl | hc)
          · exact .inr ⟨rfl, hv.1, hv.2, t, ht', hlt⟩
          · exact .inl hc
        · rintro (hc | ⟨rfl, -⟩)
          · exact .inr hc
          · exact .inl rfl
      · rename_i hlt
        simp only [CandidateCond, clearFailed, ht', Option.some.injEq, exists_eq_left']
        exact ⟨.inl, fun hc => hc.resolve_right fun hc => hlt hc.2.2.2⟩
    · cases h₁
      rename_i hv
      simp only [Bool.and_eq_true, decide_eq_true_eq, not_and] at hv
      simp only [CandidateCond]
      constructor
      · exact .inl
      · rintro (hc | ⟨rfl, hv₁, hv₂, -⟩)
        · exact hc
        · exact absurd hv₂ (hv hv₁)
  · simp only [resetBestInvalid, hs₁.2]
    split
    · rfl
    · exact hs₁.2

/-- After one run of the body `b` has no failure bit, and it is a candidate when it meets the
insertion condition. -/
theorem reconsiderEntry_clears {b : Nat} (h : reconsiderEntry b s = some s') :
    (s'.mapBlockIndex.entry b).nStatus.Failed = false ∧
      (CandidateCond s' b → b ∈ s'.setBlockIndexCandidates) := by
  obtain ⟨-, hst, hc, -⟩ := reconsiderEntry_spec h
  exact ⟨by simp [hst], fun hcond => (hc b).mpr (.inr ⟨rfl, hcond⟩)⟩

/-! ### Runs of the body -/

/-- `s'` comes from `s` by running the body on entries of `T`: only their statuses change, by
losing the failure bits; the candidates only grow, by entries of `T` that were failed and now
meet the insertion condition; `pindexBestInvalid` is kept or reset, and when kept its entry
keeps its status. -/
structure BodySpec (T : Nat → Prop) (s s' : ChainState) : Prop where
  frame : StatusFrame s s'
  status : ∀ c, (s'.mapBlockIndex.entry c).nStatus = (s.mapBlockIndex.entry c).nStatus ∨
    (T c ∧ (s'.mapBlockIndex.entry c).nStatus = (s.mapBlockIndex.entry c).nStatus.clearFailed)
  cand_sub : s.setBlockIndexCandidates ⊆ s'.setBlockIndexCandidates
  cand : ∀ c ∈ s'.setBlockIndexCandidates, c ∈ s.setBlockIndexCandidates ∨
    (T c ∧ (s.mapBlockIndex.entry c).nStatus.Failed = true ∧ CandidateCond s' c)
  best : ∀ c, s'.pindexBestInvalid = some c → s.pindexBestInvalid = some c ∧
    (s'.mapBlockIndex.entry c).nStatus = (s.mapBlockIndex.entry c).nStatus

namespace BodySpec

variable {T T' : Nat → Prop} {s₁ s₂ s₃ : ChainState}

theorem refl (T : Nat → Prop) (s : ChainState) : BodySpec T s s :=
  ⟨StatusFrame.refl s, fun _ => .inl rfl, List.Subset.refl _, fun _ hc => .inl hc,
    fun _ hc => ⟨hc, rfl⟩⟩

theorem mono (h : BodySpec T s₁ s₂) (hT : ∀ c, T c → T' c) : BodySpec T' s₁ s₂ where
  frame := h.frame
  status c := (h.status c).imp_right fun ⟨hc, he⟩ => ⟨hT c hc, he⟩
  cand_sub := h.cand_sub
  cand c hc := (h.cand c hc).imp_right fun ⟨hc, hf, hcond⟩ => ⟨hT c hc, hf, hcond⟩
  best := h.best

/-- An entry without failure bits keeps its status. -/
theorem status_of_failed_eq_false (h : BodySpec T s₁ s₂) {c : Nat}
    (hc : (s₁.mapBlockIndex.entry c).nStatus.Failed = false) :
    (s₂.mapBlockIndex.entry c).nStatus = (s₁.mapBlockIndex.entry c).nStatus := by
  rcases h.status c with he | ⟨-, he⟩
  · exact he
  · rw [he, BlockStatus.clearFailed_of_failed_eq_false hc]

/-- No failure bit is set. -/
theorem failed_of (h : BodySpec T s₁ s₂) {c : Nat}
    (hc : (s₂.mapBlockIndex.entry c).nStatus.Failed = true) :
    (s₁.mapBlockIndex.entry c).nStatus.Failed = true := by
  rcases h.status c with he | ⟨-, he⟩
  · rwa [he] at hc
  · simp [he] at hc

theorem trans (h₁ : BodySpec T s₁ s₂) (h₂ : BodySpec T s₂ s₃) : BodySpec T s₁ s₃ where
  frame := h₁.frame.trans h₂.frame
  status c := by
    rcases h₂.status c with he₂ | ⟨hT, he₂⟩ <;> rcases h₁.status c with he₁ | ⟨hT', he₁⟩
    · exact .inl (he₂.trans he₁)
    · exact .inr ⟨hT', he₂.trans he₁⟩
    · exact .inr ⟨hT, by rw [he₂, he₁]⟩
    · exact .inr ⟨hT, by rw [he₂, he₁, BlockStatus.clearFailed_clearFailed]⟩
  cand_sub := h₁.cand_sub.trans h₂.cand_sub
  cand c hc := by
    rcases h₂.cand c hc with hc₂ | ⟨hT, hf, hcond⟩
    · rcases h₁.cand c hc₂ with hc₁ | ⟨hT, hf, hcond⟩
      · exact .inl hc₁
      · -- an entry meeting the condition has no failure bit, so the second stretch keeps it
        exact .inr ⟨hT, hf, (h₂.frame.candidateCond_iff
          (h₂.status_of_failed_eq_false hcond.failed_eq_false)).mpr hcond⟩
    · exact .inr ⟨hT, h₁.failed_of hf, hcond⟩
  best c hc := by
    obtain ⟨hc₂, he₂⟩ := h₂.best c hc
    obtain ⟨hc₁, he₁⟩ := h₁.best c hc₂
    exact ⟨hc₁, he₂.trans he₁⟩

end BodySpec

/-- One run of the body on an entry that is not valid. -/
theorem bodySpec_reconsiderEntry {T : Nat → Prop} {b : Nat} (hT : T b)
    (hv : (s.mapBlockIndex.entry b).nStatus.IsValid BLOCK_VALID_TRANSACTIONS = false)
    (h : reconsiderEntry b s = some s') : BodySpec T s s' := by
  obtain ⟨hf, hst, hc, hbest⟩ := reconsiderEntry_spec h
  refine ⟨hf, fun c => ?_, fun c hc' => (hc c).mpr (.inl hc'), fun c hc' => ?_, fun c hc' => ?_⟩
  · rw [hst c]; split
    · rename_i hcb; subst hcb; exact .inr ⟨hT, rfl⟩
    · exact .inl rfl
  · rcases (hc c).mp hc' with hc' | ⟨rfl, hcond⟩
    · exact .inl hc'
    · -- valid once cleared but not valid before: it was failed
      have hv' := hcond.1
      rw [hst, if_pos rfl] at hv'
      simp only [BlockStatus.IsValid, BlockStatus.failed_clearFailed, Bool.not_false,
        Bool.true_and, decide_eq_true_eq] at hv'
      simp only [BlockStatus.IsValid, Bool.and_eq_false_iff, Bool.not_eq_false',
        decide_eq_false_iff_not] at hv
      exact .inr ⟨hT, hv.resolve_right (by
        simpa [BlockStatus.clearFailed] using hv'), hcond⟩
  · rw [hbest] at hc'
    split at hc'
    · cases hc'
    · rename_i hne
      refine ⟨hc', ?_⟩
      rw [hst, if_neg]
      rintro rfl; exact hne hc'

/-- The walk over `mapBlockIndex` runs the body on the entries of the list that are not valid
and whose ancestor at `nHeight` is `pindex`. -/
theorem bodySpec_reconsiderDescendants {pindex nHeight : Nat} :
    ∀ (L : List Nat) (s s' : ChainState), reconsiderDescendants pindex nHeight s L = some s' →
      BodySpec (fun c => c ∈ L ∧ s.mapBlockIndex.GetAncestor c nHeight = some pindex) s s'
  | [], s, s', h => by cases h; exact BodySpec.refl _ s
  | b :: rest, s, s', h => by
    unfold reconsiderDescendants at h
    split at h
    · rename_i hsel
      simp only [Bool.and_eq_true, Bool.not_eq_true', beq_iff_eq] at hsel
      obtain ⟨s₁, h₁, h⟩ := Option.bind_eq_some.mp h
      have hb₁ := bodySpec_reconsiderEntry
        (T := fun c => c ∈ b :: rest ∧ s.mapBlockIndex.GetAncestor c nHeight = some pindex)
        ⟨List.mem_cons_self _ _, hsel.2⟩ hsel.1 h₁
      have hrest := bodySpec_reconsiderDescendants rest s₁ s' h
      rw [hb₁.frame.getAncestor] at hrest
      exact hb₁.trans (hrest.mono fun c hc => ⟨List.mem_cons_of_mem _ hc.1, hc.2⟩)
    · exact (bodySpec_reconsiderDescendants rest s s' h).mono
        fun c hc => ⟨List.mem_cons_of_mem _ hc.1, hc.2⟩

/-- After the walk every entry of the list whose ancestor at `nHeight` is `pindex` has no
failure bit, and one that had a failure bit is a candidate when it meets the insertion
condition. -/
theorem reconsiderDescendants_clears {pindex nHeight : Nat} :
    ∀ (L : List Nat) (s s' : ChainState), reconsiderDescendants pindex nHeight s L = some s' →
      ∀ c ∈ L, s.mapBlockIndex.GetAncestor c nHeight = some pindex →
        (s'.mapBlockIndex.entry c).nStatus.Failed = false ∧
        ((s.mapBlockIndex.entry c).nStatus.Failed = true → CandidateCond s' c →
          c ∈ s'.setBlockIndexCandidates)
  | [], _, _, _, c, hc, _ => absurd hc (List.not_mem_nil c)
  | b :: rest, s, s', h, c, hc, hanc => by
    unfold reconsiderDescendants at h
    split at h
    · rename_i hsel
      simp only [Bool.and_eq_true, Bool.not_eq_true', beq_iff_eq] at hsel
      obtain ⟨s₁, h₁, h⟩ := Option.bind_eq_some.mp h
      have hrest := bodySpec_reconsiderDescendants rest s₁ s' h
      obtain ⟨hf₁, hst₁, -, -⟩ := reconsiderEntry_spec h₁
      by_cases hcb : c = b
      · subst hcb
        obtain ⟨hnf, hins⟩ := reconsiderEntry_clears h₁
        have he := hrest.status_of_failed_eq_false hnf
        refine ⟨by rw [he, hnf], fun _ hcond => hrest.cand_sub (hins ?_)⟩
        exact (hrest.frame.candidateCond_iff he).mp hcond
      · have hc' : c ∈ rest := (List.mem_cons.mp hc).resolve_left hcb
        obtain ⟨hnf, hins⟩ := reconsiderDescendants_clears rest s₁ s' h c hc'
          (by rw [hf₁.getAncestor]; exact hanc)
        exact ⟨hnf, fun hf => hins (by rw [hst₁, if_neg hcb]; exact hf)⟩
    · rename_i hsel
      by_cases hcb : c = b
      · subst hcb
        -- an entry the walk skips although it descends from `pindex` was valid
        have hv : (s.mapBlockIndex.entry c).nStatus.IsValid BLOCK_VALID_TRANSACTIONS = true := by
          simpa [hanc] using hsel
        have hnf : (s.mapBlockIndex.entry c).nStatus.Failed = false := by
          simp only [BlockStatus.IsValid, Bool.and_eq_true, Bool.not_eq_true'] at hv; exact hv.1
        have he := (bodySpec_reconsiderDescendants rest s s' h).status_of_failed_eq_false hnf
        exact ⟨by rw [he, hnf], fun hf => absurd hf (by rw [hnf]; exact Bool.false_ne_true)⟩
      · exact reconsiderDescendants_clears rest s s' h c
          ((List.mem_cons.mp hc).resolve_left hcb) hanc

/-- The first stage runs the body on `pindex` at most. -/
theorem bodySpec_first {s₁ : ChainState}
    (h : (if !(s.mapBlockIndex.entry pindex).nStatus.IsValid BLOCK_VALID_TRANSACTIONS then
      reconsiderEntry pindex s else some s) = some s₁) : BodySpec (· = pindex) s s₁ := by
  split at h
  · rename_i hv
    exact bodySpec_reconsiderEntry rfl (by simpa using hv) h
  · cases h; exact BodySpec.refl _ s

/-- What `ReconsiderBlock(pindex)` guarantees from `s` to `s'`: `pindex`, its ancestors and
its descendants carry no failure bit; every other entry keeps its status; a descendant-or-self
of `pindex` that had a failure bit and now meets the insertion condition is a candidate; and
every entry that became a candidate is one of these. -/
structure ReconsiderSpec (pindex : Nat) (s s' : ChainState) : Prop where
  ancestors : ∀ c, s.mapBlockIndex.IsDescendant pindex c →
    (s'.mapBlockIndex.entry c).nStatus.Failed = false
  descendants : ∀ c ∈ s.mapBlockIndex.keys, s.mapBlockIndex.IsDescendant c pindex →
    (s'.mapBlockIndex.entry c).nStatus.Failed = false
  others : ∀ c, ¬s.mapBlockIndex.IsDescendant pindex c → ¬s.mapBlockIndex.IsDescendant c pindex →
    (s'.mapBlockIndex.entry c).nStatus = (s.mapBlockIndex.entry c).nStatus
  inserted : ∀ c ∈ s.mapBlockIndex.keys, s.mapBlockIndex.IsDescendant c pindex →
    (s.mapBlockIndex.entry c).nStatus.Failed = true → CandidateCond s' c →
      c ∈ s'.setBlockIndexCandidates
  added : ∀ c ∈ s'.setBlockIndexCandidates, c ∈ s.setBlockIndexCandidates ∨
    (s.mapBlockIndex.IsDescendant c pindex ∧ (s.mapBlockIndex.entry c).nStatus.Failed = true ∧
      CandidateCond s' c)

/-- **What reconsidering a block changes.**  In a well-formed tree every call that returns
meets `ReconsiderSpec`. -/
theorem reconsiderBlock_frame (hwf : s.mapBlockIndex.TreeWF)
    (h : ReconsiderBlock pindex s = some (true, s')) : ReconsiderSpec pindex s s' := by
  obtain ⟨s₁, s₂, h₁, h₂, h₃⟩ := reconsiderBlock_eq.mp h
  have hB₁ := bodySpec_first h₁
  have hB₂ := bodySpec_reconsiderDescendants _ _ _ h₂
  rw [hB₁.frame.getAncestor, hB₁.frame.keys] at hB₂
  -- the walk over the map selects exactly the descendants-or-self of `pindex`
  have hsel : ∀ c, c ∈ s.mapBlockIndex.keys ∧
      s.mapBlockIndex.GetAncestor c (s.mapBlockIndex.entry pindex).nHeight = some pindex →
      s.mapBlockIndex.IsDescendant c pindex :=
    fun c hc => (BlockMap.getAncestor_eq_some_iff hwf hc.1).mp hc.2
  have hB := (hB₁.mono fun c hc => (show s.mapBlockIndex.IsDescendant c pindex from
    hc ▸ ⟨0, rfl⟩)).trans (hB₂.mono hsel)
  obtain ⟨hcand₃, -, hst₃⟩ := clearAncestors_frame _ _ _ _ h₃
  have hwalk := hB.frame.walkBack
  -- the walk up `pprev` keeps the status of every entry without a failure bit
  have hkeep : ∀ c, (s₂.mapBlockIndex.entry c).nStatus.Failed = false →
      (s'.mapBlockIndex.entry c).nStatus = (s₂.mapBlockIndex.entry c).nStatus := fun c hc => by
    rcases hst₃ c with he | ⟨-, he⟩
    · exact he
    · rw [he, BlockStatus.clearFailed_of_failed_eq_false hc]
  have hf₃ := statusFrame_clearAncestors _ _ _ _ h₃
  -- a descendant that is now without failure bit meets the condition in `s₂` as in `s'`
  have hcond : ∀ c, (s₂.mapBlockIndex.entry c).nStatus.Failed = false →
      (CandidateCond s' c ↔ CandidateCond s₂ c) :=
    fun c hc => hf₃.candidateCond_iff (hkeep c hc)
  have hclr := reconsiderDescendants_clears _ _ _ h₂
  rw [hB₁.frame.getAncestor, hB₁.frame.keys] at hclr
  refine ⟨fun c ⟨k, hk⟩ => reconsiderBlock_clears_ancestors h k c hk, fun c hc hd => ?_,
    fun c hna hnd => ?_, fun c hc hd hf hcs => ?_, fun c hc => ?_⟩
  · -- descendants: cleared by the walk over the map, and never failed again
    have hanc := (BlockMap.getAncestor_eq_some_iff hwf hc).mpr hd
    have hnf := (hclr c hc hanc).1
    rw [hkeep c hnf, hnf]
  · -- every other entry: the stages touch only `pindex`, its descendants and its ancestors
    rcases hst₃ c with he | ⟨⟨p, hp, hk⟩, -⟩
    · rw [he]
      rcases hB.status c with he' | ⟨hd, -⟩
      · exact he'
      · exact absurd hd hnd
    · cases Option.mem_some_iff.mp hp
      exact absurd (by simpa only [BlockMap.IsDescendant, hwalk] using hk) hna
  · have hanc := (BlockMap.getAncestor_eq_some_iff hwf hc).mpr hd
    by_cases hcp : c = pindex
    · -- `pindex` itself: the first stage clears it and inserts it
      subst hcp
      have hv : (s.mapBlockIndex.entry c).nStatus.IsValid BLOCK_VALID_TRANSACTIONS = false := by
        simp [BlockStatus.IsValid, hf]
      rw [if_pos (by simp [hv])] at h₁
      obtain ⟨hnf₁, hins⟩ := reconsiderEntry_clears h₁
      have he₂ := hB₂.status_of_failed_eq_false hnf₁
      have hnf₂ : (s₂.mapBlockIndex.entry c).nStatus.Failed = false := by rw [he₂, hnf₁]
      rw [hcand₃]
      exact hB₂.cand_sub (hins ((hB₂.frame.candidateCond_iff he₂).mp ((hcond c hnf₂).mp hcs)))
    · -- a proper descendant: the first stage leaves it failed, the walk clears and inserts it
      have hf₁ : (s₁.mapBlockIndex.entry c).nStatus.Failed = true := by
        rcases hB₁.status c with he | ⟨hcp', -⟩
        · rw [he]; exact hf
        · exact absurd hcp' hcp
      rw [hcand₃]
      exact (hclr c hc hanc).2 hf₁ ((hcond c (hclr c hc hanc).1).mp hcs)
  · rw [hcand₃] at hc
    rcases hB.cand c hc with hc | ⟨hd, hf, hcs⟩
    · exact .inl hc
    · exact .inr ⟨hd, hf, (hcond c hcs.failed_eq_false).mpr hcs⟩

/-- Genesis, `A` above it, and `B` and `C` above `A`, with `A` failed, `B` failed as its child
and `C` valid: reconsidering `A` meets `ReconsiderSpec`. -/
theorem reconsiderBlock_frame_fork :
    let s₀ : ChainState := ⟨⟨[0, 1, 2, 3], fun b =>
      ⟨[none, some 0, some 1, some 1].getD b none, [0, 1, 2, 2].getD b 0,
        ⟨5, true, b = 1, b = 2⟩, 1, b + 1, b + 1, b + 1, 0, 0, 0, 1, 0⟩⟩,
      ⟨[0]⟩, [0, 3], [], [], 5, some 1⟩
    ∃ s', ReconsiderBlock 1 s₀ = some (true, s') ∧ ReconsiderSpec 1 s₀ s' := by
  intro s₀
  obtain ⟨s', h⟩ : ∃ s', ReconsiderBlock 1 s₀ = some (true, s') :=
    reconsiderBlock_some (by decide) (by decide) (by decide)
  exact ⟨s', h, reconsiderBlock_frame (by decide) h⟩

/-- Invalidating `A` on genesis–A–B and reconsidering it: both `A` and `B` are unfailed again,
`B` is a candidate again, and `pindexBestInvalid` is reset. -/
example :
    ((InvalidateBlock (fun _ => true) 1
      ⟨⟨[0, 1, 2], fun b => ⟨[none, some 0, some 1].getD b none, b, ⟨5, true, false, false⟩, 1,
        b + 1, b + 1, b + 1, 0, 0, 0, 1, 0⟩⟩, ⟨[0, 1, 2]⟩, [2], [], [], 4, none⟩).bind
      fun r => ReconsiderBlock 1 r.2).map
      (fun r => (r.1, (r.2.mapBlockIndex.entry 1).nStatus.Failed,
        (r.2.mapBlockIndex.entry 2).nStatus.Failed, decide (2 ∈ r.2.setBlockIndexCandidates),
        r.2.pindexBestInvalid)) =
      some (true, false, false, true, none) := by
  decide

end Call

end ChainState

end Ecc
