import EccoinValidation.Finality.LockTime

/-!
# Finality — BIP 68 sequence locks

`CalculateSequenceLocks` turns the relative locks of a transaction's inputs into the pair
(last invalid height, last invalid time): each enabled input asks for its coin's height plus
its value, or for the median time past before its coin plus its value in 512-second units,
and the pair is the running maximum of these minus one, starting from `(-1, -1)`.
`EvaluateSequenceLocks` accepts a block whose height and whose parent's median time past are
both strictly above the pair.

`CheckSequenceLocks` evaluates a transaction for the next block, on a stack entry whose parent
is the tip.  Mempool coins are taken to confirm in that block.  When asked, it caches the pair
in `LockPoints`, with `maxInputBlock` the tip's ancestor at the highest confirmed input height,
and a later call may evaluate the cached pair instead, as long as `TestLockPointValidity`
finds `maxInputBlock` on the active chain.

* `sequenceLockLoop_ge` and `sequenceLockLoop_lt`: the loop's pair bounds every enabled
  input's requirement, and it stays below a bound when every requirement does.
* `LockState.ancestors_agree`: while cached lock points stay valid, the next blocks of the two
  states have the same ancestors below the entry the points depend on.
* `checkSequenceLocks_cached_sound`: reusing valid cached lock points never admits a
  transaction a fresh evaluation rejects.  The cached pair already covers every input that
  was confirmed; an input that was in the mempool passed only with a zero lock, which any
  later confirmation at or below the new tip also meets.
-/

namespace Ecc

/-- The block a lock is evaluated against: an entry of the map, or the stack entry
`CheckSequenceLocks` builds for the next block, one above `tip` with `pprev = tip`. -/
inductive LockBlock
  | entry (b : Nat)
  | next (tip : Nat)
deriving DecidableEq, Repr

namespace LockBlock

def nHeight (m : BlockMap) : LockBlock → Nat
  | entry b => (m.entry b).nHeight
  | next t => (m.entry t).nHeight + 1

def pprev (m : BlockMap) : LockBlock → Option Nat
  | entry b => (m.entry b).pprev
  | next t => some t

/-- `GetAncestor(h)`; the stack entry is its own ancestor at its height. -/
def GetAncestor (m : BlockMap) : LockBlock → Nat → Option LockBlock
  | entry b, h => (m.GetAncestor b h).map entry
  | next t, h => if h = (m.entry t).nHeight + 1 then some (next t) else (m.GetAncestor t h).map entry

end LockBlock

/-! ### `CalculateSequenceLocks`, `EvaluateSequenceLocks`, `SequenceLocks` -/

section Locks

variable (m : BlockMap) (GetMedianTimePast : LockBlock → Int)

/-- `txin.nSequence & SEQUENCE_LOCKTIME_DISABLE_FLAG`. -/
def IsLockDisabled (txin : CTxIn) : Bool := txin.nSequence &&& SEQUENCE_LOCKTIME_DISABLE_FLAG != 0

/-- `txin.nSequence & SEQUENCE_LOCKTIME_TYPE_FLAG`. -/
def IsTimeLock (txin : CTxIn) : Bool := txin.nSequence &&& SEQUENCE_LOCKTIME_TYPE_FLAG != 0

/-- `txin.nSequence & SEQUENCE_LOCKTIME_MASK`. -/
def lockValue (txin : CTxIn) : Int := (txin.nSequence &&& SEQUENCE_LOCKTIME_MASK).toNat

/-- The ancestor height a time lock measures from: `max(nCoinHeight - 1, 0)`. -/
def lockAncestorHeight (nCoinHeight : Int) : Nat := (max (nCoinHeight - 1) 0).toNat

/-- The loop of `CalculateSequenceLocks` over the inputs paired with `prevHeights`: the running
`nMinHeight` and `nMinTime`, and `prevHeights` with the disabled inputs' entries zeroed.
`none` is a `NULL` ancestor dereferenced. -/
def sequenceLockLoop (block : LockBlock) :
    List (CTxIn × Int) → Int → Int → Option (Int × Int × List Int)
  | [], nMinHeight, nMinTime => some (nMinHeight, nMinTime, [])
  | (txin, nCoinHeight) :: rest, nMinHeight, nMinTime =>
    if IsLockDisabled txin then
      (sequenceLockLoop block rest nMinHeight nMinTime).map fun r => (r.1, r.2.1, 0 :: r.2.2)
    else if IsTimeLock txin then do
      let a ← block.GetAncestor m (lockAncestorHeight nCoinHeight)
      let nCoinTime := GetMedianTimePast a
      let r ← sequenceLockLoop block rest nMinHeight
        (max nMinTime (nCoinTime + lockValue txin * 2 ^ SEQUENCE_LOCKTIME_GRANULARITY - 1))
      pure (r.1, r.2.1, nCoinHeight :: r.2.2)
    else
      (sequenceLockLoop block rest (max nMinHeight (nCoinHeight + lockValue txin - 1)) nMinTime).map
        fun r => (r.1, r.2.1, nCoinHeight :: r.2.2)

/-- `static_cast<uint32_t>(tx.nVersion) >= 2 && flags & LOCKTIME_VERIFY_SEQUENCE`. -/
def EnforceBIP68 (tx : CTransaction) (flags : Int) : Bool :=
  2 ≤ tx.nVersion % 2 ^ 32 && HasFlag flags LOCKTIME_VERIFY_SEQUENCE

/-- `CalculateSequenceLocks(tx, flags, prevHeights, block)`: the pair, and `prevHeights` as the
call leaves it.  `none` is the failed size assertion or a `NULL` ancestor. -/
def CalculateSequenceLocks (tx : CTransaction) (flags : Int) (prevHeights : List Int)
    (block : LockBlock) : Option ((Int × Int) × List Int) :=
  if prevHeights.length ≠ tx.vin.length then none
  else if !EnforceBIP68 tx flags then some ((-1, -1), prevHeights)
  else (sequenceLockLoop m GetMedianTimePast block (tx.vin.zip prevHeights) (-1) (-1)).map
    fun r => ((r.1, r.2.1), r.2.2)

/-- `EvaluateSequenceLocks(block, lockPair)`; `none` is the failed `assert(block.pprev)`. -/
def EvaluateSequenceLocks (block : LockBlock) (lockPair : Int × Int) : Option Bool := do
  let p ← block.pprev m
  let nBlockTime := GetMedianTimePast (.entry p)
  pure !(decide ((block.nHeight m : Int) ≤ lockPair.1) || decide (nBlockTime ≤ lockPair.2))

/-- `SequenceLocks(tx, flags, prevHeights, block)`. -/
def SequenceLocks (tx : CTransaction) (flags : Int) (prevHeights : List Int) (block : LockBlock) :
    Option Bool := do
  let r ← CalculateSequenceLocks m GetMedianTimePast tx flags prevHeights block
  EvaluateSequenceLocks m GetMedianTimePast block r.1

theorem evaluateSequenceLocks_next (t : Nat) (lockPair : Int × Int) :
    EvaluateSequenceLocks m GetMedianTimePast (.next t) lockPair =
      some (decide (lockPair.1 < (m.entry t).nHeight + 1) &&
        decide (lockPair.2 < GetMedianTimePast (.entry t))) := by
  simp [EvaluateSequenceLocks, LockBlock.pprev, LockBlock.nHeight, ← decide_not, Int.not_le]

/-- What the loop's pair covers: it is at least its start, and at least every enabled input's
requirement. -/
theorem sequenceLockLoop_ge {block : LockBlock} :
    ∀ {l : List (CTxIn × Int)} {h₀ t₀ h t : Int} {ps : List Int},
      sequenceLockLoop m GetMedianTimePast block l h₀ t₀ = some (h, t, ps) →
      h₀ ≤ h ∧ t₀ ≤ t ∧ ps = l.map (fun p => if IsLockDisabled p.1 then 0 else p.2) ∧
      ∀ p ∈ l, IsLockDisabled p.1 = false →
        (IsTimeLock p.1 = false → p.2 + lockValue p.1 - 1 ≤ h) ∧
        (IsTimeLock p.1 = true → ∃ a, block.GetAncestor m (lockAncestorHeight p.2) = some a ∧
          GetMedianTimePast a + lockValue p.1 * 2 ^ SEQUENCE_LOCKTIME_GRANULARITY - 1 ≤ t)
  | [], h₀, t₀, h, t, ps, hr => by
      simp only [sequenceLockLoop, Option.some.injEq, Prod.mk.injEq] at hr
      obtain ⟨rfl, rfl, rfl⟩ := hr
      exact ⟨le_rfl, le_rfl, rfl, fun _ hp => absurd hp (List.not_mem_nil _)⟩
  | (txin, c) :: rest, h₀, t₀, h, t, ps, hr => by
      unfold sequenceLockLoop at hr
      split_ifs at hr with hd ht
      · obtain ⟨⟨h', t', ps'⟩, hr', he⟩ := Option.map_eq_some'.mp hr
        simp only [Prod.mk.injEq] at he; obtain ⟨rfl, rfl, rfl⟩ := he
        obtain ⟨h1, h2, h3, h4⟩ := sequenceLockLoop_ge hr'
        exact ⟨h1, h2, by simp [hd, h3], List.forall_mem_cons.mpr ⟨by simp [hd], h4⟩⟩
      · obtain ⟨a, ha, hr⟩ := Option.bind_eq_some.mp hr
        obtain ⟨⟨h', t', ps'⟩, hr', hre⟩ := Option.bind_eq_some.mp hr
        simp only [pure, Option.some.injEq, Prod.mk.injEq] at hre; obtain ⟨rfl, rfl, rfl⟩ := hre
        obtain ⟨h1, h2, h3, h4⟩ := sequenceLockLoop_ge hr'
        refine ⟨h1, le_trans (le_max_left _ _) h2, by simp [hd, h3],
          List.forall_mem_cons.mpr ⟨fun _ => ⟨fun h => Bool.noConfusion (ht.symm.trans h),
            fun _ => ⟨a, ha, le_trans (le_max_right _ _) h2⟩⟩, h4⟩⟩
      · obtain ⟨⟨h', t', ps'⟩, hr', he⟩ := Option.map_eq_some'.mp hr
        simp only [Prod.mk.injEq] at he; obtain ⟨rfl, rfl, rfl⟩ := he
        obtain ⟨h1, h2, h3, h4⟩ := sequenceLockLoop_ge hr'
        exact ⟨le_trans (le_max_left _ _) h1, h2, by simp [hd, h3], List.forall_mem_cons.mpr
          ⟨fun _ => ⟨fun _ => le_trans (le_max_right _ _) h1, fun h => absurd h ht⟩, h4⟩⟩

/-- The loop returns, and below given bounds, when its start and every enabled input's
requirement are below them. -/
theorem sequenceLockLoop_lt {block : LockBlock} {X Y : Int} :
    ∀ {l : List (CTxIn × Int)} {h₀ t₀ : Int}, h₀ < X → t₀ < Y →
      (∀ p ∈ l, IsLockDisabled p.1 = false →
        (IsTimeLock p.1 = false → p.2 + lockValue p.1 - 1 < X) ∧
        (IsTimeLock p.1 = true → ∃ a, block.GetAncestor m (lockAncestorHeight p.2) = some a ∧
          GetMedianTimePast a + lockValue p.1 * 2 ^ SEQUENCE_LOCKTIME_GRANULARITY - 1 < Y)) →
      ∃ h t ps, sequenceLockLoop m GetMedianTimePast block l h₀ t₀ = some (h, t, ps) ∧ h < X ∧ t < Y
  | [], h₀, t₀, hh, ht, _ => ⟨h₀, t₀, [], rfl, hh, ht⟩
  | (txin, c) :: rest, h₀, t₀, hh, ht, hl => by
      have hrest := fun p hp => hl p (List.mem_cons_of_mem _ hp)
      unfold sequenceLockLoop
      split_ifs with hd htl
      · obtain ⟨h, t, ps, hr, hX, hY⟩ := sequenceLockLoop_lt hh ht hrest
        exact ⟨h, t, 0 :: ps, by simp [hr], hX, hY⟩
      · obtain ⟨a, ha, hay⟩ := (hl _ (List.mem_cons_self _ _) (by simpa using hd)).2 (by simpa using htl)
        obtain ⟨h, t, ps, hr, hX, hY⟩ := sequenceLockLoop_lt hh (max_lt ht hay) hrest
        exact ⟨h, t, c :: ps, by simp only [ha, hr, Option.bind_eq_bind, Option.some_bind]; rfl, hX, hY⟩
      · have hx := (hl _ (List.mem_cons_self _ _) (by simpa using hd)).1 (by simpa using htl)
        obtain ⟨h, t, ps, hr, hX, hY⟩ := sequenceLockLoop_lt (max_lt hh hx) ht hrest
        exact ⟨h, t, c :: ps, by simp [hr], hX, hY⟩

/-! ### `CheckSequenceLocks` -/

/-- `LockPoints`: the cached pair, and the entry the pair depends on. -/
structure LockPoints where
  height : Int
  time : Int
  maxInputBlock : Option Nat
deriving DecidableEq, Repr

/-- `TestLockPointValidity(lp)`: the entry the pair depends on, if any, is on the active
chain. -/
def TestLockPointValidity (chainActive : CChain) (lp : LockPoints) : Bool :=
  match lp.maxInputBlock with
  | none => true
  | some b => chainActive.Contains m b

/-- The height the mempool-backed view gives a coin of the mempool. -/
def MEMPOOL_HEIGHT : Nat := 0x7FFFFFFF

/-- What `CheckSequenceLocks` reads of the node: the active chain, and the height of each coin
in the view on `pcoinsTip` and the mempool. -/
structure LockView where
  chainActive : CChain
  GetCoin : COutPoint → Option Nat

/-- The height an input counts at: a mempool coin confirms in the next block. -/
def lockHeight (tipHeight nHeight : Nat) : Int :=
  if nHeight = MEMPOOL_HEIGHT then tipHeight + 1 else nHeight

/-- The loop filling `prevheights`; `none` is the "Missing input" return. -/
def prevHeightsOf (view : LockView) (tipHeight : Nat) : List CTxIn → Option (List Int)
  | [] => some []
  | txin :: rest => do
    let h ← view.GetCoin txin.prevout
    let ps ← prevHeightsOf view tipHeight rest
    pure (lockHeight tipHeight h :: ps)

/-- `maxInputHeight`: the highest input height other than the next block's. -/
def maxInputHeight (tipHeight : Nat) (prevheights : List Int) : Int :=
  prevheights.foldl
    (fun (acc height : Int) => if height ≠ (tipHeight : Int) + 1 then max acc height else acc) 0

/-- `CheckSequenceLocks(tx, flags, lp, useExistingLockPoints)`: the verdict, and the lock
points as the call leaves them (`lp = none` is a `NULL` pointer).  `none` is a failed
assertion or a `NULL` dereference. -/
def CheckSequenceLocks (view : LockView) (tx : CTransaction) (flags : Int)
    (lp : Option LockPoints) (useExistingLockPoints : Bool) :
    Option (Bool × Option LockPoints) := do
  let tip ← view.chainActive.Tip
  let index := LockBlock.next tip
  let tipHeight := (m.entry tip).nHeight
  if useExistingLockPoints then
    let lp ← lp
    let r ← EvaluateSequenceLocks m GetMedianTimePast index (lp.height, lp.time)
    pure (r, some lp)
  else
    match prevHeightsOf view tipHeight tx.vin with
    | none => pure (false, lp)
    | some prevheights => do
      let r ← CalculateSequenceLocks m GetMedianTimePast tx flags prevheights index
      let lp := lp.map fun _ => ⟨r.1.1, r.1.2,
        m.GetAncestor tip (maxInputHeight tipHeight r.2).toNat⟩
      let ok ← EvaluateSequenceLocks m GetMedianTimePast index r.1
      pure (ok, lp)

/-! ### Spec lemmas -/

theorem lockAncestorHeight_le {c : Int} {n : Nat} (h : c ≤ n + 1) : lockAncestorHeight c ≤ n := by
  unfold lockAncestorHeight; omega

@[simp] theorem lockAncestorHeight_succ (n : Nat) : lockAncestorHeight ((n : Int) + 1) = n := by
  unfold lockAncestorHeight; omega

theorem lockValue_nonneg (txin : CTxIn) : 0 ≤ lockValue txin := Int.natCast_nonneg _

theorem checkSequenceLocks_existing {view : LockView} {tip : Nat}
    (ht : view.chainActive.Tip = some tip) (tx : CTransaction) (flags : Int) (lp : LockPoints) :
    CheckSequenceLocks m GetMedianTimePast view tx flags (some lp) true =
      (EvaluateSequenceLocks m GetMedianTimePast (.next tip) (lp.height, lp.time)).map
        fun r => (r, some lp) := by
  simp [CheckSequenceLocks, ht, Option.map_eq_bind]

theorem checkSequenceLocks_fresh {view : LockView} {tip : Nat}
    (ht : view.chainActive.Tip = some tip) (tx : CTransaction) (flags : Int)
    (lp : Option LockPoints) :
    CheckSequenceLocks m GetMedianTimePast view tx flags lp false =
      match prevHeightsOf view (m.entry tip).nHeight tx.vin with
      | none => some (false, lp)
      | some ph => (CalculateSequenceLocks m GetMedianTimePast tx flags ph (.next tip)).bind fun r =>
          (EvaluateSequenceLocks m GetMedianTimePast (.next tip) r.1).map fun ok =>
            (ok, lp.map fun _ => ⟨r.1.1, r.1.2,
              m.GetAncestor tip (maxInputHeight (m.entry tip).nHeight r.2).toNat⟩) := by
  simp only [CheckSequenceLocks, ht, Option.bind_eq_bind, Option.some_bind, Bool.false_eq_true,
    if_false]
  split <;> simp [Option.map_eq_bind]

theorem prevHeightsOf_some {view : LockView} {H : Nat} :
    ∀ {l : List CTxIn} {ps : List Int}, prevHeightsOf view H l = some ps →
      (∀ txin ∈ l, ∃ h, view.GetCoin txin.prevout = some h) ∧
        ps = l.map fun txin => lockHeight H ((view.GetCoin txin.prevout).getD 0)
  | [], ps, h => by simp only [prevHeightsOf, Option.some.injEq] at h; simp [← h]
  | txin :: rest, ps, h => by
      simp only [prevHeightsOf, Option.bind_eq_bind, Option.bind_eq_some, pure,
        Option.some.injEq] at h
      obtain ⟨c, hc, ps', hps', rfl⟩ := h
      obtain ⟨h₁, rfl⟩ := prevHeightsOf_some hps'
      refine ⟨?_, by simp [hc]⟩
      intro x hx
      rcases List.mem_cons.mp hx with rfl | hx
      · exact ⟨c, hc⟩
      · exact h₁ x hx

theorem prevHeightsOf_of_forall {view : LockView} {H : Nat} :
    ∀ {l : List CTxIn}, (∀ txin ∈ l, ∃ h, view.GetCoin txin.prevout = some h) →
      prevHeightsOf view H l = some (l.map fun txin => lockHeight H ((view.GetCoin txin.prevout).getD 0))
  | [], _ => rfl
  | txin :: rest, hall => by
      obtain ⟨c, hc⟩ := hall txin (List.mem_cons_self _ _)
      have hrest := prevHeightsOf_of_forall (H := H) fun x hx => hall x (List.mem_cons_of_mem _ hx)
      simp [prevHeightsOf, hc, hrest]

theorem zip_map_self {α β : Type} (f : α → β) : ∀ l : List α, l.zip (l.map f) = l.map fun x => (x, f x)
  | [] => rfl
  | x :: l => by simp [zip_map_self f l]

theorem calculateSequenceLocks_eq (tx : CTransaction) (flags : Int) (f : CTxIn → Int)
    (block : LockBlock) :
    CalculateSequenceLocks m GetMedianTimePast tx flags (tx.vin.map f) block =
      if EnforceBIP68 tx flags then
        (sequenceLockLoop m GetMedianTimePast block (tx.vin.map fun x => (x, f x)) (-1) (-1)).map
          fun r => ((r.1, r.2.1), r.2.2)
      else some ((-1, -1), tx.vin.map f) := by
  simp only [CalculateSequenceLocks, List.length_map, ne_eq, not_true_eq_false, if_false,
    zip_map_self]
  cases EnforceBIP68 tx flags <;> rfl

/-! ### `maxInputHeight` -/

section MaxInput

variable {K : Int}

theorem le_foldl_skip_max : ∀ (l : List Int) (acc : Int),
    acc ≤ l.foldl (fun (a x : Int) => if x ≠ K then max a x else a) acc
  | [], _ => le_rfl
  | x :: l, acc => by
      simp only [List.foldl_cons]
      split_ifs
      · exact le_trans (le_max_left _ _) (le_foldl_skip_max l _)
      · exact le_foldl_skip_max l _

theorem mem_le_foldl_skip_max : ∀ (l : List Int) (acc x : Int), x ∈ l → x ≠ K →
    x ≤ l.foldl (fun (a x : Int) => if x ≠ K then max a x else a) acc
  | [], _, _, hx, _ => absurd hx (List.not_mem_nil _)
  | y :: l, acc, x, hx, hK => by
      simp only [List.foldl_cons]
      rcases List.mem_cons.mp hx with rfl | hx
      · rw [if_pos hK]; exact le_trans (le_max_right _ _) (le_foldl_skip_max l _)
      · exact mem_le_foldl_skip_max l _ x hx hK

theorem foldl_skip_max_le {B : Int} : ∀ (l : List Int) (acc : Int), acc ≤ B →
    (∀ x ∈ l, x ≠ K → x ≤ B) → l.foldl (fun (a x : Int) => if x ≠ K then max a x else a) acc ≤ B
  | [], _, hacc, _ => hacc
  | y :: l, acc, hacc, hl => by
      simp only [List.foldl_cons]
      apply foldl_skip_max_le l _ _ fun x hx => hl x (List.mem_cons_of_mem _ hx)
      split_ifs with hy
      · exact max_le hacc (hl y (List.mem_cons_self _ _) hy)
      · exact hacc

end MaxInput

theorem checkSequenceLocks_fresh_true {view : LockView} {tip : Nat}
    (ht : view.chainActive.Tip = some tip) {tx : CTransaction} {flags : Int} {lp₀ lp : LockPoints}
    (h : CheckSequenceLocks m GetMedianTimePast view tx flags (some lp₀) false = some (true, some lp)) :
    ∃ ph r, prevHeightsOf view (m.entry tip).nHeight tx.vin = some ph ∧
      CalculateSequenceLocks m GetMedianTimePast tx flags ph (.next tip) = some r ∧
      EvaluateSequenceLocks m GetMedianTimePast (.next tip) r.1 = some true ∧
      lp = ⟨r.1.1, r.1.2, m.GetAncestor tip (maxInputHeight (m.entry tip).nHeight r.2).toNat⟩ := by
  rw [checkSequenceLocks_fresh m GetMedianTimePast ht] at h
  split at h
  · simp at h
  · rename_i ph hph
    obtain ⟨r, hr, h⟩ := Option.bind_eq_some.mp h
    obtain ⟨ok, hok, he⟩ := Option.map_eq_some'.mp h
    simp only [Option.map_some', Prod.mk.injEq, Option.some.injEq] at he
    obtain ⟨rfl, rfl⟩ := he
    exact ⟨ph, r, hph, hr, hok, rfl⟩

theorem checkSequenceLocks_fresh_of {view : LockView} {tip : Nat}
    (ht : view.chainActive.Tip = some tip) {tx : CTransaction} {flags : Int}
    {lp : Option LockPoints} {ph : List Int} {r : (Int × Int) × List Int} {ok : Bool}
    (hph : prevHeightsOf view (m.entry tip).nHeight tx.vin = some ph)
    (hr : CalculateSequenceLocks m GetMedianTimePast tx flags ph (.next tip) = some r)
    (he : EvaluateSequenceLocks m GetMedianTimePast (.next tip) r.1 = some ok) :
    (CheckSequenceLocks m GetMedianTimePast view tx flags lp false).map Prod.fst = some ok := by
  rw [checkSequenceLocks_fresh m GetMedianTimePast ht]
  simp [hph, hr, he]

/-! ### Reusing cached lock points -/

/-- A node state as `CheckSequenceLocks` reads it, with what a running node keeps true: the
active chain is well formed and has a tip, and every confirmed coin of the view is at most
as high as the tip. -/
structure LockState where
  view : LockView
  tip : Nat
  tip_eq : view.chainActive.Tip = some tip
  wf : CChain.ChainWF m view.chainActive
  coin_le_tip : ∀ o h, view.GetCoin o = some h → h ≠ MEMPOOL_HEIGHT → h ≤ (m.entry tip).nHeight

namespace LockState

variable {m} (S : LockState m)

theorem getElem_tip : S.view.chainActive.vChain[(m.entry S.tip).nHeight]? = some S.tip := by
  rw [S.wf.height_tip S.tip_eq]; exact CChain.ChainWF.getElem_tip S.tip_eq

theorem exists_getElem {j : Nat} (hj : j ≤ (m.entry S.tip).nHeight) :
    ∃ b, S.view.chainActive.vChain[j]? = some b :=
  ⟨_, List.getElem?_eq_getElem
    (by have := (List.getElem?_eq_some_iff.mp S.getElem_tip).1; omega)⟩

/-- Below the next block, the stack entry's ancestors are the active chain's entries. -/
theorem next_ancestor {j : Nat} (hj : j ≤ (m.entry S.tip).nHeight) :
    (LockBlock.next S.tip).GetAncestor m j = (S.view.chainActive.vChain[j]?).map .entry := by
  simp only [LockBlock.GetAncestor, show j ≠ (m.entry S.tip).nHeight + 1 by omega, if_false,
    S.wf.getAncestor S.getElem_tip hj]

theorem lockHeight_le {o : COutPoint} {h : Nat} (hc : S.view.GetCoin o = some h) :
    lockHeight (m.entry S.tip).nHeight h ≤ (m.entry S.tip).nHeight + 1 ∧
      (h ≠ MEMPOOL_HEIGHT → lockHeight (m.entry S.tip).nHeight h = h) := by
  unfold lockHeight
  split_ifs with hm
  · exact ⟨le_rfl, fun h' => absurd hm h'⟩
  · have := S.coin_le_tip o h hc hm
    exact ⟨by omega, fun _ => rfl⟩

/-- What valid cached lock points guarantee: the entry they depend on, the ancestor of `S₁`'s
tip at height `n`, is on `S₂`'s active chain, so `S₂`'s tip is at least as high and below `n`
the next blocks of the two states have the same ancestors. -/
theorem ancestors_agree (S₁ S₂ : LockState m) {n : Nat} (hn : n ≤ (m.entry S₁.tip).nHeight)
    {lp : LockPoints} (hlp : lp.maxInputBlock = m.GetAncestor S₁.tip n)
    (hvalid : TestLockPointValidity m S₂.view.chainActive lp = true) :
    n ≤ (m.entry S₂.tip).nHeight ∧ ∀ j ≤ n,
      (LockBlock.next S₁.tip).GetAncestor m j = (LockBlock.next S₂.tip).GetAncestor m j := by
  obtain ⟨b, hb₁⟩ := S₁.exists_getElem hn
  have hb₂ : S₂.view.chainActive.vChain[n]? = some b := by
    simp only [TestLockPointValidity, hlp, S₁.wf.getAncestor S₁.getElem_tip hn, hb₁] at hvalid
    rwa [CChain.contains_iff, (S₁.wf n b hb₁).2.1] at hvalid
  have hn₂ : n ≤ (m.entry S₂.tip).nHeight := by
    have h₁ := (List.getElem?_eq_some_iff.mp hb₂).1
    have h₂ := S₂.wf.height_tip S₂.tip_eq
    omega
  refine ⟨hn₂, fun j hj => ?_⟩
  rw [S₁.next_ancestor (hj.trans hn), S₂.next_ancestor (hj.trans hn₂),
    CChain.ChainWF.agree_below S₁.wf S₂.wf hb₁ hb₂ hj]

/-- An input counted at the next block meets a pair below that block only with a zero lock:
its time lock is read at the tip itself. -/
theorem lockValue_eq_zero_of_next {txin : CTxIn} {h t : Int}
    (hb : h < (m.entry S.tip).nHeight + 1 ∧ t < GetMedianTimePast (.entry S.tip))
    (hH : IsTimeLock txin = false → ((m.entry S.tip).nHeight + 1 : Int) + lockValue txin - 1 ≤ h)
    (hT : IsTimeLock txin = true → ∃ a, (LockBlock.next S.tip).GetAncestor m
        (lockAncestorHeight ((m.entry S.tip).nHeight + 1)) = some a ∧
      GetMedianTimePast a + lockValue txin * 2 ^ SEQUENCE_LOCKTIME_GRANULARITY - 1 ≤ t) :
    lockValue txin = 0 := by
  have hv := lockValue_nonneg txin
  cases htl : IsTimeLock txin
  · have := hH htl; omega
  · obtain ⟨a, ha, hale⟩ := hT htl
    rw [lockAncestorHeight_succ, S.next_ancestor le_rfl, S.getElem_tip] at ha
    cases ha
    simp only [SEQUENCE_LOCKTIME_GRANULARITY] at hale
    omega

/-- A zero lock is met in the next block by an input counted at most at that block, when the
median time past does not decrease along the active chain. -/
theorem zero_lock_met
    (hmtp : ∀ i j a b : Nat, i ≤ j → S.view.chainActive.vChain[i]? = some a →
      S.view.chainActive.vChain[j]? = some b →
        GetMedianTimePast (.entry a) ≤ GetMedianTimePast (.entry b))
    {txin : CTxIn} (hv : lockValue txin = 0) {c : Int} (hc : c ≤ (m.entry S.tip).nHeight + 1) :
    (IsTimeLock txin = false → c + lockValue txin - 1 < (m.entry S.tip).nHeight + 1) ∧
    (IsTimeLock txin = true → ∃ a, (LockBlock.next S.tip).GetAncestor m (lockAncestorHeight c) =
        some a ∧ GetMedianTimePast a + lockValue txin * 2 ^ SEQUENCE_LOCKTIME_GRANULARITY - 1 <
          GetMedianTimePast (.entry S.tip)) := by
  refine ⟨fun _ => by omega, fun _ => ?_⟩
  obtain ⟨b, hb⟩ := S.exists_getElem (lockAncestorHeight_le hc)
  refine ⟨.entry b, by rw [S.next_ancestor (lockAncestorHeight_le hc), hb]; rfl, ?_⟩
  have := hmtp _ _ b S.tip (lockAncestorHeight_le hc) hb S.getElem_tip
  rw [hv]; omega

end LockState

/-- **Reusing cached lock points never admits what a fresh evaluation rejects.**  Let
`CheckSequenceLocks` have accepted `tx` in a state `S₁` and cached its lock points `lp`.  In a
state `S₂` whose median time past does not decrease along the active chain, where `lp` is still
valid and every input is still available (a confirmed input at the same height, a mempool input
still in the mempool or confirmed at most at the new tip), if the cached evaluation accepts
`tx` then so does a fresh one. -/
theorem checkSequenceLocks_cached_sound (S₁ S₂ : LockState m) (tx : CTransaction) (flags : Int)
    (lp₀ lp : LockPoints)
    (hmtp₂ : ∀ i j a b : Nat, i ≤ j → S₂.view.chainActive.vChain[i]? = some a →
      S₂.view.chainActive.vChain[j]? = some b →
        GetMedianTimePast (.entry a) ≤ GetMedianTimePast (.entry b))
    (h₁ : CheckSequenceLocks m GetMedianTimePast S₁.view tx flags (some lp₀) false =
      some (true, some lp))
    (hvalid : TestLockPointValidity m S₂.view.chainActive lp = true)
    (hinputs : ∀ txin ∈ tx.vin, ∀ h, S₁.view.GetCoin txin.prevout = some h →
      if h = MEMPOOL_HEIGHT then ∃ h', S₂.view.GetCoin txin.prevout = some h' ∧
        (h' = MEMPOOL_HEIGHT ∨ h' ≤ (m.entry S₂.tip).nHeight)
      else S₂.view.GetCoin txin.prevout = some h)
    (hcached : (CheckSequenceLocks m GetMedianTimePast S₂.view tx flags (some lp) true).map
      Prod.fst = some true) :
    (CheckSequenceLocks m GetMedianTimePast S₂.view tx flags none false).map Prod.fst =
      some true := by
  obtain ⟨ph₁, r₁, hph₁, hr₁, he₁, rfl⟩ :=
    checkSequenceLocks_fresh_true m GetMedianTimePast S₁.tip_eq h₁
  have hb₁ : r₁.1.1 < (m.entry S₁.tip).nHeight + 1 ∧
      r₁.1.2 < GetMedianTimePast (.entry S₁.tip) := by
    simpa [evaluateSequenceLocks_next] using he₁
  have hb₂ : r₁.1.1 < (m.entry S₂.tip).nHeight + 1 ∧
      r₁.1.2 < GetMedianTimePast (.entry S₂.tip) := by
    simpa [checkSequenceLocks_existing m GetMedianTimePast S₂.tip_eq, evaluateSequenceLocks_next]
      using hcached
  obtain ⟨havail₁, rfl⟩ := prevHeightsOf_some hph₁
  have havail₂ : ∀ txin ∈ tx.vin, ∃ h, S₂.view.GetCoin txin.prevout = some h := by
    intro txin hin
    obtain ⟨h, hh⟩ := havail₁ txin hin
    have := hinputs txin hin h hh
    split_ifs at this
    · obtain ⟨h', hh', -⟩ := this; exact ⟨h', hh'⟩
    · exact ⟨h, this⟩
  have hph₂ := prevHeightsOf_of_forall (H := (m.entry S₂.tip).nHeight) havail₂
  rw [calculateSequenceLocks_eq] at hr₁
  by_cases hE : EnforceBIP68 tx flags
  · rw [if_pos hE] at hr₁
    obtain ⟨⟨hp, tp, ps⟩, hloop₁, rfl⟩ := Option.map_eq_some'.mp hr₁
    obtain ⟨-, ht0, hps, hcov⟩ := sequenceLockLoop_ge m GetMedianTimePast hloop₁
    simp only [List.map_map] at hps
    simp only at hb₁ hb₂
    set f₁ := fun txin : CTxIn => lockHeight (m.entry S₁.tip).nHeight
      ((S₁.view.GetCoin txin.prevout).getD 0)
    set f₂ := fun txin : CTxIn => lockHeight (m.entry S₂.tip).nHeight
      ((S₂.view.GetCoin txin.prevout).getD 0)
    -- the cached entry `maxInputBlock` is on both chains, so they agree up to its height
    set maxN := (maxInputHeight (m.entry S₁.tip).nHeight ps).toNat
    have hmax₁ : maxInputHeight (m.entry S₁.tip).nHeight ps ≤ (m.entry S₁.tip).nHeight := by
      refine foldl_skip_max_le ps 0 (by omega) fun x hx hxK => ?_
      rw [hps] at hx
      obtain ⟨txin, hin, rfl⟩ := List.mem_map.mp hx
      obtain ⟨h, hh⟩ := havail₁ txin hin
      have := (S₁.lockHeight_le hh).1
      simp only [Function.comp, hh, Option.getD_some] at hxK ⊢
      split_ifs at hxK ⊢ <;> omega
    have hle_max : ∀ x ∈ ps, x ≠ (m.entry S₁.tip).nHeight + 1 → x ≤ maxN := fun x hx hxK => by
      have := mem_le_foldl_skip_max ps 0 x hx hxK
      simp only [maxN, maxInputHeight] at this ⊢; omega
    obtain ⟨-, hagree⟩ := S₁.ancestors_agree S₂ (show maxN ≤ _ by omega) rfl hvalid
    -- every enabled input's requirement in `S₂` is below the next block's height and time
    have key : ∀ p ∈ tx.vin.map (fun x => (x, f₂ x)), IsLockDisabled p.1 = false →
        (IsTimeLock p.1 = false → p.2 + lockValue p.1 - 1 < (m.entry S₂.tip).nHeight + 1) ∧
        (IsTimeLock p.1 = true → ∃ a, (LockBlock.next S₂.tip).GetAncestor m
            (lockAncestorHeight p.2) = some a ∧
          GetMedianTimePast a + lockValue p.1 * 2 ^ SEQUENCE_LOCKTIME_GRANULARITY - 1 <
            GetMedianTimePast (.entry S₂.tip)) := by
      intro p hp hd
      obtain ⟨txin, hin, rfl⟩ := List.mem_map.mp hp
      obtain ⟨hcovH, hcovT⟩ := hcov (txin, f₁ txin) (List.mem_map.mpr ⟨txin, hin, rfl⟩) hd
      obtain ⟨h, hh⟩ := havail₁ txin hin
      have hin₂ := hinputs txin hin h hh
      by_cases hm : h = MEMPOOL_HEIGHT
      · -- in the mempool at `S₁`: the lock passed there only if it is zero
        rw [if_pos hm] at hin₂
        obtain ⟨h', hh', -⟩ := hin₂
        have hf₁ : f₁ txin = (m.entry S₁.tip).nHeight + 1 := by simp [f₁, hh, lockHeight, hm]
        exact S₂.zero_lock_met GetMedianTimePast hmtp₂ (S₁.lockValue_eq_zero_of_next
          GetMedianTimePast hb₁ (fun htl => hf₁ ▸ hcovH htl) fun htl => hf₁ ▸ hcovT htl)
          (by simpa [f₂, hh'] using (S₂.lockHeight_le hh').1)
      · -- confirmed at `S₁`: the same height at `S₂`, and the same ancestor below the cache
        rw [if_neg hm] at hin₂
        have hf₁ : f₁ txin = h := by simp [f₁, hh, lockHeight, hm]
        have hf₂ : f₂ txin = h := by simp [f₂, hin₂, lockHeight, hm]
        have hh₁ := S₁.coin_le_tip _ _ hh hm
        refine ⟨fun htl => by have := hcovH htl; simp only at this ⊢; omega, fun htl => ?_⟩
        obtain ⟨a, ha, hale⟩ := hcovT htl
        have hps_mem : (h : Int) ∈ ps := by
          rw [hps]; exact List.mem_map.mpr ⟨txin, hin, by simp [hd, ← hf₁, f₁]⟩
        have hj : lockAncestorHeight (f₁ txin) ≤ maxN := by
          have := hle_max _ hps_mem (by omega)
          exact lockAncestorHeight_le (by omega)
        rw [hagree _ hj] at ha
        exact ⟨a, by simpa [hf₂, ← hf₁] using ha, by simp only at hale ⊢; omega⟩
    obtain ⟨h, t, ps₂, hloop₂, hX, hY⟩ := sequenceLockLoop_lt m GetMedianTimePast
      (show (-1 : Int) < (m.entry S₂.tip).nHeight + 1 by omega)
      (show (-1 : Int) < GetMedianTimePast (.entry S₂.tip) by omega) key
    refine checkSequenceLocks_fresh_of m GetMedianTimePast S₂.tip_eq hph₂
      (by rw [calculateSequenceLocks_eq, if_pos hE, hloop₂]; rfl) ?_
    simp [evaluateSequenceLocks_next, hX, hY]
  · rw [if_neg hE] at hr₁
    cases hr₁
    refine checkSequenceLocks_fresh_of m GetMedianTimePast S₂.tip_eq hph₂
      (by rw [calculateSequenceLocks_eq, if_neg hE]) ?_
    simp only at hb₂
    simp [evaluateSequenceLocks_next, hb₂.2]
    omega

end Locks

/-- Genesis, `1` and `2` above it, and a version-2 transaction spending a coin of block `1`
under a zero height lock.  The lock points computed while `1` is the tip are reused one block
later, with `2` the tip: they are still valid, the cached evaluation accepts, and the theorem
gives that a fresh evaluation accepts too. -/
theorem cachedLockPoints_next_block :
    let m : BlockMap := ⟨[0, 1, 2], fun b =>
      ⟨if b = 0 then none else some (b - 1), b, ⟨3, true, false, false⟩, 1, b + 1, b + 1, 0, 0, 0,
        0, 1, 0⟩⟩
    let tx : CTransaction := ⟨5, 2, 0, [⟨⟨4, 0⟩, [], 0⟩], [], 0, 0, false⟩
    CheckSequenceLocks m (fun _ => 10) ⟨⟨[0, 1]⟩, fun _ => some 1⟩ tx 3 (some ⟨0, 0, none⟩) false =
        some (true, some ⟨0, -1, some 1⟩) ∧
      (CheckSequenceLocks m (fun _ => 10) ⟨⟨[0, 1, 2]⟩, fun _ => some 1⟩ tx 3
        (some ⟨0, -1, some 1⟩) true).map Prod.fst = some true ∧
      (CheckSequenceLocks m (fun _ => 10) ⟨⟨[0, 1, 2]⟩, fun _ => some 1⟩ tx 3 none false).map
        Prod.fst = some true := by
  intro m tx
  have h₁ : CheckSequenceLocks m (fun _ => 10) ⟨⟨[0, 1]⟩, fun _ => some 1⟩ tx 3
      (some ⟨0, 0, none⟩) false = some (true, some ⟨0, -1, some 1⟩) := by decide
  have hcached : (CheckSequenceLocks m (fun _ => 10) ⟨⟨[0, 1, 2]⟩, fun _ => some 1⟩ tx 3
      (some ⟨0, -1, some 1⟩) true).map Prod.fst = some true := by decide
  let S₁ : LockState m := ⟨⟨⟨[0, 1]⟩, fun _ => some 1⟩, 1, rfl, by
      intro h b hb
      match h, hb with
      | 0, hb => cases hb; decide
      | 1, hb => cases hb; decide,
    by intro o h ho _; cases ho; decide⟩
  let S₂ : LockState m := ⟨⟨⟨[0, 1, 2]⟩, fun _ => some 1⟩, 2, rfl, by
      intro h b hb
      match h, hb with
      | 0, hb => cases hb; decide
      | 1, hb => cases hb; decide
      | 2, hb => cases hb; decide,
    by intro o h ho _; cases ho; decide⟩
  exact ⟨h₁, hcached, checkSequenceLocks_cached_sound m (fun _ => 10) S₁ S₂ tx 3 ⟨0, 0, none⟩
    ⟨0, -1, some 1⟩ (fun _ _ _ _ _ _ _ => le_rfl) h₁ (by decide)
    (by intro txin hin h hh; simp [tx] at hin; subst hin; cases hh; decide) hcached⟩

end Ecc
