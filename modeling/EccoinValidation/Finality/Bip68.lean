import EccoinValidation.Finality.SequenceLocks

/-!
# Finality — the sequence locks against BIP 68, input by input

BIP 68 states a relative lock per input: an enabled input whose lock counts blocks needs its
coin's height plus the lock value to be at most the block's height, and one whose lock counts
time needs the median time past of the block before its coin plus the value in 512-second
units to be at most the median time past of the block's parent.  `CalculateSequenceLocks`
folds these into one pair, and `EvaluateSequenceLocks` compares the block with the pair.

This module states the per-input reading and the fold as BIP 68 writes them, and connects
them to the code's loop.  `bip68Pair` is the componentwise maximum of `-1` and each enabled
input's bound minus one; `InputLockMet` is one input's own lock.

* `sequenceLockLoop_eq_fold`: the loop computes the running maximum over the enabled inputs
  of each type, and zeroes the disabled inputs' heights.
* `calculateSequenceLocks_eq_bip68`: so `CalculateSequenceLocks` returns `bip68Pair`, or
  `(-1, -1)` when BIP 68 is not enforced.
* `sequenceLockLoop_mono`: a loop over more enabled inputs gives a pair at least as high;
  clearing an input's disable flag is such a change.
* `sequenceLocks_eq_true_iff`: a true return is exactly BIP 68 not enforced, or every enabled
  input meeting its own lock; a missing ancestor makes the call fail, never return true.
* `sequenceLocks_bip68`: on a well-formed tree, with the coins' heights at most the block's,
  `SequenceLocks` returns, and it returns true exactly when BIP 68 is not enforced or every
  enabled input meets its own lock.
-/

namespace Ecc

namespace LockBlock

/-- The entry of the map a lock block stands on: the entry itself, or the tip below the
stack entry. -/
def base : LockBlock → Nat
  | entry b => b
  | next t => t

/-- In a well-formed tree a lock block standing on a key has an ancestor at every height up
to its own. -/
theorem getAncestor_isSome {m : BlockMap} (hm : m.TreeWF) {B : LockBlock}
    (hB : B.base ∈ m.keys) {j : Nat} (hj : j ≤ B.nHeight m) : (B.GetAncestor m j).isSome := by
  cases B with
  | entry b =>
    obtain ⟨a, ha, -⟩ := BlockMap.getAncestor_spec hm (b := b) hB hj
    simp [GetAncestor, ha]
  | next t =>
    simp only [GetAncestor]
    split_ifs with h
    · rfl
    · obtain ⟨a, ha, -⟩ := BlockMap.getAncestor_spec hm (b := t) hB
        (show j ≤ (m.entry t).nHeight by simp only [nHeight] at hj; omega)
      simp [ha]

/-- `EvaluateSequenceLocks` at a block with a parent compares the pair with the block's
height and the parent's median time past. -/
theorem evaluateSequenceLocks_of_pprev (m : BlockMap) (GetMedianTimePast : LockBlock → Int)
    {B : LockBlock} {prev : Nat} (hprev : B.pprev m = some prev) (lockPair : Int × Int) :
    EvaluateSequenceLocks m GetMedianTimePast B lockPair =
      some (decide (lockPair.1 < B.nHeight m) &&
        decide (lockPair.2 < GetMedianTimePast (.entry prev))) := by
  simp [EvaluateSequenceLocks, hprev, ← decide_not, Int.not_le]

end LockBlock

/-- The input with `SEQUENCE_LOCKTIME_DISABLE_FLAG` cleared. -/
def CTxIn.clearLockDisable (txin : CTxIn) : CTxIn :=
  { txin with nSequence := txin.nSequence &&& ~~~SEQUENCE_LOCKTIME_DISABLE_FLAG }

theorem UInt32.and_not_eq_self {x d : UInt32} (h : x &&& d = 0) : x &&& ~~~d = x := by
  apply UInt32.eq_of_toBitVec_eq
  have h' : x.toBitVec &&& d.toBitVec = 0 := congrArg UInt32.toBitVec h
  show x.toBitVec &&& ~~~d.toBitVec = x.toBitVec
  ext i
  have := congrArg (fun v => BitVec.getLsbD v i) h'
  simp only [BitVec.getLsbD_and, BitVec.getLsbD_not, BitVec.getLsbD_zero] at this ⊢
  cases hx : x.toBitVec.getLsbD i <;> simp_all

/-- Clearing the flag of an input that does not have it changes nothing. -/
theorem CTxIn.clearLockDisable_of_enabled {txin : CTxIn} (h : IsLockDisabled txin = false) :
    txin.clearLockDisable = txin := by
  simp only [IsLockDisabled, bne_eq_false_iff_eq] at h
  simp only [CTxIn.clearLockDisable, UInt32.and_not_eq_self h]

section Bip68

variable (m : BlockMap) (GetMedianTimePast : LockBlock → Int)

/-- An enabled input whose lock counts blocks. -/
def IsHeightLocked (txin : CTxIn) : Bool := !IsLockDisabled txin && !IsTimeLock txin

/-- An enabled input whose lock counts time. -/
def IsTimeLocked (txin : CTxIn) : Bool := !IsLockDisabled txin && IsTimeLock txin

/-- The last invalid height of a height lock on a coin of height `p.2`. -/
def heightLockBound (p : CTxIn × Int) : Int := p.2 + lockValue p.1 - 1

/-- The last invalid median time past of a time lock on a coin of height `p.2`, measured from
the block before the coin's; `none` when `block` has no ancestor there. -/
def timeLockBound (block : LockBlock) (p : CTxIn × Int) : Option Int :=
  (block.GetAncestor m (lockAncestorHeight p.2)).map fun a =>
    GetMedianTimePast a + lockValue p.1 * 2 ^ SEQUENCE_LOCKTIME_GRANULARITY - 1

/-- BIP 68's pair for inputs paired with their coins' heights: the componentwise maximum of
`-1` and each enabled input's bound. -/
def bip68Pair (block : LockBlock) (l : List (CTxIn × Int)) : Option (Int × Int) :=
  ((l.filter fun p => IsTimeLocked p.1).mapM (timeLockBound m GetMedianTimePast block)).map
    fun ts => (((l.filter fun p => IsHeightLocked p.1).map heightLockBound).foldl max (-1),
      ts.foldl max (-1))

/-- The coins' heights with the disabled inputs' entries zeroed. -/
def zeroDisabled (l : List (CTxIn × Int)) : List Int :=
  l.map fun p => if IsLockDisabled p.1 then 0 else p.2

/-- An enabled input's own lock holds at `block`, of height `H` and with parent median time
past `T`. -/
def InputLockMet (block : LockBlock) (H T : Int) (p : CTxIn × Int) : Prop :=
  IsLockDisabled p.1 = false →
    (IsTimeLock p.1 = false → p.2 + lockValue p.1 ≤ H) ∧
    (IsTimeLock p.1 = true → ∃ a, block.GetAncestor m (lockAncestorHeight p.2) = some a ∧
      GetMedianTimePast a + lockValue p.1 * 2 ^ SEQUENCE_LOCKTIME_GRANULARITY ≤ T)

/-! ### The loop is the fold -/

/-- **The loop computes BIP 68's maxima.**  From any start, the loop's pair is the running
maximum of the start and the bounds of the enabled inputs of each type, and it returns
exactly when every enabled time lock has its ancestor. -/
theorem sequenceLockLoop_eq_fold (block : LockBlock) :
    ∀ (l : List (CTxIn × Int)) (h₀ t₀ : Int),
      sequenceLockLoop m GetMedianTimePast block l h₀ t₀ =
        ((l.filter fun p => IsTimeLocked p.1).mapM (timeLockBound m GetMedianTimePast block)).map
          fun ts => (((l.filter fun p => IsHeightLocked p.1).map heightLockBound).foldl max h₀,
            ts.foldl max t₀, zeroDisabled l)
  | [], _, _ => rfl
  | (txin, c) :: rest, h₀, t₀ => by
    simp only [sequenceLockLoop, sequenceLockLoop_eq_fold block rest, zeroDisabled, List.map_cons,
      List.filter_cons, IsTimeLocked, IsHeightLocked]
    cases hd : IsLockDisabled txin
    · cases ht : IsTimeLock txin
      · -- a height lock
        simp only [Bool.not_false, Bool.true_and, Bool.and_false, Bool.false_eq_true, if_false,
          if_true, List.map_cons, heightLockBound, Option.map_map]
        rfl
      · -- a time lock
        simp only [Bool.not_false, Bool.true_and, Bool.and_false, Bool.false_eq_true, if_false,
          if_true, List.mapM_cons, timeLockBound]
        cases block.GetAncestor m (lockAncestorHeight c) <;>
          cases List.mapM (timeLockBound m GetMedianTimePast block)
            (rest.filter fun p => !IsLockDisabled p.1 && IsTimeLock p.1) <;> rfl
    · -- a disabled input
      simp only [Bool.not_true, Bool.false_and, Bool.false_eq_true, if_false, if_true,
        Option.map_map]
      rfl

theorem mapM_isSome {α β : Type} {f : α → Option β} :
    ∀ {l : List α}, (∀ a ∈ l, (f a).isSome) → (l.mapM f).isSome
  | [], _ => rfl
  | a :: l, h => by
    obtain ⟨b, hb⟩ := Option.isSome_iff_exists.mp (h a (List.mem_cons_self _ _))
    obtain ⟨bs, hbs⟩ := Option.isSome_iff_exists.mp
      (mapM_isSome fun x hx => h x (List.mem_cons_of_mem _ hx))
    simp only [List.mapM_cons, hb, hbs]
    rfl

/-- **`CalculateSequenceLocks` returns BIP 68's pair.**  With one height per input, it
returns `bip68Pair` and the heights with the disabled inputs' entries zeroed, or `(-1, -1)`
and the heights untouched when BIP 68 is not enforced. -/
theorem calculateSequenceLocks_eq_bip68 (tx : CTransaction) (flags : Int) {prevHeights : List Int}
    (hlen : prevHeights.length = tx.vin.length) (block : LockBlock) :
    CalculateSequenceLocks m GetMedianTimePast tx flags prevHeights block =
      if EnforceBIP68 tx flags then
        (bip68Pair m GetMedianTimePast block (tx.vin.zip prevHeights)).map
          fun pair => (pair, zeroDisabled (tx.vin.zip prevHeights))
      else some ((-1, -1), prevHeights) := by
  simp only [CalculateSequenceLocks, hlen, ne_eq, not_true_eq_false, if_false,
    sequenceLockLoop_eq_fold, bip68Pair, Option.map_map]
  cases EnforceBIP68 tx flags <;> rfl

/-- **`SequenceLocks` checks each enabled input's own lock.**  At a block with a parent whose
median time past is nonnegative, with one height per input, the call returns true exactly
when BIP 68 is not enforced or every enabled input meets its lock: the pair's "last invalid"
values turn each strict comparison into the input's `≤`. -/
theorem sequenceLocks_eq_true_iff {B : LockBlock} {prev : Nat} (hprev : B.pprev m = some prev)
    (hT : 0 ≤ GetMedianTimePast (.entry prev)) {tx : CTransaction} {flags : Int}
    {prevHeights : List Int} (hlen : prevHeights.length = tx.vin.length) :
    SequenceLocks m GetMedianTimePast tx flags prevHeights B = some true ↔
      EnforceBIP68 tx flags = false ∨ ∀ p ∈ tx.vin.zip prevHeights,
        InputLockMet m GetMedianTimePast B (B.nHeight m) (GetMedianTimePast (.entry prev)) p := by
  have hH : (0 : Int) ≤ B.nHeight m := Int.natCast_nonneg _
  simp only [SequenceLocks, CalculateSequenceLocks, hlen, ne_eq, not_true_eq_false, if_false,
    Option.bind_eq_bind, LockBlock.evaluateSequenceLocks_of_pprev m GetMedianTimePast hprev]
  cases hE : EnforceBIP68 tx flags
  · -- not enforced: `(-1, -1)` is below every such block
    simp only [Bool.not_false, if_true, Option.some_bind, true_or, iff_true, Option.some.injEq,
      Bool.and_eq_true, decide_eq_true_eq]
    omega
  · simp only [Bool.not_true, Bool.false_eq_true, if_false, Bool.true_eq_false, false_or]
    constructor
    · intro h p hp hd
      obtain ⟨⟨⟨H, T'⟩, ps⟩, hc, he⟩ := Option.bind_eq_some.mp h
      obtain ⟨⟨H', T'', ps'⟩, hl, hre⟩ := Option.map_eq_some'.mp hc
      simp only [Prod.mk.injEq] at hre
      obtain ⟨⟨rfl, rfl⟩, rfl⟩ := hre
      simp only [Option.some.injEq, Bool.and_eq_true, decide_eq_true_eq] at he
      obtain ⟨hHp, hTp⟩ := (sequenceLockLoop_ge m GetMedianTimePast hl).2.2.2 p hp hd
      exact ⟨fun ht => by have := hHp ht; omega,
        fun ht => let ⟨a, ha, hle⟩ := hTp ht; ⟨a, ha, by omega⟩⟩
    · intro h
      obtain ⟨H, T', ps, hl, hHl, hTl⟩ := sequenceLockLoop_lt m GetMedianTimePast
        (show (-1 : Int) < B.nHeight m by omega)
        (show (-1 : Int) < GetMedianTimePast (.entry prev) by omega) fun p hp hd =>
          let ⟨hHp, hTp⟩ := h p hp hd
          ⟨fun ht => by have := hHp ht; omega,
            fun ht => let ⟨a, ha, hle⟩ := hTp ht; ⟨a, ha, by omega⟩⟩
      simp [hl, hHl, hTl]

section Hyps

variable {m} (hm : m.TreeWF) {B : LockBlock} (hB : B.base ∈ m.keys)
  {tx : CTransaction} {flags : Int} {prevHeights : List Int}
  (hlen : prevHeights.length = tx.vin.length)
  (hrange : ∀ h ∈ prevHeights, 0 ≤ h ∧ h ≤ B.nHeight m)
include hm hB hlen hrange

/-- With every coin at most as high as the block, every enabled time lock has its ancestor,
so the pair is computed. -/
theorem calculateSequenceLocks_isSome :
    (CalculateSequenceLocks m GetMedianTimePast tx flags prevHeights B).isSome := by
  rw [calculateSequenceLocks_eq_bip68 m GetMedianTimePast tx flags hlen]
  split
  · simp only [bip68Pair, Option.isSome_map']
    refine mapM_isSome fun p hp => ?_
    have hp₂ := (hrange p.2 (List.of_mem_zip (List.mem_filter.mp hp).1).2).2
    simpa [timeLockBound] using LockBlock.getAncestor_isSome hm hB
      (show lockAncestorHeight p.2 ≤ B.nHeight m by unfold lockAncestorHeight; omega)
  · rfl

end Hyps

/-! ### Clearing a disable flag -/

theorem mem_zip_modify {α β : Type} {f : α → α} {a : α} {b : β} (hf : f a = a) :
    ∀ {l : List α} {l' : List β} {i : Nat}, (a, b) ∈ l.zip l' → (a, b) ∈ (l.modify f i).zip l'
  | [], _, _, h => by simp at h
  | _ :: _, [], _, h => by simp at h
  | x :: xs, y :: ys, 0, h => by
    simp only [List.modify_zero_cons, List.zip_cons_cons, List.mem_cons, Prod.mk.injEq] at h ⊢
    rcases h with ⟨rfl, rfl⟩ | h
    · exact .inl ⟨hf.symm, rfl⟩
    · exact .inr h
  | x :: xs, y :: ys, i + 1, h => by
    simp only [List.modify_succ_cons, List.zip_cons_cons, List.mem_cons] at h ⊢
    exact h.imp id (mem_zip_modify hf)

/-- **More enabled inputs never lower the pair.**  If every enabled input of `l` is an input
of `l'`, the loop over `l'` ends at least as high in both components. -/
theorem sequenceLockLoop_mono {block : LockBlock} {l l' : List (CTxIn × Int)}
    {h₀ t₀ h t h' t' : Int} {ps ps' : List Int}
    (hsub : ∀ p ∈ l, IsLockDisabled p.1 = false → p ∈ l')
    (hr : sequenceLockLoop m GetMedianTimePast block l h₀ t₀ = some (h, t, ps))
    (hr' : sequenceLockLoop m GetMedianTimePast block l' h₀ t₀ = some (h', t', ps')) :
    h ≤ h' ∧ t ≤ t' := by
  obtain ⟨hh₀, ht₀, -, hreq⟩ := sequenceLockLoop_ge m GetMedianTimePast hr'
  obtain ⟨h'', t'', ps'', hr'', hlt, hlt'⟩ := sequenceLockLoop_lt m GetMedianTimePast
    (Int.lt_add_one_of_le hh₀) (Int.lt_add_one_of_le ht₀) fun p hp hd =>
      let ⟨hH, hT⟩ := hreq p (hsub p hp hd) hd
      ⟨fun ht => Int.lt_add_one_of_le (hH ht),
        fun ht => let ⟨a, ha, hle⟩ := hT ht; ⟨a, ha, Int.lt_add_one_of_le hle⟩⟩
  rw [hr] at hr''
  cases hr''
  omega

/-- Clearing input `i`'s disable flag never lowers either component of the pair. -/
theorem calculateSequenceLocks_clearLockDisable {tx : CTransaction} {flags : Int}
    {prevHeights : List Int} {block : LockBlock} (i : Nat) {r r' : (Int × Int) × List Int}
    (hr : CalculateSequenceLocks m GetMedianTimePast tx flags prevHeights block = some r)
    (hr' : CalculateSequenceLocks m GetMedianTimePast
      { tx with vin := tx.vin.modify CTxIn.clearLockDisable i } flags prevHeights block = some r') :
    r.1.1 ≤ r'.1.1 ∧ r.1.2 ≤ r'.1.2 := by
  unfold CalculateSequenceLocks at hr hr'
  simp only [List.length_modify, EnforceBIP68] at hr hr'
  split_ifs at hr hr' with hl hE
  · simp only [Option.some.injEq] at hr hr'
    subst hr hr'
    exact ⟨le_rfl, le_rfl⟩
  · obtain ⟨⟨h, t, ps⟩, hl₁, rfl⟩ := Option.map_eq_some'.mp hr
    obtain ⟨⟨h', t', ps'⟩, hl₂, rfl⟩ := Option.map_eq_some'.mp hr'
    exact sequenceLockLoop_mono m GetMedianTimePast (fun p hp hd =>
      mem_zip_modify (CTxIn.clearLockDisable_of_enabled hd) hp) hl₁ hl₂

/-! ### `SequenceLocks` per input -/

/-- **`SequenceLocks` is BIP 68's per-input check.**  Take a block with a parent whose median
time past is nonnegative, on a well-formed tree, and one height per input, each between 0
and the block's height.  Then the call returns, and it returns true exactly when BIP 68 is
not enforced or every enabled input meets its own lock; `CalculateSequenceLocks` returns
BIP 68's pair with the disabled inputs' heights zeroed; and clearing any input's disable flag
never lowers either component of the pair. -/
theorem sequenceLocks_bip68 {B : LockBlock} {tx : CTransaction} {flags : Int}
    {prevHeights : List Int} (hm : m.TreeWF) (hB : B.base ∈ m.keys) {prev : Nat}
    (hprev : B.pprev m = some prev) (hT : 0 ≤ GetMedianTimePast (.entry prev))
    (hlen : prevHeights.length = tx.vin.length)
    (hrange : ∀ h ∈ prevHeights, 0 ≤ h ∧ h ≤ B.nHeight m) :
    (∃ ok, SequenceLocks m GetMedianTimePast tx flags prevHeights B = some ok) ∧
    (SequenceLocks m GetMedianTimePast tx flags prevHeights B = some true ↔
      EnforceBIP68 tx flags = false ∨ ∀ p ∈ tx.vin.zip prevHeights,
        InputLockMet m GetMedianTimePast B (B.nHeight m) (GetMedianTimePast (.entry prev)) p) ∧
    CalculateSequenceLocks m GetMedianTimePast tx flags prevHeights B =
      (if EnforceBIP68 tx flags then
        (bip68Pair m GetMedianTimePast B (tx.vin.zip prevHeights)).map
          fun pair => (pair, zeroDisabled (tx.vin.zip prevHeights))
      else some ((-1, -1), prevHeights)) ∧
    ∀ (i : Nat) (r r' : (Int × Int) × List Int),
      CalculateSequenceLocks m GetMedianTimePast tx flags prevHeights B = some r →
      CalculateSequenceLocks m GetMedianTimePast
        { tx with vin := tx.vin.modify CTxIn.clearLockDisable i } flags prevHeights B = some r' →
      r.1.1 ≤ r'.1.1 ∧ r.1.2 ≤ r'.1.2 := by
  refine ⟨?_, sequenceLocks_eq_true_iff m GetMedianTimePast hprev hT hlen,
    calculateSequenceLocks_eq_bip68 m GetMedianTimePast tx flags hlen B,
    fun i _ _ => calculateSequenceLocks_clearLockDisable m GetMedianTimePast i⟩
  obtain ⟨r, hr⟩ := Option.isSome_iff_exists.mp
    (calculateSequenceLocks_isSome GetMedianTimePast hm hB hlen hrange :
      (CalculateSequenceLocks m GetMedianTimePast tx flags prevHeights B).isSome)
  simp only [SequenceLocks, hr, Option.bind_eq_bind, Option.some_bind,
    LockBlock.evaluateSequenceLocks_of_pprev m GetMedianTimePast hprev]
  exact ⟨_, rfl⟩

/-- Genesis, `A` and `B`, with median time past 600 per height, and a version-2 transaction
spending a coin of `A` under a height lock of 1, a coin of genesis under a time lock of one
unit, and a third coin with its lock disabled. -/
theorem sequenceLocks_bip68_three_inputs :
    let m : BlockMap := ⟨[0, 1, 2], fun b => ⟨[none, some 0, some 1].getD b none, b,
      ⟨5, true, false, false⟩, 1, b + 1, b + 1, b + 1, 0, 0, 0, 1, 0⟩⟩
    let mtp : LockBlock → Int := fun b => 600 * b.nHeight m
    let tx : CTransaction := ⟨7, 2, 0, [⟨⟨1, 0⟩, [], 1⟩, ⟨⟨2, 0⟩, [], 0x00400001⟩,
      ⟨⟨3, 0⟩, [], 0x80000000⟩], [], 0, 0, false⟩
    (∃ ok, SequenceLocks m mtp tx 1 [1, 0, 2] (.entry 2) = some ok) ∧
    (SequenceLocks m mtp tx 1 [1, 0, 2] (.entry 2) = some true ↔
      EnforceBIP68 tx 1 = false ∨ ∀ p ∈ tx.vin.zip [1, 0, 2],
        InputLockMet m mtp (.entry 2) ((LockBlock.entry 2).nHeight m) (mtp (.entry 1)) p) ∧
    CalculateSequenceLocks m mtp tx 1 [1, 0, 2] (.entry 2) =
      (if EnforceBIP68 tx 1 then
        (bip68Pair m mtp (.entry 2) (tx.vin.zip [1, 0, 2])).map
          fun pair => (pair, zeroDisabled (tx.vin.zip [1, 0, 2]))
      else some ((-1, -1), [1, 0, 2])) ∧
    ∀ (i : Nat) (r r' : (Int × Int) × List Int),
      CalculateSequenceLocks m mtp tx 1 [1, 0, 2] (.entry 2) = some r →
      CalculateSequenceLocks m mtp { tx with vin := tx.vin.modify CTxIn.clearLockDisable i } 1
        [1, 0, 2] (.entry 2) = some r' →
      r.1.1 ≤ r'.1.1 ∧ r.1.2 ≤ r'.1.2 := by
  intro m mtp tx
  exact sequenceLocks_bip68 m mtp (by decide) (by decide) (by decide) (by decide) rfl (by decide)

end Bip68

end Ecc
