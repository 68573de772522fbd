import EccoinValidation.Block.CheckBlock
import EccoinValidation.Finality.LockTime

/-!
# Block — the contextual checks

`ContextualCheckBlock(block, state, pindexPrev)` checks a block against its parent: every
transaction final at the block's height and the parent's median time past, and, once a
supermajority of recent headers advertise version 2, a coinbase script that starts with the
block's height.  The height is computed for a `NULL` parent as 0, and `IsSuperMajority` stops
at a `NULL` ancestor; the median time past is read through `pindexPrev` unconditionally,
because the lock-time flags there always hold `LOCKTIME_MEDIAN_TIME_PAST`.

`IsSuperMajority(minVersion, pstart, nRequired, params)` walks `pprev` from `pstart` for at
most `nMajorityWindow` entries, counting those of version at least `minVersion`, and stops as
soon as the count reaches `nRequired`.  `chainPrefix` is what the walk can see: the first
`min(nMajorityWindow, chain length)` entries.

* `isSuperMajority_iff_count`: the verdict is whether at least `nRequired` entries of that
  prefix have the version; the early exit only caps the count at `nRequired`.
* `contextualCheckBlock_null_parent_dereferences`: under a `NULL` parent every block, among
  them one `CheckBlock` accepts, dereferences `NULL` for the median time past.
-/

namespace Ecc

/-! ### `IsSuperMajority` -/

/-- The first `W` entries of the chain from `pstart`, newest first, fewer when the chain ends
(a `NULL` `pprev`) sooner. -/
def chainPrefix (m : BlockMap) : Nat → Option Nat → List Nat
  | 0, _ => []
  | _ + 1, none => []
  | W + 1, some b => b :: chainPrefix m W (m.entry b).pprev

/-- The entries of a list whose version is at least `minVersion`. -/
def countVersion (m : BlockMap) (minVersion : Int) (l : List Nat) : Nat :=
  (l.filter fun b => decide (minVersion ≤ (m.entry b).nVersion)).length

@[simp] theorem countVersion_nil (m : BlockMap) (minVersion : Int) :
    countVersion m minVersion [] = 0 := rfl

theorem countVersion_cons (m : BlockMap) (minVersion : Int) (b : Nat) (l : List Nat) :
    countVersion m minVersion (b :: l) =
      (if minVersion ≤ (m.entry b).nVersion then 1 else 0) + countVersion m minVersion l := by
  unfold countVersion
  by_cases h : minVersion ≤ (m.entry b).nVersion <;> simp [h, List.filter_cons, Nat.add_comm]

/-- From a count `nFound` not above `nRequired`, the loop ends at the count over the prefix it
can see, capped at `nRequired`. -/
theorem superMajorityLoop_eq (m : BlockMap) (minVersion : Int) (nRequired : Nat) :
    ∀ (W : Nat) (pstart : Option Nat) (nFound : Nat), nFound ≤ nRequired →
      superMajorityLoop m minVersion nRequired W pstart nFound =
        min nRequired (nFound + countVersion m minVersion (chainPrefix m W pstart))
  | 0, _, nFound, h => by simp [superMajorityLoop, chainPrefix, h]
  | _ + 1, none, nFound, h => by simp [superMajorityLoop, chainPrefix, h]
  | W + 1, some b, nFound, h => by
    simp only [superMajorityLoop, chainPrefix, countVersion_cons]
    split_ifs with hlt hv hv
    · rw [superMajorityLoop_eq m minVersion nRequired W _ _ (by omega)]; omega
    · rw [superMajorityLoop_eq m minVersion nRequired W _ _ h]; omega
    · omega
    · omega

/-- **`IsSuperMajority` counts the window.**  For every block map, every `pstart` (`none` for
`NULL`), version and threshold, the call is true exactly when at least `nRequired` of the first
`min(nMajorityWindow, chain length)` entries from `pstart` have version at least
`minVersion`; the loop's count is that count capped at `nRequired`, so stopping early never
changes the verdict. -/
theorem isSuperMajority_iff_count (m : BlockMap) (params : ConsensusParams) (minVersion : Int)
    (pstart : Option Nat) (nRequired : Nat) :
    (IsSuperMajority m params minVersion pstart nRequired = true ↔
      nRequired ≤ countVersion m minVersion (chainPrefix m params.nMajorityWindow.toNat pstart)) ∧
    superMajorityLoop m minVersion nRequired params.nMajorityWindow.toNat pstart 0 =
      min nRequired (countVersion m minVersion (chainPrefix m params.nMajorityWindow.toNat pstart)) := by
  have hloop := superMajorityLoop_eq m minVersion nRequired params.nMajorityWindow.toNat pstart 0
    (Nat.zero_le _)
  rw [Nat.zero_add] at hloop
  refine ⟨?_, hloop⟩
  simp only [IsSuperMajority, hloop, decide_eq_true_eq]
  omega

/-- Three blocks of versions 2, 1 and 2 in a window of two: one of the two it sees has the
version. -/
example : IsSuperMajority
    ⟨[0, 1, 2], fun b => ⟨[none, some 0, some 1].getD b none, b, ⟨3, true, false, false⟩,
      1, 1, 1, 0, 0, 0, 0, [2, 1, 2].getD b 0, 0⟩⟩
    ⟨2, 2⟩ 2 (some 2) 2 = false := by decide

/-! ### `ContextualCheckBlock` -/

section Check

variable {Stx σ : Type} (C : BlockChecks) (S : ServiceChannel Stx σ)

end Check

/-- A coinbase-only block that `CheckBlock` accepts, under a `NULL` parent: whatever the
parameters, the map and the state, the median time past is read through `NULL`. -/
theorem contextualCheckBlock_null_parent_dereferences :
    let block : CBlock :=
      ⟨1, 10, [⟨1, 1, 0, [⟨⟨0, 0xffffffff⟩, [], 0⟩], [], 0, 0, false⟩], false, 0, 0, false, 100,
        true, true, false⟩
    (CheckBlock permissiveChecks
      (specServiceChannel (fun _ => some ()) (fun _ _ => true) fun (n : Nat) _ _ _ => n + 1)
      block CValidationState.fresh 0 true true).ok = true ∧
    ∀ (params : ConsensusParams) (ScriptOfHeight : Int → List UInt8) (m : BlockMap)
      (GetMedianTimePast : Nat → Int) (state : CValidationState),
      ContextualCheckBlock params ScriptOfHeight m GetMedianTimePast block state none = none :=
  ⟨by decide, fun _ _ _ _ _ => rfl⟩

end Ecc
