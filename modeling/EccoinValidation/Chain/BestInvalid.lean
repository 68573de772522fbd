import EccoinValidation.Chain.Reconsider

/-!
# Chain — the best invalid block

`pindexBestInvalid` points at the invalid block with the most work seen so far.
`InvalidateBlock` records `pindex` there through `InvalidChainFound`.  `ReconsiderBlock` resets
it when it clears the failure bits of the entry it points at, in the body it runs on `pindex`
and on each descendant; the walk up `pprev` clears the failure bits of `pindex`'s ancestors
without that reset.

`BestInvalidFailed` says that the pointer is null or points at an entry with a failure bit.

* `reconsiderBlock_leaves_bestInvalid_unfailed`: invalidating `A` on genesis–A–B and then
  reconsidering `B` leaves `pindexBestInvalid` at `A`, which no longer has a failure bit.
-/

namespace Ecc

namespace ChainState

/-- `pindexBestInvalid` is null or points at an entry with a failure bit. -/
def BestInvalidFailed (s : ChainState) : Prop :=
  ∀ c ∈ s.pindexBestInvalid, (s.mapBlockIndex.entry c).nStatus.Failed = true

instance (s : ChainState) : Decidable s.BestInvalidFailed :=
  inferInstanceAs (Decidable (∀ c ∈ s.pindexBestInvalid, _))

variable {disconnectOk : Nat → Bool} {pindex : Nat} {s s' : ChainState}

/-- Genesis–A–B with `B` the tip and no best invalid block.  `InvalidateBlock(A)` returns true
and points `pindexBestInvalid` at `A`, failed; `ReconsiderBlock(B)` returns true, clears `A` on
its walk up `pprev`, and leaves the pointer at `A`, now without a failure bit. -/
theorem reconsiderBlock_leaves_bestInvalid_unfailed :
    let s₀ : ChainState := ⟨⟨[0, 1, 2], fun b => ⟨[none, some 0, some 1].getD b none, b,
      ⟨5, true, false, false⟩, 1, b + 1, b + 1, b + 1, 0, 0, 0, 1, 0⟩⟩, ⟨[0, 1, 2]⟩, [2], [], [], 4,
      none⟩
    s₀.BestInvalidFailed ∧
    ((InvalidateBlock (fun _ => true) 1 s₀).map fun r => (r.1, decide r.2.BestInvalidFailed)) =
      some (true, true) ∧
    (((InvalidateBlock (fun _ => true) 1 s₀).bind fun r => ReconsiderBlock 2 r.2).map fun r =>
      (r.1, r.2.pindexBestInvalid, (r.2.mapBlockIndex.entry 1).nStatus.Failed,
        decide r.2.BestInvalidFailed)) = some (true, some 1, false, false) := by
  dsimp only
  decide

end ChainState

end Ecc
