import EccoinValidation.Chain.BlockIndex

/-!
# Chain — the chain state

The globals of `main.cpp` that the block-index operations read and write, as one record:
`mapBlockIndex`, `chainActive`, the candidate tips `setBlockIndexCandidates`, the orphan links
`mapBlocksUnlinked`, the dirty set `setDirtyBlockIndex`, the counter `nBlockSequenceId` and
`pindexBestInvalid`.

`setBlockIndexCandidates` is a `std::set` ordered by `CBlockIndexWorkComparator`: by work,
then by sequence id, then by address.  The address breaks every remaining tie, so two distinct
entries are never equivalent: `insert` adds an entry unless it is there, and `erase(pindex)`
removes `pindex`.  The set is a list of handles with exactly these two operations; handles are
the addresses of the arena.  `mapBlocksUnlinked` is a
`std::multimap` keyed by the parent: `insert` puts a pair after those with the same key, and
`equal_range` lists them in that order, which is what a list with appends and filters does.

`nBlockSequenceId` is a `uint32_t` counting received blocks; it is a `Nat` here, which is
exact for the first `2 ^ 31` blocks.

* `eq_of_not_comparator`: the comparator tells every two handles apart, which is why the set
  is a list of distinct handles.
-/

namespace Ecc

/-- `CDiskBlockPos`: a file number and an offset in it. -/
structure CDiskBlockPos where
  nFile : Nat
  nPos : Nat
deriving DecidableEq, Repr

/-- The chain-state globals of `main.cpp`. -/
structure ChainState where
  mapBlockIndex : BlockMap
  chainActive : CChain
  setBlockIndexCandidates : List Nat
  mapBlocksUnlinked : List (Nat × Nat)
  setDirtyBlockIndex : List Nat
  nBlockSequenceId : Nat
  pindexBestInvalid : Option Nat

/-! ### The candidate set -/

/-- Neither entry sorts below the other by work and sequence id. -/
def equivWork (a b : CBlockIndex) : Bool := !workComparator a b && !workComparator b a

/-- Entries the first two keys cannot tell apart carry the same sequence id. -/
theorem nSequenceId_eq_of_equivWork {a b : CBlockIndex} (h : equivWork a b) :
    a.nSequenceId = b.nSequenceId := by
  simp only [equivWork, workComparator, Bool.and_eq_true, Bool.not_eq_true', Bool.or_eq_false_iff,
    decide_eq_false_iff_not, beq_iff_eq, Bool.and_eq_false_imp, decide_eq_true_eq] at h
  omega

/-- `CBlockIndexWorkComparator()(pa, pb)`: `pa` sorts below `pb` when it has less work, or as
much work and was received later, or the same work and sequence id and a higher address. -/
def CBlockIndexWorkComparator (m : BlockMap) (pa pb : Nat) : Bool :=
  workComparator (m.entry pa) (m.entry pb) || (equivWork (m.entry pa) (m.entry pb) && pb < pa)

/-- The comparator tells every two handles apart. -/
theorem eq_of_not_comparator {m : BlockMap} {a b : Nat}
    (hab : CBlockIndexWorkComparator m a b = false) (hba : CBlockIndexWorkComparator m b a = false) :
    a = b := by
  have he : equivWork (m.entry a) (m.entry b) = true := by
    simp_all [CBlockIndexWorkComparator, equivWork]
  have he' : equivWork (m.entry b) (m.entry a) = true := by
    simp_all [CBlockIndexWorkComparator, equivWork]
  simp only [CBlockIndexWorkComparator, he, he', Bool.true_and, Bool.or_eq_false_iff,
    decide_eq_false_iff_not] at hab hba
  omega

/-- Entries with different sequence ids are ordered by their first two keys. -/
theorem comparator_eq_of_nSequenceId_ne {m : BlockMap} {a b : Nat}
    (h : (m.entry a).nSequenceId ≠ (m.entry b).nSequenceId) :
    CBlockIndexWorkComparator m a b = workComparator (m.entry a) (m.entry b) := by
  have : equivWork (m.entry a) (m.entry b) = false :=
    Bool.eq_false_iff.mpr fun he => h (nSequenceId_eq_of_equivWork he)
  simp [CBlockIndexWorkComparator, this]

/-- `setBlockIndexCandidates.insert(b)`. -/
def candInsert (C : List Nat) (b : Nat) : List Nat := if b ∈ C then C else b :: C

/-- `setBlockIndexCandidates.erase(b)`. -/
def candErase (C : List Nat) (b : Nat) : List Nat := C.filter (· != b)

theorem subset_candInsert (C : List Nat) (b : Nat) : C ⊆ candInsert C b := by
  unfold candInsert; split
  · exact List.Subset.refl C
  · exact List.subset_cons_self b C

theorem mem_candInsert {C : List Nat} {b c : Nat} : c ∈ candInsert C b ↔ c = b ∨ c ∈ C := by
  unfold candInsert; split
  · constructor
    · exact .inr
    · rintro (rfl | h) <;> assumption
  · exact List.mem_cons

theorem mem_candInsert_self (C : List Nat) (b : Nat) : b ∈ candInsert C b :=
  mem_candInsert.mpr (.inl rfl)

theorem mem_candErase {C : List Nat} {b c : Nat} : c ∈ candErase C b ↔ c ∈ C ∧ c ≠ b := by
  simp [candErase]

theorem candErase_subset (C : List Nat) (b : Nat) : candErase C b ⊆ C :=
  fun _ hc => (mem_candErase.mp hc).1

/-! ### Status bits -/

namespace BlockStatus

/-- `nStatus |= BLOCK_FAILED_VALID`. -/
def setFailedValid (s : BlockStatus) : BlockStatus := { s with fFailedValid := true }

/-- `nStatus |= BLOCK_FAILED_CHILD`. -/
def setFailedChild (s : BlockStatus) : BlockStatus := { s with fFailedChild := true }

@[simp] theorem failed_setFailedValid (s : BlockStatus) : s.setFailedValid.Failed = true := by
  simp [setFailedValid, Failed]

@[simp] theorem failed_setFailedChild (s : BlockStatus) : s.setFailedChild.Failed = true := by
  simp [setFailedChild, Failed]

end BlockStatus

/-- Overwrite the status of one entry. -/
def BlockMap.setStatus (m : BlockMap) (b : Nat) (f : BlockStatus → BlockStatus) : BlockMap :=
  m.set b { m.entry b with nStatus := f (m.entry b).nStatus }

@[simp] theorem BlockMap.keys_setStatus (m : BlockMap) (b : Nat) (f : BlockStatus → BlockStatus) :
    (m.setStatus b f).keys = m.keys := rfl

theorem BlockMap.entry_setStatus (m : BlockMap) (b c : Nat) (f : BlockStatus → BlockStatus) :
    (m.setStatus b f).entry c =
      if c = b then { m.entry c with nStatus := f (m.entry c).nStatus } else m.entry c := by
  by_cases h : c = b
  · subst h; simp [setStatus]
  · simp [setStatus, h]

end Ecc
