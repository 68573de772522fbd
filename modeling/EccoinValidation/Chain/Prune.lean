import EccoinValidation.Chain.State

/-!
# Chain — pruning the candidate set

`PruneBlockIndexCandidates()` walks `setBlockIndexCandidates` from `begin()` and erases
entries while they sort below the active tip, then asserts that the set is not empty ("Either
the current tip or a successor of it we're working towards is left in
setBlockIndexCandidates").

The set is a list of handles (`Chain.State`), and `begin()` to `end()` visits it in the
comparator's order, lowest first: `candidatesByWork`.  `CBlockIndexWorkComparator` is a strict
total order on handles, so in that order the entries below the tip form a prefix, and the loop,
which stops at the first entry not below the tip, erases exactly them.

* `comparator_irrefl`, `comparator_trans`: with `eq_of_not_comparator`, the comparator is a
  strict total order on handles, for every map.
* `pruneBlockIndexCandidates_eq`: **the loop is the filter.**  With a tip, the call aborts
  exactly when every candidate sorts below it, and otherwise keeps exactly the candidates that
  do not, in the set's order.
* `pruneBlockIndexCandidates_keeps_tip`: when the tip is itself a candidate, the assertion
  holds and the tip stays.

Without a tip the call aborts: on the assertion when the set is empty, on the comparator's
dereference of the null tip otherwise.
-/

namespace Ecc

/-! ### The comparator is a strict total order -/

section Order

variable {m : BlockMap} {a b c : Nat}

theorem comparator_irrefl (m : BlockMap) (a : Nat) : CBlockIndexWorkComparator m a a = false := by
  simp [CBlockIndexWorkComparator, workComparator]

theorem comparator_trans (hab : CBlockIndexWorkComparator m a b = true)
    (hbc : CBlockIndexWorkComparator m b c = true) : CBlockIndexWorkComparator m a c = true := by
  simp only [CBlockIndexWorkComparator, equivWork, workComparator, Bool.or_eq_true,
    Bool.and_eq_true, Bool.not_eq_true', Bool.or_eq_false_iff, decide_eq_true_eq,
    decide_eq_false_iff_not, beq_iff_eq, Bool.and_eq_false_imp] at hab hbc ⊢
  omega

theorem comparator_asymm (hab : CBlockIndexWorkComparator m a b = true) :
    CBlockIndexWorkComparator m b a = false :=
  Bool.eq_false_iff.mpr fun hba => by
    simpa [comparator_irrefl] using comparator_trans hab hba

/-- If `b` sorts below `c` but not below `a`, then `a` sorts below `c`: `a` is `b` or below
it. -/
theorem comparator_of_not_lt (hba : CBlockIndexWorkComparator m b a = false)
    (hbc : CBlockIndexWorkComparator m b c = true) : CBlockIndexWorkComparator m a c = true := by
  cases hab : CBlockIndexWorkComparator m a b
  · rwa [eq_of_not_comparator hab hba]
  · exact comparator_trans hab hbc

end Order

/-! ### The call -/

/-- `setBlockIndexCandidates` as `begin()` to `end()` visits it: by the comparator, lowest
first. -/
def candidatesByWork (m : BlockMap) (C : List Nat) : List Nat :=
  C.insertionSort fun a b => CBlockIndexWorkComparator m b a = false

namespace ChainState

/-- `PruneBlockIndexCandidates()`: erase from `begin()` while the entry sorts below the tip,
then `assert(!setBlockIndexCandidates.empty())`.  The comparator dereferences the tip once the
set is not empty, so a null tip is `none` there, as is a failed assertion. -/
def PruneBlockIndexCandidates (s : ChainState) : Option ChainState :=
  let C := candidatesByWork s.mapBlockIndex s.setBlockIndexCandidates
  (if C = [] then some [] else
    s.chainActive.Tip.map fun t => C.dropWhile (CBlockIndexWorkComparator s.mapBlockIndex · t)).bind
    fun C => if C = [] then none else some { s with setBlockIndexCandidates := C }

end ChainState

/-! ### The loop is the filter -/

section Loop

variable {m : BlockMap} {t : Nat}

theorem mem_candidatesByWork {C : List Nat} {c : Nat} : c ∈ candidatesByWork m C ↔ c ∈ C :=
  List.mem_insertionSort _

theorem sorted_candidatesByWork (m : BlockMap) (C : List Nat) :
    (candidatesByWork m C).Sorted fun a b => CBlockIndexWorkComparator m b a = false :=
  haveI : IsTotal Nat fun a b => CBlockIndexWorkComparator m b a = false :=
    ⟨fun _ _ => (Bool.eq_false_or_eq_true _).imp_left comparator_asymm⟩
  haveI : IsTrans Nat fun a b => CBlockIndexWorkComparator m b a = false :=
    ⟨fun _ _ _ hab hbc => Bool.eq_false_iff.mpr fun hca =>
      Bool.eq_false_iff.mp hab (comparator_of_not_lt hbc hca)⟩
  List.sorted_insertionSort _ C

/-- Over a list in the comparator's order, erasing from the front while below `t` erases
every entry below `t`: the first entry that is not below `t` has none below `t` after it. -/
theorem dropWhile_eq_filter : ∀ {L : List Nat},
    L.Sorted (fun a b => CBlockIndexWorkComparator m b a = false) →
    L.dropWhile (CBlockIndexWorkComparator m · t) = L.filter (!CBlockIndexWorkComparator m · t)
  | [], _ => rfl
  | x :: xs, hs => by
    obtain ⟨hx, hs⟩ := List.sorted_cons.mp hs
    cases hxt : CBlockIndexWorkComparator m x t
    · have hrest : xs.filter (!CBlockIndexWorkComparator m · t) = xs :=
        List.filter_eq_self.mpr fun y hy => by
          simpa using mt (comparator_of_not_lt (hx y hy)) (by simp [hxt])
      simp [hxt, hrest]
    · simp [hxt, dropWhile_eq_filter hs]

end Loop

namespace ChainState

variable {s : ChainState} {t : Nat}

/-- The `begin() != end()` test and the loop, over the set in its order, with a tip. -/
theorem pruneLoop_eq_filter (ht : s.chainActive.Tip = some t) {L : List Nat}
    (hs : L.Sorted fun a b => CBlockIndexWorkComparator s.mapBlockIndex b a = false) :
    (if L = [] then some [] else s.chainActive.Tip.map fun t =>
      L.dropWhile (CBlockIndexWorkComparator s.mapBlockIndex · t)) =
    some (L.filter (!CBlockIndexWorkComparator s.mapBlockIndex · t)) := by
  split
  · subst_vars; rfl
  · rw [ht, Option.map_some', dropWhile_eq_filter hs]

/-- **The loop is the filter.**  With a tip `t`, `PruneBlockIndexCandidates` aborts exactly
when every candidate sorts below `t`, and otherwise leaves exactly the candidates not below
`t`, in the set's order, and changes nothing else. -/
theorem pruneBlockIndexCandidates_eq (ht : s.chainActive.Tip = some t) :
    s.PruneBlockIndexCandidates =
      if s.setBlockIndexCandidates.all (CBlockIndexWorkComparator s.mapBlockIndex · t) then none
      else some { s with
        setBlockIndexCandidates := (candidatesByWork s.mapBlockIndex s.setBlockIndexCandidates).filter
          (!CBlockIndexWorkComparator s.mapBlockIndex · t) } := by
  have hempty : (candidatesByWork s.mapBlockIndex s.setBlockIndexCandidates).filter
      (!CBlockIndexWorkComparator s.mapBlockIndex · t) = [] ↔
      s.setBlockIndexCandidates.all (CBlockIndexWorkComparator s.mapBlockIndex · t) := by
    simp [mem_candidatesByWork]
  simp only [PruneBlockIndexCandidates, pruneLoop_eq_filter ht (sorted_candidatesByWork _ _),
    Option.some_bind, hempty]

/-- A genesis block `0` and its child `1`, both stored and linked, `1` the active tip, and both
candidates. -/
def linkedPair : ChainState :=
  ⟨⟨[0, 1], fun b => ⟨if b = 1 then some 0 else none, b, ⟨3, true, false, false⟩, 1, b + 1, b,
    b + 1, 0, b, 0, 1, 0⟩⟩, ⟨[0, 1]⟩, [0, 1], [], [], 2, none⟩

theorem pruneBlockIndexCandidates_eq_linkedPair :
    linkedPair.chainActive.Tip = some 1 ∧
    linkedPair.PruneBlockIndexCandidates =
      if linkedPair.setBlockIndexCandidates.all (CBlockIndexWorkComparator linkedPair.mapBlockIndex · 1)
      then none
      else some { linkedPair with
        setBlockIndexCandidates :=
          (candidatesByWork linkedPair.mapBlockIndex linkedPair.setBlockIndexCandidates).filter
            (!CBlockIndexWorkComparator linkedPair.mapBlockIndex · 1) } :=
  ⟨rfl, pruneBlockIndexCandidates_eq rfl⟩

/-- When the tip is a candidate, the assertion holds and the tip stays a candidate. -/
theorem pruneBlockIndexCandidates_keeps_tip (ht : s.chainActive.Tip = some t)
    (hc : t ∈ s.setBlockIndexCandidates) :
    ∃ s', s.PruneBlockIndexCandidates = some s' ∧ t ∈ s'.setBlockIndexCandidates := by
  have hmem : t ∈ (candidatesByWork s.mapBlockIndex s.setBlockIndexCandidates).filter
      (!CBlockIndexWorkComparator s.mapBlockIndex · t) :=
    List.mem_filter.mpr ⟨mem_candidatesByWork.mpr hc, by simp [comparator_irrefl]⟩
  simp only [PruneBlockIndexCandidates, pruneLoop_eq_filter ht (sorted_candidatesByWork _ _),
    Option.some_bind, if_neg (List.ne_nil_of_mem hmem)]
  exact ⟨_, rfl, hmem⟩

end ChainState

end Ecc
