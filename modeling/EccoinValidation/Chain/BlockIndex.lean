import Mathlib

/-!
# Chain — the block index

`mapBlockIndex` holds one `CBlockIndex` per known header.  The entries form a tree through
`pprev`; the active chain `chainActive` is one root-to-leaf path through it, stored as
`vChain`, the entry at each height.  As the spec's design notes suggest, the tree is an arena:
entries are addressed by handles (`Nat`), and `pprev` is a handle.

`chain.h` and `chain.cpp` are not part of the sources.  The entry keeps the fields
`main.cpp` reads and writes.  The status word is kept by meaning: a validity level (the
`BLOCK_VALID_*` levels are ordered) and the `BLOCK_HAVE_DATA`, `BLOCK_FAILED_VALID` and
`BLOCK_FAILED_CHILD` bits.  `GetAncestor` is modelled by what it returns, the ancestor at a
given height, found by walking `pprev`.

* `TreeWF`: parents are in the map, one block lower; a root is at height 0.
* `ChainWF`: `vChain[h]` is an entry at height `h` whose parent is `vChain[h-1]`.
* `ChainWF.getAncestor`: on a well-formed chain the ancestor of `vChain[j]` at `i ≤ j` is
  `vChain[i]`, and `ChainWF.agree_below`: two chains through one entry agree at and below it.
-/

namespace Ecc

/-! ### Entries -/

/-- The `nStatus` word: validity level, data bit, failure bits. -/
structure BlockStatus where
  nValidity : Nat
  fHaveData : Bool
  fFailedValid : Bool
  fFailedChild : Bool
deriving DecidableEq, Repr

def BLOCK_VALID_TREE : Nat := 2
def BLOCK_VALID_TRANSACTIONS : Nat := 3

namespace BlockStatus

/-- `nStatus & BLOCK_FAILED_MASK`. -/
def Failed (s : BlockStatus) : Bool := s.fFailedValid || s.fFailedChild

/-- `IsValid(nUpTo)`: no failure bit, and at least that validity level. -/
def IsValid (s : BlockStatus) (nUpTo : Nat) : Bool := !s.Failed && nUpTo ≤ s.nValidity

/-- `RaiseValidity(nUpTo)`: a failed entry keeps its level. -/
def RaiseValidity (s : BlockStatus) (nUpTo : Nat) : BlockStatus :=
  if s.Failed then s else if s.nValidity < nUpTo then { s with nValidity := nUpTo } else s

/-- `nStatus &= ~BLOCK_FAILED_MASK`. -/
def clearFailed (s : BlockStatus) : BlockStatus := { s with fFailedValid := false, fFailedChild := false }

@[simp] theorem failed_clearFailed (s : BlockStatus) : s.clearFailed.Failed = false := rfl

@[simp] theorem clearFailed_clearFailed (s : BlockStatus) : s.clearFailed.clearFailed = s.clearFailed :=
  rfl

/-- Clearing the failure bits of an entry that has none changes nothing. -/
theorem clearFailed_of_failed_eq_false {s : BlockStatus} (h : s.Failed = false) :
    s.clearFailed = s := by
  cases s; simp_all [clearFailed, Failed]

@[simp] theorem failed_raiseValidity (s : BlockStatus) (n : Nat) :
    (s.RaiseValidity n).Failed = s.Failed := by
  unfold RaiseValidity; split_ifs <;> rfl

@[simp] theorem fHaveData_raiseValidity (s : BlockStatus) (n : Nat) :
    (s.RaiseValidity n).fHaveData = s.fHaveData := by
  unfold RaiseValidity; split_ifs <;> rfl

theorem le_nValidity_raiseValidity (s : BlockStatus) (n : Nat) :
    s.nValidity ≤ (s.RaiseValidity n).nValidity := by
  unfold RaiseValidity; split_ifs <;> simp; omega

/-- Raising the validity keeps every level the entry was valid at. -/
theorem IsValid.raiseValidity {s : BlockStatus} {k : Nat} (h : s.IsValid k = true) (n : Nat) :
    (s.RaiseValidity n).IsValid k = true := by
  have := le_nValidity_raiseValidity s n
  simp only [IsValid, failed_raiseValidity, Bool.and_eq_true, Bool.not_eq_true',
    decide_eq_true_eq] at h ⊢
  exact ⟨h.1, by omega⟩

end BlockStatus

/-- A block-index entry, with the fields `main.cpp` uses. -/
structure CBlockIndex where
  pprev : Option Nat
  nHeight : Nat
  nStatus : BlockStatus
  nTx : Nat
  nChainTx : Nat
  nSequenceId : Nat
  nChainWork : Nat
  nFile : Nat
  nDataPos : Nat
  nUndoPos : Nat
  nVersion : Int
  nMoneySupply : Int
deriving DecidableEq, Repr

/-- The first two keys of `CBlockIndexWorkComparator` (§4.4 of the spec, "ordered by a
total-work comparator, ties broken by lower sequence-id"): `a` sorts below `b` when it has less
work, or as much work and was received later.  The address that breaks the remaining ties is
added in `Chain.State`. -/
def workComparator (a b : CBlockIndex) : Bool :=
  a.nChainWork < b.nChainWork || (a.nChainWork == b.nChainWork && b.nSequenceId < a.nSequenceId)

/-! ### The arena -/

/-- `mapBlockIndex`: the handles it holds, and the entry behind each handle. -/
structure BlockMap where
  keys : List Nat
  entry : Nat → CBlockIndex

namespace BlockMap

/-- Overwrite the entry behind one handle. -/
def set (m : BlockMap) (b : Nat) (e : CBlockIndex) : BlockMap :=
  { m with entry := Function.update m.entry b e }

@[simp] theorem keys_set (m : BlockMap) (b : Nat) (e : CBlockIndex) : (m.set b e).keys = m.keys := rfl

@[simp] theorem entry_set_self (m : BlockMap) (b : Nat) (e : CBlockIndex) : (m.set b e).entry b = e := by
  simp [set]

@[simp] theorem entry_set_ne (m : BlockMap) {b c : Nat} (e : CBlockIndex) (h : c ≠ b) :
    (m.set b e).entry c = m.entry c := by
  simp [set, h]

theorem entry_set (m : BlockMap) (b c : Nat) (e : CBlockIndex) :
    (m.set b e).entry c = if c = b then e else m.entry c := by
  by_cases h : c = b <;> simp [h]

/-- The `k`-th ancestor, walking `pprev`. -/
def walkBack (m : BlockMap) (b : Nat) : Nat → Option Nat
  | 0 => some b
  | k + 1 => (m.entry b).pprev.bind fun p => m.walkBack p k

/-- `GetAncestor(h)`: the ancestor at height `h`, `NULL` above the entry's own height. -/
def GetAncestor (m : BlockMap) (b h : Nat) : Option Nat :=
  if h ≤ (m.entry b).nHeight then m.walkBack b ((m.entry b).nHeight - h) else none

/-- Parents are in the map, one block lower, and a root is at height 0. -/
def TreeWF (m : BlockMap) : Prop :=
  ∀ b ∈ m.keys, match (m.entry b).pprev with
    | none => (m.entry b).nHeight = 0
    | some p => p ∈ m.keys ∧ (m.entry p).nHeight + 1 = (m.entry b).nHeight

/-- `TreeWF` as a test, so that it can be decided on a given map. -/
def treeWFCheck (m : BlockMap) : Bool :=
  m.keys.all fun b => match (m.entry b).pprev with
    | none => (m.entry b).nHeight == 0
    | some p => p ∈ m.keys && (m.entry p).nHeight + 1 == (m.entry b).nHeight

theorem treeWFCheck_iff (m : BlockMap) : m.treeWFCheck = true ↔ m.TreeWF := by
  simp only [treeWFCheck, List.all_eq_true, TreeWF]
  refine forall₂_congr fun b _ => ?_
  split <;> simp

instance (m : BlockMap) : Decidable m.TreeWF := decidable_of_iff _ m.treeWFCheck_iff

/-- In a well-formed tree, walking `k ≤ nHeight` steps back from a key reaches a key `k`
blocks lower. -/
theorem walkBack_spec {m : BlockMap} (hm : m.TreeWF) :
    ∀ (k b : Nat), b ∈ m.keys → k ≤ (m.entry b).nHeight →
      ∃ a, m.walkBack b k = some a ∧ a ∈ m.keys ∧ (m.entry a).nHeight + k = (m.entry b).nHeight
  | 0, b, hb, _ => ⟨b, rfl, hb, rfl⟩
  | k + 1, b, hb, hk => by
      have hwf := hm b hb
      rcases hp : (m.entry b).pprev with _ | p
      · rw [hp] at hwf; omega
      · rw [hp] at hwf
        obtain ⟨a, ha, hak, hah⟩ := walkBack_spec hm k p hwf.1 (by omega)
        exact ⟨a, by simp [walkBack, hp, ha], hak, by omega⟩

theorem getAncestor_spec {m : BlockMap} (hm : m.TreeWF) {b h : Nat} (hb : b ∈ m.keys)
    (hh : h ≤ (m.entry b).nHeight) :
    ∃ a, m.GetAncestor b h = some a ∧ a ∈ m.keys ∧ (m.entry a).nHeight = h := by
  obtain ⟨a, ha, hak, hah⟩ := walkBack_spec hm _ b hb (Nat.sub_le _ h)
  exact ⟨a, by simp [GetAncestor, hh, ha], hak, by omega⟩

/-- In a well-formed tree a walk of `k` steps from a key ends at a key `k` blocks lower. -/
theorem walkBack_some {m : BlockMap} (hm : m.TreeWF) :
    ∀ (k b a : Nat), b ∈ m.keys → m.walkBack b k = some a →
      a ∈ m.keys ∧ (m.entry a).nHeight + k = (m.entry b).nHeight
  | 0, b, a, hb, h => by cases h; exact ⟨hb, rfl⟩
  | k + 1, b, a, hb, h => by
      have hwf := hm b hb
      simp only [walkBack] at h
      rcases hp : (m.entry b).pprev with _ | p
      · simp [hp] at h
      · rw [hp] at hwf h
        obtain ⟨ha, hh⟩ := walkBack_some hm k p a hwf.1 h
        exact ⟨ha, by omega⟩

/-- `b` is `a` or a descendant of `a`: walking `pprev` from `b` reaches `a`. -/
def IsDescendant (m : BlockMap) (b a : Nat) : Prop := ∃ k, m.walkBack b k = some a

/-- In a well-formed tree, `GetAncestor(a->nHeight) == a` picks out exactly `a` and its
descendants. -/
theorem getAncestor_eq_some_iff {m : BlockMap} (hm : m.TreeWF) {a b : Nat} (hb : b ∈ m.keys) :
    m.GetAncestor b (m.entry a).nHeight = some a ↔ m.IsDescendant b a := by
  constructor
  · intro h
    unfold GetAncestor at h
    split at h
    · exact ⟨_, h⟩
    · cases h
  · rintro ⟨k, hk⟩
    have hh := (walkBack_some hm k b a hb hk).2
    simp only [GetAncestor, show (m.entry a).nHeight ≤ (m.entry b).nHeight by omega, if_true,
      show (m.entry b).nHeight - (m.entry a).nHeight = k by omega, hk]

end BlockMap

/-! ### The active chain -/

/-- `chainActive`: `vChain` holds the entry at each height, genesis first. -/
structure CChain where
  vChain : List Nat
deriving DecidableEq, Repr

namespace CChain

/-- `Tip()`, `NULL` for an empty chain. -/
def Tip (c : CChain) : Option Nat := c.vChain.getLast?

/-- `Contains(pindex)`: the chain's entry at `pindex`'s height is `pindex`. -/
def Contains (m : BlockMap) (c : CChain) (b : Nat) : Bool := c.vChain[(m.entry b).nHeight]? == some b

/-- `vChain[h]` is a key at height `h`, and its parent is `vChain[h-1]`. -/
def ChainWF (m : BlockMap) (c : CChain) : Prop :=
  ∀ h b, c.vChain[h]? = some b → b ∈ m.keys ∧ (m.entry b).nHeight = h ∧
    (m.entry b).pprev = (match h with | 0 => none | h' + 1 => c.vChain[h']?)

/-- Walking back from `vChain[j]` follows the chain. -/
theorem ChainWF.walkBack {m : BlockMap} {c : CChain} (hc : ChainWF m c) :
    ∀ (k j b : Nat), c.vChain[j]? = some b → k ≤ j → m.walkBack b k = c.vChain[j - k]?
  | 0, j, b, hb, _ => by simp [BlockMap.walkBack, hb]
  | k + 1, j, b, hb, hk => by
      obtain ⟨-, -, hp⟩ := hc j b hb
      obtain ⟨j', rfl⟩ : ∃ j', j = j' + 1 := ⟨j - 1, by omega⟩
      obtain ⟨a, ha⟩ : ∃ a, c.vChain[j']? = some a :=
        ⟨_, List.getElem?_eq_getElem (by have := (List.getElem?_eq_some_iff.mp hb).1; omega)⟩
      simp only [BlockMap.walkBack, hp, ha, Option.some_bind]
      rw [hc.walkBack k j' a ha (by omega)]
      congr 1; omega

/-- On the chain, `GetAncestor` of `vChain[j]` at `i ≤ j` is `vChain[i]`. -/
theorem ChainWF.getAncestor {m : BlockMap} {c : CChain} (hc : ChainWF m c) {i j b : Nat}
    (hb : c.vChain[j]? = some b) (hij : i ≤ j) : m.GetAncestor b i = c.vChain[i]? := by
  have hh := (hc j b hb).2.1
  simp only [BlockMap.GetAncestor, hh, hij, if_true, hc.walkBack _ j b hb (Nat.sub_le _ _)]
  congr 1; omega

theorem ChainWF.getElem_tip {c : CChain} {t : Nat} (ht : c.Tip = some t) :
    c.vChain[c.vChain.length - 1]? = some t := by
  rw [Tip, List.getLast?_eq_getElem?] at ht
  exact ht

theorem ChainWF.height_tip {m : BlockMap} {c : CChain} (hc : ChainWF m c) {t : Nat}
    (ht : c.Tip = some t) : (m.entry t).nHeight = c.vChain.length - 1 :=
  (hc _ t (ChainWF.getElem_tip ht)).2.1

theorem contains_iff {m : BlockMap} {c : CChain} {b : Nat} :
    c.Contains m b = true ↔ c.vChain[(m.entry b).nHeight]? = some b := by
  simp [Contains]

/-- Two chains through one entry agree at and below its height. -/
theorem ChainWF.agree_below {m : BlockMap} {c₁ c₂ : CChain} (h₁ : ChainWF m c₁)
    (h₂ : ChainWF m c₂) {b k i : Nat} (hb₁ : c₁.vChain[k]? = some b) (hb₂ : c₂.vChain[k]? = some b)
    (hi : i ≤ k) : c₁.vChain[i]? = c₂.vChain[i]? := by
  rw [← h₁.getAncestor hb₁ hi, ← h₂.getAncestor hb₂ hi]

end CChain

end Ecc
