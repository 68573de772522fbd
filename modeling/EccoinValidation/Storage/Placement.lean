import EccoinValidation.Storage.BlockPos

/-!
# Storage — where blocks are placed

`FindBlockPos` has two paths.  For a new block it chooses the position: the end of the first
file, from `nLastBlockFile` on, with room for it.  For a block whose position is known
(`fKnown`: a block found on disk again, as when the block files are reindexed) it takes the
caller's position and only records it: the file grows to cover the block,
`std::max(pos.nPos + nAddSize, nSize)`, and nothing is pre-allocated.

This module follows both paths together, over any sequence of calls.  `sizeAt v f` is the size
`vinfoBlockFile` records for file `f`, and 0 for a file past the end of the vector.

* `findBlockPos_known`: for every state, a call for a known block returns true with the
  caller's position; the file of the position grows to cover the block, and no other size
  changes.
* `findBlockPos_new_sizes`: a call for a new block that returns, true or false, has put the
  block at the old end of the file it chose and grown that file by the block, and no other
  size changes.
* `fileRun_placement`: **no new block is placed over another.**  Over any run of calls of
  both kinds, including calls that run out of disk space, no file shrinks and every block
  placed lies within its file's recorded size.  A new block starts at or after the end of
  every block placed before it in its file, known or new, and of the file's content at the
  start of the run.  Known blocks are where the caller says, and may overlap.
-/

namespace Ecc

/-- The size `v` records for file `f`, and 0 for a file not in the vector. -/
def sizeAt (v : List CBlockFileInfo) (f : Nat) : Nat :=
  ((v[f]?).map CBlockFileInfo.nSize).getD 0

section Sizes

variable {v : List CBlockFileInfo}

@[simp] theorem sizeAt_append_null (v : List CBlockFileInfo) (k f : Nat) :
    sizeAt (v ++ List.replicate k CBlockFileInfo.null) f = sizeAt v f := by
  unfold sizeAt
  by_cases hf : f < v.length
  · rw [List.getElem?_append_left hf]
  · rw [List.getElem?_append_right (by omega), List.getElem?_replicate,
      List.getElem?_eq_none (by omega)]
    split_ifs <;> rfl

theorem sizeAt_set {n : Nat} (hn : n < v.length) (info : CBlockFileInfo) (f : Nat) :
    sizeAt (v.set n info) f = if f = n then info.nSize else sizeAt v f := by
  unfold sizeAt
  split_ifs with hf
  · subst hf; rw [List.getElem?_set_self hn]; rfl
  · rw [List.getElem?_set_ne (Ne.symm hf)]

@[simp] theorem sizeAt_resizeTo (v : List CBlockFileInfo) (n f : Nat) :
    sizeAt (resizeTo v n) f = sizeAt v f := by
  obtain ⟨k, hv⟩ := resizeTo_eq v n
  rw [hv, sizeAt_append_null]

theorem sizeAt_of_getElem? {f : Nat} {info : CBlockFileInfo} (h : v[f]? = some info) :
    sizeAt v f = info.nSize := by
  simp [sizeAt, h]

end Sizes

/-! ### One call of each kind -/

section Call

variable {P : FlushParams} {B : BlockFileParams} {io : BlockPosIO} {state st : CValidationState}
  {s s' : BlockFiles}

/-- **A known block is only recorded.**  For every state, a call for a block whose position is
known returns true with that position.  The file of the position grows to cover the block, to
`max (pos.nPos + nAddSize) nSize`, and every other file keeps its size. -/
theorem findBlockPos_known (pos : CDiskBlockPos) (nAddSize nHeight nTime : Nat) :
    ∃ s', FindBlockPos P B io state pos nAddSize nHeight nTime true s =
        some (.ok (true, state, pos, s')) ∧
      ∀ f, sizeAt s'.vinfoBlockFile f = if f = pos.nFile
        then max (pos.nPos + nAddSize) (sizeAt s.vinfoBlockFile pos.nFile)
        else sizeAt s.vinfoBlockFile f := by
  have hlen := lt_length_resizeTo s.vinfoBlockFile pos.nFile
  have hget := List.getElem?_eq_getElem hlen
  -- leaving the current file cannot fail on this path: it reads no info
  simp only [FindBlockPos, ↓reduceIte, Option.bind_eq_bind, Option.some_bind, hget, leaveBlockFile,
    Bool.not_true, Bool.false_and, Bool.false_eq_true]
  split_ifs <;> refine ⟨_, rfl, fun f => ?_⟩ <;>
    simp only [sizeAt_set hlen, CBlockFileInfo.nSize_AddBlock] <;>
    rw [← sizeAt_of_getElem? hget] <;> simp only [sizeAt_resizeTo]

/-- A pre-allocation keeps the vector, whatever it returns. -/
theorem preallocate_vinfoBlockFile {pos : CDiskBlockPos} {nSize : Nat} {r : Bool}
    (h : preallocate P B io pos nSize s = .ok (r, s')) : s'.vinfoBlockFile = s.vinfoBlockFile := by
  cases r
  · rw [preallocate_false h]
  · exact (preallocate_true h).1

/-- **A new block goes at the end of its file.**  A call for a new block that returns, true or
false, has put the block at the old end of the file it chose, and grown that file by the
block; every other file keeps its size. -/
theorem findBlockPos_new_sizes {posIn pos : CDiskBlockPos} {nAddSize nHeight nTime : Nat}
    {r : Bool} (h : FindBlockPos P B io state posIn nAddSize nHeight nTime false s =
      some (.ok (r, st, pos, s'))) :
    pos.nPos = sizeAt s.vinfoBlockFile pos.nFile ∧
      ∀ f, sizeAt s'.vinfoBlockFile f =
        if f = pos.nFile then pos.nPos + nAddSize else sizeAt s.vinfoBlockFile f := by
  obtain ⟨nFile, v, info, fs, hloop, hget, hfs⟩ := findBlockPos_new_inv h
  rw [findBlockPos_new_eq hloop hget hfs] at h
  obtain ⟨k, rfl⟩ := advanceLoop_append hloop
  have hlen := (List.getElem?_eq_some_iff.mp hget).1
  have hsize : info.nSize = sizeAt s.vinfoBlockFile nFile := by
    rw [← sizeAt_of_getElem? hget, sizeAt_append_null, sizeAt_resizeTo]
  simp only [Option.some.injEq, Except.map] at h
  split at h
  · cases h
  rename_i r' hp
  have hv := preallocate_vinfoBlockFile (r := r'.1) hp
  -- both outcomes return the position chosen and the vector as the bookkeeping left it
  obtain ⟨rfl, hs'⟩ : pos = ⟨nFile, info.nSize⟩ ∧ s'.vinfoBlockFile = r'.2.vinfoBlockFile := by
    split_ifs at h <;> simp only [Except.ok.injEq, Prod.mk.injEq] at h <;>
      obtain ⟨-, -, rfl, rfl⟩ := h <;> exact ⟨rfl, rfl⟩
  refine ⟨hsize, fun f => ?_⟩
  rw [hs', hv, sizeAt_set hlen]
  simp only [sizeAt_append_null, sizeAt_resizeTo]

end Call

/-! ### Runs of calls of both kinds -/

/-- A block a call placed: whether its position was known, the position, and its size. -/
structure Placed where
  fKnown : Bool
  pos : CDiskBlockPos
  nAddSize : Nat

/-- The runs of `FindBlockPos` calls of both kinds from `s₀`, each call observing its own
`BlockPosIO`, and the blocks placed, newest first.  A call for a new block that returns false
(out of disk space) places nothing, but the file it chose has grown. -/
inductive FileRun (P : FlushParams) (B : BlockFileParams) (s₀ : BlockFiles) :
    BlockFiles → List Placed → Prop
  | nil : FileRun P B s₀ s₀ []
  | known {s s' : BlockFiles} {placed : List Placed} {io : BlockPosIO}
      {state st : CValidationState} {pos : CDiskBlockPos} {nAddSize nHeight nTime : Nat} :
      FileRun P B s₀ s placed →
      FindBlockPos P B io state pos nAddSize nHeight nTime true s = some (.ok (true, st, pos, s')) →
      FileRun P B s₀ s' (⟨true, pos, nAddSize⟩ :: placed)
  | new {s s' : BlockFiles} {placed : List Placed} {io : BlockPosIO}
      {state st : CValidationState} {posIn pos : CDiskBlockPos} {nAddSize nHeight nTime : Nat} :
      FileRun P B s₀ s placed →
      FindBlockPos P B io state posIn nAddSize nHeight nTime false s =
        some (.ok (true, st, pos, s')) →
      FileRun P B s₀ s' (⟨false, pos, nAddSize⟩ :: placed)
  | outOfSpace {s s' : BlockFiles} {placed : List Placed} {io : BlockPosIO}
      {state st : CValidationState} {posIn pos : CDiskBlockPos} {nAddSize nHeight nTime : Nat} :
      FileRun P B s₀ s placed →
      FindBlockPos P B io state posIn nAddSize nHeight nTime false s =
        some (.ok (false, st, pos, s')) →
      FileRun P B s₀ s' placed

/-- What a run keeps: no file shrinks; every block placed lies within its file's recorded size;
a new block starts at or after the end of every block placed before it in its file, and at or
after the file's size at the start. -/
structure Placement (s₀ s : BlockFiles) (placed : List Placed) : Prop where
  grows : ∀ f, sizeAt s₀.vinfoBlockFile f ≤ sizeAt s.vinfoBlockFile f
  within : ∀ b ∈ placed, b.pos.nPos + b.nAddSize ≤ sizeAt s.vinfoBlockFile b.pos.nFile
  fresh : placed.Pairwise fun a b => a.fKnown = false → a.pos.nFile = b.pos.nFile →
    b.pos.nPos + b.nAddSize ≤ a.pos.nPos
  above : ∀ b ∈ placed, b.fKnown = false → sizeAt s₀.vinfoBlockFile b.pos.nFile ≤ b.pos.nPos

namespace Placement

variable {s₀ s s' : BlockFiles} {placed : List Placed} {f₀ E : Nat}

/-- A call that sets the size of file `f₀` to `E`, at least its old size, and keeps the others,
shrinks no file. -/
theorem sizeAt_le (hE : sizeAt s.vinfoBlockFile f₀ ≤ E)
    (hs' : ∀ f, sizeAt s'.vinfoBlockFile f = if f = f₀ then E else sizeAt s.vinfoBlockFile f)
    (f : Nat) : sizeAt s.vinfoBlockFile f ≤ sizeAt s'.vinfoBlockFile f := by
  rw [hs']; split_ifs with hf
  · subst hf; exact hE
  · exact le_rfl

/-- Growing one file keeps what the run has placed, and adds nothing. -/
theorem grow (h : Placement s₀ s placed) (hE : sizeAt s.vinfoBlockFile f₀ ≤ E)
    (hs' : ∀ f, sizeAt s'.vinfoBlockFile f = if f = f₀ then E else sizeAt s.vinfoBlockFile f) :
    Placement s₀ s' placed where
  grows f := (h.grows f).trans (sizeAt_le hE hs' f)
  within b hb := (h.within b hb).trans (sizeAt_le hE hs' _)
  fresh := h.fresh
  above := h.above

/-- A known block: its file covers it, and it is below nothing. -/
theorem known (h : Placement s₀ s placed) {pos : CDiskBlockPos} {nAddSize : Nat}
    (hs' : ∀ f, sizeAt s'.vinfoBlockFile f = if f = pos.nFile
      then max (pos.nPos + nAddSize) (sizeAt s.vinfoBlockFile pos.nFile)
      else sizeAt s.vinfoBlockFile f) :
    Placement s₀ s' (⟨true, pos, nAddSize⟩ :: placed) := by
  have hg := h.grow (le_max_right _ _) hs'
  refine ⟨hg.grows, fun b hb => ?_, List.pairwise_cons.mpr ⟨fun _ _ hk => absurd hk (by simp),
    h.fresh⟩, fun b hb hk => ?_⟩
  · rcases List.mem_cons.mp hb with rfl | hb
    · rw [hs', if_pos rfl]; exact le_max_left _ _
    · exact hg.within b hb
  · rcases List.mem_cons.mp hb with rfl | hb
    · cases hk
    · exact h.above b hb hk

/-- A new block: it starts at its file's old end, which is at or after every block placed in
the file and the file's size at the start. -/
theorem new (h : Placement s₀ s placed) {pos : CDiskBlockPos} {nAddSize : Nat}
    (hpos : pos.nPos = sizeAt s.vinfoBlockFile pos.nFile)
    (hs' : ∀ f, sizeAt s'.vinfoBlockFile f = if f = pos.nFile
      then pos.nPos + nAddSize else sizeAt s.vinfoBlockFile f) :
    Placement s₀ s' (⟨false, pos, nAddSize⟩ :: placed) := by
  have hg := h.grow (by omega) hs'
  refine ⟨hg.grows, fun b hb => ?_, List.pairwise_cons.mpr ⟨fun b hb _ hf => ?_, h.fresh⟩,
    fun b hb _ => ?_⟩
  · rcases List.mem_cons.mp hb with rfl | hb
    · rw [hs', if_pos rfl]
    · exact hg.within b hb
  · rw [hpos, hf]; exact h.within b hb
  · rcases List.mem_cons.mp hb with rfl | hb
    · rw [hpos]; exact h.grows _
    · exact h.above b hb ‹_›

end Placement

variable {P : FlushParams} {B : BlockFileParams} {s₀ s : BlockFiles} {placed : List Placed}

/-- **No new block is placed over another.**  Over any run of `FindBlockPos` calls, for known
blocks and for new ones, including calls that return false because the disk is full, no file
shrinks and every block placed lies within its file's recorded size.  A new block starts at or
after the end of every block placed before it in its file, known or new, and at or after the
file's size at the start of the run, so it overwrites neither. -/
theorem fileRun_placement (hrun : FileRun P B s₀ s placed) : Placement s₀ s placed := by
  induction hrun with
  | nil => exact ⟨fun _ => le_rfl, by simp, .nil, by simp⟩
  | known _ h ih =>
    obtain ⟨s', h', hs'⟩ := findBlockPos_known (P := P) (B := B) _ _ _ _
    rw [h'] at h
    obtain ⟨-, -, -, rfl⟩ := Prod.mk.inj_iff.mp (Except.ok.inj (Option.some.inj h))
    exact ih.known hs'
  | new _ h ih => exact ih.new (findBlockPos_new_sizes h).1 (findBlockPos_new_sizes h).2
  | outOfSpace _ h ih =>
    obtain ⟨hpos, hs'⟩ := findBlockPos_new_sizes h
    exact ih.grow (by omega) hs'

/-- File 0 holds one 60-byte block.  Reindexing finds it at the start of the file; a new
30-byte block then goes at position 60, after it. -/
theorem fileRun_placement_after_reindex :
    let P : FlushParams := ⟨5000 * 300, 3600 * 1000000, 24 * 3600 * 1000000, 100⟩
    let B : BlockFileParams := ⟨100, 16⟩
    let s₀ : BlockFiles := ⟨[⟨1, 60, 0, 1, 1, 10, 10⟩], FlushState.startup, []⟩
    let placed : List Placed := [⟨false, ⟨0, 60⟩, 30⟩, ⟨true, ⟨0, 0⟩, 60⟩]
    ∃ s, FileRun P B s₀ s placed ∧ Placement s₀ s placed := by
  intro P B s₀ placed
  have hrun : FileRun P B s₀ _ placed :=
    .new (.known .nil
      (show FindBlockPos P B ⟨.ok 1000, true⟩ .fresh ⟨0, 0⟩ 60 1 10 true s₀ =
        some (.ok (true, .fresh, ⟨0, 0⟩, _)) by unfold P B s₀; rfl))
      (show FindBlockPos P B ⟨.ok 1000, true⟩ .fresh ⟨0, 0⟩ 30 2 20 false _ =
        some (.ok (true, .fresh, ⟨0, 60⟩, _)) by unfold P B; rfl)
  exact ⟨_, hrun, fileRun_placement hrun⟩

end Ecc
