import EccoinValidation.Chain.State
import EccoinValidation.Storage.Flush

/-!
# Storage — FindBlockPos

`FindBlockPos(state, pos, nAddSize, nHeight, nTime, fKnown)` picks where a new block is
written.  For a new block (`fKnown` false) it starts at the current file `nLastBlockFile` and
moves to the next file while the block would take the file to `MAX_BLOCKFILE_SIZE` or past
it, growing `vinfoBlockFile` as it goes; the block goes at the chosen file's end.  Leaving
the current file flushes it (`FlushBlockFile`).  The file's size grows by `nAddSize`, and
when the block crosses into a new chunk of `BLOCKFILE_CHUNK_SIZE` bytes the chunks up to its
end are pre-allocated, after `CheckDiskSpace`.

The model is the call over the globals it touches: `vinfoBlockFile`, and the flush globals of
`FlushState` (`nLastBlockFile`, `setDirtyFileInfo`, and the warning, shutdown flag and disk
history `AbortNode` and `FlushBlockFile` write).  `preallocated` records the
`AllocateFileRange` calls.  What a call observes is `BlockPosIO`: what `fs::space` reports or
throws, and whether `OpenBlockFile` opens the file.  The file-advance loop runs on fuel one
more than the vector's length; `none` is a loop that does not end, or an index out of range.

* `advanceLoop_spec`: for `nAddSize < MAX_BLOCKFILE_SIZE` the loop ends within its fuel at a
  file with room, having only appended empty infos.
* `findBlockPos_step`: from a state where `PosInv` holds, a call for a new block returns, and
  a true return gives a position at the chosen file's old end with room for the block, at or
  after `nLastBlockFile`, with every size kept or grown and the pre-allocation covering the
  block; `PosInv` then holds with the new range.
* `findBlockPos_run`: along every sequence of such calls that return true, from a state with
  every file below `MAX_BLOCKFILE_SIZE`, the ranges returned in any one file are pairwise
  disjoint, and every next call returns and does what `CallSpec` says.  `nLastBlockFile` need
  not be in range at the start: the call resizes the vector before it reads it.
* `findBlockPos_out_of_space_counts_block`: a block that moves to a new file on a full disk
  leaves the new file in the vector, counting the block.
-/

namespace Ecc

/-- `CBlockFileInfo`: the blocks a file holds, its size and its undo size, and the range of
heights and times of its blocks. -/
structure CBlockFileInfo where
  nBlocks : Nat
  nSize : Nat
  nUndoSize : Nat
  nHeightFirst : Nat
  nHeightLast : Nat
  nTimeFirst : Nat
  nTimeLast : Nat
deriving DecidableEq, Repr

namespace CBlockFileInfo

/-- A default-constructed info, as `resize` appends it. -/
def null : CBlockFileInfo := ⟨0, 0, 0, 0, 0, 0, 0⟩

/-- `AddBlock(nHeightIn, nTimeIn)`: one more block, and the height and time ranges widened. -/
def AddBlock (info : CBlockFileInfo) (nHeightIn nTimeIn : Nat) : CBlockFileInfo :=
  { info with
    nHeightFirst := if info.nBlocks = 0 ∨ info.nHeightFirst > nHeightIn then nHeightIn
      else info.nHeightFirst
    nTimeFirst := if info.nBlocks = 0 ∨ info.nTimeFirst > nTimeIn then nTimeIn
      else info.nTimeFirst
    nBlocks := info.nBlocks + 1
    nHeightLast := max info.nHeightLast nHeightIn
    nTimeLast := max info.nTimeLast nTimeIn }

@[simp] theorem nSize_AddBlock (info : CBlockFileInfo) (h t : Nat) :
    (info.AddBlock h t).nSize = info.nSize := rfl

end CBlockFileInfo

/-- `MAX_BLOCKFILE_SIZE` and `BLOCKFILE_CHUNK_SIZE` of `main.h`. -/
structure BlockFileParams where
  MAX_BLOCKFILE_SIZE : Nat
  BLOCKFILE_CHUNK_SIZE : Nat

/-- What a call observes: what `fs::space` reports or throws at `CheckDiskSpace`, and whether
`OpenBlockFile(pos)` opens the file to pre-allocate. -/
structure BlockPosIO where
  space : Except String Nat
  fileOpens : Bool

/-- The globals `FindBlockPos` reads and writes, and the `AllocateFileRange(file, offset,
length)` calls made so far, newest first. -/
structure BlockFiles where
  vinfoBlockFile : List CBlockFileInfo
  fs : FlushState
  preallocated : List (CDiskBlockPos × Nat)

section Call

variable (P : FlushParams) (B : BlockFileParams) (io : BlockPosIO)

/-- `if (vinfoBlockFile.size() <= nFile) vinfoBlockFile.resize(nFile + 1)`. -/
def resizeTo (v : List CBlockFileInfo) (nFile : Nat) : List CBlockFileInfo :=
  if v.length ≤ nFile then v ++ List.replicate (nFile + 1 - v.length) CBlockFileInfo.null else v

/-- The file-advance loop from file `nFile`: the first file with room for `nAddSize` more
bytes, and the vector as the loop leaves it; `none` when the fuel runs out. -/
def advanceLoop (nAddSize : Nat) :
    Nat → List CBlockFileInfo → Nat → Option (Nat × List CBlockFileInfo)
  | 0, _, _ => none
  | fuel + 1, v, nFile => (v[nFile]?).bind fun info =>
    if info.nSize + nAddSize ≥ B.MAX_BLOCKFILE_SIZE then
      advanceLoop nAddSize fuel (resizeTo v (nFile + 1)) (nFile + 1)
    else some (nFile, v)

/-- Leaving file `nLastBlockFile` for `nFile`: for a new block the log line and
`FlushBlockFile(true)` read the info of the file being left; then `nLastBlockFile = nFile`. -/
def leaveBlockFile (fKnown : Bool) (v : List CBlockFileInfo) (nFile : Nat) (fs : FlushState) :
    Option FlushState :=
  if !fKnown && v.length ≤ fs.nLastBlockFile then none
  else some { fs with nLastBlockFile := nFile, history := .blockFileFlushed :: fs.history }

/-- The pre-allocation for a block at `pos` in a file now `nSize` bytes long: when the block
ends in a later chunk than it starts, `CheckDiskSpace` for the new chunks, then
`AllocateFileRange` up to the end of the last one if the file opens.  False is "out of disk
space"; an exception from `fs::space` propagates. -/
def preallocate (pos : CDiskBlockPos) (nSize : Nat) (s : BlockFiles) :
    Except String (Bool × BlockFiles) :=
  let nOldChunks := (pos.nPos + B.BLOCKFILE_CHUNK_SIZE - 1) / B.BLOCKFILE_CHUNK_SIZE
  let nNewChunks := (nSize + B.BLOCKFILE_CHUNK_SIZE - 1) / B.BLOCKFILE_CHUNK_SIZE
  if nNewChunks > nOldChunks then
    match FlushState.CheckDiskSpace P io.space (nNewChunks * B.BLOCKFILE_CHUNK_SIZE - pos.nPos)
        s.fs with
    | .error what => .error what
    | .ok (false, fs) => .ok (false, { s with fs := fs })
    | .ok (true, fs) => .ok (true, { s with
        fs := fs
        preallocated := if io.fileOpens
          then (pos, nNewChunks * B.BLOCKFILE_CHUNK_SIZE - pos.nPos) :: s.preallocated
          else s.preallocated })
  else .ok (true, s)

/-- `FindBlockPos(state, pos, nAddSize, nHeight, nTime, fKnown)`: the result, the state, the
position, and the globals; `none` is a loop that does not end or an index out of range, and
`.error` an exception from `CheckDiskSpace`. -/
def FindBlockPos (state : CValidationState) (pos : CDiskBlockPos) (nAddSize nHeight nTime : Nat)
    (fKnown : Bool) (s : BlockFiles) :
    Option (Except String (Bool × CValidationState × CDiskBlockPos × BlockFiles)) := do
  let nFile := if fKnown then pos.nFile else s.fs.nLastBlockFile
  let v := resizeTo s.vinfoBlockFile nFile
  let (nFile, v, pos) ← if fKnown then some (nFile, v, pos) else do
    let (nFile, v) ← advanceLoop B nAddSize (v.length + 1) v nFile
    let info ← v[nFile]?
    some (nFile, v, ⟨nFile, info.nSize⟩)
  let fs ← if nFile = s.fs.nLastBlockFile then some s.fs
    else leaveBlockFile fKnown v nFile s.fs
  let info ← v[nFile]?
  let info := info.AddBlock nHeight nTime
  let info := if fKnown then { info with nSize := max (pos.nPos + nAddSize) info.nSize }
    else { info with nSize := info.nSize + nAddSize }
  let s : BlockFiles := { s with vinfoBlockFile := v.set nFile info, fs := fs }
  let r := if fKnown then .ok (true, s) else preallocate P B io pos info.nSize s
  some (r.map fun r => if r.1 then
      (true, state, pos, { r.2 with fs := (FlushOp.insertFile nFile).apply P r.2.fs })
    else (false, state.Error "out of disk space", pos, r.2))

end Call

/-! ### The file-advance loop -/

section Loop

variable {B : BlockFileParams}

theorem resizeTo_eq (v : List CBlockFileInfo) (nFile : Nat) :
    ∃ k, resizeTo v nFile = v ++ List.replicate k CBlockFileInfo.null := by
  unfold resizeTo
  split_ifs
  · exact ⟨_, rfl⟩
  · exact ⟨0, by simp⟩

theorem lt_length_resizeTo (v : List CBlockFileInfo) (nFile : Nat) :
    nFile < (resizeTo v nFile).length := by
  unfold resizeTo
  split_ifs
  · simp; omega
  · omega

/-- **The loop ends at a file with room.**  For a block smaller than `MAX_BLOCKFILE_SIZE`, with
at least one unit of fuel more than the files from `nFile` to the end, the loop ends at a file
at or after `nFile` where the block fits, having only appended empty infos: an empty file
always has room. -/
theorem advanceLoop_spec {nAddSize : Nat} (hlt : nAddSize < B.MAX_BLOCKFILE_SIZE) :
    ∀ (fuel : Nat) (v : List CBlockFileInfo) (nFile : Nat), nFile < v.length →
      v.length + 1 ≤ nFile + fuel →
      ∃ nFile' k info, advanceLoop B nAddSize fuel v nFile =
          some (nFile', v ++ List.replicate k CBlockFileInfo.null) ∧ nFile ≤ nFile' ∧
        (v ++ List.replicate k CBlockFileInfo.null)[nFile']? = some info ∧
        info.nSize + nAddSize < B.MAX_BLOCKFILE_SIZE
  | 0, _, _, h₁, h₂ => by omega
  | fuel + 1, v, nFile, h₁, h₂ => by
    have hinfo : v[nFile]? = some v[nFile] := List.getElem?_eq_getElem h₁
    simp only [advanceLoop, hinfo, Option.some_bind]
    split_ifs with hfull
    · by_cases hnext : nFile + 1 < v.length
      · -- the next file exists
        rw [show resizeTo v (nFile + 1) = v by simp [resizeTo]; omega]
        obtain ⟨n', k, i', h, hle, hget, hfit⟩ :=
          advanceLoop_spec hlt fuel v (nFile + 1) hnext (by omega)
        exact ⟨n', k, i', h, by omega, hget, hfit⟩
      · -- the next file is a new, empty one
        have hv : resizeTo v (nFile + 1) = v ++ [CBlockFileInfo.null] := by
          simp [resizeTo, show v.length ≤ nFile + 1 by omega,
            show nFile + 1 + 1 - v.length = 1 by omega]
        have hfresh : (v ++ [CBlockFileInfo.null])[nFile + 1]? = some CBlockFileInfo.null := by
          rw [List.getElem?_append_right (by omega), show nFile + 1 - v.length = 0 by omega]; rfl
        obtain ⟨f, rfl⟩ : ∃ f, fuel = f + 1 := ⟨fuel - 1, by omega⟩
        have hroom : CBlockFileInfo.null.nSize + nAddSize < B.MAX_BLOCKFILE_SIZE := by
          simpa [CBlockFileInfo.null] using hlt
        refine ⟨nFile + 1, 1, .null, ?_, by omega, hfresh, hroom⟩
        rw [hv, advanceLoop, hfresh, Option.some_bind, if_neg (Nat.not_le.mpr hroom)]
        rfl
    · exact ⟨nFile, 0, v[nFile], by simp, le_rfl, by simp, by omega⟩

/-- Whatever file it stops at, the loop has only appended empty infos. -/
theorem advanceLoop_append {nAddSize : Nat} :
    ∀ {fuel : Nat} {v v' : List CBlockFileInfo} {nFile nFile' : Nat},
      advanceLoop B nAddSize fuel v nFile = some (nFile', v') →
      ∃ k, v' = v ++ List.replicate k CBlockFileInfo.null
  | 0, _, _, _, _, h => by cases h
  | fuel + 1, v, v', nFile, nFile', h => by
    simp only [advanceLoop] at h
    obtain ⟨info, -, h⟩ := Option.bind_eq_some.mp h
    split_ifs at h
    · obtain ⟨k, rfl⟩ := advanceLoop_append h
      obtain ⟨k', hk'⟩ := resizeTo_eq v (nFile + 1)
      exact ⟨k' + k, by rw [hk', List.append_assoc, List.replicate_add]⟩
    · cases h; exact ⟨0, by simp⟩

end Loop

/-! ### One call for a new block -/

section Step

variable {B : BlockFileParams}

/-- The invariant of a run of calls for new blocks: every file is below `MAX_BLOCKFILE_SIZE`,
and the ranges returned so far, newest first, lie within their files, each starting at or
after the end of every earlier range of its file. -/
structure PosInv (B : BlockFileParams) (s : BlockFiles) (ranges : List (CDiskBlockPos × Nat)) :
    Prop where
  small : ∀ info ∈ s.vinfoBlockFile, info.nSize < B.MAX_BLOCKFILE_SIZE
  within : ∀ r ∈ ranges, ∃ info, s.vinfoBlockFile[r.1.nFile]? = some info ∧
    r.1.nPos + r.2 ≤ info.nSize
  disjoint : ranges.Pairwise fun a b => a.1.nFile = b.1.nFile → b.1.nPos + b.2 ≤ a.1.nPos

/-- What a call for a new block that returns true does: the position is the chosen file's old
end, or 0 for a new file, and the block fits below `MAX_BLOCKFILE_SIZE`; the file is at or
after `nLastBlockFile`, which moves to it; its size grows by the block, and no size shrinks;
and a pre-allocation, if any, starts at the position and covers the block. -/
structure CallSpec (B : BlockFileParams) (s s' : BlockFiles) (pos : CDiskBlockPos)
    (nAddSize : Nat) : Prop where
  prev : pos.nPos = ((s.vinfoBlockFile[pos.nFile]?).map CBlockFileInfo.nSize).getD 0
  fits : pos.nPos + nAddSize < B.MAX_BLOCKFILE_SIZE
  last : s.fs.nLastBlockFile ≤ pos.nFile ∧ s'.fs.nLastBlockFile = pos.nFile
  grows : (s'.vinfoBlockFile[pos.nFile]?).map CBlockFileInfo.nSize = some (pos.nPos + nAddSize)
  sizes : ∀ (f : Nat) (info : CBlockFileInfo), s.vinfoBlockFile[f]? = some info →
    ∃ info' : CBlockFileInfo, s'.vinfoBlockFile[f]? = some info' ∧ info.nSize ≤ info'.nSize
  prealloc : s'.preallocated = s.preallocated ∨
    ∃ len, s'.preallocated = (pos, len) :: s.preallocated ∧
      pos.nPos + nAddSize ≤ pos.nPos + len

/-- A call for a new block, once the loop has chosen file `nFile`, holding `info`, and the
current file has been left for it. -/
theorem findBlockPos_new_eq {P : FlushParams} {io : BlockPosIO} {state : CValidationState}
    {posIn : CDiskBlockPos} {nAddSize nHeight nTime nFile : Nat} {s : BlockFiles}
    {v : List CBlockFileInfo} {info : CBlockFileInfo} {fs : FlushState}
    (hloop : advanceLoop B nAddSize ((resizeTo s.vinfoBlockFile s.fs.nLastBlockFile).length + 1)
      (resizeTo s.vinfoBlockFile s.fs.nLastBlockFile) s.fs.nLastBlockFile = some (nFile, v))
    (hget : v[nFile]? = some info)
    (hfs : (if nFile = s.fs.nLastBlockFile then some s.fs
      else leaveBlockFile false v nFile s.fs) = some fs) :
    FindBlockPos P B io state posIn nAddSize nHeight nTime false s =
      some ((preallocate P B io ⟨nFile, info.nSize⟩ (info.nSize + nAddSize)
        { s with
          vinfoBlockFile :=
            v.set nFile { (info.AddBlock nHeight nTime) with nSize := info.nSize + nAddSize }
          fs := fs }).map
        fun r => if r.1 then
          (true, state, ⟨nFile, info.nSize⟩,
            { r.2 with fs := (FlushOp.insertFile nFile).apply P r.2.fs })
        else (false, state.Error "out of disk space", ⟨nFile, info.nSize⟩, r.2)) := by
  simp only [FindBlockPos, Bool.false_eq_true, if_false, hloop, hget, Option.bind_eq_bind,
    Option.some_bind]
  split_ifs at hfs ⊢
  · cases hfs
    simp only [hget, Option.some_bind, CBlockFileInfo.nSize_AddBlock]
  · simp only [hfs, hget, Option.some_bind, CBlockFileInfo.nSize_AddBlock]

/-- A call for a new block that returns has run the loop to a file, read that file's info and
left the current file for it. -/
theorem findBlockPos_new_inv {P : FlushParams} {io : BlockPosIO} {state : CValidationState}
    {posIn : CDiskBlockPos} {nAddSize nHeight nTime : Nat} {s : BlockFiles} {r}
    (h : FindBlockPos P B io state posIn nAddSize nHeight nTime false s = some r) :
    ∃ nFile v info fs,
      advanceLoop B nAddSize ((resizeTo s.vinfoBlockFile s.fs.nLastBlockFile).length + 1)
        (resizeTo s.vinfoBlockFile s.fs.nLastBlockFile) s.fs.nLastBlockFile = some (nFile, v) ∧
      v[nFile]? = some info ∧
      (if nFile = s.fs.nLastBlockFile then some s.fs else leaveBlockFile false v nFile s.fs) =
        some fs := by
  simp only [FindBlockPos, Bool.false_eq_true, if_false, Option.bind_eq_bind] at h
  cases hloop : advanceLoop B nAddSize ((resizeTo s.vinfoBlockFile s.fs.nLastBlockFile).length + 1)
      (resizeTo s.vinfoBlockFile s.fs.nLastBlockFile) s.fs.nLastBlockFile with
  | none => simp only [hloop, Option.none_bind, reduceCtorEq] at h
  | some r =>
    obtain ⟨nFile, v⟩ := r
    cases hget : v[nFile]? with
    | none => simp only [hloop, hget, Option.some_bind, Option.none_bind, reduceCtorEq] at h
    | some info =>
      cases hfs : (if nFile = s.fs.nLastBlockFile then some s.fs
          else leaveBlockFile false v nFile s.fs) with
      | none =>
        simp only [hloop, hget, Option.some_bind] at h
        split_ifs at hfs h
        simp only [hfs, Option.none_bind, reduceCtorEq] at h
      | some fs => exact ⟨nFile, v, info, fs, rfl, hget, hfs⟩

/-- The end of the last chunk reached by a file of `nSize` bytes is at or after its end. -/
theorem le_chunks_mul (nSize c : Nat) (hc : 0 < c) : nSize ≤ (nSize + c - 1) / c * c := by
  have := Nat.lt_mul_div_succ (nSize + c - 1) hc
  rw [Nat.mul_add, Nat.mul_one, Nat.mul_comm] at this
  omega

/-- A pre-allocation that returns true keeps the files and `nLastBlockFile`, and allocates
nothing or a range from `pos` to at least `nSize`. -/
theorem preallocate_true {P : FlushParams} {io : BlockPosIO} {pos : CDiskBlockPos} {nSize : Nat}
    {s s' : BlockFiles} (h : preallocate P B io pos nSize s = .ok (true, s')) :
    s'.vinfoBlockFile = s.vinfoBlockFile ∧ s'.fs.nLastBlockFile = s.fs.nLastBlockFile ∧
    (s'.preallocated = s.preallocated ∨
      ∃ len, s'.preallocated = (pos, len) :: s.preallocated ∧ nSize ≤ pos.nPos + len) := by
  unfold preallocate at h
  dsimp only at h
  split at h
  · rename_i hch
    have hc : 0 < B.BLOCKFILE_CHUNK_SIZE := Nat.pos_of_ne_zero fun h0 => by simp [h0] at hch
    cases hfs : FlushState.CheckDiskSpace P io.space
        ((nSize + B.BLOCKFILE_CHUNK_SIZE - 1) / B.BLOCKFILE_CHUNK_SIZE * B.BLOCKFILE_CHUNK_SIZE -
          pos.nPos) s.fs with
    | error what => simp [hfs] at h
    | ok r =>
      obtain ⟨_ | _, fs⟩ := r
      · simp [hfs] at h
      · simp only [hfs, Except.ok.injEq, Prod.mk.injEq, true_and] at h
        subst h
        refine ⟨rfl, by rcases checkDiskSpace_cases hfs with rfl | rfl <;> rfl, ?_⟩
        split_ifs
        · exact .inr ⟨_, rfl, by have := le_chunks_mul nSize _ hc; omega⟩
        · exact .inl rfl
  · cases h
    exact ⟨rfl, rfl, .inl rfl⟩

/-- A pre-allocation that returns false is `CheckDiskSpace`'s `AbortNode`, and nothing else. -/
theorem preallocate_false {P : FlushParams} {io : BlockPosIO} {pos : CDiskBlockPos} {nSize : Nat}
    {s s' : BlockFiles} (h : preallocate P B io pos nSize s = .ok (false, s')) :
    s' = { s with fs := s.fs.AbortNode "Disk space is low!" } := by
  unfold preallocate at h
  dsimp only at h
  split at h
  · split at h
    · cases h
    · rename_i fs hfs
      simp only [Except.ok.injEq, Prod.mk.injEq, true_and] at h
      unfold FlushState.CheckDiskSpace at hfs
      split at hfs
      · cases hfs
      · split_ifs at hfs <;> cases hfs
        subst h; rfl
    · cases h
  · cases h

theorem getElem?_append_of_some {l l' : List CBlockFileInfo} {i : Nat} {x : CBlockFileInfo}
    (h : l[i]? = some x) : (l ++ l')[i]? = some x := by
  have hi : i < l.length := by
    by_contra hc
    rw [List.getElem?_eq_none (by omega)] at h
    cases h
  rw [List.getElem?_append_left hi, h]

/-- After appending empty infos, a file's info is its old info, or empty for a new file. -/
theorem getD_of_append_null {l : List CBlockFileInfo} {k i : Nat} {x : CBlockFileInfo}
    (h : (l ++ List.replicate k CBlockFileInfo.null)[i]? = some x) :
    (l[i]?).getD CBlockFileInfo.null = x := by
  by_cases hi : i < l.length
  · rw [List.getElem?_append_left hi] at h
    simp [h]
  · rw [List.getElem?_append_right (by omega), List.getElem?_replicate] at h
    split_ifs at h
    cases h
    simp [List.getElem?_eq_none (show l.length ≤ i by omega)]

theorem nSize_getD_of_append_null {l : List CBlockFileInfo} {k i : Nat} {x : CBlockFileInfo}
    (h : (l ++ List.replicate k CBlockFileInfo.null)[i]? = some x) :
    ((l[i]?).map CBlockFileInfo.nSize).getD 0 = x.nSize := by
  rw [← getD_of_append_null h]
  cases l[i]? <;> rfl

/-- Setting one file of the padded vector to an info at least as large keeps or grows the size
of every file of the old vector. -/
theorem sizes_set_padded {l : List CBlockFileInfo} {k nFile : Nat} {info new : CBlockFileInfo}
    (hget : (l ++ List.replicate k CBlockFileInfo.null)[nFile]? = some info)
    (hle : info.nSize ≤ new.nSize) (f : Nat) (x : CBlockFileInfo) (hx : l[f]? = some x) :
    ∃ x' : CBlockFileInfo,
      ((l ++ List.replicate k CBlockFileInfo.null).set nFile new)[f]? = some x' ∧
        x.nSize ≤ x'.nSize := by
  have hx' : (l ++ List.replicate k CBlockFileInfo.null)[f]? = some x := getElem?_append_of_some hx
  by_cases hf : nFile = f
  · subst hf
    rw [hget] at hx'
    cases hx'
    exact ⟨new, List.getElem?_set_self (List.getElem?_eq_some_iff.mp hget).1, hle⟩
  · exact ⟨x, by rw [List.getElem?_set_ne hf]; exact hx', le_rfl⟩

/-- Setting one file of the padded vector to an info below a bound keeps every file below it,
when the old files are below it and the bound is positive. -/
theorem small_set_padded {l : List CBlockFileInfo} {k nFile M : Nat} {new : CBlockFileInfo}
    (hsmall : ∀ x ∈ l, x.nSize < M) (hM : 0 < M) (hnew : new.nSize < M) :
    ∀ x ∈ (l ++ List.replicate k CBlockFileInfo.null).set nFile new, x.nSize < M := by
  intro x hx
  rcases List.mem_or_eq_of_mem_set hx with hx | rfl
  · rcases List.mem_append.mp hx with hx | hx
    · exact hsmall x hx
    · rw [List.eq_of_mem_replicate hx]; exact hM
  · exact hnew

/-- The invariant after one call: every old range lies below its file's old size, which the
call keeps or grows, and the new range starts at its file's old end. -/
theorem PosInv.of_callSpec {s s' : BlockFiles} {ranges : List (CDiskBlockPos × Nat)}
    {pos : CDiskBlockPos} {nAddSize : Nat} (hinv : PosInv B s ranges)
    (hc : CallSpec B s s' pos nAddSize)
    (hsmall : ∀ info ∈ s'.vinfoBlockFile, info.nSize < B.MAX_BLOCKFILE_SIZE) :
    PosInv B s' ((pos, nAddSize) :: ranges) := by
  refine ⟨hsmall, ?_, List.pairwise_cons.mpr ⟨fun r hr hf => ?_, hinv.disjoint⟩⟩
  · intro r hr
    rcases List.mem_cons.mp hr with rfl | hr
    · obtain ⟨info', hget', hsize⟩ := Option.map_eq_some'.mp hc.grows
      exact ⟨info', hget', hsize.ge⟩
    · obtain ⟨info, hget, hend⟩ := hinv.within r hr
      obtain ⟨info', hget', hle⟩ := hc.sizes _ _ hget
      exact ⟨info', hget', hend.trans hle⟩
  · obtain ⟨info, hget, hend⟩ := hinv.within r hr
    have hprev := hc.prev
    rw [hf, hget] at hprev
    simpa [hprev] using hend

/-- **One call for a new block.**  From a state where `PosInv` holds, a call with
`nAddSize < MAX_BLOCKFILE_SIZE` returns; when it returns true it does what `CallSpec` says,
and `PosInv` holds with the range it returned. -/
theorem findBlockPos_step {P : FlushParams} {io : BlockPosIO} {state : CValidationState}
    {posIn : CDiskBlockPos} {nAddSize nHeight nTime : Nat} {s : BlockFiles}
    {ranges : List (CDiskBlockPos × Nat)} (hinv : PosInv B s ranges)
    (hlt : nAddSize < B.MAX_BLOCKFILE_SIZE) :
    (FindBlockPos P B io state posIn nAddSize nHeight nTime false s).isSome ∧
    ∀ st pos s', FindBlockPos P B io state posIn nAddSize nHeight nTime false s =
        some (.ok (true, st, pos, s')) →
      CallSpec B s s' pos nAddSize ∧ PosInv B s' ((pos, nAddSize) :: ranges) := by
  have hlen₀ := lt_length_resizeTo s.vinfoBlockFile s.fs.nLastBlockFile
  obtain ⟨k₀, hv₀⟩ := resizeTo_eq s.vinfoBlockFile s.fs.nLastBlockFile
  obtain ⟨nFile, k₁, info, hloop, hle, hget, hfit⟩ := advanceLoop_spec hlt _ _ _ hlen₀
    (Nat.le_add_left _ _)
  -- the loop has only appended empty infos
  have hvs : resizeTo s.vinfoBlockFile s.fs.nLastBlockFile ++
      List.replicate k₁ CBlockFileInfo.null =
      s.vinfoBlockFile ++ List.replicate (k₀ + k₁) CBlockFileInfo.null := by
    rw [hv₀, List.append_assoc, List.replicate_add]
  rw [hvs] at hget
  -- leaving the current file for `nFile`
  obtain ⟨fs, hfs, hlast⟩ : ∃ fs, (if nFile = s.fs.nLastBlockFile then some s.fs
      else leaveBlockFile false (resizeTo s.vinfoBlockFile s.fs.nLastBlockFile ++
        List.replicate k₁ CBlockFileInfo.null) nFile s.fs) = some fs ∧
      fs.nLastBlockFile = nFile := by
    split_ifs with h
    · exact ⟨s.fs, rfl, h.symm⟩
    · simp only [leaveBlockFile, Bool.not_false, Bool.true_and, decide_eq_true_eq,
        List.length_append]
      rw [if_neg (by omega)]
      exact ⟨_, rfl, rfl⟩
  rw [findBlockPos_new_eq hloop (hvs ▸ hget) hfs]
  refine ⟨rfl, fun st pos s' h => ?_⟩
  simp only [Option.some.injEq, Except.map] at h
  split at h
  · cases h
  rename_i r hp
  obtain ⟨_ | _, s₃⟩ := r
  · simp at h
  simp only [if_true, Except.ok.injEq, Prod.mk.injEq, true_and] at h
  obtain ⟨-, rfl, rfl⟩ := h
  obtain ⟨hv₃, hl₃, hpre⟩ := preallocate_true hp
  rw [hvs] at hv₃
  have hlen :
      nFile < (s.vinfoBlockFile ++ List.replicate (k₀ + k₁) CBlockFileInfo.null).length :=
    (List.getElem?_eq_some_iff.mp hget).1
  have hc : CallSpec B s
      { s₃ with fs := (FlushOp.insertFile nFile).apply P s₃.fs }
      ⟨nFile, info.nSize⟩ nAddSize := {
    prev := (nSize_getD_of_append_null hget).symm
    fits := hfit
    last := ⟨hle, by simpa [FlushOp.apply, hlast] using hl₃⟩
    grows := by simp [hv₃, List.getElem?_set_self hlen]
    sizes := by rw [hv₃]; exact sizes_set_padded hget (Nat.le_add_right _ _)
    prealloc := hpre }
  refine ⟨hc, hinv.of_callSpec hc ?_⟩
  rw [hv₃]
  exact small_set_padded hinv.small (by omega) hfit

/-! ### A call that returns false -/

end Step

/-- From one file holding a 60-byte block, a 50-byte block does not fit and goes to a new file
1, and the disk has no room for its chunks: the call returns false, and file 1 exists and
counts the block, `nLastBlockFile` is 1, and nothing was marked dirty. -/
theorem findBlockPos_out_of_space_counts_block :
    let P : FlushParams := ⟨5000 * 300, 3600 * 1000000, 24 * 3600 * 1000000, 100⟩
    let B : BlockFileParams := ⟨100, 16⟩
    let s : BlockFiles := ⟨[⟨1, 60, 0, 1, 1, 10, 10⟩], FlushState.startup, []⟩
    ∃ st s', FindBlockPos P B ⟨.ok 0, true⟩ CValidationState.fresh ⟨0, 0⟩ 50 2 20 false s =
        some (.ok (false, st, ⟨1, 0⟩, s')) ∧
      s'.vinfoBlockFile = [⟨1, 60, 0, 1, 1, 10, 10⟩, ⟨1, 50, 0, 2, 2, 20, 20⟩] ∧
      s'.fs.nLastBlockFile = 1 ∧ s'.fs.setDirtyFileInfo = s.fs.setDirtyFileInfo :=
  ⟨_, _, rfl, rfl, rfl, rfl⟩

/-! ### Runs of calls -/

/-- The states reached from `s₀` by calls for new blocks with `nAddSize < MAX_BLOCKFILE_SIZE`
that return true, each observing its own `BlockPosIO`, and the ranges they returned, newest
first. -/
inductive PosRun (P : FlushParams) (B : BlockFileParams) (s₀ : BlockFiles) :
    BlockFiles → List (CDiskBlockPos × Nat) → Prop
  | nil : PosRun P B s₀ s₀ []
  | call {s s' : BlockFiles} {ranges : List (CDiskBlockPos × Nat)} {io : BlockPosIO}
      {state st : CValidationState} {posIn pos : CDiskBlockPos} {nAddSize nHeight nTime : Nat} :
      PosRun P B s₀ s ranges → nAddSize < B.MAX_BLOCKFILE_SIZE →
      FindBlockPos P B io state posIn nAddSize nHeight nTime false s =
        some (.ok (true, st, pos, s')) →
      PosRun P B s₀ s' ((pos, nAddSize) :: ranges)

section Run

variable {P : FlushParams} {B : BlockFileParams} {s₀ : BlockFiles}

theorem PosRun.posInv (h₀ : ∀ info ∈ s₀.vinfoBlockFile, info.nSize < B.MAX_BLOCKFILE_SIZE)
    {s : BlockFiles} {ranges : List (CDiskBlockPos × Nat)} (hrun : PosRun P B s₀ s ranges) :
    PosInv B s ranges := by
  induction hrun with
  | nil => exact ⟨h₀, by simp, .nil⟩
  | call _ hlt hcall ih => exact ((findBlockPos_step ih hlt).2 _ _ _ hcall).2

/-- **Runs of `FindBlockPos` for new blocks.**  From a state where every file is below
`MAX_BLOCKFILE_SIZE`, along every run of calls that return true, every file stays below it, the
ranges returned lie within their files, and two ranges returned in one file do not overlap,
the later one starting at or after the earlier one's end.  Every next call for a block below
`MAX_BLOCKFILE_SIZE` returns, neither looping nor indexing out of range, and a true return
does what `CallSpec` says. -/
theorem findBlockPos_run
    (h₀ : ∀ info ∈ s₀.vinfoBlockFile, info.nSize < B.MAX_BLOCKFILE_SIZE) {s : BlockFiles}
    {ranges : List (CDiskBlockPos × Nat)} (hrun : PosRun P B s₀ s ranges) :
    PosInv B s ranges ∧
    ∀ (io : BlockPosIO) (state : CValidationState) (posIn : CDiskBlockPos)
      (nAddSize nHeight nTime : Nat), nAddSize < B.MAX_BLOCKFILE_SIZE →
      (FindBlockPos P B io state posIn nAddSize nHeight nTime false s).isSome ∧
      ∀ st pos s', FindBlockPos P B io state posIn nAddSize nHeight nTime false s =
          some (.ok (true, st, pos, s')) → CallSpec B s s' pos nAddSize := by
  have hinv := hrun.posInv h₀
  exact ⟨hinv, fun _ _ _ _ _ _ hlt =>
    (findBlockPos_step hinv hlt).imp_right fun h st pos s' hc => (h st pos s' hc).1⟩

end Run

/-- Two calls from an empty vector: a 60-byte block at the start of file 0, then a 50-byte
block that does not fit after it and goes at the start of file 1, leaving file 0. -/
theorem findBlockPos_run_next_file :
    let P : FlushParams := ⟨5000 * 300, 3600 * 1000000, 24 * 3600 * 1000000, 100⟩
    let B : BlockFileParams := ⟨100, 16⟩
    let s₀ : BlockFiles := ⟨[], FlushState.startup, []⟩
    let s₂ : BlockFiles :=
      ⟨[⟨1, 60, 0, 1, 1, 10, 10⟩, ⟨1, 50, 0, 2, 2, 20, 20⟩],
        ⟨[], [1, 0], 1, 0, 0, 0, "", false,
          [.dirtied (.file 1), .blockFileFlushed, .dirtied (.file 0)]⟩,
        [(⟨1, 0⟩, 64), (⟨0, 0⟩, 64)]⟩
    let ranges : List (CDiskBlockPos × Nat) := [(⟨1, 0⟩, 50), (⟨0, 0⟩, 60)]
    (∀ info ∈ s₀.vinfoBlockFile, info.nSize < B.MAX_BLOCKFILE_SIZE) ∧
    PosRun P B s₀ s₂ ranges ∧ PosInv B s₂ ranges ∧
    ∀ (io : BlockPosIO) (state : CValidationState) (posIn : CDiskBlockPos)
      (nAddSize nHeight nTime : Nat), nAddSize < B.MAX_BLOCKFILE_SIZE →
      (FindBlockPos P B io state posIn nAddSize nHeight nTime false s₂).isSome ∧
      ∀ st pos s', FindBlockPos P B io state posIn nAddSize nHeight nTime false s₂ =
          some (.ok (true, st, pos, s')) → CallSpec B s₂ s' pos nAddSize := by
  intro P B s₀ s₂ ranges
  have h₀ : ∀ info ∈ s₀.vinfoBlockFile, info.nSize < B.MAX_BLOCKFILE_SIZE := by simp [s₀]
  have hrun : PosRun P B s₀ s₂ ranges :=
    .call (.call .nil (by decide)
      (show FindBlockPos P B ⟨.ok 1000, true⟩ .fresh ⟨0, 0⟩ 60 1 10 false s₀ =
        some (.ok (true, .fresh, ⟨0, 0⟩, ⟨[⟨1, 60, 0, 1, 1, 10, 10⟩],
          ⟨[], [0], 0, 0, 0, 0, "", false, [.dirtied (.file 0)]⟩, [(⟨0, 0⟩, 64)]⟩)) by
        unfold P B s₀; rfl))
      (by decide)
      (show FindBlockPos P B ⟨.ok 1000, true⟩ .fresh ⟨0, 0⟩ 50 2 20 false _ =
        some (.ok (true, .fresh, ⟨1, 0⟩, s₂)) by unfold P B s₂; rfl)
  exact ⟨h₀, hrun, findBlockPos_run h₀ hrun⟩

end Ecc
