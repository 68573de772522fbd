import EccoinValidation.Primitives.Transaction
import EccoinValidation.Storage.Placement
import EccoinValidation.Wallet.Stream

/-!
# Storage — writing blocks to disk and reading them back

`WriteBlockToDisk(block, pos, messageStart)` opens block file `pos.nFile` at offset `pos.nPos`,
writes an index header (the four bytes of the network's message start, then the block's
serialized size as an `unsigned int`), asks `ftell` where the header ended, writes the block
there, and moves `pos.nPos` to it.  `ReadBlockFromDisk(block, pos)` opens the file read-only at
`pos.nPos`, deserializes a block, and rejects a proof-of-work block whose hash does not meet
its target.

A node stores a block's data by asking `FindBlockPos` for room for the block's serialized size
plus the 8-byte header, writing the block at the position it returns, and recording the
position the write returns in the block index (`ReceivedBlockTransactions`).  `AcceptBlock`,
which makes the first two calls, and the block serializer are not under src/: the sequence is
`StoreRun`, and the serializer is a parameter `F` (a `Codec`: how `fileout << block` writes a
block and `filein >> block` reads one) that reads back what it writes.

`FindBlockPos` touches the files too.  When it leaves `nLastBlockFile` for a new block it calls
`FlushBlockFile(true)`, which truncates the file it leaves to the size `vinfoBlockFile` records
for it; when the block crosses into a new chunk it pre-allocates the chunks with
`AllocateFileRange`.  `TruncateFile` and `AllocateFileRange` are in util.cpp, not under src/:
the first is `ftruncate`, and the second a parameter `A` (`posix_fallocate`, or the fallback
that writes zeros from the offset) of which only one thing is used: it changes no byte before
the offset.

The files are a map from file numbers to their bytes (`BlockDisk`).  `fseek` past the end of
a file and a write there leave a gap that reads as zeros (`writeAt`).

* `storeRun_reads_back`: **every stored block reads back.**  Along any run of stores from files
  below `MAX_BLOCKFILE_SIZE`, every block stored so far reads back from the position recorded
  for it, however many blocks were written after it and whatever files were truncated and
  pre-allocated on the way: the ranges `FindBlockPos` hands out never overlap and lie within
  the recorded sizes (`PosInv`), the truncation keeps the recorded size, and a pre-allocation
  or a write changes no byte before its offset (`drop_writeAt_of_le`).  The read fails only
  where the serializer cannot read the block back or the block's proof of work is not valid.

Positions are `Nat` here, as in `Storage.BlockPos`; `(unsigned int)ftell(...)` is exact for
files below `MAX_BLOCKFILE_SIZE`.  The writes of `CAutoFile` are taken to succeed; an
`OpenBlockFile` that fails is an input.  The undo files that `FlushBlockFile` also truncates
are not modelled.
-/

namespace Ecc

/-- `CMessageHeader::MessageMagic`: the four bytes that start every message, and every block
record on disk. -/
structure MessageMagic where
  bytes : List UInt8
  length_bytes : bytes.length = 4

/-- The block files `blk?????.dat`: the bytes of each file number, `none` for a file that does
not exist. -/
structure BlockDisk where
  file : Nat → Option (List UInt8)

/-- The files after file `n` is rewritten. -/
def BlockDisk.set (d : BlockDisk) (n : Nat) (bytes : List UInt8) : BlockDisk :=
  ⟨fun m => if m = n then some bytes else d.file m⟩

@[simp] theorem BlockDisk.file_set_self (d : BlockDisk) (n : Nat) (bytes : List UInt8) :
    (d.set n bytes).file n = some bytes := if_pos rfl

@[simp] theorem BlockDisk.file_set_ne (d : BlockDisk) {n m : Nat} (bytes : List UInt8)
    (h : m ≠ n) : (d.set n bytes).file m = d.file m := if_neg h

/-- `fwrite` of `bytes` at offset `p` of a file holding `f`, after `fseek(p)`: the bytes before
`p` stay, a gap past the end reads as zeros, and the bytes after the written ones stay. -/
def writeAt (f : List UInt8) (p : Nat) (bytes : List UInt8) : List UInt8 :=
  (f.take p ++ List.replicate (p - f.length) 0) ++ (bytes ++ f.drop (p + bytes.length))

/-- The index header `fileout << FLATDATA(messageStart) << nSize`. -/
def blockHeader (messageStart : MessageMagic) (nSize : Nat) : List UInt8 :=
  messageStart.bytes ++ writeUInt32 (UInt32.ofNat nSize)

/-- `TruncateFile(file, length)`: `ftruncate`, which keeps the first `length` bytes and extends
a shorter file with zeros. -/
def TruncateFile (f : List UInt8) (length : Nat) : List UInt8 :=
  f.take length ++ List.replicate (length - f.length) 0

/-- `FlushBlockFile(fFinalize)` on the block files: `OpenBlockFile(posOld)` opens block file
`nLastBlockFile`, creating it if it does not exist, and when finalizing it is truncated to
`nSize`, the size `vinfoBlockFile[nLastBlockFile]` records; `FileCommit` changes no byte. -/
def FlushBlockFile (fileOpens fFinalize : Bool) (nLastBlockFile nSize : Nat) (d : BlockDisk) :
    BlockDisk :=
  if fileOpens && fFinalize then
    d.set nLastBlockFile (TruncateFile ((d.file nLastBlockFile).getD []) nSize)
  else d

/-- `g` holds, at the same offsets, every run of bytes of `f` that ends at or before `p`. -/
def KeepsBefore (f g : List UInt8) (p : Nat) : Prop :=
  ∀ (q : Nat) (held rest : List UInt8), f.drop q = held ++ rest → q + held.length ≤ p →
    ∃ rest', g.drop q = held ++ rest'

/-- `AllocateFileRange(file, offset, length)`: what it does to the file's bytes, and that it
changes no byte before `offset`. -/
structure FileAllocator where
  allocate : List UInt8 → Nat → Nat → List UInt8
  frame : ∀ f offset length, KeepsBefore f (allocate f offset length) offset

variable (F : Codec CBlock)

/-- `WriteBlockToDisk(block, pos, messageStart)`: `none` when `OpenBlockFile` fails
("OpenBlockFile failed"); otherwise the files after the header and the block are written, and
`pos` with `nPos` at the end of the header, where `ftell` puts it. -/
def WriteBlockToDisk (fileOpens : Bool) (block : CBlock) (pos : CDiskBlockPos)
    (messageStart : MessageMagic) (d : BlockDisk) : Option (BlockDisk × CDiskBlockPos) :=
  if fileOpens then
    let nSize := (F.write block).length
    let header := blockHeader messageStart nSize
    let f := writeAt ((d.file pos.nFile).getD []) pos.nPos header
    let fileOutPos := pos.nPos + header.length
    some (d.set pos.nFile (writeAt f fileOutPos (F.write block)), { pos with nPos := fileOutPos })
  else none

/-- `ReadBlockFromDisk(block, pos, consensusParams)`: `none` when the file does not exist
("OpenBlockFile failed"), when the bytes at `pos` do not deserialize ("Deserialize or I/O
error"), or when a proof-of-work block fails `CheckProofOfWork` ("Errors in block header"). -/
def ReadBlockFromDisk (pos : CDiskBlockPos) (d : BlockDisk) : Option CBlock :=
  (d.file pos.nFile).bind fun f => (F.read (f.drop pos.nPos)).bind fun (block, _) =>
    if block.IsProofOfWork && !block.fPowValid then none else some block

/-! ### Writes at an offset -/

section WriteAt

variable {f bytes : List UInt8} {p : Nat}

theorem length_writeLE : ∀ (width x : Nat), (writeLE width x).length = width
  | 0, _ => rfl
  | width + 1, x => by simp [writeLE, length_writeLE width]

@[simp] theorem length_blockHeader (messageStart : MessageMagic) (nSize : Nat) :
    (blockHeader messageStart nSize).length = 8 := by
  simp [blockHeader, messageStart.length_bytes, writeUInt32, length_writeLE]

theorem length_truncateFile (f : List UInt8) (length : Nat) :
    (TruncateFile f length).length = length := by
  simp only [TruncateFile, List.length_append, List.length_take, List.length_replicate]
  omega

/-- What a write leaves at its own offset: the bytes written, then the rest of the file. -/
theorem drop_writeAt_self (f : List UInt8) (p : Nat) (bytes : List UInt8) :
    (writeAt f p bytes).drop p = bytes ++ f.drop (p + bytes.length) :=
  List.drop_left' (length_truncateFile f p)

/-- Truncating to `length` keeps every byte before `length`. -/
theorem keepsBefore_truncateFile (f : List UInt8) (length : Nat) :
    KeepsBefore f (TruncateFile f length) length := by
  intro q held rest hf hq
  have htake : (f.take length).drop q = held ++ rest.take (length - q - held.length) := by
    rw [List.drop_take, hf, List.take_append_eq_append_take,
      List.take_of_length_le (by omega)]
  rw [TruncateFile, List.drop_append_eq_append_drop, htake, List.append_assoc]
  exact ⟨_, rfl⟩

/-- **A write disturbs nothing before its offset**: it is the file truncated to the offset,
then the bytes written and the rest of the file. -/
theorem keepsBefore_writeAt (f : List UInt8) (p : Nat) (bytes : List UInt8) :
    KeepsBefore f (writeAt f p bytes) p := fun q held rest hf hq => by
  obtain ⟨rest', h⟩ := keepsBefore_truncateFile f p q held rest hf hq
  have hq' : q ≤ (TruncateFile f p).length := by rw [length_truncateFile]; omega
  show ∃ rest', (TruncateFile f p ++ _).drop q = held ++ rest'
  rw [List.drop_append_of_le_length hq', h, List.append_assoc]
  exact ⟨_, rfl⟩

theorem KeepsBefore.trans {g h : List UInt8} {p p' : Nat} (h₁ : KeepsBefore f g p)
    (h₂ : KeepsBefore g h p') (hp : p ≤ p') : KeepsBefore f h p := fun q held rest hf hq => by
  obtain ⟨rest', h'⟩ := h₁ q held rest hf hq
  exact h₂ q held rest' h' (by omega)

/-- The fallback of `AllocateFileRange`: zeros written from the offset. -/
def zeroFill : FileAllocator :=
  ⟨fun f offset length => writeAt f offset (List.replicate length 0),
    fun f offset _ => keepsBefore_writeAt f offset _⟩

end WriteAt

/-! ### One write, one read -/

section Call

variable {F} {block : CBlock} {pos pos' : CDiskBlockPos} {messageStart : MessageMagic}
  {d d' : BlockDisk}

theorem writeBlockToDisk_eq (h : WriteBlockToDisk F true block pos messageStart d = some (d', pos')) :
    pos' = ⟨pos.nFile, pos.nPos + 8⟩ ∧
    d' = d.set pos.nFile (writeAt (writeAt ((d.file pos.nFile).getD []) pos.nPos
      (blockHeader messageStart (F.write block).length)) (pos.nPos + 8) (F.write block)) := by
  simp only [WriteBlockToDisk, if_true, length_blockHeader, Option.some.injEq, Prod.mk.injEq] at h
  exact ⟨h.2.symm, h.1.symm⟩

/-- Reading a file that holds a block's bytes at `pos`. -/
theorem readBlockFromDisk_of_drop {f rest : List UInt8} (hf : d.file pos.nFile = some f)
    (hd : f.drop pos.nPos = F.write block ++ rest) :
    ReadBlockFromDisk F pos d =
      if F.fits block && !(block.IsProofOfWork && !block.fPowValid) then some block else none := by
  simp only [ReadBlockFromDisk, hf, Option.some_bind, hd, F.readsBack block rest]
  cases F.fits block
  · rfl
  · rw [if_pos rfl, Option.some_bind]
    cases block.IsProofOfWork <;> cases block.fPowValid <;> rfl

end Call

/-! ### Runs of stores -/

/-- A block stored by a run: the range `FindBlockPos` gave it, the position the write
returned, which the block index records, and the block. -/
structure StoredBlock where
  range : CDiskBlockPos × Nat
  pos : CDiskBlockPos
  block : CBlock

/-- The files after `FindBlockPos` for a new block has chosen `pos`: when it leaves
`nLastBlockFile`, `FlushBlockFile(true)` truncates that file to the size recorded for it. -/
def leaveBlockFiles (fileOpens : Bool) (s : BlockFiles) (pos : CDiskBlockPos) (d : BlockDisk) :
    BlockDisk :=
  if pos.nFile = s.fs.nLastBlockFile then d
  else FlushBlockFile fileOpens true s.fs.nLastBlockFile
    (sizeAt s.vinfoBlockFile s.fs.nLastBlockFile) d

/-- The files after the `AllocateFileRange` call of `FindBlockPos`, as the call records it in
`preallocated`: none, or one from `pos`. -/
def Allocated (A : FileAllocator) (s s' : BlockFiles) (pos : CDiskBlockPos) (d d' : BlockDisk) :
    Prop :=
  (s'.preallocated = s.preallocated ∧ d' = d) ∨
  ∃ len, s'.preallocated = (pos, len) :: s.preallocated ∧
    d' = d.set pos.nFile (A.allocate ((d.file pos.nFile).getD []) pos.nPos len)

/-- The states and files reached from `s₀` and `d₀` by storing blocks as `AcceptBlock` does:
`FindBlockPos` for a new block of the serialized size plus the header returns true, having
truncated the file it left (if its `OpenBlockFile` succeeds) and pre-allocated what it records;
then `WriteBlockToDisk` at the position found succeeds.  The stored blocks are newest first. -/
inductive StoreRun (A : FileAllocator) (P : FlushParams) (B : BlockFileParams)
    (messageStart : MessageMagic) (s₀ : BlockFiles) (d₀ : BlockDisk) :
    BlockFiles → BlockDisk → List StoredBlock → Prop
  | nil : StoreRun A P B messageStart s₀ d₀ s₀ d₀ []
  | store {s s' : BlockFiles} {d d₁ d' : BlockDisk} {stored : List StoredBlock}
      {io : BlockPosIO} {flushOpens : Bool} {state st : CValidationState}
      {posIn pos pos' : CDiskBlockPos} {block : CBlock} {nHeight nTime : Nat} :
      StoreRun A P B messageStart s₀ d₀ s d stored →
      (F.write block).length + 8 < B.MAX_BLOCKFILE_SIZE →
      FindBlockPos P B io state posIn ((F.write block).length + 8) nHeight nTime false s =
        some (.ok (true, st, pos, s')) →
      Allocated A s s' pos (leaveBlockFiles flushOpens s pos d) d₁ →
      WriteBlockToDisk F true block pos messageStart d₁ = some (d', pos') →
      StoreRun A P B messageStart s₀ d₀ s' d'
        (⟨(pos, (F.write block).length + 8), pos', block⟩ :: stored)

/-- The files hold `r`'s block at the position recorded for it, 8 bytes into its range. -/
def Holds (d : BlockDisk) (r : StoredBlock) : Prop :=
  ∃ f rest, d.file r.range.1.nFile = some f ∧
    f.drop (r.range.1.nPos + 8) = F.write r.block ++ rest

/-- The invariant of a run of stores: the ranges meet `PosInv`; each block's range is its
serialized size plus the header, the recorded position is 8 bytes into the range, and the file
holds the block's bytes there. -/
structure StoreInv (B : BlockFileParams) (s : BlockFiles) (d : BlockDisk)
    (stored : List StoredBlock) : Prop where
  ranges : PosInv B s (stored.map StoredBlock.range)
  size : ∀ r ∈ stored, r.range.2 = (F.write r.block).length + 8
  pos : ∀ r ∈ stored, r.pos = ⟨r.range.1.nFile, r.range.1.nPos + 8⟩
  bytes : ∀ r ∈ stored, Holds F d r

section Run

variable {F} {A : FileAllocator} {P : FlushParams} {B : BlockFileParams}
  {messageStart : MessageMagic} {d d' : BlockDisk} {r : StoredBlock}

/-- Rewriting a file so that it keeps what ended before `p` keeps a block of that file ending
there, and every block of another file. -/
theorem Holds.set (h : Holds F d r) (n : Nat) {g : List UInt8} {p : Nat}
    (hg : KeepsBefore ((d.file n).getD []) g p)
    (hend : r.range.1.nFile = n → r.range.1.nPos + 8 + (F.write r.block).length ≤ p) :
    Holds F (d.set n g) r := by
  obtain ⟨f, rest, hf, hdrop⟩ := h
  by_cases hn : r.range.1.nFile = n
  · subst hn
    obtain ⟨rest', h'⟩ := hg _ _ _ (by rw [hf, Option.getD_some]; exact hdrop) (hend rfl)
    exact ⟨g, rest', BlockDisk.file_set_self _ _ _, h'⟩
  · exact ⟨f, rest, by rw [BlockDisk.file_set_ne _ _ hn, hf], hdrop⟩

/-- Leaving a file truncates it to its recorded size, which covers the block. -/
theorem Holds.leaveBlockFiles (h : Holds F d r) (fileOpens : Bool) (s : BlockFiles)
    (pos : CDiskBlockPos)
    (hin : r.range.1.nPos + 8 + (F.write r.block).length ≤ sizeAt s.vinfoBlockFile r.range.1.nFile) :
    Holds F (leaveBlockFiles fileOpens s pos d) r := by
  unfold Ecc.leaveBlockFiles FlushBlockFile
  split_ifs
  · exact h
  · exact h.set _ (keepsBefore_truncateFile _ _) fun hf => hf ▸ hin
  · exact h

/-- A pre-allocation starts at the new block's position, after the block. -/
theorem Holds.allocated {s s' : BlockFiles} {pos : CDiskBlockPos} (h : Holds F d r)
    (ha : Allocated A s s' pos d d')
    (hend : r.range.1.nFile = pos.nFile → r.range.1.nPos + 8 + (F.write r.block).length ≤ pos.nPos) :
    Holds F d' r := by
  rcases ha with ⟨-, rfl⟩ | ⟨len, -, rfl⟩
  · exact h
  · exact h.set _ (A.frame _ _ _) hend

/-- One store keeps the invariant: the new block's bytes are where the write put them, and an
older block's bytes survive the truncation, which keeps the recorded size, and the
pre-allocation and the write, which start after it in its file. -/
theorem StoreInv.store {s s' : BlockFiles} {d₁ : BlockDisk} {stored : List StoredBlock}
    {io : BlockPosIO} {flushOpens : Bool} {state st : CValidationState}
    {posIn pos pos' : CDiskBlockPos} {block : CBlock} {nHeight nTime : Nat}
    (hinv : StoreInv F B s d stored)
    (hlt : (F.write block).length + 8 < B.MAX_BLOCKFILE_SIZE)
    (hfind : FindBlockPos P B io state posIn ((F.write block).length + 8) nHeight nTime false s =
      some (.ok (true, st, pos, s')))
    (halloc : Allocated A s s' pos (leaveBlockFiles flushOpens s pos d) d₁)
    (hwrite : WriteBlockToDisk F true block pos messageStart d₁ = some (d', pos')) :
    StoreInv F B s' d' (⟨(pos, (F.write block).length + 8), pos', block⟩ :: stored) := by
  have hpos := ((findBlockPos_step hinv.ranges hlt).2 st pos s' hfind).2
  obtain ⟨rfl, rfl⟩ := writeBlockToDisk_eq hwrite
  -- an older block lies within its file's recorded size ...
  have hin : ∀ r ∈ stored, r.range.1.nPos + 8 + (F.write r.block).length ≤
      sizeAt s.vinfoBlockFile r.range.1.nFile := fun r hr => by
    obtain ⟨info, hget, hend⟩ := hinv.ranges.within r.range (List.mem_map_of_mem _ hr)
    rw [sizeAt_of_getElem? hget]; rw [hinv.size r hr] at hend; omega
  -- ... and ends where the new range starts, or before, in the new block's file
  have hbefore : ∀ r ∈ stored, r.range.1.nFile = pos.nFile →
      r.range.1.nPos + 8 + (F.write r.block).length ≤ pos.nPos := fun r hr hf => by
    have := (List.pairwise_cons.mp hpos.disjoint).1 r.range (List.mem_map_of_mem _ hr) hf.symm
    rw [hinv.size r hr] at this; simp only at this; omega
  refine ⟨hpos, by simpa using hinv.size, by simpa using hinv.pos, ?_⟩
  simp only [List.mem_cons, forall_eq_or_imp]
  refine ⟨⟨_, _, BlockDisk.file_set_self _ _ _, drop_writeAt_self _ _ _⟩, fun r hr => ?_⟩
  refine (((hinv.bytes r hr).leaveBlockFiles flushOpens s pos (hin r hr)).allocated halloc
    (hbefore r hr)).set _ ((keepsBefore_writeAt _ _ _).trans (keepsBefore_writeAt _ _ _) ?_)
    (hbefore r hr)
  omega

/-- **Every stored block reads back.**  From files all below `MAX_BLOCKFILE_SIZE`, along any
run of stores, every block stored so far reads back from the position recorded for it, however
many blocks were written after it and whatever files were truncated and pre-allocated on the
way; the read fails only when the serializer cannot read the block back or the block's proof
of work is not valid. -/
theorem storeRun_reads_back {s₀ s : BlockFiles} {d₀ : BlockDisk} {stored : List StoredBlock}
    (h₀ : ∀ info ∈ s₀.vinfoBlockFile, info.nSize < B.MAX_BLOCKFILE_SIZE)
    (hrun : StoreRun F A P B messageStart s₀ d₀ s d stored) :
    ∀ r ∈ stored, ReadBlockFromDisk F r.pos d =
      if F.fits r.block && !(r.block.IsProofOfWork && !r.block.fPowValid) then some r.block
      else none := by
  have hinv : StoreInv F B s d stored := by
    induction hrun with
    | nil => exact ⟨⟨h₀, by simp, .nil⟩, by simp, by simp, by simp⟩
    | store _ hlt hfind halloc hwrite ih => exact ih.store hlt hfind halloc hwrite
  intro r hr
  obtain ⟨f, rest, hf, hdrop⟩ := hinv.bytes r hr
  rw [hinv.pos r hr]
  exact readBlockFromDisk_of_drop hf hdrop

/-- A format that reads back one block, written as the byte 0; every other block is written as
the byte 1, which it does not read. -/
def oneBlockCodec (b₀ : CBlock) : Codec CBlock where
  write b := [if b = b₀ then 0 else 1]
  read
    | c :: s => if c = 0 then some (b₀, s) else none
    | [] => none
  fits b := decide (b = b₀)
  readsBack b rest := by by_cases h : b = b₀ <;> simp [h]

/-- Two 9-byte records in files of at most 15 bytes: the first goes at the start of file 0,
which is pre-allocated to 16 bytes; the second does not fit after it, so file 0 is truncated
to its 9 recorded bytes and the second goes to file 1.  Both blocks read back. -/
theorem storeRun_reads_back_after_truncation :
    let b₀ : CBlock := ⟨1, 10, [], false, 0, 0, false, 100, true, true, false⟩
    let P : FlushParams := ⟨5000 * 300, 3600 * 1000000, 24 * 3600 * 1000000, 100⟩
    let B : BlockFileParams := ⟨15, 16⟩
    let magic : MessageMagic := ⟨[1, 2, 3, 4], rfl⟩
    let s₀ : BlockFiles := ⟨[], FlushState.startup, []⟩
    let stored : List StoredBlock := [⟨(⟨1, 0⟩, 9), ⟨1, 8⟩, b₀⟩, ⟨(⟨0, 0⟩, 9), ⟨0, 8⟩, b₀⟩]
    (∀ info ∈ s₀.vinfoBlockFile, info.nSize < B.MAX_BLOCKFILE_SIZE) ∧
    ∃ s d, StoreRun (oneBlockCodec b₀) zeroFill P B magic s₀ ⟨fun _ => none⟩ s d stored ∧
      ∀ r ∈ stored, ReadBlockFromDisk (oneBlockCodec b₀) r.pos d = some b₀ := by
  intro b₀ P B magic s₀ stored
  have h₀ : ∀ info ∈ s₀.vinfoBlockFile, info.nSize < B.MAX_BLOCKFILE_SIZE := by simp [s₀]
  have hrun : StoreRun (oneBlockCodec b₀) zeroFill P B magic s₀ ⟨fun _ => none⟩ _ _ stored :=
    .store
      (.store .nil (by decide)
        (show FindBlockPos P B ⟨.ok 1000, true⟩ .fresh ⟨0, 0⟩ 9 1 10 false s₀ =
          some (.ok (true, .fresh, ⟨0, 0⟩, _)) by unfold P B s₀; rfl)
        (show Allocated zeroFill _ _ _ (leaveBlockFiles true _ _ _) _ from .inr ⟨16, rfl, rfl⟩)
        (show WriteBlockToDisk (oneBlockCodec b₀) true b₀ ⟨0, 0⟩ magic _ = some (_, ⟨0, 8⟩) by
          unfold b₀ magic; rfl))
      (by decide)
      (show FindBlockPos P B ⟨.ok 1000, true⟩ .fresh ⟨0, 0⟩ 9 2 20 false _ =
        some (.ok (true, .fresh, ⟨1, 0⟩, _)) by unfold P B; rfl)
      (show Allocated zeroFill _ _ _ (leaveBlockFiles true _ _ _) _ from .inr ⟨16, rfl, rfl⟩)
      (show WriteBlockToDisk (oneBlockCodec b₀) true b₀ ⟨1, 0⟩ magic _ = some (_, ⟨1, 8⟩) by
        unfold b₀ magic; rfl)
  refine ⟨h₀, _, _, hrun, fun r hr => ?_⟩
  rw [storeRun_reads_back h₀ hrun r hr]
  simp only [stored, List.mem_cons, List.mem_singleton, List.not_mem_nil, or_false] at hr
  rcases hr with rfl | rfl <;> rfl

end Run

end Ecc
