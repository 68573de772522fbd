import EccoinValidation.Chain.Runs
import EccoinValidation.Storage.BlockPos

/-!
# Storage — the records of the block-tree database

`vinfoBlockFile` and `mapBlockIndex` are write-back caches of the block-tree database.  In
`main.cpp` only `FindBlockPos` changes a file's info, and it inserts the file into
`setDirtyFileInfo`.  The block-index operations insert every entry they change into
`setDirtyBlockIndex` (`chainRun_dirtyFrame`), except for the link fields `nChainTx` and
`nSequenceId`, which the database does not store.  `FlushStateToDisk` drains both sets into one
`WriteBatchSync(vFiles, nLastBlockFile, vBlocks)`: each file's info as `vinfoBlockFile` holds it,
and each entry as `CDiskBlockIndex` stores it.  `BlockTreeDB` models those records.  A flush gives
the database the batches it appends to the disk history, with the caches as they are during the
call.  A file the database holds no record of reads as an empty info.

A `Node` holds the chain state, the block files with the flush globals, and the database.
`setDirtyBlockIndex` is one global: a flush reads and drains the chain state's.
`Coherent` says that **every file not in `setDirtyFileInfo` has, in the database, the info
`vinfoBlockFile` holds**, and `IndexCoherent` says the same of every entry not in
`setDirtyBlockIndex`.

* `findBlockPos_infos`: each call changes the info of the file of the position it returns
  (one more block) and no other file.  A true return inserts that file into
  `setDirtyFileInfo`, and a false return leaves the set as it was.
* `Reached.flushStateToDisk`: through every stage of a flush whose `WriteBatchSync` succeeds,
  the files and entries not in the dirty sets keep their records, whatever the modes, the
  clock, the disk space and the coin flush do.
* `nodeRun_coherent`: **no update is lost.**  Along any interleaving of the block-index
  operations, `FindBlockPos` calls that return true, and `FlushStateToDisk` calls whose batch
  write succeeds, a node that starts coherent stays coherent for both kinds of record.
* `findBlockPos_false_incoherent`: a call that runs out of disk space breaks this.  It counts
  the block in a file it does not mark dirty, so from a coherent state in which that file is
  clean the database no longer holds the file's info, and the file stays clean.
-/

namespace Ecc

/-- The info `vinfoBlockFile` holds for file `f`, and an empty one past its end. -/
def infoAt (v : List CBlockFileInfo) (f : Nat) : CBlockFileInfo :=
  (v[f]?).getD CBlockFileInfo.null

section Infos

variable {v : List CBlockFileInfo}

@[simp] theorem infoAt_append_null (v : List CBlockFileInfo) (k f : Nat) :
    infoAt (v ++ List.replicate k CBlockFileInfo.null) f = infoAt v f := by
  unfold infoAt
  by_cases hf : f < v.length
  · rw [List.getElem?_append_left hf]
  · rw [List.getElem?_append_right (by omega), List.getElem?_replicate,
      List.getElem?_eq_none (by omega)]
    split_ifs <;> rfl

theorem infoAt_set {n : Nat} (hn : n < v.length) (info : CBlockFileInfo) (f : Nat) :
    infoAt (v.set n info) f = if f = n then info else infoAt v f := by
  unfold infoAt
  split_ifs with hf
  · subst hf; rw [List.getElem?_set_self hn]; rfl
  · rw [List.getElem?_set_ne (Ne.symm hf)]

@[simp] theorem infoAt_resizeTo (v : List CBlockFileInfo) (n f : Nat) :
    infoAt (resizeTo v n) f = infoAt v f := by
  obtain ⟨k, hv⟩ := resizeTo_eq v n
  rw [hv, infoAt_append_null]

end Infos

/-! ### What a call of `FindBlockPos` does to the infos -/

section Call

variable {P : FlushParams} {B : BlockFileParams} {io : BlockPosIO} {state st : CValidationState}
  {s s' : BlockFiles}

/-- A pre-allocation keeps the infos and the dirty set, whatever it returns. -/
theorem preallocate_keeps {pos : CDiskBlockPos} {nSize : Nat} {b : Bool}
    (h : preallocate P B io pos nSize s = .ok (b, s')) :
    s'.vinfoBlockFile = s.vinfoBlockFile ∧ s'.fs.setDirtyFileInfo = s.fs.setDirtyFileInfo := by
  unfold preallocate at h
  dsimp only at h
  split at h
  · split at h
    · cases h
    all_goals rename_i fs hfs; cases h
    all_goals rcases checkDiskSpace_cases hfs with rfl | rfl <;> exact ⟨rfl, rfl⟩
  · cases h; exact ⟨rfl, rfl⟩

/-- **What a call does to the infos.**  Every call that returns, for a known or a new block,
true or false, has counted one more block in the file of the position it returns and changed
no other file's info.  A true return inserts that file into `setDirtyFileInfo`, and a false
return leaves the set as it was. -/
theorem findBlockPos_infos {posIn pos : CDiskBlockPos} {nAddSize nHeight nTime : Nat}
    {fKnown r : Bool}
    (h : FindBlockPos P B io state posIn nAddSize nHeight nTime fKnown s =
      some (.ok (r, st, pos, s'))) :
    (∀ f, f ≠ pos.nFile → infoAt s'.vinfoBlockFile f = infoAt s.vinfoBlockFile f) ∧
    (infoAt s'.vinfoBlockFile pos.nFile).nBlocks =
      (infoAt s.vinfoBlockFile pos.nFile).nBlocks + 1 ∧
    s'.fs.setDirtyFileInfo =
      if r then s.fs.setDirtyFileInfo.insert pos.nFile else s.fs.setDirtyFileInfo := by
  cases fKnown
  · -- a new block: the loop chose `nFile`, and the pre-allocation keeps what was set
    obtain ⟨nFile, v, info, fs, hloop, hget, hfs⟩ := findBlockPos_new_inv h
    rw [findBlockPos_new_eq hloop hget hfs] at h
    obtain ⟨k, rfl⟩ := advanceLoop_append hloop
    have hlen := (List.getElem?_eq_some_iff.mp hget).1
    have hinfo : infoAt s.vinfoBlockFile nFile = info := by
      rw [← infoAt_resizeTo _ s.fs.nLastBlockFile, ← infoAt_append_null _ k]
      simp only [infoAt, hget]; rfl
    -- leaving the current file touches no dirty set
    have hdirty : fs.setDirtyFileInfo = s.fs.setDirtyFileInfo := by
      split_ifs at hfs
      · cases hfs; rfl
      · simp only [leaveBlockFile] at hfs; split_ifs at hfs; cases hfs; rfl
    simp only [Option.some.injEq, Except.map] at h
    split at h
    · cases h
    rename_i r' hp
    obtain ⟨hv, hd⟩ := preallocate_keeps hp
    split_ifs at h <;> simp only [Except.ok.injEq, Prod.mk.injEq] at h <;>
      obtain ⟨rfl, -, rfl, rfl⟩ := h <;>
      refine ⟨fun f hf => by simp only [hv, infoAt_set hlen, if_neg hf, infoAt_append_null,
        infoAt_resizeTo], ?_, ?_⟩ <;>
      simp only [hv, hd, hdirty, FlushOp.apply, infoAt_set hlen, if_true, hinfo,
        CBlockFileInfo.AddBlock, Bool.false_eq_true, if_false]
  · -- a known block: the caller's file, resized to hold it
    have hlen := lt_length_resizeTo s.vinfoBlockFile posIn.nFile
    have hget := List.getElem?_eq_getElem hlen
    simp only [FindBlockPos, ↓reduceIte, Option.bind_eq_bind, Option.some_bind, hget,
      leaveBlockFile, Bool.not_true, Bool.false_and, Bool.false_eq_true, Except.map,
      Option.some.injEq, Except.ok.injEq, Prod.mk.injEq, if_true] at h
    have hinfo : infoAt (resizeTo s.vinfoBlockFile posIn.nFile) posIn.nFile =
        (resizeTo s.vinfoBlockFile posIn.nFile)[posIn.nFile] := by simp only [infoAt, hget]; rfl
    split_ifs at h <;> obtain ⟨rfl, -, rfl, rfl⟩ := h <;>
      refine ⟨fun f hf => by simp only [infoAt_set hlen, if_neg hf, infoAt_resizeTo], ?_,
        rfl⟩ <;>
      simp only [infoAt_set hlen, if_true, CBlockFileInfo.AddBlock, ← hinfo, infoAt_resizeTo]

end Call

/-! ### The database -/

/-- The records of the block-tree database: the block files' infos by file number, and the
block-index entries by handle; `none` where it holds no record. -/
structure BlockTreeDB where
  fileInfo : Nat → Option CBlockFileInfo
  blockIndex : Nat → Option CBlockIndex

namespace BlockTreeDB

/-- `WriteBatchSync(vFiles, nLastBlockFile, vBlocks)`: each file of `vFiles` with the info
`vinfoBlockFile` holds for it at the call, and each entry of `vBlocks` as `CDiskBlockIndex`
stores it, without its link fields.  A dirty file is always in the vector, since
`FindBlockPos` sets its info before inserting it. -/
def WriteBatchSync (db : BlockTreeDB) (v : List CBlockFileInfo) (m : BlockMap)
    (vFiles vBlocks : List Nat) : BlockTreeDB :=
  ⟨fun n => if n ∈ vFiles then v[n]? else db.fileInfo n,
    fun b => if b ∈ vBlocks then some (m.entry b).withoutLinks else db.blockIndex b⟩

/-- What one event of the disk history does to the records, the caches being `v` and `m`:
only a batch write changes them. -/
def apply (v : List CBlockFileInfo) (m : BlockMap) (db : BlockTreeDB) : DiskEvent → BlockTreeDB
  | .batchWritten vFiles _ vBlocks => db.WriteBatchSync v m vFiles vBlocks
  | _ => db

/-- The records after the events `es`, newest first, the caches being `v` and `m`. -/
def record (v : List CBlockFileInfo) (m : BlockMap) (es : List DiskEvent) (db : BlockTreeDB) :
    BlockTreeDB :=
  es.foldr (fun e db => db.apply v m e) db

end BlockTreeDB

/-- Every file not in `setDirtyFileInfo` has in the database the info `vinfoBlockFile` holds
for it. -/
def Coherent (s : BlockFiles) (db : BlockTreeDB) : Prop :=
  ∀ n, n ∉ s.fs.setDirtyFileInfo → (db.fileInfo n).getD .null = infoAt s.vinfoBlockFile n

/-- Every entry of the map not in `setDirtyBlockIndex` has in the database its record, the
entry without its link fields. -/
def IndexCoherent (c : ChainState) (db : BlockTreeDB) : Prop :=
  ∀ b ∈ c.mapBlockIndex.keys, b ∉ c.setDirtyBlockIndex →
    db.blockIndex b = some (c.mapBlockIndex.entry b).withoutLinks

/-! ### Through the stages of a flush -/

/-- A flush that started with history `h₀` and records `db`, the caches being `v` and `m`, has
reached `fs`: the events since are `new`, and every file and every entry of the map not in the
dirty sets has, in the records after them, what the caches hold. -/
def Reached (v : List CBlockFileInfo) (m : BlockMap) (db : BlockTreeDB) (h₀ : List DiskEvent)
    (fs : FlushState) : Prop :=
  ∃ new, fs.history = new ++ h₀ ∧
    (∀ n, n ∉ fs.setDirtyFileInfo →
      ((db.record v m new).fileInfo n).getD .null = infoAt v n) ∧
    ∀ b ∈ m.keys, b ∉ fs.setDirtyBlockIndex →
      (db.record v m new).blockIndex b = some (m.entry b).withoutLinks

namespace Reached

variable {v : List CBlockFileInfo} {m : BlockMap} {db : BlockTreeDB} {h₀ : List DiskEvent}
  {fs fs' : FlushState}

/-- `Reached` reads only the history and the dirty sets. -/
theorem of_eq (h : Reached v m db h₀ fs) (hh : fs'.history = fs.history)
    (hd : fs'.setDirtyFileInfo = fs.setDirtyFileInfo)
    (hb : fs'.setDirtyBlockIndex = fs.setDirtyBlockIndex) : Reached v m db h₀ fs' := by
  obtain ⟨new, hnew, hf, hi⟩ := h
  exact ⟨new, hh ▸ hnew, hd ▸ hf, hb ▸ hi⟩

theorem abortNode (h : Reached v m db h₀ fs) (msg : String) :
    Reached v m db h₀ (fs.AbortNode msg) :=
  h.of_eq rfl rfl rfl

/-- An event that writes no record keeps `Reached`. -/
theorem cons (h : Reached v m db h₀ fs) (e : DiskEvent)
    (he : ∀ db : BlockTreeDB, db.apply v m e = db) (hh : fs'.history = e :: fs.history)
    (hd : fs'.setDirtyFileInfo = fs.setDirtyFileInfo)
    (hb : fs'.setDirtyBlockIndex = fs.setDirtyBlockIndex) : Reached v m db h₀ fs' := by
  obtain ⟨new, hnew, hf, hi⟩ := h
  refine ⟨e :: new, by rw [hh, hnew]; rfl, fun n hn => ?_, fun b hk hn => ?_⟩ <;>
    rw [BlockTreeDB.record, List.foldr_cons, he]
  · exact hf n (hd ▸ hn)
  · exact hi b hk (hb ▸ hn)

end Reached

section Stages

variable {P : FlushParams} {io : FlushIO} {state : CValidationState} {mode : FlushStateMode}
  {v : List CBlockFileInfo} {m : BlockMap} {db : BlockTreeDB} {h₀ : List DiskEvent}
  {fs : FlushState}

theorem Reached.checkDiskSpace (h : Reached v m db h₀ fs) {space : Except String Nat} {n : Nat}
    {b : Bool} {fs' : FlushState} (hc : FlushState.CheckDiskSpace P space n fs = .ok (b, fs')) :
    Reached v m db h₀ fs' ∧ fs'.setDirtyFileInfo = fs.setDirtyFileInfo ∧
      fs'.setDirtyBlockIndex = fs.setDirtyBlockIndex := by
  rcases checkDiskSpace_cases hc with rfl | rfl
  · exact ⟨h, rfl, rfl⟩
  · exact ⟨h.abortNode _, rfl, rfl⟩

/-- The batch write: the files and entries drained from the dirty sets are written as the
caches hold them. -/
theorem writeBlockIndex_reached (h : Reached v m db h₀ fs) (hw : io.WriteBatchSync = .ok true) :
    StageInv (Reached v m db h₀) (Reached v m db h₀) (writeBlockIndex P io state fs) := by
  unfold writeBlockIndex
  split
  · exact h
  · exact (h.checkDiskSpace ‹_›).1
  · rename_i fs₁ hc
    obtain ⟨⟨new, hnew, hf, hi⟩, -⟩ := h.checkDiskSpace hc
    simp only [hw]
    refine ⟨.batchWritten fs₁.setDirtyFileInfo fs₁.nLastBlockFile fs₁.setDirtyBlockIndex ::
      .blockFileFlushed :: new, by simp only [hnew, List.cons_append], fun n _ => ?_,
      fun b hk _ => ?_⟩ <;>
      simp only [BlockTreeDB.record, List.foldr_cons, BlockTreeDB.apply,
        BlockTreeDB.WriteBatchSync] <;>
      split_ifs with hn
    · rfl
    · exact hf n hn
    · rfl
    · exact hi b hk hn

theorem flushCoins_reached (h : Reached v m db h₀ fs) :
    StageInv (Reached v m db h₀) (Reached v m db h₀) (flushCoins P io state fs) := by
  unfold flushCoins
  split
  · exact h
  · exact (h.checkDiskSpace ‹_›).1
  · rename_i fs₁ hc
    have h₁ := (h.checkDiskSpace hc).1
    split
    · exact h₁
    · exact h₁.abortNode _
    · exact h₁.cons .coinsFlushed (fun _ => rfl) rfl rfl rfl

theorem flushStages_reached (h : Reached v m db h₀ fs) (hw : io.WriteBatchSync = .ok true) :
    StageInv (Reached v m db h₀) (Reached v m db h₀) (flushStages P io state mode fs) := by
  unfold flushStages
  dsimp only
  refine StageInv.bind (I := Reached v m db h₀) ?_ fun fs₁ h₁ =>
    StageInv.bind (I := Reached v m db h₀) ?_ fun fs₂ h₂ => ?_
  · split
    · exact writeBlockIndex_reached h hw
    · exact h
  · split
    · exact flushCoins_reached h₁
    · exact h₁
  · split
    · exact h₂.cons .bestChainSet (fun _ => rfl) rfl rfl rfl
    · exact h₂

/-- **A flush loses no record.**  Through a call whose `WriteBatchSync` succeeds, whatever it
returns, every file and every entry not in the dirty sets keeps its record. -/
theorem Reached.flushStateToDisk (h : Reached v m db h₀ fs) (hw : io.WriteBatchSync = .ok true) :
    Reached v m db h₀ (FlushStateToDisk P io state mode fs).2.2 := by
  have hs : StageInv (Reached v m db h₀) (Reached v m db h₀)
      (flushStages P io state mode (startTimers io fs)) :=
    flushStages_reached (h.of_eq rfl rfl rfl) hw
  unfold FlushStateToDisk
  split <;> rename_i heq <;> rw [heq] at hs
  · exact hs
  · exact hs
  · exact hs.abortNode _

end Stages

/-! ### The node -/

/-- The globals the dirty sets tie together: the chain state, whose `setDirtyBlockIndex` is the
global one, the block files with the flush globals, and the database. -/
structure Node where
  chain : ChainState
  files : BlockFiles
  db : BlockTreeDB

namespace Node

/-- The flush globals as `FlushStateToDisk` sees them, with the chain state's
`setDirtyBlockIndex`. -/
def flushState (n : Node) : FlushState :=
  { n.files.fs with setDirtyBlockIndex := n.chain.setDirtyBlockIndex }

/-- The events a history `h` has gained over `h₀`, newest first. -/
def newEvents (h₀ h : List DiskEvent) : List DiskEvent :=
  h.take (h.length - h₀.length)

theorem newEvents_append (new h₀ : List DiskEvent) : newEvents h₀ (new ++ h₀) = new :=
  List.take_left' (by simp)

/-- `FlushStateToDisk(state, mode)` on the node: the flush globals and the chain state's dirty
set as the call leaves them, and the database after the events it appended to the history. -/
def FlushStateToDisk (P : FlushParams) (io : FlushIO) (state : CValidationState)
    (mode : FlushStateMode) (n : Node) : Node :=
  let fs := (Ecc.FlushStateToDisk P io state mode n.flushState).2.2
  ⟨{ n.chain with setDirtyBlockIndex := fs.setDirtyBlockIndex }, { n.files with fs := fs },
    n.db.record n.files.vinfoBlockFile n.chain.mapBlockIndex
      (newEvents n.flushState.history fs.history)⟩

/-- Both caches are coherent with the database. -/
def Coherent (n : Node) : Prop :=
  Ecc.Coherent n.files n.db ∧ IndexCoherent n.chain n.db

end Node

/-- One step of the node: a block-index operation, allowed where it is called and returning; a
`FindBlockPos` call, for a known or a new block, that returns true; or a `FlushStateToDisk`
call whose `WriteBatchSync` succeeds.  Each call observes its own world. -/
inductive NodeStep (P : FlushParams) (B : BlockFileParams) (n : Node) : Node → Prop
  | chain {op : ChainOp} {c : ChainState} :
      op.Allowed n.chain → op.apply n.chain = some c → NodeStep P B n { n with chain := c }
  | place {s' : BlockFiles} {io : BlockPosIO} {state st : CValidationState}
      {posIn pos : CDiskBlockPos} {nAddSize nHeight nTime : Nat} {fKnown : Bool} :
      FindBlockPos P B io state posIn nAddSize nHeight nTime fKnown n.files =
        some (.ok (true, st, pos, s')) →
      NodeStep P B n { n with files := s' }
  | flush {io : FlushIO} {state : CValidationState} {mode : FlushStateMode} :
      io.WriteBatchSync = .ok true → NodeStep P B n (n.FlushStateToDisk P io state mode)

/-- The runs of the node: its steps in any number and order. -/
def NodeRun (P : FlushParams) (B : BlockFileParams) : Node → Node → Prop :=
  Relation.ReflTransGen (NodeStep P B)

/-! ### Steps and runs -/

section Steps

variable {P : FlushParams} {B : BlockFileParams} {s s' : BlockFiles} {db : BlockTreeDB}

/-- A call that returns true keeps coherence: the one file it changes is now dirty. -/
theorem Coherent.findBlockPos (h : Coherent s db) {io : BlockPosIO} {state st : CValidationState}
    {posIn pos : CDiskBlockPos} {nAddSize nHeight nTime : Nat} {fKnown : Bool}
    (hf : FindBlockPos P B io state posIn nAddSize nHeight nTime fKnown s =
      some (.ok (true, st, pos, s'))) : Coherent s' db := by
  obtain ⟨hframe, -, hd⟩ := findBlockPos_infos hf
  intro n hn
  rw [hd, if_pos rfl, List.mem_insert_iff, not_or] at hn
  rw [hframe n hn.1]
  exact h n hn.2

/-- A call of a block-index operation keeps coherence: what it changes is now dirty. -/
theorem IndexCoherent.apply {c c' : ChainState} {op : ChainOp} (h : IndexCoherent c db)
    (hop : op.Allowed c) (happ : op.apply c = some c') : IndexCoherent c' db := by
  have hfr := ChainState.dirtyFrame_apply hop happ
  intro b hk hb
  rw [hfr.clean b hb]
  exact h b (hfr.keys ▸ hk) fun hd => hb (hfr.dirty b hd)

/-- A flush whose batch write succeeds keeps both kinds of record coherent. -/
theorem Node.Coherent.flushStateToDisk {n : Node} (h : n.Coherent) {io : FlushIO}
    {state : CValidationState} {mode : FlushStateMode} (hw : io.WriteBatchSync = .ok true) :
    (n.FlushStateToDisk P io state mode).Coherent := by
  have h₀ : Reached n.files.vinfoBlockFile n.chain.mapBlockIndex n.db n.flushState.history
      n.flushState := ⟨[], rfl, h.1, h.2⟩
  obtain ⟨new, hnew, hf, hi⟩ : Reached n.files.vinfoBlockFile n.chain.mapBlockIndex n.db
      n.flushState.history (Ecc.FlushStateToDisk P io state mode n.flushState).2.2 :=
    h₀.flushStateToDisk hw
  unfold Node.FlushStateToDisk
  dsimp only
  rw [hnew, Node.newEvents_append]
  exact ⟨hf, hi⟩

end Steps

variable {P : FlushParams} {B : BlockFileParams} {n₀ n n' : Node}

/-- **One step keeps both caches coherent**: what a block-index operation or a `FindBlockPos`
call changes is now dirty, and a flush writes what it drains. -/
theorem Node.Coherent.step (h : n.Coherent) (hs : NodeStep P B n n') : n'.Coherent := by
  cases hs with
  | chain hop happ => exact ⟨h.1, h.2.apply hop happ⟩
  | place hf => exact ⟨h.1.findBlockPos hf, h.2⟩
  | flush hw => exact h.flushStateToDisk hw

/-- **No update is lost.**  From a node whose caches are coherent with the database, along any
interleaving of the block-index operations, `FindBlockPos` calls that return true and
`FlushStateToDisk` calls whose batch write succeeds, every file not in `setDirtyFileInfo` has in
the database the info `vinfoBlockFile` holds, and every entry not in `setDirtyBlockIndex` has
its record. -/
theorem nodeRun_coherent (h₀ : n₀.Coherent) (hrun : NodeRun P B n₀ n) : n.Coherent := by
  induction hrun with
  | refl => exact h₀
  | tail _ hs ih => exact ih.step hs

/-- The genesis block of two headers receives its data, `FindBlockPos` places its 60 bytes at
the start of file 0, and a full flush writes both the entry and the file's info: both dirty sets
are then empty, and the database holds the caches. -/
theorem nodeRun_coherent_genesis_data :
    let P : FlushParams := ⟨5000 * 300, 3600 * 1000000, 24 * 3600 * 1000000, 100⟩
    let B : BlockFileParams := ⟨100, 16⟩
    let n₀ : Node := ⟨ChainState.twoHeaders, ⟨[], FlushState.startup, []⟩,
      ⟨fun _ => none,
        fun b => some (ChainState.twoHeaders.mapBlockIndex.entry b).withoutLinks⟩⟩
    n₀.Coherent ∧ ∃ n, NodeRun P B n₀ n ∧ n.chain.setDirtyBlockIndex = [] ∧
      n.files.fs.setDirtyFileInfo = [] ∧ n.Coherent := by
  intro P B n₀
  have h₀ : n₀.Coherent := ⟨fun k _ => by simp [n₀, infoAt], fun _ _ _ => rfl⟩
  let ok : FlushIO := ⟨1000000, 0, 0, .ok 1000000000, .ok 1000000000, .ok true, .ok true⟩
  have hrun : NodeRun P B n₀ (Node.FlushStateToDisk P ok .fresh .FLUSH_STATE_ALWAYS _) :=
    .tail (.tail (.single (.chain
      (show (ChainOp.receivedBlockTransactions (ChainState.oneTxBlock 1) 0 ⟨0, 0⟩).Allowed
        n₀.chain from ⟨by decide, rfl, List.cons_ne_nil _ _⟩) rfl))
      (.place (show FindBlockPos P B ⟨.ok 1000, true⟩ .fresh ⟨0, 0⟩ 60 1 10 false _ =
        some (.ok (true, .fresh, ⟨0, 0⟩, _)) by unfold P B n₀; rfl)))
      (.flush rfl)
  exact ⟨h₀, _, hrun, rfl, rfl, nodeRun_coherent h₀ hrun⟩

/-- **Out of disk space, an update is lost.**  A call for a new block that returns false has
counted the block in the file of the position it returns but not marked that file dirty.  From
a coherent state in which that file is clean, the file stays clean and the state reached is not
coherent: the database no longer holds the file's info. -/
theorem findBlockPos_false_incoherent {s s' : BlockFiles} {db : BlockTreeDB} {io : BlockPosIO}
    {state st : CValidationState} {posIn pos : CDiskBlockPos} {nAddSize nHeight nTime : Nat}
    (h : Coherent s db) (hclean : pos.nFile ∉ s.fs.setDirtyFileInfo)
    (hf : FindBlockPos P B io state posIn nAddSize nHeight nTime false s =
      some (.ok (false, st, pos, s'))) :
    pos.nFile ∉ s'.fs.setDirtyFileInfo ∧ ¬ Coherent s' db := by
  obtain ⟨-, hblocks, hd⟩ := findBlockPos_infos hf
  rw [if_neg Bool.false_ne_true] at hd
  refine ⟨hd ▸ hclean, fun h' => ?_⟩
  have hsame := (h' pos.nFile (hd ▸ hclean)).symm.trans (h pos.nFile hclean)
  rw [hsame] at hblocks
  omega

/-- File 0 holds one 60-byte block and its record; a 50-byte block goes to a new file 1 and the
disk has no room for its chunks. -/
theorem findBlockPos_false_incoherent_new_file :
    let P : FlushParams := ⟨5000 * 300, 3600 * 1000000, 24 * 3600 * 1000000, 100⟩
    let B : BlockFileParams := ⟨100, 16⟩
    let s : BlockFiles := ⟨[⟨1, 60, 0, 1, 1, 10, 10⟩], FlushState.startup, []⟩
    let db : BlockTreeDB :=
      ⟨fun n => if n = 0 then some ⟨1, 60, 0, 1, 1, 10, 10⟩ else none, fun _ => none⟩
    ∃ st s', Coherent s db ∧ 1 ∉ s.fs.setDirtyFileInfo ∧
      FindBlockPos P B ⟨.ok 0, true⟩ CValidationState.fresh ⟨0, 0⟩ 50 2 20 false s =
        some (.ok (false, st, ⟨1, 0⟩, s')) ∧
      1 ∉ s'.fs.setDirtyFileInfo ∧ ¬ Coherent s' db := by
  intro P B s db
  have h : Coherent s db := fun n _ => by
    rcases n with _ | n <;> simp [db, s, infoAt]
  obtain ⟨st, s', hf⟩ : ∃ st s',
      FindBlockPos P B ⟨.ok 0, true⟩ CValidationState.fresh ⟨0, 0⟩ 50 2 20 false s =
        some (.ok (false, st, ⟨1, 0⟩, s')) := ⟨_, _, by unfold P B s; rfl⟩
  exact ⟨st, s', h, List.not_mem_nil _, hf,
    findBlockPos_false_incoherent h (List.not_mem_nil _) hf⟩

end Ecc
