import EccoinValidation.Primitives.ValidationState

/-!
# Storage — FlushStateToDisk

`FlushStateToDisk(state, mode)` writes the dirty block-index entries and block-file infos to
the block-tree database in one `WriteBatchSync`, then flushes the coin cache.  The comment in
the source says the coin flush "can only be done if the blocks / block index write was also
done": the persisted coin set may refer to block-index entries, so they must be on disk
first.

The model is the call over the globals it touches (`setDirtyBlockIndex`, `setDirtyFileInfo`,
the three `static` timers, and the `strMiscWarning` and shutdown flag that `AbortNode` sets)
and over what each call observes of the world (`FlushIO`): the clock, the cache sizes, what
`fs::space` reports or throws at each `CheckDiskSpace`, and how `WriteBatchSync` and the coin
cache's `Flush` end: true, false, or a `std::runtime_error`.  The `try` block is
`startTimers` followed by `flushStages`, which leaves early through `Exit`: a `return` or a
throw, each with the globals as they are at that point, so the `catch` sees what the body had
already changed.

What the disk receives is recorded in `history`, newest first, together with the inserts into
the dirty sets made between calls.  `FlushOrdered` is the ordering the source's comment
asks for, over a whole history: at each successful coin flush, every entry put into a dirty
set before it has been included in a later successful batch write.

* `flushStateToDisk_coins_flushed_before_index`: a failed batch write followed by the shutdown
  flush leaves a coin flush with an entry that no batch write ever included.
-/

namespace Ecc

/-- `FlushStateMode`. -/
inductive FlushStateMode
  | FLUSH_STATE_NONE
  | FLUSH_STATE_IF_NEEDED
  | FLUSH_STATE_PERIODIC
  | FLUSH_STATE_ALWAYS
deriving DecidableEq, Repr

/-- The constants the flush reads: `nCoinCacheUsage` (a global of `main.cpp`, 5000 * 300 by
default) and the intervals and disk-space floor of `main.h`. -/
structure FlushParams where
  nCoinCacheUsage : Nat
  DATABASE_WRITE_INTERVAL : Int
  DATABASE_FLUSH_INTERVAL : Int
  nMinDiskSpace : Nat

/-- What one call observes: `GetTimeMicros()`, the coin cache's `DynamicMemoryUsage()` and
`GetCacheSize()`, what `fs::space(GetDataDir()).available` gives (or throws) at the first and
the second `CheckDiskSpace`, and how `WriteBatchSync` and the coin cache's `Flush()` end. -/
structure FlushIO where
  nNow : Int
  cacheSize : Nat
  nCoinsCached : Nat
  spaceForIndex : Except String Nat
  spaceForCoins : Except String Nat
  WriteBatchSync : Except String Bool
  Flush : Except String Bool

/-- An element of a dirty set: a block-index entry or a block file's info. -/
inductive DirtyRef
  | block (b : Nat)
  | file (n : Nat)
deriving DecidableEq, Repr

/-- What reaches the disk, and the inserts into the dirty sets between calls. -/
inductive DiskEvent
  | dirtied (x : DirtyRef)
  /-- `FlushBlockFile()`. -/
  | blockFileFlushed
  /-- A `WriteBatchSync(vFiles, nLastBlockFile, vBlocks)` that returned true. -/
  | batchWritten (vFiles : List Nat) (nLastBlockFile : Nat) (vBlocks : List Nat)
  /-- A coin-cache `Flush()` that returned true. -/
  | coinsFlushed
  /-- `GetMainSignals().SetBestChain(...)`. -/
  | bestChainSet
deriving DecidableEq, Repr

/-- The globals the flush reads and writes, and the history of the disk, newest first. -/
structure FlushState where
  setDirtyBlockIndex : List Nat
  setDirtyFileInfo : List Nat
  nLastBlockFile : Nat
  nLastWrite : Int
  nLastFlush : Int
  nLastSetChain : Int
  strMiscWarning : String
  fRequestShutdown : Bool
  history : List DiskEvent

namespace FlushState

/-- The globals at process start: empty dirty sets, the timers at 0, no warning. -/
def startup : FlushState := ⟨[], [], 0, 0, 0, 0, "", false, []⟩

/-- `x` is in its dirty set. -/
def IsDirty (s : FlushState) : DirtyRef → Prop
  | .block b => b ∈ s.setDirtyBlockIndex
  | .file n => n ∈ s.setDirtyFileInfo

/-- `AbortNode(strMessage, userMessage)`: record the warning and request shutdown (the
message box is not modelled); it returns false. -/
def AbortNode (s : FlushState) (strMessage : String) : FlushState :=
  { s with strMiscWarning := strMessage, fRequestShutdown := true }

/-- `AbortNode(state, strMessage, userMessage)`: the same, and `state.Error(strMessage)`. -/
def AbortNodeState (s : FlushState) (state : CValidationState) (strMessage : String) :
    Bool × CValidationState × FlushState :=
  (false, state.Error strMessage, s.AbortNode strMessage)

/-- `CheckDiskSpace(nAdditionalBytes)`, given what `fs::space` reports or throws. -/
def CheckDiskSpace (P : FlushParams) (space : Except String Nat) (nAdditionalBytes : Nat)
    (s : FlushState) : Except String (Bool × FlushState) :=
  match space with
  | .error what => .error what
  | .ok nFreeBytesAvailable =>
    if nFreeBytesAvailable < P.nMinDiskSpace + nAdditionalBytes then
      .ok (false, s.AbortNode "Disk space is low!")
    else .ok (true, s)

end FlushState

/-! ### The call -/

/-- How the body of the `try` block leaves early: a `return` with the call's result, or a
`std::runtime_error` with its message and the globals as they were when it was thrown. -/
inductive Exit
  | ret (r : Bool × CValidationState × FlushState)
  | throw (what : String) (s : FlushState)

open FlushState

section Call

variable (P : FlushParams) (io : FlushIO) (state : CValidationState)

/-- "Write blocks and block index to disk": `FlushBlockFile()`, then both dirty sets are
drained into `vFiles` and `vBlocks`, then `WriteBatchSync`. -/
def writeBlockIndex (s : FlushState) : Except Exit FlushState :=
  match CheckDiskSpace P io.spaceForIndex 0 s with
  | .error what => .error (.throw what s)
  | .ok (false, s) => .error (.ret (false, state.Error "out of disk space", s))
  | .ok (true, s) =>
    let vFiles := s.setDirtyFileInfo
    let vBlocks := s.setDirtyBlockIndex
    let s := { s with setDirtyFileInfo := [], setDirtyBlockIndex := [],
                      history := .blockFileFlushed :: s.history }
    match io.WriteBatchSync with
    | .error what => .error (.throw what s)
    | .ok false => .error (.ret (s.AbortNodeState state "Files to write to block index database"))
    | .ok true =>
      .ok { s with nLastWrite := io.nNow,
                   history := .batchWritten vFiles s.nLastBlockFile vBlocks :: s.history }

/-- "Flush the chainstate": `CheckDiskSpace` for the cache, then the coin cache's `Flush()`. -/
def flushCoins (s : FlushState) : Except Exit FlushState :=
  match CheckDiskSpace P io.spaceForCoins (128 * 2 * 2 * io.nCoinsCached) s with
  | .error what => .error (.throw what s)
  | .ok (false, s) => .error (.ret (false, state.Error "out of disk space", s))
  | .ok (true, s) =>
    match io.Flush with
    | .error what => .error (.throw what s)
    | .ok false => .error (.ret (s.AbortNodeState state "Failed to write to coin database"))
    | .ok true => .ok { s with nLastFlush := io.nNow, history := .coinsFlushed :: s.history }

/-- `fDoFullFlush`: the mode is `FLUSH_STATE_ALWAYS`, or the cache is large or critical, or
the periodic flush is due. -/
def fDoFullFlush (mode : FlushStateMode) (nLastFlush : Int) : Bool :=
  let fCacheLarge := mode == .FLUSH_STATE_PERIODIC &&
    decide ((io.cacheSize : ℚ) * (10 / 9) > P.nCoinCacheUsage)
  let fCacheCritical := mode == .FLUSH_STATE_IF_NEEDED && decide (io.cacheSize > P.nCoinCacheUsage)
  let fPeriodicFlush := mode == .FLUSH_STATE_PERIODIC &&
    decide (io.nNow > nLastFlush + P.DATABASE_FLUSH_INTERVAL * 1000000)
  mode == .FLUSH_STATE_ALWAYS || fCacheLarge || fCacheCritical || fPeriodicFlush

/-- The body of the `try` block, after the timers are started on the first call. -/
def flushStages (mode : FlushStateMode) (s : FlushState) : Except Exit FlushState :=
  let fFull := fDoFullFlush P io mode s.nLastFlush
  let fPeriodicWrite := mode == .FLUSH_STATE_PERIODIC &&
    decide (io.nNow > s.nLastWrite + P.DATABASE_WRITE_INTERVAL * 1000000)
  (if fFull || fPeriodicWrite then writeBlockIndex P io state s else pure s) >>= fun s =>
  (if fFull then flushCoins P io state s else pure s) >>= fun s =>
  if fFull || ((mode == .FLUSH_STATE_ALWAYS || mode == .FLUSH_STATE_PERIODIC) &&
      decide (io.nNow > s.nLastSetChain + P.DATABASE_WRITE_INTERVAL * 1000000)) then
    pure { s with nLastSetChain := io.nNow, history := .bestChainSet :: s.history }
  else pure s

/-- "Avoid writing/flushing immediately after startup": a timer still at 0 starts now. -/
def startTimers (s : FlushState) : FlushState :=
  { s with nLastWrite := if s.nLastWrite = 0 then io.nNow else s.nLastWrite,
           nLastFlush := if s.nLastFlush = 0 then io.nNow else s.nLastFlush,
           nLastSetChain := if s.nLastSetChain = 0 then io.nNow else s.nLastSetChain }

/-- `FlushStateToDisk(state, mode)`: the result, the validation state, and the globals. -/
def FlushStateToDisk (mode : FlushStateMode) (s : FlushState) :
    Bool × CValidationState × FlushState :=
  match flushStages P io state mode (startTimers io s) with
  | .ok s => (true, state, s)
  | .error (.ret r) => r
  | .error (.throw what s) => s.AbortNodeState state ("System error while flushing: " ++ what)

end Call

/-! ### Runs -/

/-- A step of a run: an insert into a dirty set (`setDirtyBlockIndex.insert(pindex)`,
`setDirtyFileInfo.insert(nFile)`), or a call of `FlushStateToDisk`. -/
inductive FlushOp
  | insertBlock (b : Nat)
  | insertFile (n : Nat)
  | flush (state : CValidationState) (mode : FlushStateMode) (io : FlushIO)

/-- One step of a run. -/
def FlushOp.apply (P : FlushParams) (s : FlushState) : FlushOp → FlushState
  | .insertBlock b => { s with setDirtyBlockIndex := s.setDirtyBlockIndex.insert b,
                               history := .dirtied (.block b) :: s.history }
  | .insertFile n => { s with setDirtyFileInfo := s.setDirtyFileInfo.insert n,
                              history := .dirtied (.file n) :: s.history }
  | .flush state mode io => (FlushStateToDisk P io state mode s).2.2

/-! ### The order of writes -/

/-- The batch written by `e` includes `x`. -/
def DiskEvent.writes : DiskEvent → DirtyRef → Bool
  | .batchWritten vFiles _ _, .file n => decide (n ∈ vFiles)
  | .batchWritten _ _ vBlocks, .block b => decide (b ∈ vBlocks)
  | _, _ => false

/-- In the history `h` (newest first), every insert of `x` into a dirty set was followed by a
successful batch write that included `x`. -/
def Synced (h : List DiskEvent) (x : DirtyRef) : Prop :=
  ∀ newer older, h = newer ++ .dirtied x :: older → ∃ e ∈ newer, e.writes x

/-- At each successful coin flush of `h`, every entry put into a dirty set before it has since
been written by a successful batch write. -/
def FlushOrdered (h : List DiskEvent) : Prop :=
  ∀ newer older, h = newer ++ .coinsFlushed :: older → ∀ x, Synced older x

theorem Synced.cons {h : List DiskEvent} {x : DirtyRef} (hs : Synced h x) {e : DiskEvent}
    (he : e ≠ .dirtied x) : Synced (e :: h) x := by
  intro newer older heq
  rcases List.cons_eq_append_iff.mp heq with ⟨-, hx⟩ | ⟨n', rfl, hn⟩
  · exact absurd (List.cons.inj hx).1.symm he
  · obtain ⟨e', he', hw⟩ := hs n' older hn
    exact ⟨e', List.mem_cons_of_mem _ he', hw⟩

theorem synced_cons_of_writes {h : List DiskEvent} {x : DirtyRef} {e : DiskEvent}
    (hw : e.writes x = true) : Synced (e :: h) x := by
  intro newer older heq
  rcases List.cons_eq_append_iff.mp heq with ⟨-, heq⟩ | ⟨newer, rfl, -⟩
  · cases (List.cons.inj heq).1
    cases x <;> simp [DiskEvent.writes] at hw
  · exact ⟨e, List.mem_cons_self _ _, hw⟩

theorem FlushOrdered.cons {h : List DiskEvent} (ho : FlushOrdered h) {e : DiskEvent}
    (he : e ≠ .coinsFlushed) : FlushOrdered (e :: h) := by
  intro newer older heq
  rcases List.cons_eq_append_iff.mp heq with ⟨-, hx⟩ | ⟨n', rfl, hn⟩
  · exact absurd (List.cons.inj hx).1.symm he
  · exact ho n' older hn

/-- A coin flush keeps the order when everything dirtied so far is synced. -/
theorem FlushOrdered.coins {h : List DiskEvent} (ho : FlushOrdered h)
    (hs : ∀ x, Synced h x) : FlushOrdered (.coinsFlushed :: h) := by
  intro newer older heq
  rcases List.cons_eq_append_iff.mp heq with ⟨-, hx⟩ | ⟨n', rfl, hn⟩
  · exact (List.cons.inj hx).2 ▸ hs
  · exact ho n' older hn

/-! ### The invariant of runs whose batch writes succeed -/

/-- Whatever is not in a dirty set is synced, and the history is in order. -/
structure FlushInv (s : FlushState) : Prop where
  synced : ∀ x, ¬ s.IsDirty x → Synced s.history x
  ordered : FlushOrdered s.history

/-- Both dirty sets are empty. -/
def FlushState.Clean (s : FlushState) : Prop :=
  s.setDirtyBlockIndex = [] ∧ s.setDirtyFileInfo = []

/-- The invariant reads only the dirty sets and the history. -/
theorem FlushInv.of_eq {s s' : FlushState} (h : FlushInv s)
    (hb : s'.setDirtyBlockIndex = s.setDirtyBlockIndex)
    (hf : s'.setDirtyFileInfo = s.setDirtyFileInfo) (hh : s'.history = s.history) :
    FlushInv s' := by
  have hd : s'.IsDirty = s.IsDirty := by
    funext x; cases x <;> simp only [IsDirty, hb, hf]
  exact ⟨hd ▸ hh ▸ h.synced, hh ▸ h.ordered⟩

theorem FlushInv.abortNode {s : FlushState} (h : FlushInv s) (m : String) :
    FlushInv (s.AbortNode m) :=
  h.of_eq rfl rfl rfl

/-- Recording an event that is neither an insert nor a coin flush keeps the invariant. -/
theorem FlushInv.record {s : FlushState} (h : FlushInv s) (e : DiskEvent)
    (hd : ∀ x, e ≠ .dirtied x) (hc : e ≠ .coinsFlushed) :
    FlushInv { s with history := e :: s.history } :=
  ⟨fun x hx => (h.synced x hx).cons (hd x), h.ordered.cons hc⟩

theorem FlushInv.clean_synced {s : FlushState} (h : FlushInv s) (hc : s.Clean) (x : DirtyRef) :
    Synced s.history x :=
  h.synced x (by cases x <;> simp [IsDirty, hc.1, hc.2])

theorem checkDiskSpace_cases {P : FlushParams} {space : Except String Nat} {n : Nat}
    {s s' : FlushState} {b : Bool} (h : CheckDiskSpace P space n s = .ok (b, s')) :
    s' = s ∨ s' = s.AbortNode "Disk space is low!" := by
  unfold CheckDiskSpace at h
  split at h
  · cases h
  · split at h <;> cases h
    · exact .inr rfl
    · exact .inl rfl

/-- A stage falls through to a state with `I`, and leaves early, by a `return` or a throw,
with `J`. -/
def StageInv (I J : FlushState → Prop) : Except Exit FlushState → Prop
  | .ok s => I s
  | .error (.ret r) => J r.2.2
  | .error (.throw _ s) => J s

theorem StageInv.bind {I J K : FlushState → Prop} {m : Except Exit FlushState}
    {f : FlushState → Except Exit FlushState} (hm : StageInv I J m)
    (hf : ∀ s, I s → StageInv K J (f s)) : StageInv K J (m >>= f) := by
  rcases m with (_ | _) | s
  · exact hm
  · exact hm
  · exact hf s hm

theorem StageInv.mono {I I' J : FlushState → Prop} {m : Except Exit FlushState}
    (hm : StageInv I J m) (hI : ∀ s, I s → I' s) : StageInv I' J m := by
  rcases m with (_ | _) | s
  · exact hm
  · exact hm
  · exact hI s hm

section Stages

variable {P : FlushParams} {io : FlushIO} {state : CValidationState} {mode : FlushStateMode}
  {s : FlushState}

/-- The globals after a `CheckDiskSpace` that returned keep the invariant. -/
theorem FlushInv.checkDiskSpace (h : FlushInv s) {space : Except String Nat} {n : Nat}
    {b : Bool} {s' : FlushState} (hc : CheckDiskSpace P space n s = .ok (b, s')) :
    FlushInv s' ∧ s'.setDirtyBlockIndex = s.setDirtyBlockIndex ∧
      s'.setDirtyFileInfo = s.setDirtyFileInfo :=
  (checkDiskSpace_cases hc).elim (fun e => by subst e; exact ⟨h, rfl, rfl⟩)
    (fun e => by subst e; exact ⟨h.abortNode _, rfl, rfl⟩)

/-- A batch write that succeeds falls through with both dirty sets empty. -/
theorem writeBlockIndex_inv (h : FlushInv s) (hw : io.WriteBatchSync = .ok true) :
    StageInv (fun s => FlushInv s ∧ s.Clean) FlushInv (writeBlockIndex P io state s) := by
  unfold writeBlockIndex
  split
  · exact h
  · exact (h.checkDiskSpace ‹_›).1
  · rename_i s' hc
    have h' := (h.checkDiskSpace hc).1
    simp only [hw]
    refine ⟨⟨fun x _ => ?_, ?_⟩, rfl, rfl⟩
    · by_cases hx : s'.IsDirty x
      · exact synced_cons_of_writes (by cases x <;> simpa [DiskEvent.writes, IsDirty] using hx)
      · exact ((h'.synced x hx).cons (by simp)).cons (by simp)
    · exact (h'.ordered.cons (by simp)).cons (by simp)

/-- A coin flush from empty dirty sets keeps the invariant. -/
theorem flushCoins_inv (h : FlushInv s) (hc : s.Clean) :
    StageInv (fun s => FlushInv s ∧ s.Clean) FlushInv (flushCoins P io state s) := by
  unfold flushCoins
  split
  · exact h
  · exact (h.checkDiskSpace ‹_›).1
  · rename_i s' hd
    obtain ⟨h', hb, hf⟩ := h.checkDiskSpace hd
    have hc' : s'.Clean := ⟨hb.trans hc.1, hf.trans hc.2⟩
    split
    · exact h'
    · exact h'.abortNode _
    · exact ⟨⟨fun x _ => (h'.clean_synced hc' x).cons (by simp),
        h'.ordered.coins (h'.clean_synced hc')⟩, hc'⟩

/-- The body keeps the invariant when the batch write would succeed. -/
theorem flushStages_inv (h : FlushInv s) (hw : io.WriteBatchSync = .ok true) :
    StageInv FlushInv FlushInv (flushStages P io state mode s) := by
  unfold flushStages
  dsimp only
  refine StageInv.bind
    (I := fun s' => FlushInv s' ∧ (fDoFullFlush P io mode s.nLastFlush = true → s'.Clean))
    ?_ fun s₁ h₁ => StageInv.bind (I := FlushInv) ?_ fun s₂ h₂ => ?_
  · split
    · exact (writeBlockIndex_inv h hw).mono fun _ h' => ⟨h'.1, fun _ => h'.2⟩
    · rename_i hc
      exact ⟨h, fun hf => absurd (by simp [hf]) hc⟩
  · split
    · exact (flushCoins_inv h₁.1 (h₁.2 ‹_›)).mono fun _ h' => h'.1
    · exact h₁.1
  · split
    · exact (h₂.record .bestChainSet (by simp) (by simp)).of_eq rfl rfl rfl
    · exact h₂

end Stages

/-- The call keeps the invariant when its batch write would succeed; every other outcome of
the disk and the coin cache is allowed. -/
theorem FlushInv.flushStateToDisk {s : FlushState} (h : FlushInv s) (P : FlushParams)
    (io : FlushIO) (state : CValidationState) (mode : FlushStateMode)
    (hw : io.WriteBatchSync = .ok true) : FlushInv (FlushStateToDisk P io state mode s).2.2 := by
  have hs : StageInv FlushInv FlushInv (flushStages P io state mode (startTimers io s)) :=
    flushStages_inv (h.of_eq rfl rfl rfl) hw
  unfold FlushStateToDisk
  split <;> rename_i heq <;> rw [heq] at hs
  · exact hs
  · exact hs
  · exact hs.abortNode _

theorem FlushInv.insert {s : FlushState} (h : FlushInv s) (x : DirtyRef) {s' : FlushState}
    (hd : ∀ y, s'.IsDirty y ↔ y = x ∨ s.IsDirty y) (hh : s'.history = .dirtied x :: s.history) :
    FlushInv s' := by
  refine ⟨fun y hy => ?_, hh ▸ h.ordered.cons (by simp)⟩
  have hne : y ≠ x := fun e => hy ((hd y).mpr (.inl e))
  exact hh ▸ (h.synced y fun hs => hy ((hd y).mpr (.inr hs))).cons (by simpa using hne.symm)

/-- One step of a run keeps the invariant unless it is a call whose batch write fails. -/
theorem FlushInv.apply {s : FlushState} (h : FlushInv s) (P : FlushParams) (op : FlushOp)
    (hw : ∀ state mode io, op = .flush state mode io → io.WriteBatchSync = .ok true) :
    FlushInv (op.apply P s) := by
  cases op with
  | insertBlock b =>
    exact h.insert (.block b) (fun y => by cases y <;> simp [IsDirty, FlushOp.apply]) rfl
  | insertFile n =>
    exact h.insert (.file n) (fun y => by cases y <;> simp [IsDirty, FlushOp.apply]) rfl
  | flush state mode io => exact h.flushStateToDisk P io state mode (hw _ _ _ rfl)

theorem FlushInv.foldl {s : FlushState} (h : FlushInv s) (P : FlushParams) (ops : List FlushOp)
    (hw : ∀ state mode io, FlushOp.flush state mode io ∈ ops → io.WriteBatchSync = .ok true) :
    FlushInv (ops.foldl (FlushOp.apply P) s) := by
  induction ops generalizing s with
  | nil => exact h
  | cons op ops ih =>
    exact ih (h.apply P op fun _ _ _ e => hw _ _ _ (by rw [← e]; exact List.mem_cons_self _ _))
      fun _ _ _ hm => hw _ _ _ (List.mem_cons_of_mem _ hm)

/-! ### A failed batch write -/

/-- An entry is dirtied, a full flush fails at `WriteBatchSync` (after draining the dirty sets)
and requests shutdown, and the shutdown flush then succeeds.  The coins are flushed, but no batch write ever included the entry. -/
theorem flushStateToDisk_coins_flushed_before_index :
    let P : FlushParams := ⟨5000 * 300, 60 * 60, 24 * 60 * 60, 52428800⟩
    let ok : FlushIO := ⟨1000000, 0, 0, .ok 1000000000, .ok 1000000000, .ok true, .ok true⟩
    let s := [FlushOp.insertBlock 7,
      .flush CValidationState.fresh .FLUSH_STATE_ALWAYS { ok with WriteBatchSync := .ok false },
      .flush CValidationState.fresh .FLUSH_STATE_ALWAYS ok].foldl (FlushOp.apply P) startup
    s.fRequestShutdown = true ∧
      s.history = [.bestChainSet, .coinsFlushed, .batchWritten [] 0 [], .blockFileFlushed,
        .blockFileFlushed, .dirtied (.block 7)] ∧
      ¬ FlushOrdered s.history := by
  dsimp only
  refine ⟨rfl, rfl, fun hO => ?_⟩
  obtain ⟨e, he, hw⟩ := hO [.bestChainSet] _ rfl (.block 7)
    [.batchWritten [] 0 [], .blockFileFlushed, .blockFileFlushed] [] rfl
  revert e
  decide

end Ecc
