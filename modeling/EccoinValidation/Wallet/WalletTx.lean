import EccoinValidation.Wallet.MapValue

/-!
# Wallet — a `CWalletTx` on disk

`CWalletTx::SerializationOp` writes a wallet transaction as its `CMerkleTx` (the transaction,
`hashBlock`, an empty `vMerkleBranch` and `nIndex`), an empty `vUnused`, `mapValue`,
`vOrderForm`, `fTimeReceivedIsTxTime`, `nTimeReceived`, `fFromMe` and an `fSpent` of zero.
Three fields have no place of their own.  Before writing, `strFromAccount` goes into
`mapValue["fromaccount"]`, `nOrderPos` into `mapValue["n"]` unless it is `-1`
(`WriteOrderPos`), and `nTimeSmart` into `mapValue["timesmart"]` unless it is 0
(`storeReserved`); after reading they are taken back out (`loadReserved`, with `ReadOrderPos`
and `atoi64`).  In both directions the keys `fromaccount`, `version`, `spent`, `n` and
`timesmart` are then erased from `mapValue`.  Writing is modelled as the bytes it produces
with the object as it leaves it, reading as the object and the rest of the stream, or `none`
where `Unserialize` throws.

`CTransaction`'s own format is not part of the sources: it is a parameter (`TxFormat`) that
reads back the transactions it accepts.

* `cWalletTx_round_trip`: for every record whose `mapValue` holds none of those keys, writing
  it leaves it as it was, and reading back what it wrote gives the same record, every field
  with `nOrderPos = -1` and `nTimeSmart = 0` among them, exactly when what it wrote is within
  the reader's `MAX_SIZE` limits (`CWalletTx.Fits`); otherwise reading fails.
* `cWalletTx_oversized_account_unreadable`: a `strFromAccount` longer than `MAX_SIZE` is
  written, and the reader rejects it.
-/

namespace Ecc

open StrMap (writeMap readMap fitsMap writeEntry readEntry fitsEntry)

/-- How `READWRITE(tx)` writes and reads a `CTransactionRef`: the writer, the reader, the
transactions the reader takes back, and that it reads back exactly those. -/
structure TxFormat (Tx : Type) where
  write : Tx → List UInt8
  read : List UInt8 → Option (Tx × List UInt8)
  fits : Tx → Bool
  readsBack : ∀ tx, ReadsBack write read fits tx

variable {Tx : Type}

/-! ### `CMerkleTx` -/

/-- `CMerkleTx`: a transaction, the block that holds it and its index there. -/
structure CMerkleTx (Tx : Type) where
  tx : Tx
  hashBlock : uint256
  nIndex : BitVec 32

/-- `CMerkleTx::SerializationOp` writing: an empty `vMerkleBranch` stands between `hashBlock`
and `nIndex`, for compatibility with older versions. -/
def CMerkleTx.Serialize (F : TxFormat Tx) (m : CMerkleTx Tx) : List UInt8 :=
  F.write m.tx ++ m.hashBlock.write ++ writeVector uint256.write [] ++ writeInt32 m.nIndex

/-- `CMerkleTx::SerializationOp` reading; the `vMerkleBranch` read is dropped. -/
def CMerkleTx.Unserialize (F : TxFormat Tx) (s : List UInt8) :
    Option (CMerkleTx Tx × List UInt8) := do
  let (tx, s) ← F.read s
  let (hashBlock, s) ← uint256.read s
  let (_vMerkleBranch, s) ← readVector uint256.read s
  let (nIndex, s) ← readInt32 s
  pure (⟨tx, hashBlock, nIndex⟩, s)

theorem readsBack_cMerkleTx (F : TxFormat Tx) (m : CMerkleTx Tx) :
    ReadsBack (CMerkleTx.Serialize F) (CMerkleTx.Unserialize F) (fun m => F.fits m.tx) m := by
  intro rest
  have hnil : ReadsBack (writeVector uint256.write) (readVector uint256.read) (fun _ => true) [] :=
    readVector_writeVector_nil
  simp only [CMerkleTx.Serialize, List.append_assoc]
  unfold CMerkleTx.Unserialize
  simp only [↓(F.readsBack _).bind, ↓(readsBack_uint256 _).bind_true, ↓hnil.bind_true,
    ↓(readsBack_int32 _).bind_true]
  rfl

/-! ### The reserved keys -/

/-- The keys `SerializationOp` keeps fields under, in the order it erases them. -/
def keyFromAccount : List UInt8 := "fromaccount".toUTF8.data.toList

def keyVersion : List UInt8 := "version".toUTF8.data.toList

def keySpent : List UInt8 := "spent".toUTF8.data.toList

def keyN : List UInt8 := "n".toUTF8.data.toList

def keyTimeSmart : List UInt8 := "timesmart".toUTF8.data.toList

def reservedKeys : List (List UInt8) := [keyFromAccount, keyVersion, keySpent, keyN, keyTimeSmart]

/-- `ReadOrderPos(nOrderPos, mapValue)`: `-1` without a key `n`, else `atoi64` of its value. -/
def ReadOrderPos (mapValue : StrMap) : BitVec 64 × StrMap :=
  if !mapValue.count keyN then (-1, mapValue)
  else
    let (v, mapValue) := mapValue.index keyN
    (atoi64 v, mapValue)

/-- `WriteOrderPos(nOrderPos, mapValue)`: nothing for `-1`, else
`mapValue["n"] = i64tostr(nOrderPos)`. -/
def WriteOrderPos (nOrderPos : BitVec 64) (mapValue : StrMap) : StrMap :=
  if nOrderPos = -1 then mapValue else mapValue.assign keyN (i64tostr nOrderPos)

/-- The five `mapValue.erase` calls that end `SerializationOp`. -/
def eraseReserved (mapValue : StrMap) : StrMap := reservedKeys.foldl StrMap.erase mapValue

theorem find?_eraseReserved (m : StrMap) (k : List UInt8) :
    (eraseReserved m).find? k = if k ∈ reservedKeys then none else m.find? k :=
  StrMap.find?_foldl_erase _ _ _

/-- A map that holds `nOrderPos` as `WriteOrderPos` leaves it gives `nOrderPos` back, and is
not changed. -/
theorem readOrderPos_eq {m : StrMap} {nOrderPos : BitVec 64}
    (h : m.find? keyN = if nOrderPos = -1 then none else some (i64tostr nOrderPos)) :
    ReadOrderPos m = (nOrderPos, m) := by
  unfold ReadOrderPos StrMap.count
  by_cases hn : nOrderPos = -1
  · simp [hn] at h; simp [h, hn]
  · simp only [hn, if_false] at h
    simp [h, StrMap.index_of_find? h, atoi64_i64tostr]

/-! ### `CWalletTx` -/

/-- `CWalletTx`, the fields it writes.  `pwallet` and the `mutable` caches live in memory
only. -/
structure CWalletTx (Tx : Type) extends CMerkleTx Tx where
  mapValue : StrMap
  vOrderForm : List (List UInt8 × List UInt8)
  fTimeReceivedIsTxTime : UInt32
  nTimeReceived : UInt32
  nTimeSmart : UInt32
  fFromMe : UInt8
  strFromAccount : List UInt8
  nOrderPos : BitVec 64

namespace CWalletTx

/-- The `!ser_action.ForRead()` block: `mapValue` with `strFromAccount`, `nOrderPos`
(`WriteOrderPos`) and a nonzero `nTimeSmart` put in. -/
def storeReserved (wtx : CWalletTx Tx) : StrMap :=
  let mapValue := wtx.mapValue.assign keyFromAccount wtx.strFromAccount
  let mapValue := WriteOrderPos wtx.nOrderPos mapValue
  if wtx.nTimeSmart ≠ 0 then mapValue.assign keyTimeSmart (utostr wtx.nTimeSmart) else mapValue

/-- The `ser_action.ForRead()` block and the erases: `strFromAccount`, `nOrderPos` and
`nTimeSmart` taken out of `mapValue`, then the reserved keys erased. -/
def loadReserved (wtx : CWalletTx Tx) : CWalletTx Tx :=
  let (strFromAccount, mapValue) := wtx.mapValue.index keyFromAccount
  let (nOrderPos, mapValue) := ReadOrderPos mapValue
  let (nTimeSmart, mapValue) : UInt32 × StrMap :=
    if mapValue.count keyTimeSmart then
      let (v, mapValue) := mapValue.index keyTimeSmart
      (UInt32.ofNat (atoi64 v).toNat, mapValue)
    else (0, mapValue)
  { wtx with mapValue := eraseReserved mapValue, strFromAccount, nOrderPos, nTimeSmart }

/-- `SerializationOp` writing: the bytes, and the record as it leaves it. -/
def Serialize (F : TxFormat Tx) (wtx : CWalletTx Tx) : List UInt8 × CWalletTx Tx :=
  let mapValue := wtx.storeReserved
  (wtx.toCMerkleTx.Serialize F ++ writeVector (CMerkleTx.Serialize F) [] ++ writeMap mapValue ++
      writeVector writeEntry wtx.vOrderForm ++ writeUInt32 wtx.fTimeReceivedIsTxTime ++
      writeUInt32 wtx.nTimeReceived ++ writeChar wtx.fFromMe ++ writeChar 0,
    { wtx with mapValue := eraseReserved mapValue })

/-- `SerializationOp` reading.  `Init` runs first: it clears `strFromAccount` and sets
`nOrderPos` to `-1` and `nTimeSmart` to 0, which `loadReserved` then sets again; the `vUnused`
and `fSpent` read are dropped. -/
def Unserialize (F : TxFormat Tx) (s : List UInt8) : Option (CWalletTx Tx × List UInt8) := do
  let (merkle, s) ← CMerkleTx.Unserialize F s
  let (_vUnused, s) ← readVector (CMerkleTx.Unserialize F) s
  let (mapValue, s) ← readMap s
  let (vOrderForm, s) ← readVector readEntry s
  let (fTimeReceivedIsTxTime, s) ← readUInt32 s
  let (nTimeReceived, s) ← readUInt32 s
  let (fFromMe, s) ← readChar s
  let (_fSpent, s) ← readChar s
  pure (loadReserved
    { toCMerkleTx := merkle, mapValue, vOrderForm, fTimeReceivedIsTxTime, nTimeReceived,
      nTimeSmart := 0, fFromMe, strFromAccount := [], nOrderPos := -1 }, s)

/-- What `Serialize` writes is within the reader's limits: the transaction is one its format
reads back, and the written `mapValue` and `vOrderForm` have at most `MAX_SIZE` entries and
strings of at most `MAX_SIZE` bytes. -/
def Fits (F : TxFormat Tx) (wtx : CWalletTx Tx) : Bool :=
  F.fits wtx.tx && fitsMap wtx.storeReserved && fitsVector fitsEntry wtx.vOrderForm

/-- What `storeReserved` put in, over `mapValue`. -/
theorem find?_storeReserved (wtx : CWalletTx Tx) (k : List UInt8) :
    wtx.storeReserved.find? k =
      if k = keyTimeSmart ∧ wtx.nTimeSmart ≠ 0 then some (utostr wtx.nTimeSmart)
      else if k = keyN ∧ wtx.nOrderPos ≠ -1 then some (i64tostr wtx.nOrderPos)
      else if k = keyFromAccount then some wtx.strFromAccount
      else wtx.mapValue.find? k := by
  unfold storeReserved WriteOrderPos
  by_cases ht : wtx.nTimeSmart = 0 <;> by_cases hn : wtx.nOrderPos = -1 <;>
    simp only [ht, hn, ne_eq, not_true, not_false_eq_true, and_true, and_false, if_true,
      if_false] <;>
    simp [StrMap.find?_assign]

/-- The keys `storeReserved` sets are distinct. -/
theorem keys_ne : keyFromAccount ≠ keyN ∧ keyFromAccount ≠ keyTimeSmart ∧ keyN ≠ keyTimeSmart := by
  decide

section RoundTrip

variable {wtx : CWalletTx Tx} (hreserved : ∀ k ∈ reservedKeys, wtx.mapValue.find? k = none)
include hreserved

/-- Without reserved keys, the erases undo `storeReserved`. -/
theorem eraseReserved_storeReserved : eraseReserved wtx.storeReserved = wtx.mapValue :=
  StrMap.ext_find? fun k => by
    rw [find?_eraseReserved]
    split_ifs with hk
    · exact (hreserved k hk).symm
    · simp only [reservedKeys, List.mem_cons, List.mem_singleton, not_or] at hk
      simp [find?_storeReserved, hk]

/-- `loadReserved` takes back out of `storeReserved`'s map what it put in, and leaves the map
`mapValue` was. -/
theorem loadReserved_storeReserved (w : CWalletTx Tx) (hw : w.mapValue = wtx.storeReserved) :
    w.loadReserved =
      { w with
        mapValue := wtx.mapValue, strFromAccount := wtx.strFromAccount, nOrderPos := wtx.nOrderPos,
        nTimeSmart := wtx.nTimeSmart } := by
  have hF : wtx.storeReserved.find? keyFromAccount = some wtx.strFromAccount := by
    simp [find?_storeReserved, keys_ne.1, keys_ne.2.1]
  have hN : wtx.storeReserved.find? keyN =
      if wtx.nOrderPos = -1 then none else some (i64tostr wtx.nOrderPos) := by
    simp [find?_storeReserved, keys_ne.1.symm, keys_ne.2.2, hreserved keyN (by simp [reservedKeys])]
  have hT : wtx.storeReserved.find? keyTimeSmart =
      if wtx.nTimeSmart = 0 then none else some (utostr wtx.nTimeSmart) := by
    simp [find?_storeReserved, keys_ne.2.1.symm, keys_ne.2.2.symm,
      hreserved keyTimeSmart (by simp [reservedKeys])]
  simp only [loadReserved, hw, StrMap.index_of_find? hF, readOrderPos_eq hN]
  by_cases ht : wtx.nTimeSmart = 0
  · simp [StrMap.count, hT, ht, eraseReserved_storeReserved hreserved]
  · have hts : UInt32.ofNat (atoi64 (utostr wtx.nTimeSmart)).toNat = wtx.nTimeSmart := by
      rw [atoi64_utostr]
      exact UInt32.toNat.inj (UInt32.toNat_ofNat_of_lt wtx.nTimeSmart.toNat_lt_size)
    simp only [ht, if_false] at hT
    simp [StrMap.count, hT, StrMap.index_of_find? hT, hts, eraseReserved_storeReserved hreserved]

/-- Writing leaves a record without reserved keys as it was. -/
theorem serialize_restores (F : TxFormat Tx) : (wtx.Serialize F).2 = wtx := by
  simp only [Serialize, eraseReserved_storeReserved hreserved]

/-- Reading back what `Serialize` wrote gives the record when it fits, and fails otherwise. -/
theorem unserialize_serialize (F : TxFormat Tx) (rest : List UInt8) :
    Unserialize F ((wtx.Serialize F).1 ++ rest) = if wtx.Fits F then some (wtx, rest) else none := by
  have hnil : ReadsBack (writeVector (CMerkleTx.Serialize F)) (readVector (CMerkleTx.Unserialize F))
      (fun _ => true) [] := readVector_writeVector_nil
  simp only [Serialize, List.append_assoc]
  unfold Unserialize
  -- each read, outermost first, takes back what its write wrote
  simp only [↓(readsBack_cMerkleTx F _).bind, ↓hnil.bind_true, ↓(StrMap.readsBack_map _).bind,
    ↓(readsBack_vector fun e _ => StrMap.readsBack_entry e).bind, ↓(readsBack_uint32 _).bind_true,
    ↓(readsBack_char _).bind_true, Fits, Bool.and_eq_true, ite_and]
  rw [loadReserved_storeReserved hreserved _ rfl]
  rfl

end RoundTrip

end CWalletTx

/-- **A wallet record reads back exactly when it fits.**  For every transaction format and every
`CWalletTx` whose `mapValue` holds none of the keys `fromaccount`, `version`, `spent`, `n` and
`timesmart`, `Serialize` leaves the record as it was.  Reading back the bytes it wrote,
followed by any others, gives the same record (the transaction, `hashBlock`, `nIndex`,
`mapValue`, `vOrderForm`, the times, `fFromMe`, `strFromAccount`, `nOrderPos` and
`nTimeSmart`) and those other bytes when what it wrote is within the reader's limits, and fails
otherwise. -/
theorem cWalletTx_round_trip (F : TxFormat Tx) (wtx : CWalletTx Tx)
    (hreserved : ∀ k ∈ reservedKeys, wtx.mapValue.find? k = none) :
    (wtx.Serialize F).2 = wtx ∧
      ∀ rest, CWalletTx.Unserialize F ((wtx.Serialize F).1 ++ rest) =
        if wtx.Fits F then some (wtx, rest) else none :=
  ⟨CWalletTx.serialize_restores hreserved F, CWalletTx.unserialize_serialize hreserved F⟩

/-- A record with a `comment` in `mapValue`, an order position and a smart time, its
transaction a `uint32`. -/
theorem cWalletTx_round_trip_commented :
    let F : TxFormat UInt32 := ⟨writeUInt32, readUInt32, fun _ => true, readsBack_uint32⟩
    let wtx : CWalletTx UInt32 :=
      ⟨⟨7, ⟨List.replicate 32 0, rfl⟩, 1⟩,
        StrMap.empty.assign [99, 111, 109, 109, 101, 110, 116] [104, 105], [], 1, 1600000000,
        1600000005, 1, [], 3⟩
    (∀ k ∈ reservedKeys, wtx.mapValue.find? k = none) ∧
      ((wtx.Serialize F).2 = wtx ∧
        ∀ rest, CWalletTx.Unserialize F ((wtx.Serialize F).1 ++ rest) =
          if wtx.Fits F then some (wtx, rest) else none) :=
  ⟨by decide, cWalletTx_round_trip _ _ (by decide)⟩

/-- A record whose `strFromAccount` is one byte longer than `MAX_SIZE`, and no reserved key in
`mapValue`: `Serialize` writes it and leaves the record as it was, and reading the bytes back
fails. -/
theorem cWalletTx_oversized_account_unreadable :
    let F : TxFormat UInt32 := ⟨writeUInt32, readUInt32, fun _ => true, readsBack_uint32⟩
    let wtx : CWalletTx UInt32 :=
      ⟨⟨0, ⟨List.replicate 32 0, List.length_replicate 32 0⟩, 0⟩, StrMap.empty, [], 0, 0, 0, 0,
        List.replicate (MAX_SIZE + 1) 0, -1⟩
    (∀ k ∈ reservedKeys, wtx.mapValue.find? k = none) ∧ (wtx.Serialize F).2 = wtx ∧
      CWalletTx.Unserialize F (wtx.Serialize F).1 = none := by
  intro F wtx
  have hreserved : ∀ k ∈ reservedKeys, wtx.mapValue.find? k = none :=
    fun k _ => StrMap.find?_empty k
  have hfits : wtx.Fits F = false := by
    simp [wtx, CWalletTx.Fits, CWalletTx.storeReserved, WriteOrderPos, fitsMap, StrMap.assign,
      StrMap.empty, insertEntry, fitsVector, fitsEntry, fitsString]
  have h := CWalletTx.unserialize_serialize hreserved F []
  rw [List.append_nil, hfits] at h
  exact ⟨hreserved, CWalletTx.serialize_restores hreserved F, h⟩

end Ecc
