import EccoinValidation.Wallet.Stream

/-!
# Wallet — key pool entries and wallet keys

`CKeyPool` and `CWalletKey` start their records with the stream's version, unless the stream
computes a hash (`SER_GETHASH`), and then write their fields.  Reading a record, the version
goes into the local `nVersion` of `SerializationOp`, which nothing reads: a record comes back
without it, whatever version wrote it.

`CWalletKey` writes its comment with `LIMITED_STRING(strComment, 65536)`.  The writer puts the
whole string down; the reader throws "String length limit exceeded" above 65536 bytes.  The
public key of a pool entry is a `CPubKey`, whose serializer (pubkey.h) is not under src/: it is
a parameter `K`, so a pool entry reads back exactly when `K` reads its key back, and nothing
about the entry is proved here.

* `cWalletKey_round_trip`: **a wallet key reads back exactly when its private key is at most
  `MAX_SIZE` bytes and its comment at most 65536.**  A longer comment is written, and the
  record cannot be read.
-/

namespace Ecc

/-- What a serializer asks the stream: `s.GetType() & SER_GETHASH`, and `s.GetVersion()`. -/
structure StreamParams where
  fGetHash : Bool
  nVersion : BitVec 32

/-- `if (!(s.GetType() & SER_GETHASH)) READWRITE(nVersion)`, writing. -/
def writeVersionField (p : StreamParams) : List UInt8 :=
  if p.fGetHash then [] else writeInt32 p.nVersion

/-- The same line reading: the version read goes into a local, so only the rest is kept. -/
def readVersionField (p : StreamParams) (s : List UInt8) : Option (List UInt8) :=
  if p.fGetHash then some s else (readInt32 s).map Prod.snd

theorem readVersionField_writeVersionField (p : StreamParams) (rest : List UInt8) :
    readVersionField p (writeVersionField p ++ rest) = some rest := by
  unfold readVersionField writeVersionField
  cases p.fGetHash
  · simp only [Bool.false_eq_true, if_false, readsBack_int32 p.nVersion rest, if_true,
      Option.map_some']
  · rfl

/-- What reading the version field hands on to the rest of a `do` block. -/
theorem readVersionField_bind {β : Type} (p : StreamParams) (rest : List UInt8)
    (k : List UInt8 → Option β) : (readVersionField p (writeVersionField p ++ rest) >>= k) = k rest := by
  rw [readVersionField_writeVersionField]; rfl

/-! ### `CKeyPool` -/

/-- `CKeyPool`: the time the entry was made, and its public key. -/
structure CKeyPool (PubKey : Type) where
  nTime : BitVec 64
  vchPubKey : PubKey

namespace CKeyPool

variable {PubKey : Type} (K : Codec PubKey) (p : StreamParams)

/-- `CKeyPool::SerializationOp`, writing. -/
def Serialize (kp : CKeyPool PubKey) : List UInt8 :=
  writeVersionField p ++ (writeInt64 kp.nTime ++ K.write kp.vchPubKey)

/-- `CKeyPool::SerializationOp`, reading. -/
def Unserialize (s : List UInt8) : Option (CKeyPool PubKey × List UInt8) := do
  let s ← readVersionField p s
  let (nTime, s) ← readInt64 s
  let (vchPubKey, s) ← K.read s
  pure (⟨nTime, vchPubKey⟩, s)

end CKeyPool

/-! ### `CWalletKey` -/

/-- `CWalletKey`: a private key, when it was made and when it expires, and a comment. -/
structure CWalletKey where
  vchPrivKey : List UInt8
  nTimeCreated : BitVec 64
  nTimeExpires : BitVec 64
  strComment : List UInt8
deriving DecidableEq, Repr

namespace CWalletKey

variable (p : StreamParams)

/-- `CWalletKey::SerializationOp`, writing: the private key is a byte vector, written like a
string, and `LIMITED_STRING` writes the comment like a string. -/
def Serialize (k : CWalletKey) : List UInt8 :=
  writeVersionField p ++ (writeString k.vchPrivKey ++ (writeInt64 k.nTimeCreated ++
    (writeInt64 k.nTimeExpires ++ writeString k.strComment)))

/-- `CWalletKey::SerializationOp`, reading. -/
def Unserialize (s : List UInt8) : Option (CWalletKey × List UInt8) := do
  let s ← readVersionField p s
  let (vchPrivKey, s) ← readString s
  let (nTimeCreated, s) ← readInt64 s
  let (nTimeExpires, s) ← readInt64 s
  let (strComment, s) ← readLimitedString 65536 s
  pure (⟨vchPrivKey, nTimeCreated, nTimeExpires, strComment⟩, s)

/-- The keys the reader takes back: the private key within `MAX_SIZE`, the comment within the
limit. -/
def Fits (k : CWalletKey) : Bool :=
  fitsString k.vchPrivKey && decide (k.strComment.length ≤ 65536)

end CWalletKey

/-- **A wallet key reads back exactly when it fits.**  For every stream, what `CWalletKey`
writes, followed by any bytes, reads back as the same key and those bytes when the private key
is at most `MAX_SIZE` bytes and the comment at most 65536, and the read fails otherwise: the
writer does not check the comment's limit. -/
theorem cWalletKey_round_trip (p : StreamParams) (k : CWalletKey) :
    ReadsBack (CWalletKey.Serialize p) (CWalletKey.Unserialize p) CWalletKey.Fits k := by
  intro rest
  have hlimit : (fitsString k.strComment && decide (k.strComment.length ≤ 65536)) =
      decide (k.strComment.length ≤ 65536) := by
    cases h : decide (k.strComment.length ≤ 65536)
    · exact Bool.and_false _
    · simp only [fitsString, decide_eq_true_eq, Bool.and_true] at h ⊢
      exact le_trans h (by decide)
  simp only [CWalletKey.Serialize, List.append_assoc]
  unfold CWalletKey.Unserialize
  simp only [↓readVersionField_bind, ↓(readsBack_string _).bind,
    ↓(readsBack_int64 _).bind_true, ↓(readsBack_limitedString _ _).bind, hlimit,
    CWalletKey.Fits, Bool.and_eq_true, ite_and]
  rfl

end Ecc
