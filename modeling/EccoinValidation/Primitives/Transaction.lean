import Mathlib

/-!
# Primitives — transactions

The transaction of `main.cpp`: inputs naming a previous output and carrying a sequence number,
outputs carrying a value and a locking script, a version, a lock time, the proof-of-stake
timestamp `nTime`, and the hash of the service transaction a version-2 transaction pays for.

`primitives/transaction.h` is not part of the sources, so the shapes `main.cpp` relies on are
taken from the spec.  A coinbase is a transaction whose input list is the single synthetic
entry spending the null outpoint (§3); a coinstake carries the coinstake marker of §3.  The
BIP 68 and BIP 113 constants are the protocol's, as the spec describes them: a disable bit, a
type bit, a 16-bit value and 512-second units.

Scripts are byte lists; nothing in this development looks inside one except the coinbase
height prefix of `ContextualCheckBlock`.
-/

namespace Ecc

/-- A reference to output `n` of the transaction with hash `hash`. -/
structure COutPoint where
  hash : Nat
  n : Nat
deriving DecidableEq, Repr

/-- The outpoint a coinbase input spends. -/
def COutPoint.IsNull (o : COutPoint) : Bool := o.hash == 0 && o.n == 0xffffffff

structure CTxIn where
  prevout : COutPoint
  scriptSig : List UInt8
  nSequence : UInt32
deriving DecidableEq, Repr

structure CTxOut where
  nValue : Int
  scriptPubKey : List UInt8
deriving DecidableEq, Repr

/-- An output with no value and an empty script: the coinbase output of a proof-of-stake
block. -/
def CTxOut.IsEmpty (o : CTxOut) : Bool := o.nValue == 0 && o.scriptPubKey.isEmpty

/-- A transaction.  `hash` is `GetHash()`; `fCoinStake` is the coinstake marker. -/
structure CTransaction where
  hash : Nat
  nVersion : Int
  nTime : Nat
  vin : List CTxIn
  vout : List CTxOut
  nLockTime : UInt32
  serviceReferenceHash : Nat
  fCoinStake : Bool
deriving DecidableEq, Repr

namespace CTransaction

/-- One input, and it spends the null outpoint. -/
def IsCoinBase (tx : CTransaction) : Bool :=
  match tx.vin with
  | [i] => i.prevout.IsNull
  | _ => false

def IsCoinStake (tx : CTransaction) : Bool := tx.fCoinStake

def GetValueOut (tx : CTransaction) : Int := (tx.vout.map CTxOut.nValue).sum

/-- The outpoints the transaction spends, in input order. -/
def prevouts (tx : CTransaction) : List COutPoint := tx.vin.map CTxIn.prevout

/-- `GetLegacySigOpCount(tx)`, with `GetSigOpCount s` the count `s.GetSigOpCount(false)` of
`script.h`. -/
def GetLegacySigOpCount (GetSigOpCount : List UInt8 → Nat) (tx : CTransaction) : Nat :=
  (tx.vin.map fun txin => GetSigOpCount txin.scriptSig).sum +
    (tx.vout.map fun txout => GetSigOpCount txout.scriptPubKey).sum

end CTransaction

/-! ### Lock-time constants -/

/-- Below this an `nLockTime` is a height, above it a timestamp. -/
def LOCKTIME_THRESHOLD : Int := 500000000

/-- The sequence number that opts an input out of `nLockTime`. -/
def SEQUENCE_FINAL : UInt32 := 0xffffffff

/-- BIP 68: with this bit set the sequence number is not a relative lock. -/
def SEQUENCE_LOCKTIME_DISABLE_FLAG : UInt32 := 0x80000000

/-- BIP 68: with this bit set the relative lock is in units of time, else of blocks. -/
def SEQUENCE_LOCKTIME_TYPE_FLAG : UInt32 := 0x00400000

def SEQUENCE_LOCKTIME_MASK : UInt32 := 0x0000ffff

/-- A time lock counts units of `2 ^ 9 = 512` seconds. -/
def SEQUENCE_LOCKTIME_GRANULARITY : Nat := 9

/-- `flags & mask` for an `int` flag word and a one-bit mask, on the two's-complement bits: a
negative word has every high bit set. -/
def HasFlag (flags : Int) (mask : Nat) : Bool := flags / mask % 2 == 1

/-- The flag asking for BIP 68 sequence locks. -/
def LOCKTIME_VERIFY_SEQUENCE : Nat := 1

/-- The flag asking for BIP 113 median-time-past finality. -/
def LOCKTIME_MEDIAN_TIME_PAST : Nat := 2

/-- `STANDARD_LOCKTIME_VERIFY_FLAGS`, both lock-time flags. -/
def STANDARD_LOCKTIME_VERIFY_FLAGS : Int := 3

/-! ### Blocks -/

/-- A block.  The checks on a block whose code is not under `src/` are carried as their
results: `fPowValid` is `CheckProofOfWork(GetHash(), nBits)`, `hashMerkleRoot2` and
`fMutated` are what `BlockMerkleRoot(block, &mutated)` returns, `nSerializeSize` is
`GetSerializeSize`, and `fSignatureValid` is `CheckBlockSignature()`.  `fChecked` is the cache
flag `CheckBlock` sets. -/
structure CBlock where
  nVersion : Int
  nTime : Int
  vtx : List CTransaction
  fProofOfStake : Bool
  hashMerkleRoot : Nat
  hashMerkleRoot2 : Nat
  fMutated : Bool
  nSerializeSize : Nat
  fPowValid : Bool
  fSignatureValid : Bool
  fChecked : Bool
deriving DecidableEq, Repr

namespace CBlock

def IsProofOfStake (b : CBlock) : Bool := b.fProofOfStake

def IsProofOfWork (b : CBlock) : Bool := !b.fProofOfStake

def GetBlockTime (b : CBlock) : Int := b.nTime

end CBlock

end Ecc
