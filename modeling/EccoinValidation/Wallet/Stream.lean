import Mathlib

/-!
# Wallet — the stream format

Wallet records are written with the serialization framework of `serialize.h`, which is not part
of the sources.  It is modelled here for the types the wallet record uses, as the framework
writes and reads them.  A stream is a list of bytes.  A reader returns what it read and the
rest of the stream, or `none` where `Unserialize` throws `std::ios_base::failure`: at the end of
the data, at a size written in a longer form than it needs, and at a size above `MAX_SIZE`.

* Integers are written little-endian, one byte per 8 bits (`writeLE`, `readLE`).
* Sizes are CompactSize: one byte below 253, else a marker 253, 254 or 255 followed by 2, 4 or
  8 bytes.  `ReadCompactSize` rejects the non-canonical forms and every size above `MAX_SIZE`;
  `WriteCompactSize` checks nothing.
* A string is its size and its bytes, a vector its size and its elements, a pair its two
  halves, a `uint256` its 32 bytes.

`ReadsBack write read fits a` says what reading back `write a`, followed by any bytes, gives:
`a` and those bytes when `fits a`, a failure otherwise.

* `readCompactSize_writeCompactSize`: a size reads back exactly when it is at most `MAX_SIZE`,
  whatever its value.
* `readsBack_string`, `readsBack_vector`, `readsBack_pair`: a string reads back exactly when
  its size fits, a vector when its size and every element fit, a pair when both halves fit.
* `readsBack_limitedString`: a `LIMITED_STRING` reads back exactly when its size is also within
  the limit; the writer does not check it.

A serializer defined outside src/ and outside this framework (a block, a public key) is a
parameter, `Codec`, that reads back what it writes.
-/

namespace Ecc

/-- `MAX_SIZE`: the largest size `ReadCompactSize` accepts. -/
def MAX_SIZE : Nat := 0x02000000

/-- Reading back `write a` followed by any `rest` gives `a` and `rest` when `a` fits, and fails
otherwise. -/
def ReadsBack {α : Type} (write : α → List UInt8) (read : List UInt8 → Option (α × List UInt8))
    (fits : α → Bool) (a : α) : Prop :=
  ∀ rest, read (write a ++ rest) = if fits a then some (a, rest) else none

/-- What a reader that reads `a` back hands on to the rest of a `do` block. -/
theorem ReadsBack.bind {α β : Type} {write : α → List UInt8}
    {read : List UInt8 → Option (α × List UInt8)} {fits : α → Bool} {a : α}
    (h : ReadsBack write read fits a) (rest : List UInt8) (k : α × List UInt8 → Option β) :
    (read (write a ++ rest) >>= k) = if fits a then k (a, rest) else none := by
  rw [h]; split_ifs <;> rfl

/-- The same for a reader that takes every value back. -/
theorem ReadsBack.bind_true {α β : Type} {write : α → List UInt8}
    {read : List UInt8 → Option (α × List UInt8)} {a : α}
    (h : ReadsBack write read (fun _ => true) a) (rest : List UInt8)
    (k : α × List UInt8 → Option β) : (read (write a ++ rest) >>= k) = k (a, rest) :=
  h.bind rest k

/-- A serializer that is not under src/, as a parameter: how a value is written and read, and
the values its reader takes back. -/
structure Codec (α : Type) where
  write : α → List UInt8
  read : List UInt8 → Option (α × List UInt8)
  fits : α → Bool
  readsBack : ∀ a, ReadsBack write read fits a

/-! ### Fixed-width integers -/

/-- `width` bytes of `x`, least significant first. -/
def writeLE : Nat → Nat → List UInt8
  | 0, _ => []
  | width + 1, x => UInt8.ofNat (x % 256) :: writeLE width (x / 256)

/-- `width` bytes, least significant first. -/
def readLE : Nat → List UInt8 → Option (Nat × List UInt8)
  | 0, s => some (0, s)
  | _ + 1, [] => none
  | width + 1, b :: s => (readLE width s).map fun r => (b.toNat + 256 * r.1, r.2)

theorem readLE_writeLE : ∀ (width x : Nat) (rest : List UInt8),
    readLE width (writeLE width x ++ rest) = some (x % 256 ^ width, rest)
  | 0, x, rest => by simp [readLE, writeLE, Nat.mod_one]
  | width + 1, x, rest => by
    have hb : (UInt8.ofNat (x % 256)).toNat = x % 256 :=
      UInt8.toNat_ofNat_of_lt (Nat.mod_lt _ (by decide))
    show readLE (width + 1) (UInt8.ofNat (x % 256) :: (writeLE width (x / 256) ++ rest)) = _
    rw [readLE, readLE_writeLE, Option.map_some', hb, pow_succ', Nat.mod_mul]

/-- `ser_writedata32`: an `unsigned int`. -/
def writeUInt32 (x : UInt32) : List UInt8 := writeLE 4 x.toNat

def readUInt32 (s : List UInt8) : Option (UInt32 × List UInt8) :=
  (readLE 4 s).map fun r => (UInt32.ofNat r.1, r.2)

/-- An `int`, written as its 32 bits. -/
def writeInt32 (x : BitVec 32) : List UInt8 := writeLE 4 x.toNat

def readInt32 (s : List UInt8) : Option (BitVec 32 × List UInt8) :=
  (readLE 4 s).map fun r => (BitVec.ofNat 32 r.1, r.2)

/-- An `int64_t`, written as its 64 bits. -/
def writeInt64 (x : BitVec 64) : List UInt8 := writeLE 8 x.toNat

def readInt64 (s : List UInt8) : Option (BitVec 64 × List UInt8) :=
  (readLE 8 s).map fun r => (BitVec.ofNat 64 r.1, r.2)

/-- A `char`: one byte. -/
def writeChar (c : UInt8) : List UInt8 := [c]

def readChar : List UInt8 → Option (UInt8 × List UInt8)
  | [] => none
  | c :: s => some (c, s)

theorem readsBack_uint32 (x : UInt32) : ReadsBack writeUInt32 readUInt32 (fun _ => true) x := by
  intro rest
  have hx : x.toNat % 256 ^ 4 = x.toNat := Nat.mod_eq_of_lt x.toNat_lt_size
  rw [writeUInt32, readUInt32, readLE_writeLE, Option.map_some', hx,
    UInt32.toNat.inj (UInt32.toNat_ofNat_of_lt x.toNat_lt_size), if_pos rfl]

theorem readsBack_int32 (x : BitVec 32) : ReadsBack writeInt32 readInt32 (fun _ => true) x := by
  intro rest
  have hx : x.toNat % 256 ^ 4 = x.toNat := Nat.mod_eq_of_lt x.isLt
  rw [writeInt32, readInt32, readLE_writeLE, Option.map_some', hx, BitVec.ofNat_toNat,
    BitVec.setWidth_eq, if_pos rfl]

theorem readsBack_int64 (x : BitVec 64) : ReadsBack writeInt64 readInt64 (fun _ => true) x := by
  intro rest
  have hx : x.toNat % 256 ^ 8 = x.toNat := Nat.mod_eq_of_lt x.isLt
  rw [writeInt64, readInt64, readLE_writeLE, Option.map_some', hx, BitVec.ofNat_toNat,
    BitVec.setWidth_eq, if_pos rfl]

theorem readsBack_char (c : UInt8) : ReadsBack writeChar readChar (fun _ => true) c :=
  fun _ => rfl

/-! ### CompactSize -/

/-- `WriteCompactSize(os, nSize)`. -/
def WriteCompactSize (nSize : Nat) : List UInt8 :=
  if nSize < 253 then [UInt8.ofNat nSize]
  else if nSize ≤ 0xffff then 253 :: writeLE 2 nSize
  else if nSize ≤ 0xffffffff then 254 :: writeLE 4 nSize
  else 255 :: writeLE 8 nSize

/-- The payload after a CompactSize marker, rejected when a shorter form would have held it. -/
def readCompactPayload (width least : Nat) (s : List UInt8) : Option (Nat × List UInt8) :=
  (readLE width s).bind fun r => if r.1 < least then none else some r

/-- `ReadCompactSize(is)`. -/
def ReadCompactSize : List UInt8 → Option (Nat × List UInt8)
  | [] => none
  | chSize :: s => do
    let (nSizeRet, s) ← if chSize.toNat < 253 then some (chSize.toNat, s)
      else if chSize = 253 then readCompactPayload 2 253 s
      else if chSize = 254 then readCompactPayload 4 0x10000 s
      else readCompactPayload 8 0x100000000 s
    if nSizeRet > MAX_SIZE then none else some (nSizeRet, s)

theorem readCompactPayload_writeLE {width least x : Nat} (hlo : least ≤ x)
    (hhi : x < 256 ^ width) (rest : List UInt8) :
    readCompactPayload width least (writeLE width x ++ rest) = some (x, rest) := by
  simp [readCompactPayload, readLE_writeLE, Nat.mod_eq_of_lt hhi, Nat.not_lt.mpr hlo]

/-- **A size reads back exactly when it fits.**  For every size, `ReadCompactSize` reads back
what `WriteCompactSize` wrote when it is at most `MAX_SIZE`, and fails otherwise; a size of
`2^64` or more, which the writer truncates, fails as well. -/
theorem readCompactSize_writeCompactSize (nSize : Nat) (rest : List UInt8) :
    ReadCompactSize (WriteCompactSize nSize ++ rest) =
      if nSize ≤ MAX_SIZE then some (nSize, rest) else none := by
  have hM : MAX_SIZE = 33554432 := rfl
  by_cases h₁ : nSize < 253
  · -- one byte
    have hb : (UInt8.ofNat nSize).toNat = nSize :=
      UInt8.toNat_ofNat_of_lt (by simp only [UInt8.size]; omega)
    simp [WriteCompactSize, ReadCompactSize, h₁, hb, hM]
    split_ifs <;> first | rfl | omega
  by_cases h₂ : nSize ≤ 0xffff
  · have hp : readCompactPayload 2 253 (writeLE 2 nSize ++ rest) = some (nSize, rest) :=
      readCompactPayload_writeLE (by omega) (by omega) rest
    simp [WriteCompactSize, ReadCompactSize, h₁, h₂, hp, hM, UInt8.size]
    split_ifs <;> first | rfl | omega
  by_cases h₃ : nSize ≤ 0xffffffff
  · have hp : readCompactPayload 4 0x10000 (writeLE 4 nSize ++ rest) = some (nSize, rest) :=
      readCompactPayload_writeLE (by omega) (by omega) rest
    simp [WriteCompactSize, ReadCompactSize, h₁, h₂, h₃, hp, hM, UInt8.size]
    split_ifs <;> first | rfl | omega
  · -- the payload is `nSize` modulo `2^64`, too small for the form or too large
    simp [WriteCompactSize, ReadCompactSize, h₁, h₂, h₃, readCompactPayload, readLE_writeLE, hM,
      UInt8.size]
    rw [if_neg (show ¬nSize ≤ 33554432 by omega)]
    split_ifs with h
    · rfl
    · simp only [Option.some_bind]; rw [if_pos (by omega)]

/-- The same, as a round trip: a size fits when it is at most `MAX_SIZE`. -/
theorem readsBack_compactSize (nSize : Nat) :
    ReadsBack WriteCompactSize ReadCompactSize (fun n => decide (n ≤ MAX_SIZE)) nSize := by
  intro rest
  simp only [readCompactSize_writeCompactSize, decide_eq_true_eq]

/-! ### Strings, vectors, pairs, hashes -/

/-- `is.read(p, n)`: the next `n` bytes. -/
def readBytes (n : Nat) (s : List UInt8) : Option (List UInt8 × List UInt8) :=
  if n ≤ s.length then some (s.take n, s.drop n) else none

theorem readBytes_append (l rest : List UInt8) : readBytes l.length (l ++ rest) = some (l, rest) := by
  simp [readBytes, List.take_left', List.drop_left']

/-- A `std::string`: its size and its bytes. -/
def writeString (str : List UInt8) : List UInt8 := WriteCompactSize str.length ++ str

def readString (s : List UInt8) : Option (List UInt8 × List UInt8) := do
  let (nSize, s) ← ReadCompactSize s
  readBytes nSize s

/-- A string fits when its size does. -/
def fitsString (str : List UInt8) : Bool := decide (str.length ≤ MAX_SIZE)

theorem readsBack_string (str : List UInt8) : ReadsBack writeString readString fitsString str := by
  intro rest
  simp only [writeString, readString, List.append_assoc, ↓(readsBack_compactSize _).bind,
    readBytes_append, fitsString]

/-- `LIMITED_STRING(str, Limit)` read: a string whose size is above `Limit` throws ("String
length limit exceeded").  The writer is that of a string: it checks nothing. -/
def readLimitedString (Limit : Nat) (s : List UInt8) : Option (List UInt8 × List UInt8) := do
  let (nSize, s) ← ReadCompactSize s
  if nSize > Limit then none else readBytes nSize s

/-- A limited string reads back exactly when its size is within both `MAX_SIZE` and the
limit. -/
theorem readsBack_limitedString (Limit : Nat) (str : List UInt8) :
    ReadsBack writeString (readLimitedString Limit)
      (fun str => fitsString str && decide (str.length ≤ Limit)) str := by
  intro rest
  simp only [writeString, readLimitedString, List.append_assoc, ↓(readsBack_compactSize _).bind,
    readBytes_append, fitsString, Bool.and_eq_true, decide_eq_true_eq]
  by_cases hm : str.length ≤ MAX_SIZE <;> by_cases hl : str.length ≤ Limit <;> simp [hm, hl]

section Containers

variable {α β : Type}

/-- The elements of a vector, one after the other. -/
def writeList (write : α → List UInt8) : List α → List UInt8
  | [] => []
  | a :: l => write a ++ writeList write l

/-- `nSize` elements, one after the other. -/
def readN (read : List UInt8 → Option (α × List UInt8)) :
    Nat → List UInt8 → Option (List α × List UInt8)
  | 0, s => some ([], s)
  | nSize + 1, s => do
    let (a, s) ← read s
    let (l, s) ← readN read nSize s
    pure (a :: l, s)

/-- A `std::vector`: its size and its elements. -/
def writeVector (write : α → List UInt8) (v : List α) : List UInt8 :=
  WriteCompactSize v.length ++ writeList write v

def readVector (read : List UInt8 → Option (α × List UInt8)) (s : List UInt8) :
    Option (List α × List UInt8) := do
  let (nSize, s) ← ReadCompactSize s
  readN read nSize s

/-- A vector fits when its size and every element do. -/
def fitsVector (fits : α → Bool) (v : List α) : Bool := decide (v.length ≤ MAX_SIZE) && v.all fits

/-- A `std::pair`: its first half, then its second. -/
def writePair (write₁ : α → List UInt8) (write₂ : β → List UInt8) (p : α × β) : List UInt8 :=
  write₁ p.1 ++ write₂ p.2

def readPair (read₁ : List UInt8 → Option (α × List UInt8))
    (read₂ : List UInt8 → Option (β × List UInt8)) (s : List UInt8) :
    Option ((α × β) × List UInt8) := do
  let (a, s) ← read₁ s
  let (b, s) ← read₂ s
  pure ((a, b), s)

variable {write : α → List UInt8} {read : List UInt8 → Option (α × List UInt8)} {fits : α → Bool}

theorem readN_writeList : ∀ (l : List α), (∀ a ∈ l, ReadsBack write read fits a) →
    ∀ rest, readN read l.length (writeList write l ++ rest) =
      if l.all fits then some (l, rest) else none
  | [], _, _ => rfl
  | a :: l, h, rest => by
    have hl : ReadsBack (writeList write) (readN read l.length) (fun l => l.all fits) l :=
      readN_writeList l fun x hx => h x (List.mem_cons_of_mem _ hx)
    simp only [List.length_cons, writeList, List.append_assoc, readN, List.all_cons,
      ↓(h a (List.mem_cons_self _ _)).bind, ↓hl.bind, Bool.and_eq_true, ite_and]
    rfl

/-- An empty vector reads back, whatever its element type. -/
theorem readVector_writeVector_nil (rest : List UInt8) :
    readVector read (writeVector write [] ++ rest) = some ([], rest) :=
  rfl

theorem readsBack_vector {v : List α} (h : ∀ a ∈ v, ReadsBack write read fits a) :
    ReadsBack (writeVector write) (readVector read) (fitsVector fits) v := by
  intro rest
  simp only [writeVector, readVector, List.append_assoc, ↓(readsBack_compactSize _).bind,
    readN_writeList v h rest, fitsVector, Bool.and_eq_true, ite_and]

theorem readsBack_pair {write₂ : β → List UInt8} {read₂ : List UInt8 → Option (β × List UInt8)}
    {fits₂ : β → Bool} {p : α × β} (h₁ : ReadsBack write read fits p.1)
    (h₂ : ReadsBack write₂ read₂ fits₂ p.2) :
    ReadsBack (writePair write write₂) (readPair read read₂) (fun p => fits p.1 && fits₂ p.2) p := by
  intro rest
  simp only [writePair, readPair, List.append_assoc, ↓h₁.bind, ↓h₂.bind, Bool.and_eq_true, ite_and]
  rfl

end Containers

/-- A `uint256`: its 32 bytes, as `base_blob` holds and writes them. -/
structure uint256 where
  data : List UInt8
  length_data : data.length = 32
deriving DecidableEq

def uint256.write (h : uint256) : List UInt8 := h.data

def uint256.read (s : List UInt8) : Option (uint256 × List UInt8) :=
  if h : 32 ≤ s.length then some (⟨s.take 32, by simp; omega⟩, s.drop 32) else none

theorem readsBack_uint256 (h : uint256) : ReadsBack uint256.write uint256.read (fun _ => true) h := by
  intro rest
  have hl := h.length_data
  simp [uint256.read, uint256.write, hl, List.take_left' hl, List.drop_left' hl]

end Ecc
