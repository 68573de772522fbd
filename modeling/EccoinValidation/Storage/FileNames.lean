import EccoinValidation.Storage.BlockStore
import EccoinValidation.Wallet.MapValue

/-!
# Storage — the names of the block files

`GetBlockPosFilename(pos, prefix)` names file `pos.nFile` of one kind: under the data directory,
`blocks`, then the prefix (`blk` from `OpenBlockFile`, `rev` from `OpenUndoFile`), the file
number with at least five digits (`%05u`), and `.dat`.  The parts are joined by `fs::path`'s
`operator/`, which puts a separator between two parts unless the first is empty or already ends
in one.  `Storage.BlockStore` keeps the block files as a map from file numbers to bytes; that
is a faithful view of the file system because the name determines both the number and the
kind.

* `getBlockPosFilename_inj`: **two positions name the same file exactly when they have the same
  file number and the same kind**, for every data directory.  A number of more than five digits
  is written in full, and the leading zeros of a shorter one do not change its value.
-/

namespace Ecc

/-- The two kinds of file `OpenDiskFile` opens, by the prefix their callers pass. -/
inductive FileKind
  | blk
  | rev
deriving DecidableEq, Repr

/-- The prefix `OpenBlockFile` and `OpenUndoFile` pass. -/
def FileKind.prefixBytes : FileKind → List UInt8
  | .blk => "blk".toUTF8.data.toList
  | .rev => "rev".toUTF8.data.toList

/-- `strprintf("%05u", n)`: the decimal digits of `n`, after zeros up to five digits. -/
def zeroPadded5 (n : Nat) : List UInt8 :=
  List.replicate (5 - (decimalDigits n).length) 48 ++ decimalDigits n

/-- `p / q` of `fs::path` on POSIX, for a relative `q`: a separator `/` goes between the two
unless `p` is empty or already ends in one. -/
def pathAppend (p q : List UInt8) : List UInt8 :=
  if p = [] ∨ p.getLast? = some 47 then p ++ q else p ++ 47 :: q

/-- `GetBlockPosFilename(pos, prefix)`:
`GetDataDir() / "blocks" / strprintf("%s%05u.dat", prefix, pos.nFile)`. -/
def GetBlockPosFilename (dataDir : List UInt8) (pos : CDiskBlockPos) (kind : FileKind) :
    List UInt8 :=
  pathAppend (pathAppend dataDir "blocks".toUTF8.data.toList)
    (kind.prefixBytes ++ (zeroPadded5 pos.nFile ++ ".dat".toUTF8.data.toList))

/-! ### The name determines the file -/

theorem length_prefixBytes (kind : FileKind) : kind.prefixBytes.length = 3 := by
  cases kind <;> rfl

theorem prefixBytes_injective {k k' : FileKind} (h : k.prefixBytes = k'.prefixBytes) :
    k = k' := by
  cases k <;> cases k' <;> first | rfl | cases h

/-- Leading zeros do not change the value of a run of digits. -/
theorem digitsValue_zeros_append (k : Nat) (l : List UInt8) :
    digitsValue (List.replicate k 48 ++ l) = digitsValue l := by
  have hzeros : ∀ k, (List.replicate k (48 : UInt8)).foldl
      (fun acc c => 10 * acc + (c.toNat - 48)) 0 = 0 := by
    intro k; induction k with
    | zero => rfl
    | succ k ih => rw [List.replicate_succ', List.foldl_append, ih]; rfl
  rw [digitsValue, List.foldl_append, hzeros]
  rfl

theorem digitsValue_zeroPadded5 (n : Nat) : digitsValue (zeroPadded5 n) = n := by
  rw [zeroPadded5, digitsValue_zeros_append, digitsValue_decimalDigits]

/-- The directory `GetDataDir() / "blocks"` ends in `s`, so the file name follows a separator. -/
theorem getBlockPosFilename_eq (dataDir : List UInt8) (pos : CDiskBlockPos) (kind : FileKind) :
    GetBlockPosFilename dataDir pos kind = pathAppend dataDir "blocks".toUTF8.data.toList ++
      47 :: (kind.prefixBytes ++ (zeroPadded5 pos.nFile ++ ".dat".toUTF8.data.toList)) := by
  have hlast : (pathAppend dataDir "blocks".toUTF8.data.toList).getLast? = some 115 := by
    rw [show "blocks".toUTF8.data.toList = [98, 108, 111, 99, 107, 115] from rfl]
    unfold pathAppend; split <;> simp [List.getLast?_append]
  rw [GetBlockPosFilename, pathAppend, if_neg]
  rintro (h | h)
  · simp [h] at hlast
  · rw [hlast] at h; cases h

/-- A data directory given with or without its trailing separator names the same file. -/
example : GetBlockPosFilename "/d/".toUTF8.data.toList ⟨0, 0⟩ .blk =
      "/d/blocks/blk00000.dat".toUTF8.data.toList ∧
    GetBlockPosFilename "/d".toUTF8.data.toList ⟨0, 0⟩ .blk =
      "/d/blocks/blk00000.dat".toUTF8.data.toList := by
  decide

/-- **The name determines the file.**  For every data directory, two positions name the same
file exactly when they have the same file number and the same kind. -/
theorem getBlockPosFilename_inj (dataDir : List UInt8) (pos pos' : CDiskBlockPos)
    (kind kind' : FileKind) :
    GetBlockPosFilename dataDir pos kind = GetBlockPosFilename dataDir pos' kind' ↔
      pos.nFile = pos'.nFile ∧ kind = kind' := by
  constructor
  · intro h
    rw [getBlockPosFilename_eq, getBlockPosFilename_eq] at h
    have hname := List.cons_injective (List.append_cancel_left h)
    obtain ⟨hk, hrest⟩ := List.append_inj hname (by rw [length_prefixBytes, length_prefixBytes])
    have hpad := List.append_cancel_right hrest
    exact ⟨by rw [← digitsValue_zeroPadded5 pos.nFile, hpad, digitsValue_zeroPadded5],
      prefixBytes_injective hk⟩
  · rintro ⟨h, rfl⟩
    rw [GetBlockPosFilename, GetBlockPosFilename, h]

end Ecc
