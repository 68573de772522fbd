import EccoinValidation.Wallet.Stream

/-!
# Wallet — `mapValue_t` and its text values

`mapValue_t` is `std::map<std::string, std::string>`.  It is modelled by its entries in key
order, each key once (`StrMap`), the order being `std::string`'s: the first differing byte,
compared as `unsigned char`, decides, and a proper prefix comes first (`strLess`).  A map is
written as a vector of its entries; it is read by inserting each entry as it comes
(`m.insert(mi, item)`, which keeps a key already present).  Two maps are equal when they
give every key the same value (`StrMap.ext_find?`), so every fact about an update below is a
fact about lookups.

The wallet keeps numbers in the map as decimal text: `i64tostr` and `strprintf("%u")` write
it, `atoi64` (`strtoll` in base 10) reads it back.  These are in `utilstrencodings` and
`tinyformat`, not in the sources, and are modelled after what they compute.

* `readsBack_map`: a map reads back exactly when its size and all its strings fit.
* `atoi64_i64tostr`, `atoi64_utostr`: the decimal text of every `int64_t` and every
  `unsigned int` reads back as the same number.
-/

namespace Ecc

/-! ### The key order -/

/-- `a < b` for `std::string`: the first differing byte, compared as `unsigned char`, decides,
and a proper prefix comes first. -/
def strLess : List UInt8 → List UInt8 → Bool
  | [], [] => false
  | [], _ :: _ => true
  | _ :: _, [] => false
  | x :: xs, y :: ys => decide (x.toNat < y.toNat) || (decide (x = y) && strLess xs ys)

@[simp] theorem strLess_self : ∀ a : List UInt8, strLess a a = false
  | [] => rfl
  | _ :: xs => by simp [strLess, strLess_self xs]

theorem strLess_trans : ∀ {a b c : List UInt8}, strLess a b = true → strLess b c = true →
    strLess a c = true
  | [], [], _, h, _ | _ :: _, [], _, h, _ => by simp [strLess] at h
  | [], _ :: _, [], _, h | _ :: _, _ :: _, [], _, h => by simp [strLess] at h
  | [], _ :: _, _ :: _, _, _ => rfl
  | x :: xs, y :: ys, z :: zs, h₁, h₂ => by
    simp only [strLess, Bool.or_eq_true, decide_eq_true_eq, Bool.and_eq_true] at h₁ h₂ ⊢
    rcases h₁ with h₁ | ⟨rfl, h₁⟩ <;> rcases h₂ with h₂ | ⟨rfl, h₂⟩
    · exact .inl (by omega)
    · exact .inl h₁
    · exact .inl h₂
    · exact .inr ⟨rfl, strLess_trans h₁ h₂⟩

/-- Two different keys are ordered one way or the other. -/
theorem strLess_of_ne : ∀ {a b : List UInt8}, a ≠ b → strLess a b = false → strLess b a = true
  | [], [], h, _ => absurd rfl h
  | [], _ :: _, _, h => by simp [strLess] at h
  | _ :: _, [], _, _ => rfl
  | x :: xs, y :: ys, hne, h => by
    simp only [strLess, Bool.or_eq_false_iff, decide_eq_false_iff_not, Bool.and_eq_false_iff,
      Bool.or_eq_true, decide_eq_true_eq, Bool.and_eq_true] at h ⊢
    by_cases hxy : x = y
    · subst hxy
      have hne' : xs ≠ ys := fun e => hne (e ▸ rfl)
      exact .inr ⟨rfl, strLess_of_ne hne' (h.2.resolve_left (not_not.mpr rfl))⟩
    · exact .inl (lt_of_le_of_ne (Nat.not_lt.mp h.1) fun e => hxy (UInt8.toNat.inj e.symm))

/-! ### Entry lists -/

/-- The value at `k` in a list of entries: the first entry with that key. -/
def lookup (l : List (List UInt8 × List UInt8)) (k : List UInt8) : Option (List UInt8) :=
  (l.find? fun e => decide (e.1 = k)).map Prod.snd

@[simp] theorem lookup_nil (k : List UInt8) : lookup [] k = none := rfl

theorem lookup_cons (e : List UInt8 × List UInt8) (l : List (List UInt8 × List UInt8))
    (k : List UInt8) : lookup (e :: l) k = if e.1 = k then some e.2 else lookup l k := by
  unfold lookup
  by_cases h : e.1 = k <;> simp [h, List.find?_cons]

/-- Entries whose keys increase. -/
def Ascending (l : List (List UInt8 × List UInt8)) : Prop :=
  l.Pairwise fun a b => strLess a.1 b.1 = true

/-- In an ascending list a key below the first is absent. -/
theorem lookup_eq_none_of_lt {e : List UInt8 × List UInt8} {l : List (List UInt8 × List UInt8)}
    (hl : Ascending (e :: l)) {k : List UInt8} (hk : strLess k e.1 = true) :
    lookup (e :: l) k = none := by
  induction l generalizing e with
  | nil => simp [lookup_cons, show e.1 ≠ k by rintro rfl; simp at hk]
  | cons f l ih =>
    obtain ⟨hef, hl'⟩ := List.pairwise_cons.mp hl
    rw [lookup_cons, if_neg (by rintro rfl; simp at hk),
      ih hl' (strLess_trans hk (hef f (List.mem_cons_self _ _)))]

/-- Insert `(k, v)` into an ascending list: a present key keeps its value, or takes `v` when
`replace`. -/
def insertEntry (replace : Bool) (k v : List UInt8) :
    List (List UInt8 × List UInt8) → List (List UInt8 × List UInt8)
  | [] => [(k, v)]
  | e :: rest =>
    if strLess k e.1 then (k, v) :: e :: rest
    else if k = e.1 then (if replace then (k, v) :: rest else e :: rest)
    else e :: insertEntry replace k v rest

theorem mem_insertEntry {replace : Bool} {k v : List UInt8} {x : List UInt8 × List UInt8} :
    ∀ {l : List (List UInt8 × List UInt8)}, x ∈ insertEntry replace k v l → x = (k, v) ∨ x ∈ l
  | [], h => .inl (List.mem_singleton.mp h)
  | e :: rest, h => by
    unfold insertEntry at h
    split_ifs at h with h₁ h₂ h₃
    · exact (List.mem_cons.mp h).imp_right id
    · exact (List.mem_cons.mp h).imp_right (List.mem_cons_of_mem e)
    · exact .inr h
    · rcases List.mem_cons.mp h with rfl | h
      · exact .inr (List.mem_cons_self _ _)
      · exact (mem_insertEntry h).imp_right (List.mem_cons_of_mem e)

theorem insertEntry_ascending (replace : Bool) (k v : List UInt8) :
    ∀ {l : List (List UInt8 × List UInt8)}, Ascending l → Ascending (insertEntry replace k v l)
  | [], _ => List.pairwise_singleton _ _
  | e :: rest, hl => by
    obtain ⟨he, hrest⟩ := List.pairwise_cons.mp hl
    unfold insertEntry
    split_ifs with h₁ h₂ h₃
    · refine List.Pairwise.cons (fun x hx => ?_) hl
      rcases List.mem_cons.mp hx with rfl | hx
      · exact h₁
      · exact strLess_trans h₁ (he x hx)
    · exact List.Pairwise.cons (fun x hx => h₂ ▸ he x hx) hrest
    · exact hl
    · refine List.Pairwise.cons (fun x hx => ?_) (insertEntry_ascending replace k v hrest)
      rcases mem_insertEntry hx with rfl | hx
      · exact strLess_of_ne h₂ (Bool.eq_false_iff.mpr h₁)
      · exact he x hx

theorem lookup_insertEntry_ne {replace : Bool} {k v k' : List UInt8} (hk : k' ≠ k) :
    ∀ l, lookup (insertEntry replace k v l) k' = lookup l k'
  | [] => by simp [insertEntry, lookup_cons, Ne.symm hk]
  | e :: rest => by
    have hk' : k ≠ k' := Ne.symm hk
    by_cases h₁ : strLess k e.1 = true
    · simp only [insertEntry, if_pos h₁, lookup_cons, hk', if_false]
    by_cases h₂ : k = e.1
    · subst h₂
      cases replace <;> simp only [insertEntry, if_neg h₁, if_true, lookup_cons, hk', if_false,
        Bool.false_eq_true]
    · simp only [insertEntry, if_neg h₁, if_neg h₂, lookup_cons, lookup_insertEntry_ne hk rest]

theorem lookup_insertEntry_self {replace : Bool} {k v : List UInt8} :
    ∀ {l}, Ascending l → lookup (insertEntry replace k v l) k =
      if replace then some v else (lookup l k).or (some v)
  | [], _ => by cases replace <;> simp [insertEntry, lookup_cons]
  | e :: rest, hl => by
    by_cases h₁ : strLess k e.1 = true
    · simp only [insertEntry, if_pos h₁, lookup_cons, if_true, ← lookup_cons e rest k,
        lookup_eq_none_of_lt hl h₁]
      cases replace <;> rfl
    by_cases h₂ : k = e.1
    · subst h₂
      cases replace <;> simp [insertEntry, h₁, lookup_cons]
    · simp only [insertEntry, if_neg h₁, if_neg h₂, lookup_cons, Ne.symm h₂, if_false,
        lookup_insertEntry_self (List.pairwise_cons.mp hl).2]

theorem lookup_filter (l : List (List UInt8 × List UInt8)) (k k' : List UInt8) :
    lookup (l.filter fun e => decide (e.1 ≠ k)) k' = if k' = k then none else lookup l k' := by
  induction l with
  | nil => simp
  | cons e l ih =>
    by_cases he : e.1 = k
    · simp only [List.filter_cons, he, ne_eq, not_true_eq_false, decide_False, ih, lookup_cons]
      split_ifs <;> simp_all
    · simp only [List.filter_cons, he, ne_eq, not_false_eq_true, decide_True, if_true,
        lookup_cons, ih]
      split_ifs <;> simp_all

/-- In an ascending list the first key does not occur again. -/
theorem lookup_tail_head {e : List UInt8 × List UInt8} {l : List (List UInt8 × List UInt8)}
    (hl : Ascending (e :: l)) : lookup l e.1 = none := by
  obtain ⟨he, hl'⟩ := List.pairwise_cons.mp hl
  cases l with
  | nil => rfl
  | cons f l => exact lookup_eq_none_of_lt hl' (he f (List.mem_cons_self _ _))

/-- Two ascending lists that give every key the same value are equal. -/
theorem eq_of_lookup : ∀ {l l' : List (List UInt8 × List UInt8)}, Ascending l → Ascending l' →
    (∀ k, lookup l k = lookup l' k) → l = l'
  | [], [], _, _, _ => rfl
  | [], e' :: _, _, _, h => by simpa [lookup_cons] using (h e'.1).symm
  | e :: _, [], _, _, h => by simpa [lookup_cons] using h e.1
  | e :: rest, e' :: rest', hl, hl', h => by
    -- the two first keys are the least keys of both lists
    have hkey : e.1 = e'.1 := by
      by_contra hne
      cases hlt : strLess e.1 e'.1
      · have := h e'.1
        rw [lookup_eq_none_of_lt hl (strLess_of_ne hne hlt), lookup_cons, if_pos rfl] at this
        cases this
      · have := h e.1
        rw [lookup_eq_none_of_lt hl' hlt, lookup_cons, if_pos rfl] at this
        cases this
    have hval : e.2 = e'.2 := by
      have := h e.1
      rwa [lookup_cons, lookup_cons, if_pos rfl, if_pos hkey.symm, Option.some.injEq] at this
    have hrest : ∀ k, lookup rest k = lookup rest' k := fun k => by
      by_cases hk : e.1 = k
      · rw [← hk, lookup_tail_head hl, hkey, lookup_tail_head hl']
      · have := h k
        rwa [lookup_cons, lookup_cons, if_neg hk, if_neg (hkey ▸ hk)] at this
    rw [Prod.ext hkey hval, eq_of_lookup (List.pairwise_cons.mp hl).2 (List.pairwise_cons.mp hl').2
      hrest]

/-! ### The map -/

/-- `mapValue_t`: its entries in key order, each key once. -/
structure StrMap where
  entries : List (List UInt8 × List UInt8)
  ascending : Ascending entries

namespace StrMap

def empty : StrMap := ⟨[], List.Pairwise.nil⟩

/-- `m.find(k)`: the value at `k`. -/
def find? (m : StrMap) (k : List UInt8) : Option (List UInt8) := lookup m.entries k

/-- `m.count(k)`. -/
def count (m : StrMap) (k : List UInt8) : Bool := (m.find? k).isSome

/-- `m.insert(item)`: a key already present keeps its value. -/
def insert (m : StrMap) (k v : List UInt8) : StrMap :=
  ⟨insertEntry false k v m.entries, insertEntry_ascending false k v m.ascending⟩

/-- `m[k] = v`. -/
def assign (m : StrMap) (k v : List UInt8) : StrMap :=
  ⟨insertEntry true k v m.entries, insertEntry_ascending true k v m.ascending⟩

/-- `m[k]` read: the value at `k`, or the empty string, which it inserts. -/
def index (m : StrMap) (k : List UInt8) : List UInt8 × StrMap :=
  match m.find? k with
  | some v => (v, m)
  | none => ([], m.insert k [])

/-- `m.erase(k)`. -/
def erase (m : StrMap) (k : List UInt8) : StrMap :=
  ⟨m.entries.filter fun e => decide (e.1 ≠ k), m.ascending.filter _⟩

/-- **Maps are equal when their lookups are.** -/
theorem ext_find? {m m' : StrMap} (h : ∀ k, m.find? k = m'.find? k) : m = m' := by
  obtain ⟨l, hl⟩ := m
  obtain ⟨l', hl'⟩ := m'
  obtain rfl := eq_of_lookup hl hl' h
  rfl

@[simp] theorem find?_empty (k : List UInt8) : empty.find? k = none := rfl

theorem find?_insert (m : StrMap) (k v k' : List UInt8) :
    (m.insert k v).find? k' = if k' = k then (m.find? k).or (some v) else m.find? k' := by
  unfold find? insert
  split_ifs with hk
  · subst hk; rw [lookup_insertEntry_self m.ascending]; rfl
  · exact lookup_insertEntry_ne hk _

theorem find?_assign (m : StrMap) (k v k' : List UInt8) :
    (m.assign k v).find? k' = if k' = k then some v else m.find? k' := by
  unfold find? assign
  split_ifs with hk
  · subst hk; rw [lookup_insertEntry_self m.ascending]; rfl
  · exact lookup_insertEntry_ne hk _

theorem find?_erase (m : StrMap) (k k' : List UInt8) :
    (m.erase k).find? k' = if k' = k then none else m.find? k' :=
  lookup_filter _ _ _

/-- Erasing keys one after another leaves no value at any of them and the rest as it was. -/
theorem find?_foldl_erase : ∀ (l : List (List UInt8)) (m : StrMap) (k : List UInt8),
    (l.foldl erase m).find? k = if k ∈ l then none else m.find? k
  | [], m, k => by simp
  | k' :: l, m, k => by
    rw [List.foldl_cons, find?_foldl_erase l, find?_erase]
    by_cases h : k = k' <;> simp [h]

/-- Reading `m[k]` at a key present: its value, and the map as it was. -/
theorem index_of_find? {m : StrMap} {k v : List UInt8} (h : m.find? k = some v) :
    m.index k = (v, m) := by
  simp [index, h]

/-! ### Writing and reading a map -/

/-- An entry: its key, then its value. -/
def writeEntry : List UInt8 × List UInt8 → List UInt8 := writePair writeString writeString

def readEntry : List UInt8 → Option ((List UInt8 × List UInt8) × List UInt8) :=
  readPair readString readString

def fitsEntry (e : List UInt8 × List UInt8) : Bool := fitsString e.1 && fitsString e.2

/-- A map: its size and its entries in key order. -/
def writeMap (m : StrMap) : List UInt8 :=
  WriteCompactSize m.entries.length ++ writeList writeEntry m.entries

/-- The entries of a map, each inserted as it is read (`m.insert(mi, item)`). -/
def readMapEntries : Nat → StrMap → List UInt8 → Option (StrMap × List UInt8)
  | 0, m, s => some (m, s)
  | nSize + 1, m, s => do
    let (item, s) ← readEntry s
    readMapEntries nSize (m.insert item.1 item.2) s

def readMap (s : List UInt8) : Option (StrMap × List UInt8) := do
  let (nSize, s) ← ReadCompactSize s
  readMapEntries nSize empty s

/-- A map fits when its size and all its strings do. -/
def fitsMap (m : StrMap) : Bool := fitsVector fitsEntry m.entries

theorem readsBack_entry (e : List UInt8 × List UInt8) : ReadsBack writeEntry readEntry fitsEntry e :=
  readsBack_pair (readsBack_string e.1) (readsBack_string e.2)

theorem readMapEntries_writeList : ∀ (l : List (List UInt8 × List UInt8)) (acc : StrMap)
    (rest : List UInt8), readMapEntries l.length acc (writeList writeEntry l ++ rest) =
      if l.all fitsEntry then some (l.foldl (fun m e => m.insert e.1 e.2) acc, rest) else none
  | [], _, _ => rfl
  | e :: l, acc, rest => by
    simp only [List.length_cons, writeList, List.append_assoc, readMapEntries, List.all_cons,
      ↓(readsBack_entry e).bind, readMapEntries_writeList l, Bool.and_eq_true, ite_and,
      List.foldl_cons]

/-- Inserting entries one by one keeps the first value each key gets. -/
theorem find?_foldl_insert : ∀ (l : List (List UInt8 × List UInt8)) (acc : StrMap) (k : List UInt8),
    (l.foldl (fun m e => m.insert e.1 e.2) acc).find? k = (acc.find? k).or (lookup l k)
  | [], acc, k => by rw [List.foldl_nil, lookup_nil]; cases acc.find? k <;> rfl
  | e :: l, acc, k => by
    rw [List.foldl_cons, find?_foldl_insert l, find?_insert, lookup_cons]
    by_cases hk : k = e.1
    · subst hk; cases acc.find? e.1 <;> simp
    · simp [hk, Ne.symm hk]

/-- **A map reads back exactly when it fits.** -/
theorem readsBack_map (m : StrMap) : ReadsBack writeMap readMap fitsMap m := by
  intro rest
  have hm : m.entries.foldl (fun m e => m.insert e.1 e.2) empty = m :=
    ext_find? fun k => by rw [find?_foldl_insert]; rfl
  simp only [writeMap, readMap, List.append_assoc, ↓(readsBack_compactSize _).bind,
    readMapEntries_writeList, hm, fitsMap, fitsVector, Bool.and_eq_true, ite_and]

end StrMap

/-! ### Decimal text -/

/-- The decimal digits of `n`, most significant first, and `0` for zero, as `printf` writes
them. -/
def decimalDigits (n : Nat) : List UInt8 :=
  if n = 0 then [48] else (Nat.digits 10 n).reverse.map fun d => UInt8.ofNat (48 + d)

/-- `i64tostr(n)`, which is `strprintf("%d", n)` for an `int64_t`. -/
def i64tostr (n : BitVec 64) : List UInt8 :=
  (if n.toInt < 0 then [45] else []) ++ decimalDigits n.toInt.natAbs

/-- `strprintf("%u", n)` for an `unsigned int`. -/
def utostr (n : UInt32) : List UInt8 := decimalDigits n.toNat

/-- `isspace` in the C locale: space, and tab to carriage return. -/
def isSpace (c : UInt8) : Bool := c.toNat = 32 || (9 ≤ c.toNat && c.toNat ≤ 13)

/-- `isdigit`. -/
def isDigit (c : UInt8) : Bool := 48 ≤ c.toNat && c.toNat ≤ 57

/-- An optional sign: `-` gives a negative number. -/
def readSign : List UInt8 → Bool × List UInt8
  | c :: s => if c = 45 then (true, s) else if c = 43 then (false, s) else (false, c :: s)
  | [] => (false, [])

/-- The value of a run of decimal digits. -/
def digitsValue (l : List UInt8) : Nat := l.foldl (fun acc c => 10 * acc + (c.toNat - 48)) 0

/-- `strtoll(psz, NULL, 10)`: white space is skipped, then a sign and the longest run of digits
are read; a value beyond the `int64_t` range saturates at `LLONG_MIN` or `LLONG_MAX`. -/
def strtoll (s : List UInt8) : Int :=
  let (neg, rest) := readSign (s.dropWhile isSpace)
  let v : Int := digitsValue (rest.takeWhile isDigit)
  if neg then max (-2 ^ 63) (-v) else min (2 ^ 63 - 1) v

/-- `atoi64(psz)`. -/
def atoi64 (s : List UInt8) : BitVec 64 := BitVec.ofInt 64 (strtoll s)

theorem digitByte_toNat {d : Nat} (h : d < 10) : (UInt8.ofNat (48 + d)).toNat = 48 + d :=
  UInt8.toNat_ofNat_of_lt (by simp [UInt8.size]; omega)

theorem isDigit_decimalDigits (n : Nat) : ∀ c ∈ decimalDigits n, isDigit c = true := by
  unfold decimalDigits
  split_ifs
  · simp [isDigit, UInt8.size]
  · simp only [List.mem_map, List.mem_reverse]
    rintro _ ⟨d, hd, rfl⟩
    have := Nat.digits_lt_base (by norm_num) hd
    simp [isDigit, digitByte_toNat this]
    omega

/-- Read most significant first, digits below ten give their `ofDigits` value. -/
theorem foldr_digitBytes : ∀ L : List Nat, (∀ d ∈ L, d < 10) →
    L.foldr (fun d acc => 10 * acc + ((UInt8.ofNat (48 + d)).toNat - 48)) 0 = Nat.ofDigits 10 L
  | [], _ => rfl
  | d :: L, hL => by
    simp only [List.forall_mem_cons] at hL
    rw [List.foldr_cons, foldr_digitBytes L hL.2, digitByte_toNat hL.1, Nat.ofDigits_cons]
    omega

theorem digitsValue_decimalDigits (n : Nat) : digitsValue (decimalDigits n) = n := by
  unfold decimalDigits digitsValue
  split_ifs with h
  · simp [h, UInt8.size]
  · rw [List.foldl_map, List.foldl_reverse]
    conv_rhs => rw [← Nat.ofDigits_digits 10 n]
    exact foldr_digitBytes _ fun d hd => Nat.digits_lt_base (by norm_num) hd

theorem decimalDigits_ne_nil (n : Nat) : decimalDigits n ≠ [] := by
  unfold decimalDigits
  split_ifs with h
  · simp
  · simpa using Nat.digits_ne_nil_iff_ne_zero.mpr h

/-- A digit is neither white space nor a sign. -/
theorem isDigit_not_sign {c : UInt8} (h : isDigit c = true) :
    isSpace c = false ∧ c ≠ 45 ∧ c ≠ 43 := by
  simp only [isDigit, Bool.and_eq_true, decide_eq_true_eq] at h
  refine ⟨by simp [isSpace]; omega, ?_, ?_⟩ <;> rintro rfl <;> simp [UInt8.size] at h

/-- `strtoll` reads the decimal digits of `n`, with or without a minus sign, as `n` or `-n`,
saturated. -/
theorem strtoll_decimalDigits (n : Nat) :
    strtoll (decimalDigits n) = min (2 ^ 63 - 1) (n : Int) ∧
      strtoll (45 :: decimalDigits n) = max (-2 ^ 63) (-(n : Int)) := by
  have hall := List.takeWhile_eq_self_iff.mpr (isDigit_decimalDigits n)
  have hv := digitsValue_decimalDigits n
  obtain ⟨c, l, hcl⟩ := List.exists_cons_of_ne_nil (decimalDigits_ne_nil n)
  obtain ⟨hs, h45, h43⟩ := isDigit_not_sign (isDigit_decimalDigits n c (by simp [hcl]))
  -- no white space to skip, and a digit where a sign could be
  have hskip : (c :: l).dropWhile isSpace = c :: l := by rw [List.dropWhile_cons, hs]; rfl
  have hsign : readSign (c :: l) = (false, c :: l) := by rw [readSign, if_neg h45, if_neg h43]
  have hminus : readSign ((45 :: c :: l).dropWhile isSpace) = (true, c :: l) := rfl
  rw [hcl] at hall hv ⊢
  exact ⟨by simp only [strtoll, hskip, hsign, hall, hv]; rfl,
    by simp only [strtoll, hminus, hall, hv]; rfl⟩

theorem ofInt_toInt64 (x : BitVec 64) : BitVec.ofInt 64 x.toInt = x := by
  apply BitVec.eq_of_toNat_eq
  rw [BitVec.toNat_ofInt, BitVec.toInt_eq_toNat_cond]
  have := x.isLt
  split_ifs <;> omega

/-- An `int64_t` lies in `[-2^63, 2^63)`. -/
theorem toInt_bounds64 (x : BitVec 64) : -2 ^ 63 ≤ x.toInt ∧ x.toInt < 2 ^ 63 := by
  rw [BitVec.toInt_eq_toNat_cond]
  have := x.isLt
  split_ifs <;> omega

/-- **`i64tostr` reads back.**  For every `int64_t`, `atoi64(i64tostr(n))` is `n`: the text is
the digits of `|n|` after a `-` for a negative `n`, and `|n|` is at most `2^63`, so nothing
saturates. -/
theorem atoi64_i64tostr (x : BitVec 64) : atoi64 (i64tostr x) = x := by
  have hx := toInt_bounds64 x
  have h := strtoll_decimalDigits x.toInt.natAbs
  unfold atoi64 i64tostr
  split_ifs with hneg
  · rw [List.singleton_append, h.2, show max (-2 ^ 63) (-(x.toInt.natAbs : Int)) = x.toInt by omega,
      ofInt_toInt64]
  · rw [List.nil_append, h.1, show min (2 ^ 63 - 1) (x.toInt.natAbs : Int) = x.toInt by omega,
      ofInt_toInt64]

/-- **`strprintf("%u")` reads back.**  For every `unsigned int`, `atoi64` of its decimal text
is the same number. -/
theorem atoi64_utostr (x : UInt32) : (atoi64 (utostr x)).toNat = x.toNat := by
  have hx := x.toNat_lt_size
  simp only [UInt32.size] at hx
  rw [atoi64, utostr, (strtoll_decimalDigits x.toNat).1,
    show min (2 ^ 63 - 1) (x.toNat : Int) = x.toNat by omega, BitVec.toNat_ofInt]
  omega

end Ecc
