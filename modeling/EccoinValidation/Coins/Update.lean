import EccoinValidation.Coins.TxInputs

/-!
# Coins — applying a transaction to the view, and undoing it

`UpdateCoins(tx, state, inputs, txundo, nHeight)` spends the coins a transaction's inputs
name, appending each coin it moves out to `txundo.vprevout`, and then adds the
transaction's outputs with `AddCoins`.  A block is connected by one call per transaction, each
with a fresh undo record; it is disconnected by undoing the transactions in reverse order:
erase the outputs, then put each record's coins back at the inputs' outpoints.

`coins.cpp` and `undo.h` are not part of the sources.  `SpendCoin` and `AddCoin` are modelled
on the view as `AccessCoin` reads it: spending moves the coin out (a spent or missing coin
leaves the record's default-constructed coin, `none` here) and leaves the outpoint spent;
adding skips an output whose script `IsUnspendable` says is unspendable, and throws
`logic_error` (`none` here) when it would replace an unspent coin without
`possible_overwrite`.  `AddCoins` is called with `check` false, so `possible_overwrite` is
the coinbase flag.  The undo side, `undoTx`, follows the description above; its code is not
under `src/`.

* `spendInputs_eq`: with pairwise distinct outpoints, the record holds, in input order, the
  coin each input consumed, and the view has those outpoints spent.
* `addCoinsFrom_isSome` and `addCoinsFrom_frame`: adding outputs that are not yet in the view
  succeeds, and changes the view only at the transaction's outpoints.
* `undoTx_updateCoins`: undoing a transaction right after applying it gives back the view.
* `connectTxs_round_trip`: over any sequence of transactions, each spending distinct unspent
  coins and adding absent outputs at its turn, undoing them in reverse order gives back
  exactly the starting view, and each record holds the coins its transaction consumed.
-/

namespace Ecc

namespace CCoinsViewCache

/-- The view with the coin at `o` replaced by `c`; `none` spends it. -/
def setCoin (v : CCoinsViewCache) (o : COutPoint) (c : Option Coin) : CCoinsViewCache :=
  { v with AccessCoin := fun o' => if o' = o then c else v.AccessCoin o' }

@[simp] theorem accessCoin_setCoin (v : CCoinsViewCache) (o o' : COutPoint) (c : Option Coin) :
    (v.setCoin o c).AccessCoin o' = if o' = o then c else v.AccessCoin o' := rfl

@[simp] theorem hashBestBlock_setCoin (v : CCoinsViewCache) (o : COutPoint) (c : Option Coin) :
    (v.setCoin o c).hashBestBlock = v.hashBestBlock := rfl

theorem ext_accessCoin {v w : CCoinsViewCache} (h : ∀ o, v.AccessCoin o = w.AccessCoin o)
    (hb : v.hashBestBlock = w.hashBestBlock) : v = w := by
  cases v; cases w
  simp only [mk.injEq] at *
  exact ⟨funext h, hb⟩

/-- `SpendCoin(outpoint, moveout)`: the coin moved into `*moveout`, `none` when the view holds
no unspent coin at `outpoint`, and the view with `outpoint` spent. -/
def SpendCoin (v : CCoinsViewCache) (outpoint : COutPoint) : Option Coin × CCoinsViewCache :=
  (v.AccessCoin outpoint, v.setCoin outpoint none)

/-- `AddCoin(outpoint, coin, possible_overwrite)`.  An unspendable output is not added;
`none` is the `logic_error` for replacing an unspent coin without `possible_overwrite`. -/
def AddCoin (IsUnspendable : List UInt8 → Bool) (v : CCoinsViewCache) (outpoint : COutPoint)
    (coin : Coin) (possible_overwrite : Bool) : Option CCoinsViewCache :=
  if IsUnspendable coin.out.scriptPubKey then some v
  else if !possible_overwrite && (v.AccessCoin outpoint).isSome then none
  else some (v.setCoin outpoint (some coin))

end CCoinsViewCache

/-- `CTxUndo`: the coins a transaction's inputs consumed, `none` for a default-constructed
coin. -/
structure CTxUndo where
  vprevout : List (Option Coin)

section Update

variable (IsUnspendable : List UInt8 → Bool)

/-- The loop of `AddCoins` from output `i` on: output `i` becomes the coin
`(vout[i], nHeight, fCoinbase)` at `(hash, i)`, with `possible_overwrite = fCoinbase`. -/
def addCoinsFrom (tx : CTransaction) (nHeight : Int) :
    Nat → List CTxOut → CCoinsViewCache → Option CCoinsViewCache
  | _, [], cache => some cache
  | i, out :: rest, cache =>
    (cache.AddCoin IsUnspendable ⟨tx.hash, i⟩ ⟨out, nHeight, tx.IsCoinBase⟩ tx.IsCoinBase).bind
      (addCoinsFrom tx nHeight (i + 1) rest)

/-- `AddCoins(cache, tx, nHeight)` with `check` false. -/
def AddCoins (cache : CCoinsViewCache) (tx : CTransaction) (nHeight : Int) :
    Option CCoinsViewCache :=
  addCoinsFrom IsUnspendable tx nHeight 0 tx.vout cache

/-- The loop of `UpdateCoins` over the inputs: each `emplace_back` slot receives the coin
`SpendCoin` moves out. -/
def spendInputs : List CTxIn → CCoinsViewCache → List (Option Coin) × CCoinsViewCache
  | [], inputs => ([], inputs)
  | txin :: rest, inputs =>
    let r := inputs.SpendCoin txin.prevout
    let r' := spendInputs rest r.2
    (r.1 :: r'.1, r'.2)

/-- `UpdateCoins(tx, state, inputs, txundo, nHeight)`: the view and the undo record as the
call leaves them; `none` is an exception from `AddCoins`. -/
def UpdateCoins (tx : CTransaction) (inputs : CCoinsViewCache) (txundo : CTxUndo)
    (nHeight : Int) : Option (CCoinsViewCache × CTxUndo) :=
  let spent := if tx.IsCoinBase then ([], inputs) else spendInputs tx.vin inputs
  (AddCoins IsUnspendable spent.2 tx nHeight).map fun v => (v, ⟨txundo.vprevout ++ spent.1⟩)

/-- The overload of `UpdateCoins` without an undo record. -/
def UpdateCoinsNoUndo (tx : CTransaction) (inputs : CCoinsViewCache) (nHeight : Int) :
    Option CCoinsViewCache :=
  (UpdateCoins IsUnspendable tx inputs ⟨[]⟩ nHeight).map Prod.fst

/-! ### Undoing -/

/-- Undoing a transaction: erase its outputs, then put `undo.vprevout[i]` back at
`vin[i].prevout` for every `i`. -/
def undoTx (tx : CTransaction) (undo : CTxUndo) (v : CCoinsViewCache) : CCoinsViewCache :=
  let erased : CCoinsViewCache := { v with AccessCoin := fun o =>
    if o.hash = tx.hash ∧ o.n < tx.vout.length then none else v.AccessCoin o }
  (tx.vin.zip undo.vprevout).foldl (fun w p => w.setCoin p.1.prevout p.2) erased

/-- Applying transactions in order at height `nHeight`, each with a fresh undo record. -/
def connectTxs (nHeight : Int) :
    List CTransaction → CCoinsViewCache → Option (CCoinsViewCache × List CTxUndo)
  | [], v => some (v, [])
  | tx :: rest, v => (UpdateCoins IsUnspendable tx v ⟨[]⟩ nHeight).bind fun r =>
      (connectTxs nHeight rest r.1).map fun r' => (r'.1, r.2 :: r'.2)

/-- Undoing transactions with their records in reverse order, the last one first. -/
def disconnectTxs : List CTransaction → List CTxUndo → CCoinsViewCache → CCoinsViewCache
  | tx :: rest, u :: us, v => undoTx tx u (disconnectTxs rest us v)
  | _, _, v => v

/-- A transaction spends distinct unspent coins, unless it is a coinbase, and none of its
outputs is in the view yet. -/
def SpendsCleanly (tx : CTransaction) (v : CCoinsViewCache) : Prop :=
  (tx.IsCoinBase = false → tx.prevouts.Nodup ∧ ∀ txin ∈ tx.vin, (v.AccessCoin txin.prevout).isSome) ∧
    ∀ n < tx.vout.length, v.AccessCoin ⟨tx.hash, n⟩ = none

/-- Every transaction of a run spends cleanly at its turn. -/
def CleanRun (nHeight : Int) : List CTransaction → CCoinsViewCache → Prop
  | [], _ => True
  | tx :: rest, v => SpendsCleanly tx v ∧
      ∀ r, UpdateCoins IsUnspendable tx v ⟨[]⟩ nHeight = some r → CleanRun nHeight rest r.1

/-- Each record of a run holds, in input order, the coin each input of its transaction
consumed at its turn; a coinbase's record is empty. -/
def RecordsSpent (nHeight : Int) : List CTransaction → CCoinsViewCache → List CTxUndo → Prop
  | [], _, [] => True
  | tx :: rest, v, u :: us =>
      u.vprevout = (if tx.IsCoinBase then [] else tx.vin.map fun txin => v.AccessCoin txin.prevout) ∧
      ∀ r, UpdateCoins IsUnspendable tx v ⟨[]⟩ nHeight = some r → RecordsSpent nHeight rest r.1 us
  | _, _, _ => False

end Update

/-! ### What one call does -/

section Spec

variable {IsUnspendable : List UInt8 → Bool}

namespace CCoinsViewCache

theorem addCoin_cases {v v' : CCoinsViewCache} {o : COutPoint} {c : Coin} {ow : Bool}
    (h : v.AddCoin IsUnspendable o c ow = some v') : v' = v ∨ v' = v.setCoin o (some c) := by
  unfold AddCoin at h
  split_ifs at h <;> cases h
  · exact .inl rfl
  · exact .inr rfl

end CCoinsViewCache

/-- With pairwise distinct outpoints, spending records each input's coin in input order, and
leaves exactly those outpoints spent. -/
theorem spendInputs_eq : ∀ {l : List CTxIn} (v : CCoinsViewCache), (l.map CTxIn.prevout).Nodup →
    (spendInputs l v).1 = l.map (fun txin => v.AccessCoin txin.prevout) ∧
    (∀ o, (spendInputs l v).2.AccessCoin o =
      if o ∈ l.map CTxIn.prevout then none else v.AccessCoin o) ∧
    (spendInputs l v).2.hashBestBlock = v.hashBestBlock
  | [], v, _ => by simp [spendInputs]
  | txin :: rest, v, hnd => by
    rw [List.map_cons, List.nodup_cons] at hnd
    obtain ⟨h₁, h₂, h₃⟩ := spendInputs_eq (v.setCoin txin.prevout none) hnd.2
    refine ⟨?_, fun o => ?_, by simp [spendInputs, CCoinsViewCache.SpendCoin, h₃]⟩
    · simp only [spendInputs, CCoinsViewCache.SpendCoin, h₁, List.map_cons, List.cons.injEq,
        true_and]
      refine List.map_congr_left fun t ht => ?_
      have : t.prevout ≠ txin.prevout := fun he => hnd.1 (he ▸ List.mem_map_of_mem _ ht)
      simp [this]
    · simp only [spendInputs, CCoinsViewCache.SpendCoin, h₂, List.map_cons, List.mem_cons,
        CCoinsViewCache.accessCoin_setCoin]
      by_cases hr : o ∈ rest.map CTxIn.prevout <;> by_cases ho : o = txin.prevout <;> simp [hr, ho]

/-- Adding outputs from `i` on changes the view only at the transaction's outpoints from `i`
on. -/
theorem addCoinsFrom_frame {tx : CTransaction} {nHeight : Int} :
    ∀ {i : Nat} {outs : List CTxOut} {cache cache' : CCoinsViewCache},
      addCoinsFrom IsUnspendable tx nHeight i outs cache = some cache' →
      cache'.hashBestBlock = cache.hashBestBlock ∧
      ∀ o, ¬(o.hash = tx.hash ∧ i ≤ o.n ∧ o.n < i + outs.length) →
        cache'.AccessCoin o = cache.AccessCoin o
  | _, [], _, _, h => by cases h; exact ⟨rfl, fun _ _ => rfl⟩
  | i, out :: rest, cache, cache', h => by
    obtain ⟨c₁, h₁, h₂⟩ := Option.bind_eq_some.mp h
    obtain ⟨hb, hf⟩ := addCoinsFrom_frame h₂
    have hc₁ := CCoinsViewCache.addCoin_cases h₁
    refine ⟨by rcases hc₁ with rfl | rfl <;> simp [hb], fun o ho => ?_⟩
    rw [hf o (by simp only [List.length_cons] at ho ⊢; omega)]
    rcases hc₁ with rfl | rfl
    · rfl
    · have : o ≠ ⟨tx.hash, i⟩ := by rintro rfl; simp at ho
      simp [this]

/-- Adding outputs that are not in the view yet succeeds; a coinbase may overwrite. -/
theorem addCoinsFrom_isSome {tx : CTransaction} {nHeight : Int} :
    ∀ {i : Nat} {outs : List CTxOut} {cache : CCoinsViewCache},
      (tx.IsCoinBase = false → ∀ n, i ≤ n → n < i + outs.length →
        cache.AccessCoin ⟨tx.hash, n⟩ = none) →
      (addCoinsFrom IsUnspendable tx nHeight i outs cache).isSome
  | _, [], _, _ => rfl
  | i, out :: rest, cache, h => by
    have hnext : ∀ c₁ : CCoinsViewCache,
        cache.AddCoin IsUnspendable ⟨tx.hash, i⟩ ⟨out, nHeight, tx.IsCoinBase⟩ tx.IsCoinBase =
          some c₁ → (addCoinsFrom IsUnspendable tx nHeight (i + 1) rest c₁).isSome := by
      intro c₁ h₁
      refine addCoinsFrom_isSome fun hcb n hn hn' => ?_
      have hne : (⟨tx.hash, n⟩ : COutPoint) ≠ ⟨tx.hash, i⟩ := by simp; omega
      rcases CCoinsViewCache.addCoin_cases h₁ with rfl | rfl
      · exact h hcb n (by omega) (by simp; omega)
      · simp only [CCoinsViewCache.accessCoin_setCoin, hne, if_false]
        exact h hcb n (by omega) (by simp; omega)
    simp only [addCoinsFrom]
    cases h₁ : cache.AddCoin IsUnspendable ⟨tx.hash, i⟩ ⟨out, nHeight, tx.IsCoinBase⟩ tx.IsCoinBase with
    | some c₁ => exact hnext c₁ h₁
    | none =>
      exfalso
      simp only [CCoinsViewCache.AddCoin] at h₁
      split_ifs at h₁ with hu hs
      cases hcb : tx.IsCoinBase
      · simp [h hcb i le_rfl (by simp), hcb] at hs
      · simp [hcb] at hs

/-- Putting coins read from `f` back at the inputs' outpoints, in any order, leaves `f`'s
coin at each of them. -/
theorem accessCoin_restore (f : COutPoint → Option Coin) :
    ∀ (l : List CTxIn) (w : CCoinsViewCache) (o : COutPoint),
      ((l.zip (l.map fun txin => f txin.prevout)).foldl
        (fun w p => w.setCoin p.1.prevout p.2) w).AccessCoin o =
        if o ∈ l.map CTxIn.prevout then f o else w.AccessCoin o
  | [], _, _ => by simp
  | txin :: rest, w, o => by
    simp only [List.map_cons, List.zip_cons_cons, List.foldl_cons, accessCoin_restore f rest,
      CCoinsViewCache.accessCoin_setCoin, List.mem_cons]
    by_cases hr : o ∈ rest.map CTxIn.prevout <;> by_cases ho : o = txin.prevout <;>
      simp [hr, ho]

theorem hashBestBlock_restore :
    ∀ (l : List (CTxIn × Option Coin)) (w : CCoinsViewCache),
      (l.foldl (fun w p => w.setCoin p.1.prevout p.2) w).hashBestBlock = w.hashBestBlock
  | [], _ => rfl
  | _ :: rest, _ => hashBestBlock_restore rest _

/-- **Undoing a transaction right after applying it gives back the view.**  A transaction
that spends cleanly is applied, its record holds the coins its inputs consumed, and
`undoTx` with that record restores the view. -/
theorem undoTx_updateCoins {tx : CTransaction} {v : CCoinsViewCache} (nHeight : Int)
    (h : SpendsCleanly tx v) :
    ∃ v' u, UpdateCoins IsUnspendable tx v ⟨[]⟩ nHeight = some (v', u) ∧
      u.vprevout = (if tx.IsCoinBase then [] else tx.vin.map fun txin => v.AccessCoin txin.prevout) ∧
      undoTx tx u v' = v := by
  obtain ⟨hin, hout⟩ := h
  -- the view after the inputs are spent, and the record
  obtain ⟨rec, v₁, hs, hrec, hv₁, hb₁⟩ : ∃ rec v₁,
      (if tx.IsCoinBase then ([], v) else spendInputs tx.vin v) = (rec, v₁) ∧
      rec = (if tx.IsCoinBase then [] else tx.vin.map fun txin => v.AccessCoin txin.prevout) ∧
      (∀ o, v₁.AccessCoin o =
        if tx.IsCoinBase = false ∧ o ∈ tx.prevouts then none else v.AccessCoin o) ∧
      v₁.hashBestBlock = v.hashBestBlock := by
    cases hcb : tx.IsCoinBase
    · obtain ⟨h₁, h₂, h₃⟩ := spendInputs_eq v (hin hcb).1
      exact ⟨_, _, rfl, by simpa using h₁, fun o => by simpa [CTransaction.prevouts] using h₂ o, h₃⟩
    · exact ⟨_, _, rfl, rfl, fun o => by simp, rfl⟩
  -- the outputs are added
  have hadd : (addCoinsFrom IsUnspendable tx nHeight 0 tx.vout v₁).isSome :=
    addCoinsFrom_isSome fun _ n _ hn => by
      rw [hv₁]
      split_ifs
      · rfl
      · exact hout n (by simpa using hn)
  obtain ⟨v', hv'⟩ := Option.isSome_iff_exists.mp hadd
  obtain ⟨hb', hf'⟩ := addCoinsFrom_frame hv'
  refine ⟨v', ⟨[] ++ rec⟩, by simp [UpdateCoins, hs, AddCoins, hv'], by simpa using hrec, ?_⟩
  refine CCoinsViewCache.ext_accessCoin (fun o => ?_)
    (by simp [undoTx, hashBestBlock_restore, hb', hb₁])
  -- erasing the outputs gives back the view after the spends
  have herased : ∀ o, (if o.hash = tx.hash ∧ o.n < tx.vout.length then none else v'.AccessCoin o) =
      v₁.AccessCoin o := by
    rintro ⟨hash, n⟩
    split_ifs with ho
    · obtain ⟨rfl, hn⟩ := ho
      rw [hv₁]
      split_ifs <;> simp [hout n hn]
    · exact hf' ⟨hash, n⟩ (by simpa using ho)
  cases hcb : tx.IsCoinBase
  · -- the inputs' coins are put back
    simp only [undoTx, List.nil_append, hrec, hcb, Bool.false_eq_true, if_false]
    rw [accessCoin_restore v.AccessCoin]
    dsimp only
    rw [herased, hv₁]
    unfold CTransaction.prevouts
    split_ifs with h₁ h₂
    · rfl
    · exact absurd h₂.2 h₁
    · rfl
  · simp [undoTx, hrec, hcb, herased, hv₁]

end Spec

/-! ### Runs -/

instance (tx : CTransaction) (v : CCoinsViewCache) : Decidable (SpendsCleanly tx v) :=
  inferInstanceAs (Decidable ((_ → _ ∧ ∀ txin ∈ tx.vin, _) ∧ ∀ n < tx.vout.length, _))

/-- **Connecting then disconnecting restores the view.**  Over every starting view and every
sequence of transactions that spend cleanly at their turns, the calls all succeed, each
record holds the coins its transaction consumed, in input order, and undoing the
transactions in reverse order gives back exactly the starting view. -/
theorem connectTxs_round_trip (IsUnspendable : List UInt8 → Bool) (nHeight : Int) :
    ∀ (txs : List CTransaction) (V : CCoinsViewCache), CleanRun IsUnspendable nHeight txs V →
      ∃ V' undos, connectTxs IsUnspendable nHeight txs V = some (V', undos) ∧
        RecordsSpent IsUnspendable nHeight txs V undos ∧ disconnectTxs txs undos V' = V
  | [], V, _ => ⟨V, [], rfl, trivial, rfl⟩
  | tx :: rest, V, ⟨hclean, hrest⟩ => by
    obtain ⟨v₁, u, hu, hrec, hundo⟩ := undoTx_updateCoins nHeight hclean
    obtain ⟨V', us, hc, hrs, hd⟩ := connectTxs_round_trip IsUnspendable nHeight rest v₁ (hrest _ hu)
    refine ⟨V', u :: us, by simp [connectTxs, hu, hc], ⟨hrec, fun r hr => ?_⟩, by
      simp [disconnectTxs, hd, hundo]⟩
    rw [hu] at hr
    cases hr
    exact hrs

/-- A coin of 50 at `(10, 0)`; a block of a coinbase, a transaction spending that coin into two
outputs, and a transaction spending the second of them within the block. -/
theorem connectTxs_round_trip_in_block_spend :
    let V : CCoinsViewCache :=
      ⟨fun o => if o = ⟨10, 0⟩ then some ⟨⟨50, []⟩, 1, false⟩ else none, 7⟩
    let txs : List CTransaction :=
      [⟨20, 1, 0, [⟨⟨0, 0xffffffff⟩, [], 0⟩], [⟨25, []⟩], 0, 0, false⟩,
        ⟨21, 1, 0, [⟨⟨10, 0⟩, [], 0⟩], [⟨30, []⟩, ⟨20, []⟩], 0, 0, false⟩,
        ⟨22, 1, 0, [⟨⟨21, 1⟩, [], 0⟩], [⟨20, []⟩], 0, 0, false⟩]
    CleanRun (fun _ => false) 5 txs V ∧
      ∃ V' undos, connectTxs (fun _ => false) 5 txs V = some (V', undos) ∧
        RecordsSpent (fun _ => false) 5 txs V undos ∧ disconnectTxs txs undos V' = V := by
  intro V txs
  have hrun : CleanRun (fun _ => false) 5 txs V := by
    refine ⟨by decide, fun r hr => ?_⟩
    cases hr
    refine ⟨by decide, fun r hr => ?_⟩
    cases hr
    refine ⟨by decide, fun r hr => trivial⟩
  exact ⟨hrun, connectTxs_round_trip _ 5 txs V hrun⟩

end Ecc
