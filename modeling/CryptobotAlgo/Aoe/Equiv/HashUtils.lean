import CryptobotAlgo.Aoe.HashUtils
import CryptobotAlgo.WordFields
import Mathlib.Algebra.Group.Int.Defs
import Mathlib.Data.Int.Notation

/-!
# Keys and markets

A key is taken apart into what it was made of, and no two markets have the same key, on one exchange
or on two (`hashKey_components`).  The category of Bybit has more bits than its place: one with more
than eight bits is not found again, and may give the key of another category.
-/

namespace CryptobotAlgo.Aoe

open Aos

variable (exchangeId : UInt16) (net : UInt8) (pair : UInt32)

/-- A key as a number. -/
theorem toNat_hashKey {market : UInt64} (h : market.toNat < 2 ^ 8) :
    (hashKey exchangeId market net pair).toNat =
      exchangeId.toNat * 2 ^ 48 + (market.toNat * 2 ^ 40 + (net.toNat * 2 ^ 32 + pair.toNat)) := by
  have hexchange := exchangeId.toNat_lt
  have hnet := net.toNat_lt
  have hpair := pair.toNat_lt
  have hlow : (net.toUInt64 <<< 32 ||| pair.toUInt64).toNat = net.toNat * 2 ^ 32 + pair.toNat :=
    toNat_shiftLeft_or (by decide) (show net.toNat * 2 ^ 32 < _ by omega)
      (show pair.toNat < 2 ^ 32 by omega)
  have hmiddle : (market <<< 40 ||| (net.toUInt64 <<< 32 ||| pair.toUInt64)).toNat =
      market.toNat * 2 ^ 40 + (net.toNat * 2 ^ 32 + pair.toNat) := by
    rw [← hlow]
    exact toNat_shiftLeft_or (by decide) (show market.toNat * 2 ^ 40 < _ by omega)
      (show _ < 2 ^ 40 by omega)
  unfold hashKey
  rw [UInt64.or_assoc, UInt64.or_assoc, ← hmiddle]
  exact toNat_shiftLeft_or (by decide) (show exchangeId.toNat * 2 ^ 48 < _ by omega)
    (show _ < 2 ^ 48 by omega)

/-- The parts of a word, as numbers. -/
theorem toNat_decomposeHash (hash : UInt64) :
    (decomposeHash hash).exchangeId.toNat = hash.toNat / 2 ^ 48 % 2 ^ 8 ∧
      (decomposeHash hash).categoryMarket.toNat = hash.toNat / 2 ^ 40 % 2 ^ 8 ∧
      (decomposeHash hash).net.toNat = hash.toNat / 2 ^ 32 % 2 ^ 8 ∧
      (decomposeHash hash).tradingPair.toNat = hash.toNat % 2 ^ 32 := by
  have hpart : ∀ k : UInt64, k.toNat < 64 →
      ((hash >>> k) &&& 0xFF).toNat = hash.toNat / 2 ^ k.toNat % 2 ^ 8 :=
    fun k hk => toNat_shiftRight_and hk rfl
  have hpair : (hash &&& 0xFFFFFFFF).toNat = hash.toNat % 2 ^ 32 := by
    rw [UInt64.toNat_and]
    exact Nat.and_two_pow_sub_one_eq_mod hash.toNat 32
  refine ⟨?_, ?_, ?_, ?_⟩
  · show ((hash >>> 48) &&& 0xFF).toNat % 2 ^ 16 = _
    rw [hpart 48 (by decide), Nat.mod_eq_of_lt (by omega)]
    rfl
  · show ((hash >>> 40) &&& 0xFF).toNat % 2 ^ 8 = _
    rw [hpart 40 (by decide), Nat.mod_mod]
    rfl
  · show ((hash >>> 32) &&& 0xFF).toNat % 2 ^ 8 = _
    rw [hpart 32 (by decide), Nat.mod_mod]
    rfl
  · show (hash &&& 0xFFFFFFFF).toNat % 2 ^ 32 = _
    rw [hpair, Nat.mod_mod]

/-- A key is taken apart into what it was made of. -/
theorem decomposeHash_hashKey {market : UInt64} (hexchange : exchangeId.toNat < 2 ^ 8)
    (h : market.toNat < 2 ^ 8) :
    decomposeHash (hashKey exchangeId market net pair) =
      ⟨exchangeId, market.toUInt8, net, pair⟩ := by
  obtain ⟨hexchange', hcategory', hnet', hpair'⟩ :=
    toNat_decomposeHash (hashKey exchangeId market net pair)
  have hkey := toNat_hashKey exchangeId net pair h
  have hnet := net.toNat_lt
  have hpair := pair.toNat_lt
  cases hparts : decomposeHash (hashKey exchangeId market net pair) with
  | mk exchangeId' categoryMarket' net' tradingPair' =>
    rw [hparts] at hexchange' hcategory' hnet' hpair'
    rw [HashComponents.mk.injEq]
    refine ⟨UInt16.toNat_inj.mp (hexchange'.trans ?_), UInt8.toNat_inj.mp (hcategory'.trans ?_),
      UInt8.toNat_inj.mp (hnet'.trans ?_), UInt32.toNat_inj.mp (hpair'.trans ?_)⟩
    · omega
    · rw [UInt64.toNat_toUInt8]
      omega
    · omega
    · omega

/-- A category that fits into its place, as 64 bits. -/
theorem toNat_market {market : Int32} (h : 0 ≤ market.toInt) :
    (market.toInt64.toUInt64.toNat : ℤ) = market.toInt := by
  have hle : 0 ≤ market.toInt64 := by
    rw [Int64.le_iff_toInt_le, Int32.toInt_toInt64]
    exact h
  rw [Int64.toNat_toUInt64_of_le hle, Int32.toNatClampNeg_toInt64]
  exact Int.toNat_of_nonneg h

theorem decomposeHash_binance (market : UInt8) :
    decomposeHash (Binance.hashKey market net pair) =
      ⟨ExchangeId.value .kBinance, market, net, pair⟩ := by
  have hparts : decomposeHash (Binance.hashKey market net pair) =
      ⟨ExchangeId.value .kBinance, market.toUInt64.toUInt8, net, pair⟩ :=
    decomposeHash_hashKey (ExchangeId.value .kBinance) net pair (by decide)
      (show market.toUInt64.toNat < 2 ^ 8 from market.toNat_lt)
  rw [hparts, UInt8.toUInt8_toUInt64]

theorem decomposeHash_bybit {market : Int32} (hnonneg : 0 ≤ market.toInt)
    (hlt : market.toInt < 2 ^ 8) :
    decomposeHash (Bybit.hashKey market net pair) =
      ⟨ExchangeId.value .kBybit, market.toInt64.toUInt64.toUInt8, net, pair⟩ ∧
    (market.toInt64.toUInt64.toUInt8.toNat : ℤ) = market.toInt := by
  have hmarket := toNat_market hnonneg
  refine ⟨decomposeHash_hashKey (ExchangeId.value .kBybit) net pair (by decide) (by omega), ?_⟩
  rw [UInt64.toNat_toUInt8, Nat.mod_eq_of_lt (by omega)]
  exact hmarket

/-- A category that is not too large for its place is that of no other key of Bybit. -/
theorem bybit_hashKey_inj {market market' : Int32} {net net' : UInt8} {pair pair' : UInt32}
    (h : 0 ≤ market.toInt ∧ market.toInt < 2 ^ 8) (h' : 0 ≤ market'.toInt ∧ market'.toInt < 2 ^ 8)
    (hkey : Bybit.hashKey market net pair = Bybit.hashKey market' net' pair') :
    market = market' ∧ net = net' ∧ pair = pair' := by
  obtain ⟨hparts, hmarket⟩ := decomposeHash_bybit net pair h.1 h.2
  obtain ⟨hparts', hmarket'⟩ := decomposeHash_bybit net' pair' h'.1 h'.2
  have hsame := congrArg decomposeHash hkey
  rw [hparts, hparts', HashComponents.mk.injEq] at hsame
  obtain ⟨-, hcategory, hnet, hpair⟩ := hsame
  rw [hcategory, hmarket'] at hmarket
  exact ⟨Int32.toInt_inj.mp hmarket.symm, hnet, hpair⟩

/-- The id of Bybit is above the keys of Binance. -/
theorem binance_hashKey_ne_bybit (market : UInt8) (market' : Int32) (net' : UInt8)
    (pair' : UInt32) : Binance.hashKey market net pair ≠ Bybit.hashKey market' net' pair' := by
  have hmarket := market.toNat_lt
  have hnet := net.toNat_lt
  have hpair := pair.toNat_lt
  have hbinance : (Binance.hashKey market net pair).toNat =
      0 * 2 ^ 48 + (market.toNat * 2 ^ 40 + (net.toNat * 2 ^ 32 + pair.toNat)) :=
    toNat_hashKey (ExchangeId.value .kBinance) net pair
      (show market.toUInt64.toNat < 2 ^ 8 from market.toNat_lt)
  have hbybit : 2 ^ 48 ≤ (Bybit.hashKey market' net' pair').toNat := by
    unfold Bybit.hashKey hashKey
    rw [UInt64.or_assoc, UInt64.or_assoc, UInt64.toNat_or]
    exact Nat.left_le_or
  intro hkey
  rw [hkey] at hbinance
  omega

/-- **Keys of markets.**  A key of Binance is taken apart into what it was made of.  So is one of
Bybit if and only if the category has eight bits.  A word is the key of its own parts if and only
if its highest byte is zero.  No two markets of Binance have the same key, no two of Bybit whose
categories have eight bits, and none of Binance has the key of one of Bybit. -/
theorem hashKey_components :
    (∀ market net pair, decomposeHash (Binance.hashKey market net pair) =
      ⟨ExchangeId.value .kBinance, market, net, pair⟩) ∧
    (∀ market net pair,
      (decomposeHash (Bybit.hashKey market net pair)).exchangeId = ExchangeId.value .kBybit ∧
          ((decomposeHash (Bybit.hashKey market net pair)).categoryMarket.toNat : ℤ) =
            market.toInt ∧
          (decomposeHash (Bybit.hashKey market net pair)).net = net ∧
          (decomposeHash (Bybit.hashKey market net pair)).tradingPair = pair ↔
        0 ≤ market.toInt ∧ market.toInt < 2 ^ 8) ∧
    (∀ hash, hashKey (decomposeHash hash).exchangeId
        (decomposeHash hash).categoryMarket.toUInt64 (decomposeHash hash).net
        (decomposeHash hash).tradingPair = hash ↔ hash.toNat < 2 ^ 56) ∧
    (∀ market net pair market' net' pair',
      Binance.hashKey market net pair = Binance.hashKey market' net' pair' →
        market = market' ∧ net = net' ∧ pair = pair') ∧
    (∀ market net pair market' net' pair', 0 ≤ market.toInt ∧ market.toInt < 2 ^ 8 →
      0 ≤ market'.toInt ∧ market'.toInt < 2 ^ 8 →
      Bybit.hashKey market net pair = Bybit.hashKey market' net' pair' →
        market = market' ∧ net = net' ∧ pair = pair') ∧
    ∀ market net pair market' net' pair',
      Binance.hashKey market net pair ≠ Bybit.hashKey market' net' pair' := by
  refine ⟨fun market net pair => decomposeHash_binance net pair market, fun market net pair => ?_,
    fun hash => ?_, fun market net pair market' net' pair' hkey => ?_,
    fun _ _ _ _ _ _ => bybit_hashKey_inj,
    fun market net pair => binance_hashKey_ne_bybit net pair market⟩
  · constructor
    · rintro ⟨-, hcategory, -, -⟩
      have hbyte := (decomposeHash (Bybit.hashKey market net pair)).categoryMarket.toNat_lt
      omega
    · rintro ⟨hnonneg, hlt⟩
      obtain ⟨hparts, hmarket⟩ := decomposeHash_bybit net pair hnonneg hlt
      rw [hparts]
      exact ⟨rfl, hmarket, rfl, rfl⟩
  · obtain ⟨hexchange, hcategory, hnet, hpair⟩ := toNat_decomposeHash hash
    have hlt := hash.toNat_lt
    have hkey := toNat_hashKey (decomposeHash hash).exchangeId (decomposeHash hash).net
      (decomposeHash hash).tradingPair
      (show (decomposeHash hash).categoryMarket.toUInt64.toNat < 2 ^ 8 from
        (decomposeHash hash).categoryMarket.toNat_lt)
    rw [UInt8.toNat_toUInt64, hexchange, hcategory, hnet, hpair] at hkey
    rw [← UInt64.toNat_inj, hkey]
    omega
  · have hparts := congrArg decomposeHash hkey
    rw [decomposeHash_binance, decomposeHash_binance, HashComponents.mk.injEq] at hparts
    exact hparts.2

/-- Of `kBybit`, the category `256` sets the bit that the id sets. -/
example (net : UInt8) (pair : UInt32) : Bybit.hashKey 256 net pair = Bybit.hashKey 0 net pair := rfl

end CryptobotAlgo.Aoe
