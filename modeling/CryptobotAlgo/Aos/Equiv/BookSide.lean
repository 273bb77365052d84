import CryptobotAlgo.Aos.Equiv.MemPool
import CryptobotAlgo.Aos.OrderBook
import Mathlib.Order.RelClasses

/-!
# One side of the order book keeps a map from prices to quantities

`BookSide.Represents` is the representation invariant of one side: the hash map and the tree hold
the same live levels, the tree is strictly sorted, the pool holds nothing else, and the map from
prices to quantities that they stand for is `ref`, with `0` for a price that is absent.

`addLevel_spec`, `removeLevel_spec` and `clear_spec` say that each operation succeeds and what it
does to `ref`; the first two are cases of an update at one price (`Represents.set`).
-/

namespace CryptobotAlgo.Aos

open Common MemoryPoolThreadSafety

variable {Price Qty : Type}

namespace BookSide

/-! ### The tree -/

section Tree

variable {less : Price → Price → Prop} {objects objects' : Ptr → Option (OrderBookLevel Price Qty)}

/-- The level in block `a` is ordered before the level in block `b`. -/
def Precedes (less : Price → Price → Prop) (objects : Ptr → Option (OrderBookLevel Price Qty))
    (a b : Ptr) : Prop :=
  ∃ la lb, objects a = some la ∧ objects b = some lb ∧ less la.price lb.price

/-- The order of two levels depends on their prices only. -/
theorem Precedes.congr {a b : Ptr}
    (ha : ∀ l, objects a = some l → ∃ l', objects' a = some l' ∧ l'.price = l.price)
    (hb : ∀ l, objects b = some l → ∃ l', objects' b = some l' ∧ l'.price = l.price)
    (h : Precedes less objects a b) : Precedes less objects' a b := by
  obtain ⟨la, lb, hla, hlb, hless⟩ := h
  obtain ⟨la', hla', hpa⟩ := ha la hla
  obtain ⟨lb', hlb', hpb⟩ := hb lb hlb
  exact ⟨la', lb', hla', hlb', by rw [hpa, hpb]; exact hless⟩

theorem Precedes.trans [IsStrictTotalOrder Price less] {a b c : Ptr}
    (hab : Precedes less objects a b) (hbc : Precedes less objects b c) :
    Precedes less objects a c := by
  obtain ⟨la, lb, hla, hlb, hless⟩ := hab
  obtain ⟨lb', lc, hlb', hlc, hless'⟩ := hbc
  obtain rfl := Option.some.inj (hlb.symm.trans hlb')
  exact ⟨la, lc, hla, hlc, trans_of less hless hless'⟩

theorem Precedes.irrefl [IsStrictTotalOrder Price less] (a : Ptr) :
    ¬ Precedes less objects a a := by
  rintro ⟨la, lb, hla, hlb, hless⟩
  obtain rfl := Option.some.inj (hla.symm.trans hlb)
  exact irrefl_of less _ hless

variable [DecidableRel less] [IsStrictTotalOrder Price less]

/-- A level with a new price is inserted at its place. -/
theorem insertUnique_spec {price : Price} {ptr : Ptr} {qs : List Ptr}
    (hptr : ∃ l, objects ptr = some l ∧ l.price = price)
    (hlive : ∀ q ∈ qs, ∃ l, objects q = some l ∧ l.price ≠ price)
    (hsorted : qs.Pairwise (Precedes less objects)) :
    ∃ qs', insertUnique less objects price ptr qs = some qs' ∧
      (∀ x, x ∈ qs' ↔ x = ptr ∨ x ∈ qs) ∧ qs'.Pairwise (Precedes less objects) := by
  obtain ⟨lptr, hlptr, hprice⟩ := hptr
  induction qs with
  | nil => exact ⟨[ptr], rfl, by simp, List.pairwise_singleton _ _⟩
  | cons q qs ih =>
    obtain ⟨hq, hqs⟩ := List.pairwise_cons.mp hsorted
    obtain ⟨level, hlevel, hne⟩ := hlive q (List.mem_cons_self ..)
    have hcases := trichotomous_of less price level.price
    rcases hcases with hless | heq | hless
    · -- the new level goes to the front
      refine ⟨ptr :: q :: qs, ?_, by simp, List.pairwise_cons.mpr ⟨?_, hsorted⟩⟩
      · simp [insertUnique, hlevel, hless]
      · have hfirst : Precedes less objects ptr q := ⟨lptr, level, hlptr, hlevel, hprice ▸ hless⟩
        intro x hx
        rcases List.mem_cons.mp hx with rfl | hx
        · exact hfirst
        · exact hfirst.trans (hq x hx)
    · exact absurd heq.symm hne
    · -- the new level goes somewhere behind `q`
      obtain ⟨qs', hqs', hmem, hsorted'⟩ :=
        ih (fun x hx => hlive x (List.mem_cons_of_mem _ hx)) hqs
      have hnot : ¬ less price level.price := asymm hless
      refine ⟨q :: qs', ?_, ?_, List.pairwise_cons.mpr ⟨?_, hsorted'⟩⟩
      · simp [insertUnique, hlevel, hless, hnot, hqs']
      · intro x
        rw [List.mem_cons, hmem, List.mem_cons]
        tauto
      · intro x hx
        rcases (hmem x).mp hx with rfl | hx
        · exact ⟨level, lptr, hlevel, hlptr, hprice ▸ hless⟩
        · exact hq x hx

/-- Exactly the levels with the price leave the tree. -/
theorem eraseEquivalent_spec (less : Price → Price → Prop) [DecidableRel less]
    [IsStrictTotalOrder Price less] (price : Price) {qs : List Ptr}
    (hlive : ∀ q ∈ qs, ∃ l, objects q = some l) :
    ∃ qs', eraseEquivalent less objects price qs = some qs' ∧ qs'.Sublist qs ∧
      ∀ x, x ∈ qs' ↔ x ∈ qs ∧ ∀ l, objects x = some l → l.price ≠ price := by
  induction qs with
  | nil => exact ⟨[], rfl, List.Sublist.slnil, by simp⟩
  | cons q qs ih =>
    obtain ⟨level, hlevel⟩ := hlive q (List.mem_cons_self ..)
    obtain ⟨qs', hqs', hsub, hmem⟩ := ih fun x hx => hlive x (List.mem_cons_of_mem _ hx)
    have hother : (less level.price price ∨ less price level.price) ↔ level.price ≠ price := by
      constructor
      · rintro (h | h) rfl <;> exact irrefl_of less _ h
      · intro hne
        rcases trichotomous_of less level.price price with h | h | h
        · exact .inl h
        · exact absurd h hne
        · exact .inr h
    by_cases hprice : level.price = price
    · -- `q` leaves the tree
      have hsame : ¬ (less level.price price ∨ less price level.price) := fun h =>
        hother.mp h hprice
      refine ⟨qs', ?_, hsub.cons _, ?_⟩
      · simp [eraseEquivalent, hlevel, hqs', hsame]
      · intro x
        rw [hmem, List.mem_cons]
        constructor
        · exact fun ⟨hx, hl⟩ => ⟨.inr hx, hl⟩
        · rintro ⟨rfl | hx, hl⟩
          · exact absurd hprice (hl level hlevel)
          · exact ⟨hx, hl⟩
    · refine ⟨q :: qs', ?_, hsub.cons_cons _, ?_⟩
      · simp [eraseEquivalent, hlevel, hqs', hother, hprice]
      · intro x
        rw [List.mem_cons, hmem, List.mem_cons]
        constructor
        · rintro (rfl | ⟨hx, hl⟩)
          · refine ⟨.inl rfl, fun l hl => ?_⟩
            obtain rfl := Option.some.inj (hlevel.symm.trans hl)
            exact hprice
          · exact ⟨.inr hx, hl⟩
        · rintro ⟨rfl | hx, hl⟩
          · exact .inl rfl
          · exact .inr ⟨hx, hl⟩

end Tree

/-! ### The representation -/

variable {less : Price → Price → Prop} {s : BookSide Price Qty} {ref : Price → Qty} [Zero Qty]

/-- The side `s` stands for the map `ref` from prices to quantities. -/
structure Represents (less : Price → Price → Prop) (s : BookSide Price Qty) (ref : Price → Qty) :
    Prop where
  pool : s.pool.WellFormed
  /-- an entry of the hash map points to a live level with its price and the right quantity -/
  mapped : ∀ p ptr, s.priceToLevel p = some ptr → s.pool.objects ptr = some ⟨p, ref p⟩ ∧ ref p ≠ 0
  unmapped : ∀ p, s.priceToLevel p = none → ref p = 0
  /-- the tree holds the levels of the hash map -/
  tree : ∀ ptr, ptr ∈ s.levels ↔ ∃ p, s.priceToLevel p = some ptr
  /-- the levels are in strict order, so that each price occurs once -/
  sorted : s.levels.Pairwise (Precedes less s.pool.objects)
  /-- no level lives outside the tree -/
  owned : ∀ ptr l, s.pool.objects ptr = some l → ptr ∈ s.levels

theorem Represents.live (h : Represents less s ref) {ptr : Ptr} (hptr : ptr ∈ s.levels) :
    ∃ p, s.priceToLevel p = some ptr ∧ s.pool.objects ptr = some ⟨p, ref p⟩ ∧ ref p ≠ 0 := by
  obtain ⟨p, hp⟩ := (h.tree ptr).mp hptr
  exact ⟨p, hp, h.mapped p ptr hp⟩

/-- Two prices do not share a level. -/
theorem Represents.price_eq (h : Represents less s ref) {p q : Price} {ptr : Ptr}
    (hp : s.priceToLevel p = some ptr) (hq : s.priceToLevel q = some ptr) : p = q := by
  have heq := (h.mapped p ptr hp).1.symm.trans (h.mapped q ptr hq).1
  exact congrArg OrderBookLevel.price (Option.some.inj heq)

theorem Represents.mapped_iff (h : Represents less s ref) (p : Price) :
    (∃ ptr, s.priceToLevel p = some ptr) ↔ ref p ≠ 0 := by
  constructor
  · rintro ⟨ptr, hptr⟩
    exact (h.mapped p ptr hptr).2
  · intro hp
    cases hmap : s.priceToLevel p with
    | none => exact absurd (h.unmapped p hmap) hp
    | some ptr => exact ⟨ptr, rfl⟩

theorem Represents.nodup [IsStrictTotalOrder Price less] (h : Represents less s ref) :
    s.levels.Nodup := by
  refine h.sorted.imp ?_
  rintro a b hab rfl
  exact Precedes.irrefl a hab

/-- A side stands for one map only. -/
theorem Represents.unique {ref' : Price → Qty} (h : Represents less s ref)
    (h' : Represents less s ref') : ref = ref' := by
  ext p
  cases hmap : s.priceToLevel p with
  | none => rw [h.unmapped p hmap, h'.unmapped p hmap]
  | some ptr =>
    have heq := (h.mapped p ptr hmap).1.symm.trans (h'.mapped p ptr hmap).1
    exact congrArg OrderBookLevel.qty (Option.some.inj heq)

theorem represents_new (less : Price → Price → Prop) {maxLevel : ℕ} (h : 1 ≤ maxLevel) :
    Represents less ({ pool := { poolSize := maxLevel } } : BookSide Price Qty) (fun _ => 0) :=
  ⟨wellFormed_init h, fun p ptr hp => (by cases hp), fun _ _ => rfl, by simp, List.Pairwise.nil,
    fun ptr l hl => (by cases hl)⟩

/-! ### The best level -/

/-- The first level of the tree is before every other price that is present. -/
theorem Represents.head (h : Represents less s ref) {ptr : Ptr} (hptr : s.levels.head? = some ptr) :
    ∃ p, s.pool.objects ptr = some ⟨p, ref p⟩ ∧ ref p ≠ 0 ∧ ∀ q, ref q ≠ 0 → p = q ∨ less p q := by
  obtain ⟨rest, hrest⟩ := List.head?_eq_some_iff.mp hptr
  have hfirst : ptr ∈ s.levels := by rw [hrest]; exact List.mem_cons_self ..
  obtain ⟨p, -, hlive, hp⟩ := h.live hfirst
  refine ⟨p, hlive, hp, fun q hq => ?_⟩
  -- the level of `q` is the first one or behind it
  obtain ⟨x, hx⟩ := (h.mapped_iff q).mpr hq
  obtain ⟨hxlive, -⟩ := h.mapped q x hx
  have hmem := (h.tree x).mpr ⟨q, hx⟩
  have hsorted := h.sorted
  rw [hrest] at hmem hsorted
  rcases List.mem_cons.mp hmem with rfl | hmem
  · exact .inl (congrArg OrderBookLevel.price (Option.some.inj (hlive.symm.trans hxlive)))
  · obtain ⟨la, lb, hla, hlb, hless⟩ := (List.pairwise_cons.mp hsorted).1 x hmem
    obtain rfl := Option.some.inj (hlive.symm.trans hla)
    obtain rfl := Option.some.inj (hxlive.symm.trans hlb)
    exact .inr hless

theorem Represents.levels_eq_nil_iff (h : Represents less s ref) :
    s.levels = [] ↔ ∀ p, ref p = 0 := by
  constructor
  · intro hnil p
    by_contra hp
    obtain ⟨x, hx⟩ := (h.mapped_iff p).mpr hp
    have hmem := (h.tree x).mpr ⟨p, hx⟩
    rw [hnil] at hmem
    exact List.not_mem_nil hmem
  · intro hzero
    by_contra hne
    obtain ⟨x, hx⟩ := List.exists_mem_of_ne_nil _ hne
    obtain ⟨p, -, -, hp⟩ := h.live hx
    exact hp (hzero p)

/-- The reader of the best level: on an empty side nothing changes, else it gets what the first
level holds, and is told if that is new. -/
theorem updateTop_spec {A : Type} [DecidableEq A] (h : Represents less s ref)
    (read : OrderBookLevel Price Qty → A) (old : A) :
    ∃ new, s.updateTop read old = some (decide (old ≠ new), new) ∧
      ((∃ p, ref p ≠ 0) → ∃ p, ref p ≠ 0 ∧ (∀ q, ref q ≠ 0 → p = q ∨ less p q) ∧
        new = read ⟨p, ref p⟩) := by
  unfold updateTop
  cases hhead : s.levels.head? with
  | none =>
    have hzero : ∀ p, ref p = 0 := h.levels_eq_nil_iff.mp (List.head?_eq_none_iff.mp hhead)
    refine ⟨old, by simp, ?_⟩
    rintro ⟨p, hp⟩
    exact absurd (hzero p) hp
  | some ptr =>
    obtain ⟨p, hlive, hp, hbest⟩ := h.head hhead
    refine ⟨read ⟨p, ref p⟩, ?_, fun _ => ⟨p, hp, hbest, rfl⟩⟩
    by_cases hsame : old = read ⟨p, ref p⟩
    · simp [hlive, ← hsame]
    · simp [hlive, hsame]

/-! ### The operations -/

section Operations

variable [DecidableEq Price] [DecidableRel less]

omit [DecidableRel less] in
/-- An operation on one price: the hash map changes there, its old block dies unless it is kept,
and the tree follows. -/
theorem Represents.set (h : Represents less s ref) {price : Price} {qty : Qty} {entry : Option Ptr}
    {levels : List Ptr} {pool : MemoryPoolThreadSafety (OrderBookLevel Price Qty)}
    (hpool : pool.WellFormed)
    (hnone : entry = none → qty = 0)
    (hsome : ∀ x, entry = some x → pool.objects x = some ⟨price, qty⟩ ∧ qty ≠ 0)
    (hfresh : ∀ x, entry = some x → s.priceToLevel price = some x ∨ s.pool.objects x = none)
    (hfreed : ∀ x, s.priceToLevel price = some x → entry ≠ some x → pool.objects x = none)
    (hother : ∀ x, s.priceToLevel price ≠ some x → entry ≠ some x →
      pool.objects x = s.pool.objects x)
    (htree : ∀ x, x ∈ levels ↔ entry = some x ∨ x ∈ s.levels ∧ s.priceToLevel price ≠ some x)
    (hsorted : levels.Pairwise (Precedes less pool.objects)) :
    Represents less { priceToLevel := Function.update s.priceToLevel price entry, levels, pool }
      (Function.update ref price qty) := by
  -- a block of another price is neither the old nor the new block of `price`
  have hforeign : ∀ {p x}, p ≠ price → s.priceToLevel p = some x →
      s.priceToLevel price ≠ some x := fun hp hx heq => hp (h.price_eq hx heq)
  refine ⟨hpool, ?_, ?_, ?_, hsorted, ?_⟩
  · -- an entry of another price keeps its level, which is neither reused nor destroyed
    intro p x hx
    dsimp only at hx ⊢
    by_cases hp : p = price
    · subst hp
      rw [Function.update_self] at hx ⊢
      exact hsome x hx
    · rw [Function.update_of_ne hp] at hx ⊢
      obtain ⟨hlive, hne⟩ := h.mapped p x hx
      refine ⟨?_, hne⟩
      by_cases hentry : entry = some x
      · rcases hfresh x hentry with hold | hdead
        · exact absurd hold (hforeign hp hx)
        · rw [hdead] at hlive
          cases hlive
      · rw [hother x (hforeign hp hx) hentry, hlive]
  · intro p hx
    dsimp only at hx
    by_cases hp : p = price
    · subst hp
      rw [Function.update_self] at hx ⊢
      exact hnone hx
    · rw [Function.update_of_ne hp] at hx ⊢
      exact h.unmapped p hx
  · -- the tree lost the old block of `price` and gained the new one, as the hash map did
    intro x
    dsimp only
    rw [htree, h.tree]
    constructor
    · rintro (hentry | ⟨⟨p, hx⟩, hne⟩)
      · exact ⟨price, by rw [Function.update_self, hentry]⟩
      · have hp : p ≠ price := fun heq => hne (heq ▸ hx)
        exact ⟨p, by rw [Function.update_of_ne hp, hx]⟩
    · rintro ⟨p, hx⟩
      by_cases hp : p = price
      · subst hp
        rw [Function.update_self] at hx
        exact .inl hx
      · rw [Function.update_of_ne hp] at hx
        exact .inr ⟨⟨p, hx⟩, hforeign hp hx⟩
  · -- a live level is the new one or lived before; the old one of `price` is destroyed
    intro x l hl
    dsimp only at hl ⊢
    rw [htree]
    by_cases hentry : entry = some x
    · exact .inl hentry
    · by_cases hold : s.priceToLevel price = some x
      · rw [hfreed x hold hentry] at hl
        cases hl
      · rw [hother x hold hentry] at hl
        exact .inr ⟨h.owned x l hl, hold⟩

/-- Updating a level in place. -/
theorem addLevel_of_mapped (h : Represents less s ref) {price : Price} {qty : Qty} (hq : qty ≠ 0)
    {ptr : Ptr} (hptr : s.priceToLevel price = some ptr) :
    ∃ s', s.addLevel less price qty = some s' ∧
      Represents less s' (Function.update ref price qty) := by
  have hlive := (h.mapped price ptr hptr).1
  obtain ⟨pool, hwrite, hpool, hobjects⟩ := write_spec h.pool hlive ⟨price, qty⟩
  -- no price changes, so the order of the tree stays
  have hprices : ∀ x l, s.pool.objects x = some l →
      ∃ l', pool.objects x = some l' ∧ l'.price = l.price := by
    intro x l hl
    rw [hobjects]
    by_cases hx : x = ptr
    · subst hx
      obtain rfl := Option.some.inj (hlive.symm.trans hl)
      exact ⟨_, Function.update_self .., rfl⟩
    · exact ⟨l, by rw [Function.update_of_ne hx, hl], rfl⟩
  refine ⟨{ s with pool }, by simp [addLevel, hptr, hwrite], ?_⟩
  have hsorted : s.levels.Pairwise (Precedes less pool.objects) :=
    h.sorted.imp fun hab => hab.congr (hprices _) (hprices _)
  have hsame : s.priceToLevel = Function.update s.priceToLevel price (some ptr) := by
    rw [← hptr, Function.update_eq_self]
  show Represents less { priceToLevel := s.priceToLevel, levels := s.levels, pool } _
  rw [hsame]
  refine h.set hpool ?_ ?_ ?_ ?_ ?_ ?_ hsorted
  · rintro ⟨⟩
  · rintro x ⟨⟩
    rw [hobjects, Function.update_self]
    exact ⟨rfl, hq⟩
  · rintro x ⟨⟩
    exact .inl hptr
  · intro x hold hne
    exact absurd (hptr.symm.trans hold) hne
  · intro x _ hne
    rw [hobjects, Function.update_of_ne fun heq => hne (by rw [heq])]
  · intro x
    rw [hptr]
    constructor
    · intro hx
      by_cases heq : some ptr = some x
      · exact .inl heq
      · exact .inr ⟨hx, heq⟩
    · rintro (heq | ⟨hx, -⟩)
      · obtain rfl := Option.some.inj heq
        exact (h.tree ptr).mpr ⟨price, hptr⟩
      · exact hx

variable [IsStrictTotalOrder Price less]

/-- Adding a new level. -/
theorem addLevel_of_unmapped (h : Represents less s ref) {price : Price} {qty : Qty} (hq : qty ≠ 0)
    (hnone : s.priceToLevel price = none) :
    ∃ s', s.addLevel less price qty = some s' ∧
      Represents less s' (Function.update ref price qty) := by
  obtain ⟨ptr, pool, halloc, hpool, hdead, hobjects⟩ := allocate_spec h.pool ⟨price, qty⟩
  have hnew : pool.objects ptr = some ⟨price, qty⟩ := by rw [hobjects, Function.update_self]
  -- nothing lived in the new block, so every old level is still there
  have hold : ∀ x l, s.pool.objects x = some l → pool.objects x = some l := by
    intro x l hl
    have hx : x ≠ ptr := by
      rintro rfl
      rw [hdead] at hl
      cases hl
    rw [hobjects, Function.update_of_ne hx, hl]
  have hne : ∀ x ∈ s.levels, ∃ l, pool.objects x = some l ∧ l.price ≠ price := by
    intro x hx
    obtain ⟨p, hp, hl, -⟩ := h.live hx
    refine ⟨_, hold x _ hl, ?_⟩
    rintro rfl
    rw [hnone] at hp
    cases hp
  have hsorted : s.levels.Pairwise (Precedes less pool.objects) :=
    h.sorted.imp fun hab => hab.congr (fun l hl => ⟨l, hold _ l hl, rfl⟩)
      fun l hl => ⟨l, hold _ l hl, rfl⟩
  obtain ⟨levels, hlevels, hmem, hsorted'⟩ := insertUnique_spec ⟨_, hnew, rfl⟩ hne hsorted
  refine ⟨{ priceToLevel := Function.update s.priceToLevel price (some ptr), levels, pool },
    by simp [addLevel, hnone, halloc, hlevels], h.set hpool ?_ ?_ ?_ ?_ ?_ ?_ hsorted'⟩
  · rintro ⟨⟩
  · rintro x ⟨⟩
    exact ⟨hnew, hq⟩
  · rintro x ⟨⟩
    exact .inr hdead
  · intro x hold
    rw [hnone] at hold
    cases hold
  · intro x _ hne
    rw [hobjects, Function.update_of_ne fun heq => hne (by rw [heq])]
  · intro x
    rw [hmem, hnone, Option.some_inj, eq_comm]
    simp

/-- `AddBidLevel` and `AddAskLevel` set the quantity of a price. -/
theorem addLevel_spec (h : Represents less s ref) (price : Price) {qty : Qty} (hq : qty ≠ 0) :
    ∃ s', s.addLevel less price qty = some s' ∧
      Represents less s' (Function.update ref price qty) := by
  cases hmap : s.priceToLevel price with
  | none => exact addLevel_of_unmapped h hq hmap
  | some ptr => exact addLevel_of_mapped h hq hmap

/-- `RemoveBidLevel` and `RemoveAskLevel` make a price absent. -/
theorem removeLevel_spec (h : Represents less s ref) (price : Price) :
    ∃ s', s.removeLevel less price = some s' ∧
      Represents less s' (Function.update ref price 0) := by
  cases hmap : s.priceToLevel price with
  | none =>
    refine ⟨s, by simp [removeLevel, hmap], ?_⟩
    rw [← h.unmapped price hmap, Function.update_eq_self]
    exact h
  | some ptr =>
    have hlive := (h.mapped price ptr hmap).1
    obtain ⟨pool, hdealloc, hpool, hobjects⟩ := deallocate_spec h.pool hlive
    have hreads : ∀ q ∈ s.levels, ∃ l, s.pool.objects q = some l := fun q hq =>
      let ⟨_, _, hl, _⟩ := h.live hq; ⟨_, hl⟩
    obtain ⟨levels, hlevels, hsub, hmem⟩ := eraseEquivalent_spec less price hreads
    -- the level of `price` is the one that leaves the tree
    have hmem' : ∀ x, x ∈ levels ↔ x ∈ s.levels ∧ ptr ≠ x := by
      intro x
      rw [hmem]
      refine and_congr_right fun hx => ?_
      obtain ⟨p, hp, hl, -⟩ := h.live hx
      constructor
      · rintro hall rfl
        exact hall _ hlive rfl
      · rintro hne l hl' rfl
        obtain rfl := Option.some.inj (hl.symm.trans hl')
        exact hne (Option.some.inj (hmap.symm.trans hp))
    have hold : ∀ x, ptr ≠ x → pool.objects x = s.pool.objects x := fun x hx => by
      rw [hobjects, Function.update_of_ne hx.symm]
    have hsorted : levels.Pairwise (Precedes less pool.objects) := by
      refine (h.sorted.sublist hsub).imp_of_mem fun {a b} ha hb hab => ?_
      have hane := ((hmem' a).mp ha).2
      have hbne := ((hmem' b).mp hb).2
      exact hab.congr (fun l hl => ⟨l, by rw [hold a hane, hl], rfl⟩)
        fun l hl => ⟨l, by rw [hold b hbne, hl], rfl⟩
    refine ⟨{ priceToLevel := Function.update s.priceToLevel price none, levels, pool },
      by simp [removeLevel, hmap, hlive, hlevels, hdealloc],
      h.set hpool (fun _ => rfl) ?_ ?_ ?_ ?_ ?_ hsorted⟩
    · rintro x ⟨⟩
    · rintro x ⟨⟩
    · intro x hx _
      obtain rfl := Option.some.inj (hmap.symm.trans hx)
      rw [hobjects, Function.update_self]
    · intro x hx _
      exact hold x fun heq => hx (by rw [hmap, heq])
    · intro x
      rw [hmem', hmap]
      simp

omit [DecidableEq Price] [DecidableRel less] [IsStrictTotalOrder Price less] [Zero Qty] in
/-- The loop of `Clear` destroys the levels and nothing else. -/
theorem freeLevels_spec {pool : MemoryPoolThreadSafety (OrderBookLevel Price Qty)}
    (hpool : pool.WellFormed) {levels : List Ptr} (hnodup : levels.Nodup)
    (hlive : ∀ ptr ∈ levels, ∃ l, pool.objects ptr = some l) :
    ∃ pool', freeLevels pool levels = some pool' ∧ pool'.WellFormed ∧
      ∀ ptr l, pool'.objects ptr = some l → ptr ∉ levels ∧ pool.objects ptr = some l := by
  induction levels generalizing pool with
  | nil => exact ⟨pool, rfl, hpool, fun ptr l hl => ⟨List.not_mem_nil, hl⟩⟩
  | cons node levels ih =>
    obtain ⟨hnot, hnodup⟩ := List.nodup_cons.mp hnodup
    obtain ⟨l, hl⟩ := hlive node (List.mem_cons_self ..)
    obtain ⟨pool₁, hdealloc, hpool₁, hobjects⟩ := deallocate_spec hpool hl
    -- the levels behind `node` are other blocks, so they still live
    have hlive₁ : ∀ ptr ∈ levels, ∃ l, pool₁.objects ptr = some l := by
      intro ptr hptr
      have hne : ptr ≠ node := fun heq => hnot (heq ▸ hptr)
      obtain ⟨l, hl⟩ := hlive ptr (List.mem_cons_of_mem _ hptr)
      exact ⟨l, by rw [hobjects, Function.update_of_ne hne, hl]⟩
    obtain ⟨pool', hfree, hpool', hobjects'⟩ := ih hpool₁ hnodup hlive₁
    refine ⟨pool', by simp [freeLevels, hdealloc, hfree], hpool', fun ptr l hl => ?_⟩
    obtain ⟨hptr, hl₁⟩ := hobjects' ptr l hl
    have hne : ptr ≠ node := by
      rintro rfl
      rw [hobjects, Function.update_self] at hl₁
      cases hl₁
    rw [hobjects, Function.update_of_ne hne] at hl₁
    exact ⟨List.mem_cons.not.mpr (not_or.mpr ⟨hne, hptr⟩), hl₁⟩

omit [DecidableEq Price] [DecidableRel less] in
/-- `Clear` makes every price absent. -/
theorem clear_spec (h : Represents less s ref) :
    ∃ s', s.clear = some s' ∧ Represents less s' (fun _ => 0) := by
  obtain ⟨pool, hfree, hpool, hobjects⟩ := freeLevels_spec h.pool h.nodup fun ptr hptr =>
    let ⟨_, _, hl, _⟩ := h.live hptr; ⟨_, hl⟩
  refine ⟨{ priceToLevel := fun _ => none, levels := [], pool }, by simp [clear, hfree], hpool,
    fun p ptr hp => (by cases hp), fun _ _ => rfl, by simp, List.Pairwise.nil, fun ptr l hl => ?_⟩
  obtain ⟨hnot, hl'⟩ := hobjects ptr l hl
  exact absurd (h.owned ptr l hl') hnot

end Operations

end BookSide

end CryptobotAlgo.Aos
