import CryptobotAlgo.Aos.Trackers
import CryptobotAlgo.Aos.Types
import Mathlib.Algebra.BigOperators.Group.Multiset.Basic
import Mathlib.Data.Multiset.Count
import Mathlib.Order.Std

/-!
# The trackers follow a multiset

A tracker follows, for each asset, the multiset of the values that it holds: `OnAdd` adds a value to
it, and `OnRemove` of a value that is there takes one copy out.  The calls for one asset do not
touch another.

The multisets have less than `2 ^ 64` elements, so that the counts do not wrap.
-/

namespace CryptobotAlgo.Aos

variable {H T : Type} [DecidableEq H] [Field T] [LinearOrder T]

/-! ### The average -/

namespace AvgTrackerDefault

omit [LinearOrder T] [DecidableEq H] in
/-- The sum and the number of the values of an asset. -/
structure Tracks (t : AvgTrackerDefault H T) (asset : H) (values : Multiset T) : Prop where
  sum : (t.sums asset).getD 0 = values.sum
  count : (t.counts asset).getD 0 = UInt64.ofNat values.card

variable {t : AvgTrackerDefault H T} {asset : H} {values : Multiset T}

omit [LinearOrder T] in
theorem Tracks.onAdd (h : t.Tracks asset values) (value : T) :
    (t.onAdd asset value).Tracks asset (value ::ₘ values) where
  sum := by
    unfold AvgTrackerDefault.onAdd
    dsimp only
    rw [Function.update_self, Option.getD_some, h.sum, Multiset.sum_cons, add_comm]
  count := by
    unfold AvgTrackerDefault.onAdd
    dsimp only
    rw [Function.update_self, Option.getD_some, h.count, Multiset.card_cons, UInt64.ofNat_add]
    rfl

omit [LinearOrder T] in
theorem Tracks.onRemove {value : T} (h : t.Tracks asset (value ::ₘ values)) :
    (t.onRemove asset value).Tracks asset values where
  sum := by
    unfold AvgTrackerDefault.onRemove
    dsimp only
    rw [Function.update_self, Option.getD_some, h.sum, Multiset.sum_cons, add_sub_cancel_left]
  count := by
    unfold AvgTrackerDefault.onRemove
    dsimp only
    rw [Function.update_self, Option.getD_some, h.count, Multiset.card_cons, UInt64.ofNat_add]
    exact UInt64.add_sub_cancel ..

omit [LinearOrder T] in
theorem onAdd_of_ne (t : AvgTrackerDefault H T) {other : H} (h : other ≠ asset) (value : T) :
    (t.onAdd asset value).sums other = t.sums other ∧
      (t.onAdd asset value).counts other = t.counts other :=
  ⟨Function.update_of_ne h .., Function.update_of_ne h ..⟩

omit [LinearOrder T] in
theorem onRemove_of_ne (t : AvgTrackerDefault H T) {other : H} (h : other ≠ asset) (value : T) :
    (t.onRemove asset value).sums other = t.sums other ∧
      (t.onRemove asset value).counts other = t.counts other :=
  ⟨Function.update_of_ne h .., Function.update_of_ne h ..⟩

omit [LinearOrder T] [DecidableEq H] in
/-- Only the sum and the count of the asset matter. -/
theorem Tracks.congr {t' : AvgTrackerDefault H T} (h : t.Tracks asset values)
    (hsame : t'.sums asset = t.sums asset ∧ t'.counts asset = t.counts asset) :
    t'.Tracks asset values where
  sum := by rw [hsame.1, h.sum]
  count := by rw [hsame.2, h.count]

omit [LinearOrder T] [DecidableEq H] in
/-- A tracker that holds nothing has no average. -/
theorem Tracks.getAvg_zero (h : t.Tracks asset 0) : t.getAvg asset = (false, 0) := by
  have hcount : (t.counts asset).getD 0 = 0 := h.count
  unfold getAvg
  cases hc : t.counts asset with
  | none => rfl
  | some count =>
    rw [hc, Option.getD_some] at hcount
    dsimp only
    rw [if_neg (by rw [hcount]; decide)]

omit [LinearOrder T] [DecidableEq H] in
/-- The average is the mean. -/
theorem Tracks.getAvg (h : t.Tracks asset values) (hne : values ≠ 0)
    (hcard : values.card < 2 ^ 64) :
    t.getAvg asset = (true, values.sum / values.card) := by
  have hpos : 0 < values.card := Multiset.card_pos.mpr hne
  have hnat : (UInt64.ofNat values.card).toNat = values.card := UInt64.toNat_ofNat_of_lt' hcard
  have hlt : 0 < UInt64.ofNat values.card := by
    rw [UInt64.lt_iff_toNat_lt, hnat]
    exact hpos
  have hcount := h.count
  unfold AvgTrackerDefault.getAvg
  cases hc : t.counts asset with
  | none =>
    rw [hc, Option.getD_none] at hcount
    exact absurd hlt (by rw [← hcount]; decide)
  | some count =>
    rw [hc, Option.getD_some] at hcount
    dsimp only
    rw [hcount, if_pos hlt, h.sum, hnat]

end AvgTrackerDefault

/-! ### The extrema -/

namespace ExtremumTracker

omit [Field T] in
/-- `better` is a strict order under which `first` finds the first key of a map. -/
structure FirstKey (better : T → T → Prop) (first : FrequencyMap T → Option T) : Prop where
  irrefl : ∀ x, ¬ better x x
  trans : ∀ x y z, ¬ better x z → better y z → ¬ better x y
  first_none : ∀ m, first m = none → m.keys = []
  first_some : ∀ m e, first m = some e → e ∈ m.keys ∧ ∀ x ∈ m.keys, ¬ better x e

omit [Field T] in
theorem firstKey_min : FirstKey (fun value element : T => element > value)
    (fun assetMap => assetMap.keys.min?) where
  irrefl x := lt_irrefl x
  trans x y z hx hy := ((hy.trans_le (not_lt.mp hx)).not_gt)
  first_none m h := List.min?_eq_none_iff.mp h
  first_some m e h := by
    obtain ⟨hmem, hle⟩ := List.min?_eq_some_iff.mp h
    exact ⟨hmem, fun x hx => (hle x hx).not_gt⟩

omit [Field T] in
theorem firstKey_max : FirstKey (fun value element : T => element < value)
    (fun assetMap => assetMap.keys.max?) where
  irrefl x := lt_irrefl x
  trans x y z hx hy := (((not_lt.mp hx).trans_lt hy).not_gt)
  first_none m h := List.max?_eq_none_iff.mp h
  first_some m e h := by
    obtain ⟨hmem, hle⟩ := List.max?_eq_some_iff.mp h
    exact ⟨hmem, fun x hx => (hle x hx).not_gt⟩

omit [Field T] [LinearOrder T] in
/-- `e` is an element to which no other is better. -/
def IsExtremum (better : T → T → Prop) (values : Multiset T) (e : T) : Prop :=
  e ∈ values ∧ ∀ x ∈ values, ¬ better x e

/-- The entry of a value that occurs `n` times. -/
def entry (n : ℕ) : Option UInt64 := if n = 0 then none else some (UInt64.ofNat n)

theorem entry_succ (n : ℕ) : entry (n + 1) = some (UInt64.ofNat (n + 1)) := if_neg n.succ_ne_zero

theorem getD_entry (n : ℕ) : (entry n).getD 0 = UInt64.ofNat n := by
  cases n with
  | zero => rfl
  | succ n => rw [entry_succ, Option.getD_some]

omit [Field T] [DecidableEq H] in
/-- The frequencies and the extremum of the values of an asset. -/
structure Tracks (better : T → T → Prop) (t : ExtremumTracker H T) (asset : H)
    (values : Multiset T) : Prop where
  lookup : ∀ v, ((t.frequency asset).getD ∅).lookup v = entry (values.count v)
  element : ∀ e, t.element asset = some e → IsExtremum better values e
  empty : t.element asset = none → values = 0

variable {better : T → T → Prop} [DecidableRel better] {first : FrequencyMap T → Option T}
  {t : ExtremumTracker H T} {asset : H} {values : Multiset T}

omit [Field T] [DecidableEq H] [DecidableRel better] in
/-- A new tracker follows the empty multiset. -/
theorem tracks_new : ({} : ExtremumTracker H T).Tracks better asset 0 where
  lookup _ := rfl
  element e h := absurd h (by simp)
  empty _ := rfl

omit [Field T] [DecidableEq H] [DecidableRel better] in
/-- Only the frequencies and the extremum of the asset matter. -/
theorem Tracks.congr {t' : ExtremumTracker H T} (h : t.Tracks better asset values)
    (hsame : t'.frequency asset = t.frequency asset ∧ t'.element asset = t.element asset) :
    t'.Tracks better asset values where
  lookup v := by rw [hsame.1, h.lookup]
  element e he := h.element e (by rw [← hsame.2, he])
  empty he := h.empty (by rw [← hsame.2, he])

/-! #### One call -/

section Step

variable (t : ExtremumTracker H T) (asset : H) (value : T)

/-- The frequencies that `OnAdd` starts from. -/
def startMap (t : ExtremumTracker H T) (asset : H) : FrequencyMap T :=
  if t.element asset = none then ∅ else (t.frequency asset).getD ∅

theorem frequency_onAdd :
    (onAdd better t asset value).frequency asset =
      some ((startMap t asset).insert value (((startMap t asset).lookup value).getD 0 + 1)) := by
  unfold ExtremumTracker.onAdd startMap
  dsimp only
  cases t.element asset with
  | none =>
    rw [if_pos rfl]
    dsimp only
    split_ifs <;> simp
  | some e =>
    rw [if_neg (Option.some_ne_none e)]
    dsimp only
    split_ifs <;> simp

theorem element_onAdd :
    (onAdd better t asset value).element asset =
      match t.element asset with
      | none => some value
      | some e => if better value e then some value else some e := by
  unfold ExtremumTracker.onAdd
  dsimp only
  cases helement : t.element asset with
  | none =>
    dsimp only
    split_ifs <;> simp
  | some e =>
    dsimp only
    rw [helement, Option.getD_some]
    split_ifs <;> simp [helement]

variable (better) in
theorem onAdd_of_ne {other : H} (h : other ≠ asset) :
    (onAdd better t asset value).frequency other = t.frequency other ∧
      (onAdd better t asset value).element other = t.element other := by
  unfold ExtremumTracker.onAdd
  dsimp only
  cases t.element asset with
  | none =>
    dsimp only
    split_ifs <;> simp [h]
  | some e =>
    dsimp only
    split_ifs <;> simp [h]

end Step

section Add

variable {t : ExtremumTracker H T}

omit [DecidableEq H] [Field T] [DecidableRel better] in
/-- The frequencies that `OnAdd` starts from are those of the values. -/
theorem Tracks.lookup_startMap (h : t.Tracks better asset values) (v : T) :
    (startMap t asset).lookup v = entry (values.count v) := by
  unfold startMap
  split_ifs with helement
  · rw [h.empty helement]
    rfl
  · exact h.lookup v

/-- `OnAdd` adds the value. -/
theorem Tracks.onAdd (hfirst : FirstKey better first) (h : t.Tracks better asset values)
    (value : T) : (ExtremumTracker.onAdd better t asset value).Tracks better asset
      (value ::ₘ values) where
  lookup v := by
    rw [frequency_onAdd, Option.getD_some, h.lookup_startMap, getD_entry]
    by_cases hv : v = value
    · subst hv
      rw [AList.lookup_insert, Multiset.count_cons_self, entry_succ, UInt64.ofNat_add]
      rfl
    · rw [AList.lookup_insert_ne hv, h.lookup_startMap, Multiset.count_cons_of_ne hv]
  element e he := by
    rw [element_onAdd] at he
    cases helement : t.element asset with
    | none =>
      rw [helement] at he
      obtain rfl := Option.some.inj he
      have hempty : values = 0 := h.empty helement
      subst hempty
      refine ⟨Multiset.mem_cons_self .., fun x hx => ?_⟩
      obtain rfl : x = value := by simpa using hx
      exact hfirst.irrefl x
    | some old =>
      rw [helement] at he
      dsimp only at he
      obtain ⟨hmem, hold⟩ := h.element old helement
      split_ifs at he with hbetter
      · -- the new value is the extremum
        obtain rfl := Option.some.inj he
        refine ⟨Multiset.mem_cons_self .., fun x hx => ?_⟩
        rcases Multiset.mem_cons.mp hx with rfl | hx
        · exact hfirst.irrefl x
        · exact hfirst.trans x value old (hold x hx) hbetter
      · obtain rfl := Option.some.inj he
        refine ⟨Multiset.mem_cons_of_mem hmem, fun x hx => ?_⟩
        rcases Multiset.mem_cons.mp hx with rfl | hx
        · exact hbetter
        · exact hold x hx
  empty he := by
    rw [element_onAdd] at he
    cases helement : t.element asset with
    | none =>
      rw [helement] at he
      exact absurd he (Option.some_ne_none value)
    | some old =>
      rw [helement] at he
      dsimp only at he
      split_ifs at he

end Add

section Remove

/-- The frequencies without one copy of `value`, of which there were `count`. -/
def takeOut (m : FrequencyMap T) (value : T) (count : UInt64) : FrequencyMap T :=
  if count - 1 = 0 then m.erase value else m.insert value (count - 1)

/-- The new extremum after a removal that leaves the frequencies `m`. -/
def nextElement (first : FrequencyMap T → Option T) (t : ExtremumTracker H T) (asset : H)
    (value : T) (m : FrequencyMap T) : Option T :=
  if (t.element asset).getD 0 = value then first m else t.element asset

theorem onRemove_eq {t : ExtremumTracker H T} {m : FrequencyMap T} {value : T} {count : UInt64}
    (hm : t.frequency asset = some m) (hcount : m.lookup value = some count) :
    onRemove first t asset value =
      { frequency := Function.update t.frequency asset (some (takeOut m value count))
        element := Function.update t.element asset
          (nextElement first t asset value (takeOut m value count)) } := by
  unfold ExtremumTracker.onRemove nextElement
  rw [hm]
  dsimp only
  rw [hcount]
  dsimp only
  rw [← takeOut]
  split_ifs
  · rfl
  · rw [Function.update_eq_self]

variable (first) in
theorem onRemove_of_ne (t : ExtremumTracker H T) {other : H} (h : other ≠ asset) (value : T) :
    (onRemove first t asset value).frequency other = t.frequency other ∧
      (onRemove first t asset value).element other = t.element other := by
  cases hm : t.frequency asset with
  | none => exact ⟨by rw [onRemove, hm], by rw [onRemove, hm]⟩
  | some m =>
    cases hcount : m.lookup value with
    | none =>
      unfold ExtremumTracker.onRemove
      rw [hm]
      dsimp only
      rw [hcount]
      exact ⟨rfl, rfl⟩
    | some count =>
      rw [onRemove_eq hm hcount]
      exact ⟨Function.update_of_ne h .., Function.update_of_ne h ..⟩

variable {t : ExtremumTracker H T}

omit [DecidableRel better] in
/-- `OnRemove` of a value that is absent does nothing. -/
theorem Tracks.onRemove_of_notMem (h : t.Tracks better asset values) {value : T}
    (hvalue : value ∉ values) : onRemove first t asset value = t := by
  have hlookup := h.lookup value
  rw [Multiset.count_eq_zero_of_notMem hvalue] at hlookup
  unfold ExtremumTracker.onRemove
  cases hm : t.frequency asset with
  | none => rfl
  | some m =>
    rw [hm, Option.getD_some] at hlookup
    dsimp only
    rw [hlookup]
    rfl

omit [Field T] in
/-- The frequencies after one of `n + 1` copies is taken out. -/
theorem lookup_takeOut {m : FrequencyMap T} (value : T) {n : ℕ} (hn : n < 2 ^ 64) (v : T) :
    (takeOut m value (UInt64.ofNat (n + 1))).lookup v =
      if v = value then entry n else m.lookup v := by
  have hsub : UInt64.ofNat (n + 1) - 1 = UInt64.ofNat n := by
    rw [UInt64.ofNat_add]
    exact UInt64.add_sub_cancel ..
  have hzero : UInt64.ofNat n = 0 ↔ n = 0 := by
    rw [← UInt64.toNat_inj, UInt64.toNat_ofNat_of_lt' hn]
    rfl
  unfold takeOut entry
  simp only [hsub, hzero]
  by_cases hv : v = value
  · subst hv
    rw [if_pos rfl]
    split_ifs
    · exact AList.lookup_erase ..
    · exact AList.lookup_insert ..
  · rw [if_neg hv]
    split_ifs
    · exact AList.lookup_erase_ne hv
    · exact AList.lookup_insert_ne hv

omit [Field T] in
/-- A map with the frequencies of the values has them as its keys. -/
theorem mem_keys_iff {m : FrequencyMap T} (h : ∀ v, m.lookup v = entry (values.count v)) (v : T) :
    v ∈ m.keys ↔ v ∈ values := by
  rw [← AList.mem_keys, ← AList.lookup_isSome, h, ← Multiset.count_ne_zero, entry]
  split_ifs with hzero
  · simp [hzero]
  · simp [hzero]

omit [Field T] [DecidableRel better] in
/-- The first key of such a map is the extremum of the values. -/
theorem FirstKey.isExtremum (hfirst : FirstKey better first) {m : FrequencyMap T}
    (h : ∀ v, m.lookup v = entry (values.count v)) {e : T} (he : first m = some e) :
    IsExtremum better values e := by
  obtain ⟨hmem, hbest⟩ := hfirst.first_some m e he
  refine ⟨(mem_keys_iff h e).mp hmem, fun x hx => ?_⟩
  exact hbest x ((mem_keys_iff h x).mpr hx)

omit [Field T] [DecidableRel better] in
theorem FirstKey.eq_zero (hfirst : FirstKey better first) {m : FrequencyMap T}
    (h : ∀ v, m.lookup v = entry (values.count v)) (he : first m = none) : values = 0 := by
  refine Multiset.eq_zero_of_forall_notMem fun v hv => ?_
  have hkey := (mem_keys_iff h v).mpr hv
  rw [hfirst.first_none m he] at hkey
  exact List.not_mem_nil hkey

omit [DecidableRel better] in
/-- `OnRemove` of a value that is there takes one copy out, unless the count has wrapped. -/
theorem Tracks.onRemove_of_count_le (hfirst : FirstKey better first)
    (h : t.Tracks better asset values) {value : T} (hcount : values.count value ≤ 2 ^ 64)
    (hvalue : value ∈ values) :
    (ExtremumTracker.onRemove first t asset value).Tracks better asset (values.erase value) := by
  obtain ⟨n, hn⟩ : ∃ n, values.count value = n + 1 :=
    Nat.exists_eq_succ_of_ne_zero (Multiset.count_ne_zero.mpr hvalue)
  have hlt : n < 2 ^ 64 := by omega
  obtain ⟨m, hm⟩ : ∃ m, t.frequency asset = some m := by
    refine Option.ne_none_iff_exists'.mp fun hnone => ?_
    have hlookup := h.lookup value
    rw [hnone, hn, entry_succ] at hlookup
    exact absurd hlookup (by simp)
  obtain ⟨e, he⟩ : ∃ e, t.element asset = some e := by
    refine Option.ne_none_iff_exists'.mp fun hnone => ?_
    rw [h.empty hnone] at hvalue
    exact Multiset.notMem_zero value hvalue
  obtain ⟨hmem, hbest⟩ := h.element e he
  have hlookup : ∀ v, m.lookup v = entry (values.count v) := by
    intro v
    rw [← h.lookup v, hm, Option.getD_some]
  have hafter : ∀ v, (takeOut m value (UInt64.ofNat (n + 1))).lookup v =
      entry ((values.erase value).count v) := by
    intro v
    rw [lookup_takeOut value hlt, hlookup]
    split_ifs with hv
    · rw [hv, Multiset.count_erase_self, hn, Nat.add_sub_cancel]
    · rw [Multiset.count_erase_of_ne hv]
  rw [onRemove_eq hm (by rw [hlookup, hn, entry_succ])]
  unfold nextElement
  rw [he, Option.getD_some]
  constructor
  · intro v
    dsimp only
    rw [Function.update_self, Option.getD_some]
    exact hafter v
  · intro x hx
    dsimp only at hx
    rw [Function.update_self] at hx
    split_ifs at hx with heq
    · exact hfirst.isExtremum hafter hx
    · -- another value leaves, so the extremum stays
      obtain rfl := Option.some.inj hx
      refine ⟨(Multiset.mem_erase_of_ne heq).mpr hmem, fun y hy => ?_⟩
      exact hbest y (Multiset.mem_of_mem_erase hy)
  · intro hx
    dsimp only at hx
    rw [Function.update_self] at hx
    split_ifs at hx with heq
    exact hfirst.eq_zero hafter hx

omit [DecidableRel better] in
/-- `OnRemove` of a value that is there takes one copy out. -/
theorem Tracks.onRemove (hfirst : FirstKey better first) (h : t.Tracks better asset values)
    (hcard : values.card < 2 ^ 64) {value : T} (hvalue : value ∈ values) :
    (ExtremumTracker.onRemove first t asset value).Tracks better asset (values.erase value) :=
  h.onRemove_of_count_le hfirst ((Multiset.count_le_card value values).trans hcard.le) hvalue

end Remove

/-! #### The answers -/

omit [LinearOrder T] [DecidableEq H] in
theorem get_eq_answer (t : ExtremumTracker H T) (asset : H) :
    t.get asset = answer (t.element asset) := by
  unfold get
  cases t.element asset with
  | none => rfl
  | some e => rfl

omit [Field T] [DecidableEq H] in
/-- The least value of a list that the tracker follows. -/
theorem Tracks.element_eq_min {t : ExtremumTracker H T} {values : List T}
    (h : t.Tracks (fun value element => element > value) asset ↑values) :
    t.element asset = values.min? := by
  cases he : t.element asset with
  | none =>
    have hnil : values = [] := (Multiset.coe_eq_zero _).mp (h.empty he)
    rw [hnil]
    rfl
  | some e =>
    obtain ⟨hmem, hbest⟩ := h.element e he
    exact (List.min?_eq_some_iff.mpr ⟨hmem, fun x hx => not_lt.mp (hbest x hx)⟩).symm

omit [Field T] [DecidableEq H] in
/-- The greatest value of a list that the tracker follows. -/
theorem Tracks.element_eq_max {t : ExtremumTracker H T} {values : List T}
    (h : t.Tracks (fun value element => element < value) asset ↑values) :
    t.element asset = values.max? := by
  cases he : t.element asset with
  | none =>
    have hnil : values = [] := (Multiset.coe_eq_zero _).mp (h.empty he)
    rw [hnil]
    rfl
  | some e =>
    obtain ⟨hmem, hbest⟩ := h.element e he
    exact (List.max?_eq_some_iff.mpr ⟨hmem, fun x hx => not_lt.mp (hbest x hx)⟩).symm

end ExtremumTracker

end CryptobotAlgo.Aos
