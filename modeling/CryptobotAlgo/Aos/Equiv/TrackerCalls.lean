import CryptobotAlgo.Aos.Equiv.Trackers
import CryptobotAlgo.Machine.Refinement
import Mathlib.Algebra.Field.Rat
import Mathlib.Algebra.Order.Ring.Rat

/-!
# Histories of the trackers

A history is a sequence of calls of `OnAdd` and `OnRemove`, for any assets.  For each asset it
leaves a multiset (`heldAfter`), from which `OnRemove` of an absent value takes nothing.  The
trackers of the extrema follow it, whatever is removed, as long as no count exceeds `2 ^ 64`
(`extrema_refine`).
-/

namespace CryptobotAlgo.Aos

variable {H T : Type} [DecidableEq H] [Field T] [LinearOrder T]

/-- A call of a tracker. -/
inductive TrackerCall (H T : Type)
  | onAdd (hashAsset : H) (value : T)
  | onRemove (hashAsset : H) (value : T)
  deriving DecidableEq, Repr

/-- The multisets after a call. -/
def hold (held : H → Multiset T) : TrackerCall H T → H → Multiset T
  | .onAdd asset value => Function.update held asset (value ::ₘ held asset)
  | .onRemove asset value => Function.update held asset ((held asset).erase value)

/-- The values of each asset after a history. -/
def heldAfter (calls : List (TrackerCall H T)) : H → Multiset T := calls.foldl hold fun _ => 0

/-- The asset of a call. -/
def TrackerCall.asset : TrackerCall H T → H
  | .onAdd asset _ => asset
  | .onRemove asset _ => asset

def AvgTrackerDefault.call (t : AvgTrackerDefault H T) : TrackerCall H T → AvgTrackerDefault H T
  | .onAdd asset value => t.onAdd asset value
  | .onRemove asset value => t.onRemove asset value

def AvgTrackerDefault.after (calls : List (TrackerCall H T)) : AvgTrackerDefault H T :=
  calls.foldl AvgTrackerDefault.call {}

def MinTrackerDefault.call (t : MinTrackerDefault H T) : TrackerCall H T → MinTrackerDefault H T
  | .onAdd asset value => MinTrackerDefault.onAdd t asset value
  | .onRemove asset value => MinTrackerDefault.onRemove t asset value

def MinTrackerDefault.after (calls : List (TrackerCall H T)) : MinTrackerDefault H T :=
  calls.foldl MinTrackerDefault.call {}

def MaxTrackerDefault.call (t : MaxTrackerDefault H T) : TrackerCall H T → MaxTrackerDefault H T
  | .onAdd asset value => MaxTrackerDefault.onAdd t asset value
  | .onRemove asset value => MaxTrackerDefault.onRemove t asset value

def MaxTrackerDefault.after (calls : List (TrackerCall H T)) : MaxTrackerDefault H T :=
  calls.foldl MaxTrackerDefault.call {}

/-! ### The multisets -/

section Held

variable (held : H → Multiset T) (asset : H) (value : T)

omit [Field T] in
@[simp] theorem hold_onAdd_self :
    hold held (.onAdd asset value) asset = value ::ₘ held asset := Function.update_self ..

omit [Field T] in
@[simp] theorem hold_onRemove_self :
    hold held (.onRemove asset value) asset = (held asset).erase value := Function.update_self ..

variable {held asset}

omit [Field T] in
theorem hold_of_ne {c : TrackerCall H T} (h : asset ≠ c.asset) :
    hold held c asset = held asset := by
  cases c with
  | onAdd changed value => exact Function.update_of_ne h ..
  | onRemove changed value => exact Function.update_of_ne h ..

omit [Field T] in
/-- What holds of the asset of the call after it, and of the others before it, holds of all. -/
theorem forall_hold {R : H → Multiset T → Prop} {c : TrackerCall H T}
    (hself : R c.asset (hold held c c.asset))
    (hother : ∀ asset, asset ≠ c.asset → R asset (held asset)) (asset : H) :
    R asset (hold held c asset) := by
  by_cases hasset : asset = c.asset
  · rw [hasset]
    exact hself
  · rw [hold_of_ne hasset]
    exact hother asset hasset

omit [Field T] in
theorem heldAfter_concat (calls : List (TrackerCall H T)) (c : TrackerCall H T) :
    heldAfter (calls ++ [c]) = hold (heldAfter calls) c :=
  List.foldl_concat ..

omit [Field T] in
/-- A call adds one value at most. -/
theorem card_hold_le (held : H → Multiset T) (c : TrackerCall H T) (asset : H) :
    (hold held c asset).card ≤ (held asset).card + 1 := by
  refine forall_hold (R := fun asset values => values.card ≤ (held asset).card + 1) ?_ ?_ asset
  · cases c with
    | onAdd asset value =>
      show (hold held (.onAdd asset value) asset).card ≤ (held asset).card + 1
      rw [hold_onAdd_self, Multiset.card_cons]
    | onRemove asset value =>
      show (hold held (.onRemove asset value) asset).card ≤ (held asset).card + 1
      have herase := Multiset.card_le_card (Multiset.erase_le value (held asset))
      rw [hold_onRemove_self]
      omega
  · intro asset _
    omega

omit [Field T] in
theorem card_heldAfter_le (calls : List (TrackerCall H T)) (asset : H) :
    (heldAfter calls asset).card ≤ calls.length := by
  induction calls using List.reverseRecOn with
  | nil => exact Nat.le_refl 0
  | append_singleton calls c ih =>
    have hstep := card_hold_le (heldAfter calls) c asset
    rw [heldAfter_concat, List.length_append, List.length_singleton]
    omega

end Held

/-! ### The extrema -/

namespace ExtremumTracker

variable {better : T → T → Prop} [DecidableRel better] {first : FrequencyMap T → Option T}

/-- A call of either tracker. -/
def call (better : T → T → Prop) [DecidableRel better] (first : FrequencyMap T → Option T)
    (t : ExtremumTracker H T) : TrackerCall H T → ExtremumTracker H T
  | .onAdd asset value => onAdd better t asset value
  | .onRemove asset value => onRemove first t asset value

omit [DecidableEq H] [Field T] in
/-- The count of a value that is removed has not wrapped. -/
def CountFits (held : H → Multiset T) : TrackerCall H T → Prop
  | .onAdd _ _ => True
  | .onRemove asset value => (held asset).count value ≤ 2 ^ 64

/-- A call keeps the tracker with the multisets. -/
theorem tracks_call (hfirst : FirstKey better first) (t : ExtremumTracker H T)
    (held : H → Multiset T) (c : TrackerCall H T) (h : ∀ asset, t.Tracks better asset (held asset))
    (hfits : CountFits held c) (asset : H) :
    (call better first t c).Tracks better asset (hold held c asset) := by
  refine forall_hold
    (R := fun asset values => (call better first t c).Tracks better asset values) ?_ ?_ asset
  · cases c with
    | onAdd asset value =>
      show (onAdd better t asset value).Tracks better asset (hold held (.onAdd asset value) asset)
      rw [hold_onAdd_self]
      exact (h asset).onAdd hfirst value
    | onRemove asset value =>
      show (onRemove first t asset value).Tracks better asset
        (hold held (.onRemove asset value) asset)
      rw [hold_onRemove_self]
      -- the call returns early where the value is absent, and then `erase` takes nothing
      by_cases hvalue : value ∈ held asset
      · exact (h asset).onRemove_of_count_le hfirst hfits hvalue
      · rw [(h asset).onRemove_of_notMem hvalue, Multiset.erase_of_notMem hvalue]
        exact h asset
  · intro asset hasset
    cases c with
    | onAdd changed value => exact (h asset).congr (onAdd_of_ne better t changed value hasset)
    | onRemove changed value => exact (h asset).congr (onRemove_of_ne first t hasset value)

/-- The tracker follows the multisets through a history. -/
theorem tracks_after (hfirst : FirstKey better first) {calls : List (TrackerCall H T)}
    (h : ∀ pre c post, calls = pre ++ c :: post → CountFits (heldAfter pre) c) (asset : H) :
    (calls.foldl (call better first) {}).Tracks better asset (heldAfter calls asset) :=
  foldl_related (R := fun t held => ∀ asset, Tracks better t asset (held asset))
    (tracks_call hfirst) (fun _ => tracks_new) h asset

omit [DecidableEq H] [DecidableRel better] in
/-- There is an extremum exactly where there are values. -/
theorem Tracks.get_eq_true_iff {t : ExtremumTracker H T} {asset : H} {values : Multiset T}
    (h : t.Tracks better asset values) : (t.get asset).1 = true ↔ values ≠ 0 := by
  rw [get_eq_answer]
  cases he : t.element asset with
  | none => exact iff_of_false nofun (not_not_intro (h.empty he))
  | some e =>
    refine iff_of_true rfl ?_
    rintro rfl
    exact Multiset.notMem_zero e (h.element e he).1

omit [DecidableEq H] [DecidableRel better] in
theorem Tracks.isExtremum_get {t : ExtremumTracker H T} {asset : H} {values : Multiset T}
    (h : t.Tracks better asset values) (htrue : (t.get asset).1 = true) :
    IsExtremum better values (t.get asset).2 := by
  rw [get_eq_answer] at htrue ⊢
  obtain ⟨e, he⟩ := Option.isSome_iff_exists.mp htrue
  rw [he]
  exact h.element e he

end ExtremumTracker

section Extrema

theorem minTracker_tracks (calls : List (TrackerCall H T))
    (h : ∀ pre c post, calls = pre ++ c :: post → ExtremumTracker.CountFits (heldAfter pre) c)
    (asset : H) :
    (MinTrackerDefault.after calls).Tracks (fun value element => element > value) asset
      (heldAfter calls asset) :=
  ExtremumTracker.tracks_after ExtremumTracker.firstKey_min h asset

theorem maxTracker_tracks (calls : List (TrackerCall H T))
    (h : ∀ pre c post, calls = pre ++ c :: post → ExtremumTracker.CountFits (heldAfter pre) c)
    (asset : H) :
    (MaxTrackerDefault.after calls).Tracks (fun value element => element < value) asset
      (heldAfter calls asset) :=
  ExtremumTracker.tracks_after ExtremumTracker.firstKey_max h asset

omit [Field T] [DecidableEq H] in
theorem isLeast_of_isExtremum {values : Multiset T} {e : T}
    (h : ExtremumTracker.IsExtremum (fun value element => element > value) values e) :
    IsLeast {x | x ∈ values} e :=
  ⟨h.1, fun x hx => not_lt.mp (h.2 x hx)⟩

omit [Field T] [DecidableEq H] in
theorem isGreatest_of_isExtremum {values : Multiset T} {e : T}
    (h : ExtremumTracker.IsExtremum (fun value element => element < value) values e) :
    IsGreatest {x | x ∈ values} e :=
  ⟨h.1, fun x hx => not_lt.mp (h.2 x hx)⟩

/-- The tracker of the least value does what the multisets say. -/
structure MinRefines (calls : List (TrackerCall H T)) : Prop where
  status : ∀ asset, ((MinTrackerDefault.after calls).getMin asset).1 = true ↔
    heldAfter calls asset ≠ 0
  isLeast : ∀ asset, ((MinTrackerDefault.after calls).getMin asset).1 = true →
    IsLeast {x | x ∈ heldAfter calls asset} ((MinTrackerDefault.after calls).getMin asset).2
  unchanged : ∀ asset value, value ∉ heldAfter calls asset →
    (MinTrackerDefault.after calls).onRemove asset value = MinTrackerDefault.after calls

/-- The tracker of the greatest value does what the multisets say. -/
structure MaxRefines (calls : List (TrackerCall H T)) : Prop where
  status : ∀ asset, ((MaxTrackerDefault.after calls).getMax asset).1 = true ↔
    heldAfter calls asset ≠ 0
  isGreatest : ∀ asset, ((MaxTrackerDefault.after calls).getMax asset).1 = true →
    IsGreatest {x | x ∈ heldAfter calls asset} ((MaxTrackerDefault.after calls).getMax asset).2
  unchanged : ∀ asset value, value ∉ heldAfter calls asset →
    (MaxTrackerDefault.after calls).onRemove asset value = MaxTrackerDefault.after calls

/-- **The trackers of the extrema** refine the multisets in every history in which no asset ever
holds more than `2 ^ 64` copies of a value. -/
theorem extrema_refine (calls : List (TrackerCall H T))
    (h : ∀ pre, pre <+: calls → ∀ asset value, (heldAfter pre asset).count value ≤ 2 ^ 64) :
    MinRefines calls ∧ MaxRefines calls := by
  have hfits : ∀ pre c post, calls = pre ++ c :: post →
      ExtremumTracker.CountFits (heldAfter pre) c := by
    rintro pre c post hcalls
    cases c with
    | onAdd asset value => trivial
    | onRemove asset value => exact h pre ⟨_, hcalls.symm⟩ asset value
  have hmin := minTracker_tracks calls hfits
  have hmax := maxTracker_tracks calls hfits
  constructor
  · exact ⟨fun asset => (hmin asset).get_eq_true_iff,
      fun asset htrue => isLeast_of_isExtremum ((hmin asset).isExtremum_get htrue),
      fun asset value hvalue => (hmin asset).onRemove_of_notMem hvalue⟩
  · exact ⟨fun asset => (hmax asset).get_eq_true_iff,
      fun asset htrue => isGreatest_of_isExtremum ((hmax asset).isExtremum_get htrue),
      fun asset value hvalue => (hmax asset).onRemove_of_notMem hvalue⟩

/-! #### Short and long histories -/

omit [Field T] in
/-- The same value, added again and again. -/
theorem heldAfter_replicate (n : ℕ) (asset : H) (value : T) :
    heldAfter (List.replicate n (.onAdd asset value)) asset = Multiset.replicate n value := by
  induction n with
  | zero => rfl
  | succ n ih =>
    rw [List.replicate_succ', heldAfter_concat, hold_onAdd_self, ih, Multiset.replicate_succ]

omit [Field T] in
theorem heldAfter_replicate_concat (n : ℕ) (asset : H) (value : T) :
    heldAfter (List.replicate (n + 1) (.onAdd asset value) ++ [.onRemove asset value]) asset =
      Multiset.replicate n value := by
  rw [heldAfter_concat, hold_onRemove_self, heldAfter_replicate, Multiset.replicate_succ,
    Multiset.erase_cons_head]

/-- The only value, with the count `1`, is forgotten when it is removed. -/
theorem ExtremumTracker.element_onRemove_of_single {first : FrequencyMap T → Option T}
    (hfirst : ∀ m : FrequencyMap T, m.keys = [] → first m = none) {t : ExtremumTracker H T}
    {asset : H} {value : T} {m : FrequencyMap T} (hm : t.frequency asset = some m)
    (hone : m.lookup value = some 1) (hothers : ∀ v, v ≠ value → m.lookup v = none)
    (helement : t.element asset = some value) :
    (onRemove first t asset value).element asset = none := by
  have hkeys : (m.erase value).keys = [] := by
    rw [List.eq_nil_iff_forall_not_mem]
    intro v hv
    rw [← AList.mem_keys, ← AList.lookup_isSome] at hv
    by_cases hvalue : v = value
    · rw [hvalue, AList.lookup_erase] at hv
      contradiction
    · rw [AList.lookup_erase_ne hvalue, hothers v hvalue] at hv
      contradiction
  have htake : takeOut m value 1 = m.erase value := if_pos rfl
  rw [onRemove_eq hm hone, htake]
  show Function.update t.element asset _ asset = none
  rw [Function.update_self, nextElement, helement, Option.getD_some, if_pos rfl]
  exact hfirst _ hkeys

/-- What the tracker keeps of one value that was added `n` times. -/
theorem minTracker_replicate (n : ℕ) (asset : H) (value : T) :
    (MinTrackerDefault.after (List.replicate n (.onAdd asset value))).Tracks
      (fun value element => element > value) asset (Multiset.replicate n value) := by
  rw [← heldAfter_replicate n asset value]
  -- no call removes a value, so that nothing is asked of the counts
  refine minTracker_tracks _ (fun pre c post hcalls => ?_) asset
  have hmem : c ∈ List.replicate n (TrackerCall.onAdd asset value) := by
    rw [hcalls]
    exact List.mem_append_right pre List.mem_cons_self
  rw [List.eq_of_mem_replicate hmem]
  trivial

/-- A value that has been added so often that its count is `1` again is forgotten by one removal. -/
theorem getMin_of_wrap {n : ℕ} (hn : UInt64.ofNat n = 1) (asset : H) (value : T) :
    (MinTrackerDefault.after
      (List.replicate n (.onAdd asset value) ++ [.onRemove asset value])).getMin asset =
        (false, 0) := by
  have hpos : n ≠ 0 := by
    rintro rfl
    exact absurd hn (by decide)
  have htracks := minTracker_replicate n asset value
  have hafter : MinTrackerDefault.after
      (List.replicate n (.onAdd asset value) ++ [.onRemove asset value]) =
        (MinTrackerDefault.after (List.replicate n (.onAdd asset value))).onRemove asset value :=
    List.foldl_concat ..
  rw [hafter]
  generalize MinTrackerDefault.after (List.replicate n (TrackerCall.onAdd asset value)) = t
    at htracks ⊢
  -- the count `n` has wrapped to `1`, and the tracker cannot tell that there is more than one value
  have hlookup := htracks.lookup
  have hone : ((t.frequency asset).getD ∅).lookup value = some 1 := by
    rw [hlookup, Multiset.count_replicate_self, ExtremumTracker.entry, if_neg hpos, hn]
  have hothers : ∀ v, v ≠ value → ((t.frequency asset).getD ∅).lookup v = none := by
    intro v hv
    rw [hlookup, Multiset.count_replicate, if_neg (Ne.symm hv)]
    rfl
  obtain ⟨m, hm⟩ : ∃ m, t.frequency asset = some m := by
    refine Option.ne_none_iff_exists'.mp fun hnone => ?_
    rw [hnone] at hone
    exact absurd hone (by simp)
  have helement : t.element asset = some value := by
    cases he : t.element asset with
    | none =>
      have hempty := htracks.empty he
      rw [← Multiset.card_eq_zero, Multiset.card_replicate] at hempty
      exact absurd hempty hpos
    | some e => rw [Multiset.eq_of_mem_replicate (htracks.element e he).1]
  rw [hm, Option.getD_some] at hone hothers
  have hremoved : (MinTrackerDefault.onRemove t asset value).element asset = none :=
    ExtremumTracker.element_onRemove_of_single (fun m hkeys => by rw [hkeys]; rfl) hm hone hothers
      helement
  unfold MinTrackerDefault.getMin
  rw [ExtremumTracker.get_eq_answer, hremoved]
  rfl

end Extrema

/-- Values of two assets, and removals of absent ones. -/
def someCalls : List (TrackerCall String ℚ) :=
  [.onAdd "a" 2, .onRemove "b" 2, .onAdd "a" 1, .onAdd "b" 5, .onRemove "a" 3, .onRemove "a" 1]

theorem extrema_refine_someCalls : MinRefines someCalls ∧ MaxRefines someCalls := by
  apply extrema_refine someCalls
  intro pre hpre asset value
  have hcount := Multiset.count_le_card value (heldAfter pre asset)
  have hcard := card_heldAfter_le pre asset
  have hlength : pre.length ≤ someCalls.length := hpre.length_le
  have hsix : someCalls.length = 6 := rfl
  omega

/-- One value, added until its count is `1` for the second time, and removed once. -/
def wrappingCalls : List (TrackerCall String ℚ) :=
  List.replicate (2 ^ 64 + 1) (.onAdd "a" 0) ++ [.onRemove "a" 0]

/-- There are `2 ^ 64` copies of the value, but no least one is reported. -/
theorem wrappingCalls_absent :
    heldAfter wrappingCalls "a" ≠ 0 ∧
      (MinTrackerDefault.after wrappingCalls).getMin "a" = (false, 0) := by
  constructor
  · unfold wrappingCalls
    rw [heldAfter_replicate_concat, ← Multiset.card_pos, Multiset.card_replicate]
    exact Nat.two_pow_pos 64
  · exact getMin_of_wrap (by decide) "a" 0

end CryptobotAlgo.Aos
