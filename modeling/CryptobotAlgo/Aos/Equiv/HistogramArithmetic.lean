import CryptobotAlgo.Aos.MutualInformationArithmetic

/-!
# The loops of the histograms

The values have bins (`Arithmetic.Binned`), the first loop counts these, and the second divides each
number by the number of values, in whatever arithmetic.  In that of a field they are the loops of
the histograms over the field.
-/

namespace CryptobotAlgo.Aos.Arithmetic

variable {K T : Type} [Zero T] [DecidableEq T] {A : Arithmetic K T}

theorem divide_eq_ok {a b : T} (h : b ≠ 0) : A.divide a b = .ok (A.div a b) := if_neg h

theorem divide_zero (a : T) : A.divide a 0 = .error .divisionByZero := if_pos rfl

/-- The bins of the values are `ks`. -/
def Binned (A : Arithmetic K T) (minVal : K) (binWidth : T) (data : List K) (ks : List ℤ) : Prop :=
  List.Forall₂ (fun value k => A.binIndex minVal binWidth value = .ok k) data ks

/-- Values that have bins have a list of them. -/
theorem exists_binned {minVal : K} {binWidth : T} {data : List K}
    (h : ∀ value ∈ data, ∃ k, A.binIndex minVal binWidth value = .ok k) :
    ∃ ks, A.Binned minVal binWidth data ks := by
  induction data with
  | nil => exact ⟨[], .nil⟩
  | cons value data ih =>
    rw [List.forall_mem_cons] at h
    obtain ⟨k, hk⟩ := h.1
    obtain ⟨ks, hks⟩ := ih h.2
    exact ⟨k :: ks, .cons hk hks⟩

variable [One T] [Add T]

/-- The loop that counts. -/
theorem foldlM_of_binned {minVal : K} {binWidth : T} {data : List K} {ks : List ℤ}
    (h : A.Binned minVal binWidth data ks) (histogram : Histogram ℤ T) :
    data.foldlM (A.countValue minVal binWidth) histogram = .ok (ks.foldl increment histogram) := by
  induction h generalizing histogram with
  | nil => rfl
  | @cons value k data ks hvalue _ ih =>
    rw [List.foldlM_cons]
    unfold countValue
    rw [hvalue]
    exact ih (increment histogram k)

/-- With the width `0` the first value is divided by it. -/
theorem foldlM_zero_width {data : List K} (hne : data ≠ []) (minVal : K)
    (histogram : Histogram ℤ T) :
    data.foldlM (A.countValue minVal 0) histogram = .error .divisionByZero := by
  obtain ⟨value, rest, rfl⟩ := List.exists_cons_of_ne_nil hne
  rw [List.foldlM_cons]
  unfold countValue binIndex
  rw [divide_zero]
  rfl

/-- The loop that counts pairs. -/
theorem countPairs_of_binned {minX minY : K} {binWidthX binWidthY : T} {x y : List K}
    {ks ls : List ℤ} (hx : A.Binned minX binWidthX x ks) (hy : A.Binned minY binWidthY y ls)
    (hlen : x.length = y.length) (histogram : Histogram (ℤ × ℤ) T) :
    A.countPairs minX binWidthX minY binWidthY x y histogram =
      .ok ((ks.zip ls).foldl increment histogram) := by
  induction hx generalizing y ls histogram with
  | nil => rfl
  | @cons value k x ks hvalue _ ih =>
    cases hy with
    | nil => exact absurd hlen (Nat.succ_ne_zero _)
    | @cons value' l y ls hvalue' hrest =>
      unfold countPairs
      rw [hvalue]
      show (A.binIndex minY binWidthY value' >>= _) = _
      rw [hvalue']
      exact ih hrest (Nat.succ.inj hlen) (increment histogram (k, l))

omit [One T] [Add T] in
/-- The loop that divides by the number of elements. -/
theorem normalize_isTable {Key : Type} [DecidableEq Key] {histogram : Histogram Key T}
    {keys : List Key} {f : Key → T} (h : IsTable histogram keys f) {size : ℕ}
    (hsize : A.ofSize size ≠ 0) :
    ∃ normalized, A.normalize size histogram = .ok normalized ∧
      IsTable normalized keys fun k => A.div (f k) (A.ofSize size) := by
  have hstep : ∀ (histogram : Histogram Key T) (key : Key), A.divideEntry size histogram key =
      pure (histogram.insert key (A.div ((histogram.lookup key).getD 0) (A.ofSize size))) := by
    intro histogram key
    unfold divideEntry
    rw [divide_eq_ok hsize]
    rfl
  refine ⟨_, ?_, h.replaceValues (A.div · (A.ofSize size))⟩
  unfold normalize
  rw [funext₂ hstep, List.foldlM_pure]
  rfl

/-- In the arithmetic of a field, the loop that counts pairs is that over the field. -/
theorem exact_countPairs {K : Type} [Field K] [LinearOrder K] [FloorRing K] (log2 : K → K)
    (minX binWidthX minY binWidthY : K) (x y : List K)
    (histogram : Histogram (ℤ × ℤ) K) :
    (exact log2).countPairs minX binWidthX minY binWidthY x y histogram =
      JointHistogramCalculatorDefault.countPairs minX binWidthX minY binWidthY x y histogram := by
  induction x generalizing y histogram with
  | nil => rfl
  | cons x xs ih =>
    cases y with
    | nil => rfl
    | cons y ys =>
      unfold countPairs JointHistogramCalculatorDefault.countPairs
      simp only [ih]
      rfl

end CryptobotAlgo.Aos.Arithmetic
