import Mathlib.Data.List.TakeDrop
import Mathlib.Data.Nat.Init
import Mathlib.Logic.Function.Basic
import Mathlib.Tactic.Common

/-!
# Last-write-wins maps

`writes m ws` is the map `m` after the writes `ws`: each key keeps the last value written to it.

A log is a list of writes, numbered from `1`; `after m log n` is the map after the first `n`.  A
copy of that map need not replay the log: it may take a `Delta`, which lists the keys touched by
some later writes with their values at the end.  Writing it again over a part that the copy already
has does no harm (`writes_delta`), since the values are absolute.
-/

namespace CryptobotAlgo.LastWrite

variable {K V : Type*} [DecidableEq K]

/-- The map `m` after the writes `ws`, made in order. -/
def writes (m : K → V) (ws : List (K × V)) : K → V :=
  ws.foldl (fun m w => Function.update m w.1 w.2) m

@[simp] theorem writes_nil (m : K → V) : writes m [] = m := rfl

@[simp] theorem writes_cons (m : K → V) (w : K × V) (ws : List (K × V)) :
    writes m (w :: ws) = writes (Function.update m w.1 w.2) ws := rfl

theorem writes_append (m : K → V) (ws ws' : List (K × V)) :
    writes m (ws ++ ws') = writes (writes m ws) ws' := List.foldl_append

variable {m : K → V} {ws : List (K × V)} {k : K}

theorem writes_apply_of_not_written (h : ∀ w ∈ ws, w.1 ≠ k) : writes m ws k = m k := by
  induction ws generalizing m with
  | nil => rfl
  | cons w ws ih =>
    rw [writes_cons, ih fun w' hw' => h w' (List.mem_cons_of_mem _ hw'),
      Function.update_of_ne (h w (List.mem_cons_self ..)).symm]

/-- The old value of a key that is written does not matter. -/
theorem writes_apply_congr (m m' : K → V) (h : ∃ w ∈ ws, w.1 = k) :
    writes m ws k = writes m' ws k := by
  induction ws generalizing m m' with
  | nil => simp at h
  | cons w ws ih =>
    rw [writes_cons, writes_cons]
    by_cases hws : ∃ w ∈ ws, w.1 = k
    · exact ih _ _ hws
    · -- `w` is the last write to `k`
      have hnot : ∀ w ∈ ws, w.1 ≠ k := fun w' hw' heq => hws ⟨w', hw', heq⟩
      obtain rfl : w.1 = k := by
        obtain ⟨w', hw', heq⟩ := h
        rcases List.mem_cons.mp hw' with rfl | hw'
        · exact heq
        · exact absurd heq (hnot w' hw')
      rw [writes_apply_of_not_written hnot, writes_apply_of_not_written hnot,
        Function.update_self, Function.update_self]

/-- A key that has the value `v` and is only ever written with `v` keeps it. -/
theorem writes_apply_of_apply {v : V} (h : m k = v) (hv : ∀ w ∈ ws, w.1 = k → w.2 = v) :
    writes m ws k = v := by
  induction ws generalizing m with
  | nil => exact h
  | cons w ws ih =>
    have htail : ∀ w ∈ ws, w.1 = k → w.2 = v := fun w' hw' => hv w' (List.mem_cons_of_mem _ hw')
    rw [writes_cons]
    apply ih _ htail
    by_cases hk : k = w.1
    · subst hk
      rw [Function.update_self]
      exact hv w (List.mem_cons_self ..) rfl
    · rw [Function.update_of_ne hk, h]

/-- A key that is only ever written with `v` ends with `v`. -/
theorem writes_apply_of_written {v : V} (h : ∃ w ∈ ws, w.1 = k) (hv : ∀ w ∈ ws, w.1 = k → w.2 = v) :
    writes m ws k = v := by
  rw [writes_apply_congr m (Function.update m k v) h]
  exact writes_apply_of_apply (Function.update_self ..) hv

/-- Two maps agree after some writes exactly when every key at which they differ is written. -/
theorem writes_eq_writes_iff (m m' : K → V) (ws : List (K × V)) :
    writes m ws = writes m' ws ↔ ∀ k, m k ≠ m' k → ∃ w ∈ ws, w.1 = k := by
  constructor
  · intro heq k hne
    by_contra hk
    have hnot : ∀ w ∈ ws, w.1 ≠ k := fun w hw hwk => hk ⟨w, hw, hwk⟩
    have happly := congrFun heq k
    rw [writes_apply_of_not_written hnot, writes_apply_of_not_written hnot] at happly
    exact hne happly
  · intro h
    ext k
    by_cases hk : ∃ w ∈ ws, w.1 = k
    · exact writes_apply_congr m m' hk
    · have hnot : ∀ w ∈ ws, w.1 ≠ k := fun w hw hwk => hk ⟨w, hw, hwk⟩
      rw [writes_apply_of_not_written hnot, writes_apply_of_not_written hnot]
      by_contra hne
      exact hk (h k hne)

/-! ### Logs -/

/-- The map after the first `n` writes of the log. -/
def after (m : K → V) (log : List (K × V)) (n : ℕ) : K → V := writes m (log.take n)

/-- One of the writes `lo, …, hi` of the log, counted from `1`, is to the key `k`. -/
def Touched (log : List (K × V)) (lo hi : ℕ) (k : K) : Prop :=
  ∃ i v, lo ≤ i + 1 ∧ i + 1 ≤ hi ∧ log[i]? = some (k, v)

/-- `ws` lists each key that the writes `lo, …, hi` touch, with its value after write `hi`. -/
structure Delta (m : K → V) (log : List (K × V)) (lo hi : ℕ) (ws : List (K × V)) : Prop where
  listed : ∀ k, Touched log lo hi k → ∃ w ∈ ws, w.1 = k
  value : ∀ w ∈ ws, w.2 = after m log hi w.1

/-- `ws` lists the map after write `n`; keys that still have their first value may be left out. -/
structure Full (m : K → V) (log : List (K × V)) (n : ℕ) (ws : List (K × V)) : Prop where
  listed : ∀ k, after m log n k ≠ m k → ∃ w ∈ ws, w.1 = k
  value : ∀ w ∈ ws, w.2 = after m log n w.1

variable {log : List (K × V)} {lo hi n : ℕ}

theorem after_succ (m : K → V) (log : List (K × V)) (n : ℕ) :
    after m log (n + 1) = writes (after m log n) log[n]?.toList := by
  unfold after
  rw [List.take_add_one, writes_append]

/-- A key that no write after the `n`-th touches keeps its value. -/
theorem after_eq_of_not_touched (hlo : lo ≤ n + 1) (hn : n ≤ hi) (h : ¬ Touched log lo hi k) :
    after m log hi k = after m log n k := by
  induction hi, hn using Nat.le_induction with
  | base => rfl
  | succ hi hn ih =>
    have hhi : ¬ Touched log lo hi k := by
      rintro ⟨i, v, hi₁, hi₂, hv⟩
      exact h ⟨i, v, hi₁, by omega, hv⟩
    rw [after_succ, writes_apply_of_not_written, ih hhi]
    -- write `hi + 1` is one of those that do not touch `k`
    intro w hw heq
    rw [Option.mem_toList] at hw
    exact h ⟨hi, w.2, by omega, Nat.le_refl _, by rw [← heq]; exact hw⟩

/-- **Catching up**: a copy that is at write `n` takes a delta for `lo, …, hi` with
`lo ≤ n + 1` and `n ≤ hi` and is at write `hi`. -/
theorem writes_delta (h : Delta m log lo hi ws) (hlo : lo ≤ n + 1) (hn : n ≤ hi) :
    writes (after m log n) ws = after m log hi := by
  ext k
  by_cases hk : ∃ w ∈ ws, w.1 = k
  · exact writes_apply_of_written hk fun w hw heq => heq ▸ h.value w hw
  · -- a key that is not listed has not been touched since write `n`
    have hnot : ∀ w ∈ ws, w.1 ≠ k := fun w hw heq => hk ⟨w, hw, heq⟩
    rw [writes_apply_of_not_written hnot]
    exact (after_eq_of_not_touched hlo hn fun ht => hk (h.listed k ht)).symm

/-- A list of the keys in a part of the log, with their values at its end, is a delta. -/
theorem delta_of_forall_mem (hlisted : ∀ x ∈ (log.take hi).drop (lo - 1), ∃ w ∈ ws, w.1 = x.1)
    (hvalue : ∀ w ∈ ws, w.2 = after m log hi w.1) : Delta m log lo hi ws where
  listed := by
    rintro k ⟨i, v, hlo, hhi, hv⟩
    have hmem : (k, v) ∈ (log.take hi).drop (lo - 1) := by
      rw [List.mem_iff_getElem?]
      refine ⟨i - (lo - 1), ?_⟩
      rw [List.getElem?_drop, Nat.add_sub_cancel' (by omega), List.getElem?_take_of_lt (by omega)]
      exact hv
    exact hlisted _ hmem
  value := hvalue

theorem full_of_forall_mem (hlisted : ∀ x ∈ log.take n, ∃ w ∈ ws, w.1 = x.1)
    (hvalue : ∀ w ∈ ws, w.2 = after m log n w.1) : Full m log n ws where
  listed := by
    intro k hk
    by_contra hnot
    refine hk (writes_apply_of_not_written fun x hx heq => hnot ?_)
    obtain ⟨w, hw, hwx⟩ := hlisted x hx
    exact ⟨w, hw, hwx.trans heq⟩
  value := hvalue

theorem writes_full (h : Full m log n ws) : writes m ws = after m log n := by
  ext k
  by_cases hk : ∃ w ∈ ws, w.1 = k
  · exact writes_apply_of_written hk fun w hw heq => heq ▸ h.value w hw
  · rw [writes_apply_of_not_written fun w hw heq => hk ⟨w, hw, heq⟩]
    by_contra hne
    exact hk (h.listed k (Ne.symm hne))

/-! ### Catching up from behind -/

/-- The copy `c` was the map after write `n`, and has then been given the values that the writes
`lo, …, hi` left behind.  These may come before write `n`, so a key of `c` is either that old or as
it was after write `n`. -/
def Patched (m : K → V) (log : List (K × V)) (n lo hi : ℕ) (c : K → V) : Prop :=
  ∀ k, c k = after m log hi k ∨ ¬ Touched log lo hi k ∧ c k = after m log n k

/-- The copy takes a delta that goes on where the last one ended. -/
theorem Patched.writes_delta {c : K → V} {lo' hi' : ℕ} (h : Patched m log n lo hi c)
    (hdelta : Delta m log lo' hi' ws) (hlo : lo' ≤ hi + 1) (hhi : hi ≤ hi') :
    Patched m log n lo hi' (writes c ws) := by
  intro k
  by_cases hk : ∃ w ∈ ws, w.1 = k
  · exact .inl (writes_apply_of_written hk fun w hw heq => heq ▸ hdelta.value w hw)
  · have hnot : ∀ w ∈ ws, w.1 ≠ k := fun w hw heq => hk ⟨w, hw, heq⟩
    have hsame : ¬ Touched log lo' hi' k := fun ht => hk (hdelta.listed k ht)
    rw [writes_apply_of_not_written hnot]
    rcases h k with hold | ⟨huntouched, hsnapshot⟩
    · exact .inl (hold.trans (after_eq_of_not_touched hlo hhi hsame).symm)
    · refine .inr ⟨?_, hsnapshot⟩
      rintro ⟨i, v, hlo₁, hhi₁, hv⟩
      rcases Nat.lt_or_ge i hi with hi₁ | hi₁
      · exact huntouched ⟨i, v, hlo₁, hi₁, hv⟩
      · exact hsame ⟨i, v, by omega, hhi₁, hv⟩

/-- The copy was the map after write `n`, and has then been given the values that a part of the log
left behind, which begins no later than right after write `n` and ends with write `hi`. -/
def PatchedAt (m : K → V) (log : List (K × V)) (n hi : ℕ) (c : K → V) : Prop :=
  n ≤ log.length ∧ hi ≤ log.length ∧ ∃ lo, lo ≤ n + 1 ∧ Patched m log n lo hi c

/-- Each value of the copy is one that the map has had. -/
theorem PatchedAt.apply {c : K → V} (h : PatchedAt m log n hi c) (k : K) :
    ∃ i, i ≤ log.length ∧ c k = after m log i k := by
  obtain ⟨hn, hhi, lo, -, hpatched⟩ := h
  rcases hpatched k with hnew | ⟨-, hold⟩
  · exact ⟨hi, hhi, hnew⟩
  · exact ⟨n, hn, hold⟩

end CryptobotAlgo.LastWrite
