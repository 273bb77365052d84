import Mathlib.Algebra.BigOperators.Group.Finset.Basic
import Mathlib.Data.List.AList
import Mathlib.Data.List.Induction
import Mathlib.Data.Nat.Cast.Defs

/-!
# Counting in a map

A map that counts has an entry for each key that has occurred.  `IsTable m keys f` says which
entries a map has: one for each of the keys, with the value of `f`.  Counting the keys of a list
gives the table of their numbers (`isTable_count`; `isTable_counted`, in an arithmetic of which
nothing is known), a loop that replaces each value gives the table of the replaced values
(`IsTable.replaceValues`), and a sum over the entries is a sum over the keys
(`IsTable.sum_entries`).
-/

namespace CryptobotAlgo

variable {κ K : Type*} [DecidableEq κ]

/-- The entries of the map are those of the keys, with the values of `f`. -/
def IsTable (m : AList fun _ : κ => K) (keys : List κ) (f : κ → K) : Prop :=
  ∀ k, m.lookup k = if k ∈ keys then some (f k) else none

/-- One more occurrence of the key. -/
def increment [Zero K] [One K] [Add K] (m : AList fun _ : κ => K) (k : κ) :
    AList fun _ : κ => K :=
  m.insert k ((m.lookup k).getD 0 + 1)

/-- The loop that replaces the value of each key. -/
def replaceValues [Zero K] (g : K → K) (keys : List κ) (m : AList fun _ : κ => K) :
    AList fun _ : κ => K :=
  keys.foldl (fun m k => m.insert k (g ((m.lookup k).getD 0))) m

namespace IsTable

variable {m : AList fun _ : κ => K} {keys : List κ} {f : κ → K}

theorem mem_keys_iff (h : IsTable m keys f) (k : κ) : k ∈ m.keys ↔ k ∈ keys := by
  rw [← AList.mem_keys, ← AList.lookup_isSome, h k]
  split_ifs with hk
  · exact iff_of_true rfl hk
  · exact iff_of_false Bool.false_ne_true hk

theorem getD_lookup [Zero K] (h : IsTable m keys f) (k : κ) :
    (m.lookup k).getD 0 = if k ∈ keys then f k else 0 := by
  rw [h k]
  split_ifs <;> rfl

theorem snd_eq (h : IsTable m keys f) {e : Sigma fun _ : κ => K} (he : e ∈ m.entries) :
    e.2 = f e.1 := by
  have hlookup : m.lookup e.1 = some e.2 := AList.mem_lookup_iff.mpr he
  rw [h e.1] at hlookup
  split_ifs at hlookup
  exact (Option.some.inj hlookup).symm

/-- A sum over the entries is a sum over the keys. -/
theorem sum_entries {M : Type*} [AddCommMonoid M] (h : IsTable m keys f) (g : κ → K → M) :
    (m.entries.map fun e => g e.1 e.2).sum = ∑ k ∈ keys.toFinset, g k (f k) := by
  have hkeys : m.keys.toFinset = keys.toFinset := by
    ext k
    rw [List.mem_toFinset, List.mem_toFinset]
    exact h.mem_keys_iff k
  have hmap : (m.entries.map fun e => g e.1 e.2) = m.keys.map fun k => g k (f k) := by
    unfold AList.keys List.keys
    rw [List.map_map]
    refine List.map_congr_left fun e he => ?_
    rw [h.snd_eq he]
    rfl
  rw [hmap, ← hkeys, List.sum_toFinset _ m.keys_nodup]

end IsTable

/-- The loop visits each key once. -/
theorem lookup_replaceValues [Zero K] (g : K → K) {ks : List κ} (hks : ks.Nodup)
    (m : AList fun _ : κ => K) (k : κ) :
    (replaceValues g ks m).lookup k =
      if k ∈ ks then some (g ((m.lookup k).getD 0)) else m.lookup k := by
  induction ks generalizing m with
  | nil => rfl
  | cons k' ks ih =>
    obtain ⟨hnot, hnodup⟩ := List.nodup_cons.mp hks
    have hstep := ih hnodup (m.insert k' (g ((m.lookup k').getD 0)))
    show (replaceValues g ks (m.insert k' (g ((m.lookup k').getD 0)))).lookup k = _
    rw [hstep]
    by_cases hk : k = k'
    · subst hk
      rw [if_neg hnot, if_pos List.mem_cons_self, AList.lookup_insert]
    · rw [AList.lookup_insert_ne hk]
      simp only [List.mem_cons, hk, false_or]

/-- Replacing all values. -/
theorem IsTable.replaceValues [Zero K] {m : AList fun _ : κ => K} {keys : List κ} {f : κ → K}
    (h : IsTable m keys f) (g : K → K) :
    IsTable (CryptobotAlgo.replaceValues g m.keys m) keys fun k => g (f k) := by
  intro k
  rw [lookup_replaceValues g m.keys_nodup, h.getD_lookup]
  simp only [h.mem_keys_iff]
  split_ifs with hk
  · rfl
  · rw [h k, if_neg hk]

/-- What counting from `0` gives. -/
def counted [Zero K] [One K] [Add K] : ℕ → K
  | 0 => 0
  | count + 1 => counted count + 1

theorem counted_eq_cast [AddMonoidWithOne K] (count : ℕ) : counted count = (count : K) := by
  induction count with
  | zero => exact Nat.cast_zero.symm
  | succ count ih => rw [counted, ih, Nat.cast_succ]

/-- Counting the keys of a list, in any arithmetic. -/
theorem isTable_counted [Zero K] [One K] [Add K] (ks : List κ) :
    IsTable (ks.foldl increment ∅) ks fun k => (counted (ks.count k) : K) := by
  induction ks using List.reverseRecOn with
  | nil => exact fun k => rfl
  | append_singleton ks k' ih =>
    intro k
    rw [List.foldl_concat]
    generalize ks.foldl increment (∅ : AList fun _ : κ => K) = m at ih ⊢
    unfold increment
    by_cases hk : k = k'
    · subst hk
      -- a key that is new counts from `0`, which is the number of its occurrences before
      have hcount : (if k ∈ ks then (counted (ks.count k) : K) else 0) =
          counted (ks.count k) := by
        split_ifs with hmem
        · rfl
        · rw [List.count_eq_zero_of_not_mem hmem]
          rfl
      have hsucc : (counted ((ks ++ [k]).count k) : K) = counted (ks.count k) + 1 := by
        rw [List.count_append, List.count_singleton_self]
        rfl
      rw [AList.lookup_insert, ih.getD_lookup, hcount, ← hsucc, if_pos (by simp)]
    · rw [AList.lookup_insert_ne hk, ih k]
      simp [hk, List.count_append, Ne.symm hk]

/-- Counting the keys of a list. -/
theorem isTable_count [AddMonoidWithOne K] (ks : List κ) :
    IsTable (ks.foldl increment ∅) ks fun k => (ks.count k : K) := by
  have h := isTable_counted (K := K) ks
  simp only [counted_eq_cast] at h
  exact h

end CryptobotAlgo
