import CryptobotAlgo.Aos.MemPoolFixed
import CryptobotAlgo.Machine.Refinement
import Mathlib.Data.Finset.Card
import Mathlib.Data.Fintype.Card
import Mathlib.Data.List.Induction
import Mathlib.Data.List.Infix

/-!
# A pool of `n` blocks serves `n - 1` objects

The index that `MemPool` remembers is that of a free block, so `allocate` passes its assertion and
returns a block without an object (`Holds`).  After that it looks for another free block, and with
`n` objects there is none: the search goes around for ever (`allocate_of_full`).

Hence the calls of `allocate` all return exactly where there are always less than `n` objects
(`serves_iff`).
-/

namespace CryptobotAlgo.Common

variable {T : Type*} {n : ℕ}

/-- The pool keeps the objects: each has a block of its own, the other blocks are free, and the
block that `allocate` will take is one of them. -/
structure Holds (u : MemPoolUser T n) (o : Objects) : Prop where
  made : u.elems.length = o.made
  next : (u.pool.store u.pool.nextFreeIndex).isFree = true
  inj : ∀ k ∈ o.live, ∀ l ∈ o.live, u.elems[k]? = u.elems[l]? → k = l
  used : ∀ i, (u.pool.store i).isFree = false ↔ ∃ k ∈ o.live, u.elems[k]? = some i

/-- At most `n` objects live after each call, and every `deallocate` is of a live object. -/
def Proper (n : ℕ) (calls : List (MemPoolCall T)) : Prop :=
  ∀ pre c post, calls = pre ++ c :: post →
    (∀ k, c = .deallocate k → k ∈ (Objects.after pre).live) ∧
      (Objects.after (pre ++ [c])).live.card ≤ n

/-- Every `allocate` is reached, returns, and its block is not that of a live object. -/
def Serves [Inhabited T] (hn : 1 ≤ n) (calls : List (MemPoolCall T)) : Prop :=
  ∀ pre object post, calls = pre ++ .allocate object :: post →
    ∃ fuel u elem pool, MemPoolUser.run hn fuel pre = .ok u ∧
      u.pool.allocate fuel object = .ok (elem, pool) ∧
      ∀ k ∈ (Objects.after pre).live, u.elems[k]? ≠ some elem

/-! ### The calls that return -/

/-- What an `allocate` that returns does. -/
theorem allocate_eq_ok_iff {p pool : MemPool T n} {fuel : ℕ} {object : T} {elem : Fin n} :
    p.allocate fuel object = .ok (elem, pool) ↔
      (p.store p.nextFreeIndex).isFree = true ∧ elem = p.nextFreeIndex ∧
        pool.store = MemPool.construct p.store p.nextFreeIndex object ∧
        MemPool.updateNextFreeIndex fuel pool.store p.nextFreeIndex =
          some pool.nextFreeIndex := by
  unfold MemPool.allocate
  dsimp only
  cases hfree : (p.store p.nextFreeIndex).isFree with
  | false => exact iff_of_false nofun fun h => absurd h.1 nofun
  | true =>
    rw [Bool.not_true, if_neg Bool.false_ne_true]
    constructor
    · intro h
      split at h
      · contradiction
      · next index hscan =>
        obtain ⟨rfl, rfl⟩ := Prod.mk.inj (Except.ok.inj h)
        exact ⟨rfl, rfl, rfl, hscan⟩
    · rintro ⟨-, rfl, hstore, hscan⟩
      rw [hstore] at hscan
      rw [hscan, ← hstore]

/-! ### More fuel -/

section Fuel

variable {fuel fuel' : ℕ}

theorem allocate_mono {p pool : MemPool T n} {object : T} {elem : Fin n}
    (h : p.allocate fuel object = .ok (elem, pool)) (hfuel : fuel ≤ fuel') :
    p.allocate fuel' object = .ok (elem, pool) := by
  obtain ⟨hfree, helem, hstore, hscan⟩ := allocate_eq_ok_iff.mp h
  exact allocate_eq_ok_iff.mpr ⟨hfree, helem, hstore, whileLoop_mono hscan hfuel⟩

theorem call_mono {u u' : MemPoolUser T n} {c : MemPoolCall T} (h : u.call fuel c = .ok u')
    (hfuel : fuel ≤ fuel') : u.call fuel' c = .ok u' := by
  cases c with
  | allocate object =>
    change (u.pool.allocate fuel object).map _ = _ at h
    show (u.pool.allocate fuel' object).map _ = _
    cases hallocate : u.pool.allocate fuel object with
    | error stop =>
      rw [hallocate] at h
      contradiction
    | ok result =>
      rw [allocate_mono hallocate hfuel]
      rw [hallocate] at h
      exact h
  | deallocate k => exact h

theorem foldlM_call_mono {u u' : MemPoolUser T n} {calls : List (MemPoolCall T)}
    (h : calls.foldlM (MemPoolUser.call fuel) u = .ok u') (hfuel : fuel ≤ fuel') :
    calls.foldlM (MemPoolUser.call fuel') u = .ok u' := by
  induction calls generalizing u with
  | nil => exact h
  | cons c calls ih =>
    rw [List.foldlM_cons] at h ⊢
    cases hcall : u.call fuel c with
    | error stop =>
      rw [hcall] at h
      contradiction
    | ok next =>
      rw [hcall] at h
      rw [call_mono hcall hfuel]
      exact ih h

variable [Inhabited T]

theorem run_mono {hn : 1 ≤ n} {calls : List (MemPoolCall T)} {u : MemPoolUser T n}
    (h : MemPoolUser.run hn fuel calls = .ok u) (hfuel : fuel ≤ fuel') :
    MemPoolUser.run hn fuel' calls = .ok u :=
  foldlM_call_mono h hfuel

/-- The result of a run does not depend on the fuel. -/
theorem run_unique {hn : 1 ≤ n} {calls : List (MemPoolCall T)} {u u' : MemPoolUser T n}
    (h : MemPoolUser.run hn fuel calls = .ok u) (h' : MemPoolUser.run hn fuel' calls = .ok u') :
    u = u' := by
  have hmax := run_mono h (Nat.le_max_left fuel fuel')
  have hmax' := run_mono h' (Nat.le_max_right fuel fuel')
  exact Except.ok.inj (hmax.symm.trans hmax')

theorem run_concat (hn : 1 ≤ n) (fuel : ℕ) (calls : List (MemPoolCall T)) (c : MemPoolCall T) :
    MemPoolUser.run hn fuel (calls ++ [c]) =
      (MemPoolUser.run hn fuel calls >>= fun u => u.call fuel c) := by
  unfold MemPoolUser.run
  rw [List.foldlM_append]
  simp only [List.foldlM_cons, List.foldlM_nil, bind_pure]

end Fuel

/-! ### The blocks -/

section Blocks

variable {u : MemPoolUser T n} {o : Objects}

/-- The blocks that are not free. -/
def usedBlocks (store : Fin n → ObjectBlock T) : Finset (Fin n) :=
  Finset.univ.filter fun i => (store i).isFree = false

theorem mem_usedBlocks {store : Fin n → ObjectBlock T} {i : Fin n} :
    i ∈ usedBlocks store ↔ (store i).isFree = false := by
  unfold usedBlocks
  rw [Finset.mem_filter]
  exact and_iff_right (Finset.mem_univ i)

/-- A block is free exactly when not all of them are used. -/
theorem exists_free_iff (store : Fin n → ObjectBlock T) :
    (∃ i, (store i).isFree = true) ↔ (usedBlocks store).card < n := by
  have hcard : (usedBlocks store).card < n ↔ usedBlocks store ≠ Finset.univ := by
    rw [← Finset.card_lt_iff_ne_univ, Fintype.card_fin]
  have hnotMem : ∀ i, i ∉ usedBlocks store ↔ (store i).isFree = true := fun i => by
    rw [mem_usedBlocks, Bool.not_eq_false]
  rw [hcard, ne_eq, Finset.eq_univ_iff_forall, not_forall]
  exact exists_congr fun i => (hnotMem i).symm

theorem usedBlocks_construct (store : Fin n → ObjectBlock T) (i : Fin n) (object : T) :
    usedBlocks (MemPool.construct store i object) = insert i (usedBlocks store) := by
  ext j
  rw [Finset.mem_insert, mem_usedBlocks, mem_usedBlocks]
  unfold MemPool.construct
  by_cases hj : j = i
  · rw [hj, Function.update_self]
    exact iff_of_true rfl (.inl rfl)
  · rw [Function.update_of_ne hj]
    exact (or_iff_right hj).symm

/-- Each object that lives has been made, so its element is known. -/
theorem Holds.exists_elem (h : Holds u o) {k : ℕ} (hk : k ∈ o.live) :
    ∃ i, u.elems[k]? = some i := by
  have hlt : k < u.elems.length := h.made ▸ o.lt_made k hk
  exact ⟨_, List.getElem?_eq_getElem hlt⟩

/-- As many blocks are used as there are objects. -/
theorem Holds.card_usedBlocks (h : Holds u o) : (usedBlocks u.pool.store).card = o.live.card := by
  -- both are numbers of elements: the used blocks and the objects that live have the same ones
  have himage : (usedBlocks u.pool.store).image some = o.live.image fun k => u.elems[k]? := by
    ext elem
    rw [Finset.mem_image, Finset.mem_image]
    constructor
    · rintro ⟨i, hi, rfl⟩
      exact (h.used i).mp (mem_usedBlocks.mp hi)
    · rintro ⟨k, hk, rfl⟩
      obtain ⟨i, hi⟩ := h.exists_elem hk
      exact ⟨i, mem_usedBlocks.mpr ((h.used i).mpr ⟨k, hk, hi⟩), hi.symm⟩
  calc (usedBlocks u.pool.store).card
      = ((usedBlocks u.pool.store).image some).card :=
        (Finset.card_image_of_injective _ (Option.some_injective _)).symm
    _ = (o.live.image fun k => u.elems[k]?).card := by rw [himage]
    _ = o.live.card := Finset.card_image_of_injOn h.inj

/-- The block that `allocate` takes is not that of a live object. -/
theorem Holds.elem_ne (h : Holds u o) {k : ℕ} (hk : k ∈ o.live) :
    u.elems[k]? ≠ some u.pool.nextFreeIndex := by
  intro helem
  have hused := (h.used _).mpr ⟨k, hk, helem⟩
  exact absurd (h.next.symm.trans hused) nofun

/-- A new pool keeps no objects. -/
theorem holds_new [Inhabited T] (hn : 1 ≤ n) :
    Holds ({ pool := MemPool.new hn } : MemPoolUser T n) {} where
  made := rfl
  next := rfl
  inj := nofun
  used := fun _ => iff_of_false nofun fun ⟨_, hk, _⟩ => absurd hk (Finset.notMem_empty _)

/-! ### One call -/

/-- There is a fuel with which `allocate` returns exactly if a block stays free. -/
theorem Holds.exists_allocate_iff (h : Holds u o) (object : T) :
    (∃ fuel elem pool, u.pool.allocate fuel object = .ok (elem, pool)) ↔
      o.live.card + 1 < n := by
  have hcard : (usedBlocks (MemPool.construct u.pool.store u.pool.nextFreeIndex object)).card =
      o.live.card + 1 := by
    have hnotMem : u.pool.nextFreeIndex ∉ usedBlocks u.pool.store := by
      rw [mem_usedBlocks, h.next]
      exact nofun
    rw [usedBlocks_construct, Finset.card_insert_of_notMem hnotMem, h.card_usedBlocks]
  rw [← hcard, ← exists_free_iff]
  -- after the block is taken, the search finds any block that is still free
  have hsearch := exists_ringSearch_iff
    (fun index => !(MemPool.construct u.pool.store u.pool.nextFreeIndex object index).isFree)
    u.pool.nextFreeIndex
  simp only [Bool.not_eq_false'] at hsearch
  rw [← hsearch]
  constructor
  · rintro ⟨fuel, elem, pool, hallocate⟩
    obtain ⟨-, -, hstore, hscan⟩ := allocate_eq_ok_iff.mp hallocate
    rw [hstore] at hscan
    exact ⟨fuel, _, hscan⟩
  · rintro ⟨fuel, index, hscan⟩
    exact ⟨fuel, _, ⟨_, index⟩, allocate_eq_ok_iff.mpr ⟨h.next, rfl, rfl, hscan⟩⟩

/-- With the last block taken, `allocate` looks for a free one for ever. -/
theorem Holds.allocate_of_full (h : Holds u o) (hfull : o.live.card + 1 = n) (object : T)
    (fuel : ℕ) : u.pool.allocate fuel object = .error .outOfFuel := by
  have hnever : ¬ ∃ fuel elem pool, u.pool.allocate fuel object = .ok (elem, pool) := by
    rw [h.exists_allocate_iff, hfull]
    exact Nat.lt_irrefl n
  cases hresult : u.pool.allocate fuel object with
  | ok result => exact absurd ⟨fuel, result.1, result.2, hresult⟩ hnever
  | error stop =>
    -- the assertion succeeds, so it is the search that does not return
    unfold MemPool.allocate at hresult
    rw [h.next, Bool.not_true, if_neg Bool.false_ne_true] at hresult
    dsimp only at hresult
    split at hresult
    · rw [← hresult]
    · contradiction

/-- A returned element is added to the others. -/
theorem Holds.getElem?_concat (h : Holds u o) {k : ℕ} (hk : k ∈ o.live) (elem : Fin n) :
    (u.elems ++ [elem])[k]? = u.elems[k]? :=
  List.getElem?_append_left (h.made ▸ o.lt_made k hk)

theorem Holds.getElem?_made (h : Holds u o) (elem : Fin n) :
    (u.elems ++ [elem])[o.made]? = some elem := by
  rw [← h.made, List.getElem?_concat_length]

/-- After an `allocate` that returns, the pool keeps the new object too. -/
theorem Holds.allocate (h : Holds u o) {fuel : ℕ} {object : T} {elem : Fin n} {pool : MemPool T n}
    (hallocate : u.pool.allocate fuel object = .ok (elem, pool)) :
    Holds { pool, elems := u.elems ++ [elem] } (o.call (.allocate object)) := by
  obtain ⟨-, rfl, hstore, hscan⟩ := allocate_eq_ok_iff.mp hallocate
  have hnew : ∀ k ∈ o.live, (u.elems ++ [u.pool.nextFreeIndex])[k]? ≠
      (u.elems ++ [u.pool.nextFreeIndex])[o.made]? := by
    intro k hk
    rw [h.getElem?_concat hk, h.getElem?_made]
    exact h.elem_ne hk
  refine ⟨?_, ?_, ?_, ?_⟩
  · show (u.elems ++ [u.pool.nextFreeIndex]).length = o.made + 1
    rw [List.length_append, List.length_singleton, h.made]
  · have hfree := test_of_whileLoop hscan
    rwa [Bool.not_eq_false'] at hfree
  · show ∀ k ∈ insert o.made o.live, ∀ l ∈ insert o.made o.live,
      (u.elems ++ [u.pool.nextFreeIndex])[k]? = (u.elems ++ [u.pool.nextFreeIndex])[l]? → k = l
    intro k hk l hl heq
    rcases Finset.mem_insert.mp hk with rfl | hk
    · rcases Finset.mem_insert.mp hl with rfl | hl
      · rfl
      · exact absurd heq.symm (hnew l hl)
    · rcases Finset.mem_insert.mp hl with rfl | hl
      · exact absurd heq (hnew k hk)
      · rw [h.getElem?_concat hk, h.getElem?_concat hl] at heq
        exact h.inj k hk l hl heq
  · intro i
    show (pool.store i).isFree = false ↔ ∃ k ∈ insert o.made o.live,
      (u.elems ++ [u.pool.nextFreeIndex])[k]? = some i
    have hmem : (pool.store i).isFree = false ↔
        i = u.pool.nextFreeIndex ∨ (u.pool.store i).isFree = false := by
      rw [← mem_usedBlocks, hstore, usedBlocks_construct, Finset.mem_insert, mem_usedBlocks]
    -- the new object has the new block, and the others have those that they had
    rw [hmem, h.used, Finset.exists_mem_insert, h.getElem?_made]
    refine or_congr ⟨fun heq => congrArg some heq.symm, fun heq => (Option.some.inj heq).symm⟩ ?_
    refine exists_congr fun k => and_congr_right fun hk => ?_
    rw [h.getElem?_concat hk]

theorem deallocate_of_used {p : MemPool T n} {i : Fin n} (h : (p.store i).isFree = false) :
    p.deallocate (some i.val) =
      .ok { p with store := Function.update p.store i { p.store i with isFree := true } } := by
  have hbounds : 0 ≤ (i.val : ℤ) ∧ (i.val : ℤ) < n :=
    ⟨Int.natCast_nonneg _, Int.ofNat_lt.mpr i.isLt⟩
  unfold MemPool.deallocate
  refine (dif_pos hbounds).trans ?_
  show (if (p.store i).isFree then _ else _) = _
  rw [h, if_neg Bool.false_ne_true]
  rfl

/-- `deallocate` of a live object returns, and the pool keeps the other objects. -/
theorem Holds.deallocate (h : Holds u o) {k : ℕ} (hk : k ∈ o.live) (fuel : ℕ) :
    ∃ u', u.call fuel (.deallocate k : MemPoolCall T) = .ok u' ∧
      Holds u' (o.call (.deallocate k : MemPoolCall T)) := by
  obtain ⟨i, hi⟩ := h.exists_elem hk
  have hused : (u.pool.store i).isFree = false := (h.used i).mpr ⟨k, hk, hi⟩
  refine ⟨{ u with pool := { u.pool with
    store := Function.update u.pool.store i { u.pool.store i with isFree := true } } }, ?_, ?_⟩
  · show (u.pool.deallocate _).map _ = _
    rw [hi, Option.map_some, deallocate_of_used hused]
    rfl
  refine ⟨h.made, ?_, fun l hl m hm => ?_, fun j => ?_⟩
  · show (Function.update u.pool.store i _ u.pool.nextFreeIndex).isFree = true
    by_cases hnext : u.pool.nextFreeIndex = i
    · rw [hnext, Function.update_self]
    · rw [Function.update_of_ne hnext]
      exact h.next
  · exact h.inj l (Finset.mem_of_mem_erase hl) m (Finset.mem_of_mem_erase hm)
  · show (Function.update u.pool.store i _ j).isFree = false ↔
      ∃ l ∈ o.live.erase k, u.elems[l]? = some j
    by_cases hj : j = i
    · -- no other object has this block
      rw [hj, Function.update_self]
      refine iff_of_false nofun ?_
      rintro ⟨l, hl, helem⟩
      obtain ⟨hne, hlive⟩ := Finset.mem_erase.mp hl
      exact hne (h.inj l hlive k hk (helem.trans hi.symm))
    · rw [Function.update_of_ne hj, h.used j]
      refine exists_congr fun l => ⟨fun hl => ⟨?_, hl.2⟩, fun hl => ⟨?_, hl.2⟩⟩
      · refine Finset.mem_erase.mpr ⟨?_, hl.1⟩
        rintro rfl
        exact hj (Option.some.inj (hl.2.symm.trans hi))
      · exact Finset.mem_of_mem_erase hl.1

end Blocks

/-! ### The runs -/

theorem Objects.after_concat (calls : List (MemPoolCall T)) (c : MemPoolCall T) :
    Objects.after (calls ++ [c]) = (Objects.after calls).call c :=
  List.foldl_concat ..

theorem Objects.card_allocate (o : Objects) (object : T) :
    (o.call (.allocate object)).live.card = o.live.card + 1 :=
  Finset.card_insert_of_notMem fun hmem => Nat.lt_irrefl _ (o.lt_made _ hmem)

/-- A call after which less than `n` objects live returns. -/
theorem Holds.exists_call {u : MemPoolUser T n} {o : Objects} (h : Holds u o) {c : MemPoolCall T}
    (hlive : ∀ k, c = .deallocate k → k ∈ o.live) (hbelow : (o.call c).live.card < n) :
    ∃ fuel u', u.call fuel c = .ok u' ∧ Holds u' (o.call c) := by
  cases c with
  | allocate object =>
    rw [Objects.card_allocate] at hbelow
    obtain ⟨fuel, elem, pool, hallocate⟩ := (h.exists_allocate_iff object).mpr hbelow
    refine ⟨fuel, { pool, elems := u.elems ++ [elem] }, ?_, h.allocate hallocate⟩
    show (u.pool.allocate fuel object).map _ = _
    rw [hallocate]
    rfl
  | deallocate k => exact ⟨0, h.deallocate (hlive k rfl) 0⟩

section Runs

variable [Inhabited T] {hn : 1 ≤ n} {calls : List (MemPoolCall T)}

/-- The calls all return, and the pool keeps the objects. -/
def Kept (hn : 1 ≤ n) (calls : List (MemPoolCall T)) : Prop :=
  ∃ fuel u, MemPoolUser.run hn fuel calls = .ok u ∧ Holds u (Objects.after calls)

/-- One more call. -/
theorem Kept.concat (h : Kept hn calls) {c : MemPoolCall T}
    (hlive : ∀ k, c = .deallocate k → k ∈ (Objects.after calls).live)
    (hbelow : (Objects.after (calls ++ [c])).live.card < n) : Kept hn (calls ++ [c]) := by
  obtain ⟨fuel, u, hrun, hholds⟩ := h
  rw [Objects.after_concat] at hbelow
  obtain ⟨fuel', u', hcall, hholds'⟩ := hholds.exists_call hlive hbelow
  refine ⟨max fuel fuel', u', ?_, Objects.after_concat calls c ▸ hholds'⟩
  rw [run_concat, run_mono hrun (Nat.le_max_left fuel fuel')]
  exact call_mono hcall (Nat.le_max_right fuel fuel')

/-- With less than `n` objects, all calls return. -/
theorem kept_of_below (hproper : Proper n calls)
    (hbelow : ∀ pre, pre <+: calls → (Objects.after pre).live.card < n) :
    ∀ pre, pre <+: calls → Kept hn pre := by
  intro pre
  induction pre using List.reverseRecOn with
  | nil => exact fun _ => ⟨0, _, rfl, holds_new hn⟩
  | append_singleton pre c ih =>
    intro hpre
    have hkept : Kept hn pre := ih ((List.prefix_append pre [c]).trans hpre)
    obtain ⟨post, hpost⟩ := hpre
    have hlive := (hproper pre c post (by rw [← hpost, ← List.append_cons])).1
    exact hkept.concat hlive (hbelow _ ⟨post, hpost⟩)

/-- A pool that serves every `allocate` never has `n` objects. -/
theorem below_of_serves (hproper : Proper n calls) (hserves : Serves hn calls) :
    ∀ pre, pre <+: calls → Kept hn pre ∧ (Objects.after pre).live.card < n := by
  intro pre
  induction pre using List.reverseRecOn with
  | nil => exact fun _ => ⟨⟨0, _, rfl, holds_new hn⟩, hn⟩
  | append_singleton pre c ih =>
    intro hpre
    obtain ⟨hkept, hlt⟩ := ih ((List.prefix_append pre [c]).trans hpre)
    obtain ⟨post, hpost⟩ := hpre
    have hsplit : calls = pre ++ c :: post := by rw [← hpost, ← List.append_cons]
    have hbelow : (Objects.after (pre ++ [c])).live.card < n := by
      rw [Objects.after_concat]
      cases c with
      | allocate object =>
        -- the run that reaches the call is the one in which the pool keeps the objects
        obtain ⟨fuel, u, hrun, hholds⟩ := hkept
        obtain ⟨fuel', u', elem, pool, hrun', hallocate, -⟩ := hserves pre object post hsplit
        obtain rfl := run_unique hrun hrun'
        rw [Objects.card_allocate]
        exact (hholds.exists_allocate_iff object).mp ⟨fuel', elem, pool, hallocate⟩
      | deallocate k => exact (Finset.card_erase_le).trans_lt hlt
    exact ⟨hkept.concat (hproper pre c post hsplit).1 hbelow, hbelow⟩

end Runs

/-- **The pool serves every `allocate`** of a sequence of calls exactly when there are less than `n`
objects after each of them. -/
theorem serves_iff [Inhabited T] (hn : 1 ≤ n) (calls : List (MemPoolCall T))
    (hproper : Proper n calls) :
    Serves hn calls ↔ ∀ pre, pre <+: calls → (Objects.after pre).live.card < n := by
  constructor
  · intro hserves pre hpre
    exact (below_of_serves hproper hserves pre hpre).2
  · intro hbelow pre object post hcalls
    have hpre : pre <+: calls := ⟨_, hcalls.symm⟩
    have hnext : pre ++ [.allocate object] <+: calls :=
      ⟨post, by rw [hcalls, ← List.append_cons]⟩
    -- the calls before it all return, and with less than `n` objects after it so does this one
    have hkept : Kept hn pre := kept_of_below hproper hbelow pre hpre
    obtain ⟨fuel, u, hrun, hholds⟩ := hkept
    have hlt := hbelow _ hnext
    rw [Objects.after_concat, Objects.card_allocate] at hlt
    obtain ⟨fuel', elem, pool, hallocate⟩ := (hholds.exists_allocate_iff object).mpr hlt
    obtain ⟨-, helem, -⟩ := allocate_eq_ok_iff.mp hallocate
    refine ⟨max fuel fuel', u, elem, pool, run_mono hrun (Nat.le_max_left fuel fuel'),
      allocate_mono hallocate (Nat.le_max_right fuel fuel'), fun k hk => ?_⟩
    rw [helem]
    exact hholds.elem_ne hk

/-- Two objects at most in a pool of three blocks. -/
def twoObjects : List (MemPoolCall ℕ) :=
  [.allocate 5, .allocate 6, .deallocate 0, .allocate 7]

theorem serves_iff_twoObjects : Serves (n := 3) (by decide) twoObjects := by
  refine (serves_iff (by decide) twoObjects ?_).mpr ?_
  · unfold Proper twoObjects
    rw [forall_split_cons, forall_split_cons, forall_split_cons, forall_split_cons]
    refine ⟨⟨nofun, by decide⟩, ⟨nofun, by decide⟩, ⟨?_, by decide⟩, ⟨nofun, by decide⟩,
      forall_split_nil⟩
    intro k hk
    obtain rfl : 0 = k := MemPoolCall.deallocate.inj hk
    decide
  · intro pre hpre
    have hbelow : ∀ pre ∈ twoObjects.inits, (Objects.after pre).live.card < 3 := by decide
    exact hbelow pre ((List.mem_inits _ _).mpr hpre)

/-- A pool of one block: the first `allocate` does not return. -/
theorem oneBlock_notServed :
    Proper 1 [MemPoolCall.allocate 7] ∧ ¬ Serves (Nat.le_refl 1) [MemPoolCall.allocate 7] := by
  constructor
  · unfold Proper
    rw [forall_split_cons]
    exact ⟨⟨nofun, by decide⟩, forall_split_nil⟩
  · intro hserves
    obtain ⟨fuel, u, elem, pool, hrun, hallocate, -⟩ := hserves [] 7 [] rfl
    obtain rfl := Except.ok.inj hrun
    have hfull := (holds_new (T := ℕ) (Nat.le_refl 1)).allocate_of_full rfl 7 fuel
    rw [hfull] at hallocate
    contradiction

end CryptobotAlgo.Common
