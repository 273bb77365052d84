import CryptobotAlgo.Aos.Equiv.MemPool
import CryptobotAlgo.Aos.MemPoolBoost
import CryptobotAlgo.LinkedList

/-!
# The pool hands out memory that it does not have any more

The free list is made of blocks that `boost::pool` has given out and in which no object lives
(`Sound`), so `Allocate` returns memory that the pool owns.  `Clear` leaves `head_` as it is: if the
free list is not empty, it then leads to memory that belongs to the system (`Stale`), and the next
`Allocate` returns this memory.

Hence all pointers that `Allocate` returns are right exactly when every `Clear` that an `Allocate`
comes after finds the free list empty (`returnsOwned_iff`).

Until it is cleared, this pool is that in which the blocks are numbered (`Represents`).
-/

namespace CryptobotAlgo.Common.ClearablePool

open LinkedList

variable {σ : Type*} {B : BoostPool σ} {p : ClearablePool σ}

/-- The blocks `l` are the free list. -/
structure FreeList (B : BoostPool σ) (p : ClearablePool σ) (l : List Ptr) : Prop where
  chain : Chain p.words p.head l
  nodup : l.Nodup
  given : ∀ b ∈ l, b ∈ B.given p.pool
  dead : ∀ b ∈ l, b ∉ p.live

/-- The free blocks and the objects are in blocks that `boost::pool` has given out. -/
structure Sound (B : BoostPool σ) (p : ClearablePool σ) : Prop where
  freeList : ∃ l, FreeList B p l
  live : ∀ b ∈ p.live, b ∈ B.given p.pool

/-- The free list is not empty, and the pool has no memory. -/
structure Stale (B : BoostPool σ) (p : ClearablePool σ) : Prop where
  head : p.head ≠ none
  owned : B.owned p.pool = ∅
  live : p.live = ∅

/-- A pointer that the call returns is memory that the pool owns then, and not of a live object. -/
def ReturnsOwned (B : BoostPool σ) (p : ClearablePool σ) (c : ClearablePoolCall) : Prop :=
  ∀ block, some block ∈ (p.step B c).2 →
    block ∈ B.owned (p.step B c).1.pool ∧ block ∉ p.live

/-- Every `Clear` that an `Allocate` comes after finds the free list empty. -/
def ClearsEmpty (B : BoostPool σ) (p : ClearablePool σ) (calls : List ClearablePoolCall) : Prop :=
  ∀ pre mid word post, calls = pre ++ .clear :: (mid ++ .allocate word :: post) →
    ((clearablePoolMachine B).final p pre).head = none

theorem sound_new (poolSize : ℕ) (memory : Ptr → Option Ptr) : Sound B (new B poolSize memory) where
  freeList := ⟨[], rfl, List.nodup_nil, nofun, nofun⟩
  live := fun _ hb => absurd hb (Finset.notMem_empty _)

/-! ### What the calls do -/

section Calls

variable {l : List Ptr} {block : Ptr}

/-- What an `Allocate` does in a pool that has a size. -/
theorem allocate_cases (hsize : p.poolSize ≠ 0) (word : Option Ptr) :
    (∃ block, p.head = some block ∧
      p.allocate B word = (some block, { p with head := p.words block }.construct block word)) ∨
    (p.head = none ∧ ∃ obj pool, B.malloc p.pool = (some obj, pool) ∧
      p.allocate B word = (some obj, { p with pool }.construct obj word)) ∨
    (p.head = none ∧ ∃ pool, B.malloc p.pool = (none, pool) ∧
      p.allocate B word = (none, { p with pool })) := by
  unfold allocate
  rw [if_neg hsize]
  cases hhead : p.head with
  | some block => exact .inl ⟨block, rfl, rfl⟩
  | none =>
    refine .inr ?_
    rcases hmalloc : B.malloc p.pool with ⟨obj, pool⟩
    cases obj with
    | some obj => exact .inl ⟨rfl, obj, pool, rfl, rfl⟩
    | none => exact .inr ⟨rfl, pool, rfl, rfl⟩

/-- An object is constructed in a block that is given out and not on the free list. -/
theorem FreeList.construct (hl : FreeList B p l) (hlive : ∀ b ∈ p.live, b ∈ B.given p.pool)
    (hgiven : block ∈ B.given p.pool) (hblock : block ∉ l) (word : Option Ptr) :
    Sound B (p.construct block word) where
  freeList := by
    refine ⟨l, hl.chain.update hblock word, hl.nodup, hl.given, fun b hb hmem => ?_⟩
    rcases Finset.mem_insert.mp hmem with rfl | hmem
    · exact hblock hb
    · exact hl.dead b hb hmem
  live := by
    intro b hb
    rcases Finset.mem_insert.mp hb with rfl | hb
    · exact hgiven
    · exact hlive b hb

/-- `Allocate` returns memory that the pool owns and that is not in use. -/
theorem Sound.allocate (hB : B.Documented) (h : Sound B p) (word : Option Ptr) :
    Sound B (p.allocate B word).2 ∧
      ∀ block, (p.allocate B word).1 = some block →
        block ∈ B.owned (p.allocate B word).2.pool ∧ block ∉ p.live := by
  by_cases hsize : p.poolSize = 0
  · unfold ClearablePool.allocate
    rw [if_pos hsize]
    exact ⟨h, nofun⟩
  obtain ⟨l, hl⟩ := h.freeList
  rcases allocate_cases (B := B) hsize word with
    ⟨block, hhead, heq⟩ | ⟨hhead, obj, pool, hmalloc, heq⟩ | ⟨hhead, pool, hmalloc, heq⟩
  · -- the head of the free list, which is there only once
    rw [heq]
    cases l with
    | nil => exact nomatch hhead.symm.trans hl.chain
    | cons b l =>
      obtain ⟨hb, hrest⟩ := hl.chain
      obtain rfl : block = b := Option.some.inj (hhead.symm.trans hb)
      obtain ⟨hnotMem, hnodup⟩ := List.nodup_cons.mp hl.nodup
      have hgiven := hl.given block List.mem_cons_self
      have hl' : FreeList B { p with head := p.words block } l :=
        ⟨hrest, hnodup, fun b hb => hl.given b (List.mem_cons_of_mem _ hb),
          fun b hb => hl.dead b (List.mem_cons_of_mem _ hb)⟩
      refine ⟨hl'.construct h.live hgiven hnotMem word, ?_⟩
      rintro _ ⟨rfl⟩
      exact ⟨hB.given_subset _ hgiven, hl.dead block List.mem_cons_self⟩
  · -- a block that `malloc` has not given out before, so no object lives in it
    rw [heq]
    obtain ⟨howned, hnot, hgiven⟩ := hB.malloc_block _ _ _ hmalloc
    have hl' : FreeList B { p with pool } [] := ⟨hhead, List.nodup_nil, nofun, nofun⟩
    have hlive : ∀ b ∈ p.live, b ∈ B.given pool := fun b hb =>
      hgiven ▸ Set.mem_insert_of_mem obj (h.live b hb)
    refine ⟨hl'.construct hlive (hgiven ▸ Set.mem_insert ..) List.not_mem_nil word, ?_⟩
    rintro _ ⟨rfl⟩
    exact ⟨howned, fun hmem => hnot (h.live obj hmem)⟩
  · -- `malloc` has failed, and nothing has changed
    rw [heq]
    have hgiven := hB.malloc_null _ _ hmalloc
    refine ⟨⟨⟨[], hhead, List.nodup_nil, nofun, nofun⟩, fun b hb => ?_⟩, nofun⟩
    exact hgiven ▸ h.live b hb

theorem Sound.deallocate (h : Sound B p) {obj : Option Ptr}
    (hobj : ∀ block, obj = some block → block ∈ p.live) : Sound B (p.deallocate obj) := by
  cases obj with
  | none => exact h
  | some block =>
    have hlive : block ∈ p.live := hobj block rfl
    obtain ⟨l, hl⟩ := h.freeList
    -- an object lives in the block, so it is not on the list yet
    have hblock : block ∉ l := fun hmem => hl.dead block hmem hlive
    refine ⟨⟨block :: l, ⟨rfl, ?_⟩, List.nodup_cons.mpr ⟨hblock, hl.nodup⟩, ?_, ?_⟩, ?_⟩
    · show Chain (Function.update p.words block p.head)
        (Function.update p.words block p.head block) l
      rw [Function.update_self]
      exact hl.chain.update hblock p.head
    · exact List.forall_mem_cons.mpr ⟨h.live block hlive, hl.given⟩
    · refine List.forall_mem_cons.mpr ⟨Finset.notMem_erase block p.live, fun b hb hmem => ?_⟩
      exact hl.dead b hb (Finset.mem_of_mem_erase hmem)
    · exact fun b hb => h.live b (Finset.mem_of_mem_erase hb)

/-- With an empty free list, `Clear` leaves a pool as it was at first. -/
theorem sound_clear (hhead : p.head = none) : Sound B (p.clear B) where
  freeList := ⟨[], hhead, List.nodup_nil, nofun, nofun⟩
  live := fun _ hb => absurd hb (Finset.notMem_empty _)

/-- A write to an object, or to memory of others, does not touch the free list. -/
theorem Sound.write (hB : B.Documented) (h : Sound B p)
    (hblock : block ∈ p.live ∨ block ∉ B.owned p.pool) (word : Option Ptr) :
    Sound B { p with words := Function.update p.words block word } := by
  obtain ⟨l, hl⟩ := h.freeList
  have hnotMem : block ∉ l := by
    intro hmem
    rcases hblock with hlive | howned
    · exact hl.dead block hmem hlive
    · exact howned (hB.given_subset _ (hl.given block hmem))
  exact ⟨⟨l, hl.chain.update hnotMem word, hl.nodup, hl.given, hl.dead⟩, h.live⟩

theorem poolSize_step (p : ClearablePool σ) (c : ClearablePoolCall) :
    (p.step B c).1.poolSize = p.poolSize := by
  cases c with
  | allocate word =>
    by_cases hsize : p.poolSize = 0
    · show (p.allocate B word).2.poolSize = p.poolSize
      unfold allocate
      rw [if_pos hsize]
    · rcases allocate_cases (B := B) hsize word with
        ⟨_, _, heq⟩ | ⟨_, _, _, _, heq⟩ | ⟨_, _, _, heq⟩
      · exact congrArg (fun r => r.2.poolSize) heq
      · exact congrArg (fun r => r.2.poolSize) heq
      · exact congrArg (fun r => r.2.poolSize) heq
  | deallocate obj => cases obj <;> rfl
  | clear => rfl
  | write block word => rfl

/-- A pool in which something lives or is free has a size. -/
def HasSize (p : ClearablePool σ) : Prop := p.poolSize = 0 → p.head = none ∧ p.live = ∅

theorem HasSize.step (h : HasSize p) {c : ClearablePoolCall} (hc : p.Enabled B c) :
    HasSize (p.step B c).1 := by
  intro hsize
  rw [poolSize_step] at hsize
  obtain ⟨hhead, hlive⟩ := h hsize
  cases c with
  | allocate word =>
    show (p.allocate B word).2.head = none ∧ (p.allocate B word).2.live = ∅
    unfold allocate
    rw [if_pos hsize]
    exact ⟨hhead, hlive⟩
  | deallocate obj =>
    cases obj with
    | none => exact ⟨hhead, hlive⟩
    | some block =>
      have hmem := hc block rfl
      rw [hlive] at hmem
      exact absurd hmem (Finset.notMem_empty block)
  | clear => exact ⟨hhead, rfl⟩
  | write block word => exact ⟨hhead, hlive⟩

/-! ### The memory of the system -/

theorem stale_clear (hB : B.Documented) (hhead : p.head ≠ none) : Stale B (p.clear B) :=
  ⟨hhead, hB.purge_owned p.pool, rfl⟩

/-- The free list keeps leading to the system until an `Allocate` takes a block from it. -/
theorem Stale.step (hB : B.Documented) (h : Stale B p) {c : ClearablePoolCall}
    (hc : p.Enabled B c) (hallocate : ∀ word, c ≠ .allocate word) : Stale B (p.step B c).1 := by
  cases c with
  | allocate word => exact absurd rfl (hallocate word)
  | deallocate obj =>
    cases obj with
    | none => exact h
    | some block =>
      -- there is no object that could be deallocated
      have hlive := hc block rfl
      rw [h.live] at hlive
      exact absurd hlive (Finset.notMem_empty block)
  | clear => exact stale_clear hB h.head
  | write block word => exact ⟨h.head, h.owned, h.live⟩

/-- This `Allocate` returns memory that the pool does not have. -/
theorem Stale.not_returnsOwned (h : Stale B p) (hsize : p.poolSize ≠ 0) (word : Option Ptr) :
    ¬ ReturnsOwned B p (.allocate word) := by
  intro howned
  rcases allocate_cases (B := B) hsize word with ⟨block, -, heq⟩ | ⟨hhead, -⟩ | ⟨hhead, -⟩
  · have hstep : p.step B (.allocate word) =
        ({ p with head := p.words block }.construct block word, [some block]) := by
      show ((p.allocate B word).2, [(p.allocate B word).1]) = _
      rw [heq]
    have hmem := (howned block (by rw [hstep]; exact List.mem_singleton_self _)).1
    rw [hstep] at hmem
    exact absurd hmem (h.owned ▸ Set.notMem_empty block)
  · exact h.head hhead
  · exact h.head hhead

end Calls

/-! ### Runs -/

section Runs

variable {calls : List ClearablePoolCall}

theorem Sound.step (hB : B.Documented) (h : Sound B p) {c : ClearablePoolCall}
    (hc : p.Enabled B c) (hclear : c = .clear → p.head = none) : Sound B (p.step B c).1 := by
  cases c with
  | allocate word => exact (h.allocate hB word).1
  | deallocate obj => exact h.deallocate hc
  | clear => exact sound_clear (hclear rfl)
  | write block word => exact h.write hB hc word

theorem returnsOwned_of_ne {c : ClearablePoolCall} (hc : ∀ word, c ≠ .allocate word) :
    ReturnsOwned B p c := by
  intro block hblock
  cases c with
  | allocate word => exact absurd rfl (hc word)
  | deallocate obj => exact absurd hblock List.not_mem_nil
  | clear => exact absurd hblock List.not_mem_nil
  | write block word => exact absurd hblock List.not_mem_nil

theorem Sound.returnsOwned (hB : B.Documented) (h : Sound B p) (c : ClearablePoolCall) :
    ReturnsOwned B p c := by
  by_cases hc : ∃ word, c = .allocate word
  · obtain ⟨word, rfl⟩ := hc
    intro block hblock
    exact (h.allocate hB word).2 block (List.mem_singleton.mp hblock).symm
  · exact returnsOwned_of_ne (not_exists.mp hc)

theorem clearsEmpty_of_allSteps
    (h : (clearablePoolMachine B).AllSteps (fun p c => c = .clear → p.head = none) p calls) :
    ClearsEmpty B p calls := fun pre mid word post hcalls =>
  (Machine.allSteps_iff _ _ _ _).mp h pre .clear (mid ++ .allocate word :: post) hcalls rfl

/-- From a sound pool on, all pointers are right if the pool is cleared as it should be. -/
theorem Sound.allSteps (hB : B.Documented) (h : Sound B p)
    (hlegal : (clearablePoolMachine B).Legal p calls) (hclears : ClearsEmpty B p calls) :
    (clearablePoolMachine B).AllSteps (ReturnsOwned B) p calls := by
  induction calls generalizing p with
  | nil => trivial
  | cons c calls ih =>
    refine ⟨h.returnsOwned hB c, ?_⟩
    by_cases hclear : c = .clear → p.head = none
    · refine ih (h.step hB hlegal.1 hclear) hlegal.2 fun pre mid word post hcalls => ?_
      exact hclears (c :: pre) mid word post (by rw [hcalls, List.cons_append])
    · -- the free list leads to the system from here on, and no `Allocate` comes
      obtain ⟨rfl, hhead⟩ := Classical.not_imp.mp hclear
      refine Machine.allSteps_of_mem _ fun e he s => returnsOwned_of_ne ?_
      rintro word rfl
      obtain ⟨mid, post, rfl⟩ := List.append_of_mem he
      exact hhead (hclears [] mid word post rfl)

/-- From a stale pool on, the first `Allocate` returns memory of the system. -/
theorem Stale.not_allSteps (hB : B.Documented) (h : Stale B p) (hsize : p.poolSize ≠ 0)
    {mid post : List ClearablePoolCall} {word : Option Ptr}
    (hlegal : (clearablePoolMachine B).Legal p (mid ++ .allocate word :: post)) :
    ¬ (clearablePoolMachine B).AllSteps (ReturnsOwned B) p (mid ++ .allocate word :: post) := by
  induction mid generalizing p with
  | nil => exact fun hall => h.not_returnsOwned hsize word hall.1
  | cons c mid ih =>
    intro hall
    by_cases hc : ∃ w, c = .allocate w
    · obtain ⟨w, rfl⟩ := hc
      exact h.not_returnsOwned hsize w hall.1
    · have hstale := h.step hB hlegal.1 (not_exists.mp hc)
      have hsize' : (p.step B c).1.poolSize ≠ 0 := (poolSize_step p c).symm ▸ hsize
      exact ih hstale hsize' hlegal.2 hall.2

/-- A pool of size `0` hands out nothing, so that nothing is given back. -/
theorem hasSize_final {poolSize : ℕ} {memory : Ptr → Option Ptr}
    (hlegal : (clearablePoolMachine B).Legal (new B poolSize memory) calls) :
    HasSize ((clearablePoolMachine B).final (new B poolSize memory) calls) :=
  (clearablePoolMachine B).invariant (P := fun p _ => HasSize p)
    (fun _ _ _ hc h => h.step hc) (fun _ => ⟨rfl, rfl⟩) hlegal

end Runs

/-- **The pointers that `Allocate` returns** are memory that the pool owns and uses only once, in
a run, exactly when every `Clear` that an `Allocate` comes after finds the free list empty. -/
theorem returnsOwned_iff (hB : B.Documented) (poolSize : ℕ) (memory : Ptr → Option Ptr)
    (calls : List ClearablePoolCall)
    (hlegal : (clearablePoolMachine B).Legal (new B poolSize memory) calls) :
    (clearablePoolMachine B).AllSteps (ReturnsOwned B) (new B poolSize memory) calls ↔
      ClearsEmpty B (new B poolSize memory) calls := by
  constructor
  · intro hall pre mid word post hcalls
    by_contra hhead
    -- the `Clear` leaves a stale pool, with an `Allocate` to come
    rw [hcalls, Machine.Legal, Machine.allSteps_append, Machine.allSteps_cons] at hlegal
    rw [hcalls, Machine.allSteps_append, Machine.allSteps_cons] at hall
    have hsize := mt (hasSize_final hlegal.1) fun hnone => hhead hnone.1
    exact (stale_clear hB hhead).not_allSteps hB hsize hlegal.2.2 hall.2.2
  · exact (sound_new poolSize memory).allSteps hB hlegal

/-! ### A pool of chunks -/

/-- `boost::pool` when no block is given back to it: the chunks are given out one after the other,
and twice as many as the last time are asked for when there are none left. -/
structure Chunks where
  startSize : ℕ
  nextSize : ℕ
  owned : ℕ := 0
  given : ℕ := 0
  given_le : given ≤ owned

/-- The system gives out the same memory again after it has got it back. -/
def chunkPool : BoostPool Chunks where
  new nextSize := { startSize := nextSize, nextSize := nextSize, given_le := Nat.le_refl 0 }
  malloc s :=
    (some s.given,
      if h : s.given < s.owned then { s with given := s.given + 1, given_le := h }
      else { s with
        nextSize := 2 * s.nextSize
        owned := s.owned + max 1 s.nextSize
        given := s.given + 1
        given_le := Nat.add_le_add s.given_le (Nat.le_max_left 1 s.nextSize) })
  purgeMemory s :=
    { s with nextSize := s.startSize, owned := 0, given := 0, given_le := Nat.le_refl 0 }
  owned s := {block | block < s.owned}
  given s := {block | block < s.given}

theorem given_malloc (s : Chunks) : (chunkPool.malloc s).2.given = s.given + 1 := by
  unfold chunkPool
  dsimp only
  split_ifs <;> rfl

theorem documented_chunkPool : chunkPool.Documented where
  given_subset := fun s _ hblock => Nat.lt_of_lt_of_le hblock s.given_le
  malloc_block := by
    intro s block s' hmalloc
    obtain rfl : s.given = block := Option.some.inj (congrArg Prod.fst hmalloc)
    have hgiven : s'.given = s.given + 1 := by rw [← given_malloc, hmalloc]
    refine ⟨?_, Nat.lt_irrefl _, ?_⟩
    · show s.given < s'.owned
      have hle := s'.given_le
      omega
    · ext block
      show block < s'.given ↔ block = s.given ∨ block < s.given
      rw [hgiven]
      exact Nat.lt_succ_iff_lt_or_eq.trans or_comm
  malloc_null := fun _ _ hmalloc => nomatch congrArg Prod.fst hmalloc
  purge_owned := fun _ => Set.eq_empty_of_forall_notMem fun _ => Nat.not_lt_zero _

/-! ### The pool of numbered blocks -/

/-- The pool is that in which a block is named by the number of the `malloc` that produced it. -/
structure Represents {T : Type*} (p : ClearablePool Chunks) (q : MemoryPoolThreadSafety T) :
    Prop where
  poolSize : p.poolSize = q.poolSize
  chain : Chain p.words p.head q.freeList
  mallocs : p.pool.given = q.mallocs
  live : ∀ b, b ∈ p.live ↔ (q.objects b).isSome

section Numbered

variable {T : Type*} {p : ClearablePool Chunks} {q : MemoryPoolThreadSafety T} {block : Ptr}

theorem represents_new (poolSize : ℕ) (memory : Ptr → Option Ptr) :
    Represents (new chunkPool poolSize memory)
      ({ poolSize := poolSize } : MemoryPoolThreadSafety T) :=
  ⟨rfl, rfl, rfl, fun b => iff_of_false (Finset.notMem_empty b) nofun⟩

theorem Represents.live_insert (h : Represents p q) (block : Ptr) (obj : T) (b : Ptr) :
    b ∈ insert block p.live ↔ (Function.update q.objects block (some obj) b).isSome := by
  rw [Finset.mem_insert]
  by_cases hb : b = block
  · rw [hb, Function.update_self]
    exact iff_of_true (.inl rfl) rfl
  · rw [Function.update_of_ne hb, ← h.live b]
    exact or_iff_right hb

theorem Represents.live_erase (h : Represents p q) (block b : Ptr) :
    b ∈ p.live.erase block ↔ (Function.update q.objects block none b).isSome := by
  rw [Finset.mem_erase]
  by_cases hb : b = block
  · rw [hb, Function.update_self]
    exact iff_of_false (fun h => h.1 rfl) nofun
  · rw [Function.update_of_ne hb, ← h.live b]
    exact and_iff_right hb

/-- Both pools return the same block. -/
theorem Represents.allocate (h : Represents p q) (hq : q.WellFormed) (word : Option Ptr) (obj : T) :
    ∃ b q', q.allocate obj = some (b, q') ∧ (p.allocate chunkPool word).1 = some b ∧
      Represents (p.allocate chunkPool word).2 q' := by
  have hsize : p.poolSize ≠ 0 := h.poolSize ▸ Nat.pos_iff_ne_zero.mp hq.poolSize
  unfold MemoryPoolThreadSafety.allocate
  rw [if_neg (Nat.pos_iff_ne_zero.mp hq.poolSize)]
  have hchain := h.chain
  cases hfree : q.freeList with
  | nil =>
    -- the chunks are given out in the order of the calls of `malloc`
    rw [hfree] at hchain
    have heq : p.allocate chunkPool word =
        (some p.pool.given,
          { p with pool := (chunkPool.malloc p.pool).2 }.construct p.pool.given word) := by
      unfold ClearablePool.allocate
      rw [if_neg hsize, show p.head = none from hchain]
      rfl
    rw [heq, h.mallocs]
    refine ⟨_, _, rfl, rfl, h.poolSize, hchain, ?_, h.live_insert q.mallocs obj⟩
    exact (given_malloc p.pool).trans (congrArg (· + 1) h.mallocs)
  | cons block next =>
    rw [hfree] at hchain
    obtain ⟨hhead, hrest⟩ := hchain
    have hnodup := hq.nodup
    rw [hfree, List.nodup_cons] at hnodup
    have heq : p.allocate chunkPool word =
        (some block, { p with head := p.words block }.construct block word) := by
      unfold ClearablePool.allocate
      rw [if_neg hsize, hhead]
    rw [heq]
    exact ⟨_, _, rfl, rfl, h.poolSize, hrest.update hnodup.1 word, h.mallocs,
      h.live_insert block obj⟩

theorem Represents.deallocate (h : Represents p q) (hq : q.WellFormed) (hblock : block ∈ p.live) :
    ∃ q', q.deallocate block = some q' ∧ Represents (p.deallocate (some block)) q' := by
  obtain ⟨obj, hobj⟩ := Option.isSome_iff_exists.mp ((h.live block).mp hblock)
  have hfree := (hq.live hobj).1
  refine ⟨_, MemoryPoolThreadSafety.deallocate_of_live hobj, h.poolSize, ⟨rfl, ?_⟩, h.mallocs,
    h.live_erase block⟩
  show Chain (Function.update p.words block p.head)
    (Function.update p.words block p.head block) q.freeList
  rw [Function.update_self]
  exact h.chain.update hfree p.head

end Numbered

/-! ### Two runs -/

/-- An object is given back, its block is used again, and the pool is cleared. -/
def reuseThenClear : List ClearablePoolCall :=
  [.allocate none, .deallocate (some 0), .allocate none, .clear, .allocate none]

theorem returnsOwned_iff_reuseThenClear :
    (clearablePoolMachine chunkPool).AllSteps (ReturnsOwned chunkPool)
      (new chunkPool 8 fun _ => none) reuseThenClear := by
  refine (returnsOwned_iff documented_chunkPool 8 (fun _ => none) reuseThenClear ?_).mpr ?_
  · refine ⟨trivial, ?_, trivial, trivial, trivial, trivial⟩
    rintro _ ⟨rfl⟩
    exact Finset.mem_insert_self 0 ∅
  · apply clearsEmpty_of_allSteps
    exact ⟨nofun, nofun, nofun, fun _ => rfl, nofun, trivial⟩

/-- An object is given back, and the pool is cleared. -/
def clearThenAllocate : List ClearablePoolCall :=
  [.allocate none, .deallocate (some 0), .clear, .allocate none]

/-- The last `Allocate` returns the block `0`, which the pool does not have any more. -/
theorem clearThenAllocate_notOwned :
    (clearablePoolMachine chunkPool).Legal (new chunkPool 8 fun _ => none) clearThenAllocate ∧
      ¬ (clearablePoolMachine chunkPool).AllSteps (ReturnsOwned chunkPool)
        (new chunkPool 8 fun _ => none) clearThenAllocate := by
  constructor
  · refine ⟨trivial, ?_, trivial, trivial, trivial⟩
    rintro _ ⟨rfl⟩
    exact Finset.mem_insert_self 0 ∅
  · rintro ⟨-, -, -, hlast, -⟩
    exact absurd (hlast 0 (List.mem_singleton_self _)).1 (Nat.not_lt_zero 0)

end CryptobotAlgo.Common.ClearablePool
