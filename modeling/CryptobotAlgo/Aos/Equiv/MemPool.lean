import CryptobotAlgo.Aos.MemPool
import Mathlib.Data.List.Nodup
import Mathlib.Tactic.Common

/-!
# The memory pool hands out dead blocks

`WellFormed` is the invariant of `MemoryPoolThreadSafety` under sequential use; each operation has
one lemma that says when it succeeds, what it does to the objects, and that it keeps the invariant.
-/

namespace CryptobotAlgo.Common.MemoryPoolThreadSafety

variable {T : Type*} {p : MemoryPoolThreadSafety T}

/-- No object lives in a free block or in a block that has not been produced yet. -/
structure WellFormed (p : MemoryPoolThreadSafety T) : Prop where
  poolSize : 0 < p.poolSize
  nodup : p.freeList.Nodup
  free : ∀ b ∈ p.freeList, p.objects b = none ∧ b < p.mallocs
  fresh : ∀ b, p.mallocs ≤ b → p.objects b = none

theorem wellFormed_init {n : ℕ} (h : 1 ≤ n) :
    WellFormed ({ poolSize := n } : MemoryPoolThreadSafety T) :=
  ⟨h, List.nodup_nil, by simp, fun _ _ => rfl⟩

/-- A block in which an object lives is not free, and has been produced. -/
theorem WellFormed.live (h : WellFormed p) {b : Ptr} {obj : T} (hb : p.objects b = some obj) :
    b ∉ p.freeList ∧ b < p.mallocs := by
  constructor
  · intro hmem
    rw [(h.free b hmem).1] at hb
    cases hb
  · by_contra hge
    rw [h.fresh b (Nat.le_of_not_lt hge)] at hb
    cases hb

/-- `Allocate` returns a block in which no object lived. -/
theorem allocate_spec (h : WellFormed p) (obj : T) :
    ∃ b p', p.allocate obj = some (b, p') ∧ WellFormed p' ∧ p.objects b = none ∧
      p'.objects = Function.update p.objects b (some obj) := by
  unfold allocate
  rw [if_neg (Nat.pos_iff_ne_zero.mp h.poolSize)]
  cases hfree : p.freeList with
  | nil =>
    -- `pool_.malloc` produces the next block
    refine ⟨_, _, rfl, ⟨h.poolSize, List.nodup_nil, by simp, ?_⟩, h.fresh _ (Nat.le_refl _), rfl⟩
    intro b hb
    have hle : p.mallocs + 1 ≤ b := hb
    have hne : b ≠ p.mallocs := by omega
    exact (Function.update_of_ne hne _ _).trans (h.fresh b (by omega))
  | cons block next =>
    -- the block leaves the free list, in which it is only once
    have hnodup := h.nodup
    rw [hfree, List.nodup_cons] at hnodup
    obtain ⟨hdead, hlt⟩ := h.free block (by rw [hfree]; exact List.mem_cons_self ..)
    refine ⟨_, _, rfl, ⟨h.poolSize, hnodup.2, ?_, ?_⟩, hdead, rfl⟩
    · intro b hb
      have hne : b ≠ block := fun heq => hnodup.1 (heq ▸ hb)
      obtain ⟨hb', hlt'⟩ := h.free b (by rw [hfree]; exact List.mem_cons_of_mem _ hb)
      exact ⟨(Function.update_of_ne hne _ _).trans hb', hlt'⟩
    · intro b hb
      have hle : p.mallocs ≤ b := hb
      have hne : b ≠ block := fun heq => absurd (heq ▸ hle) (Nat.not_le_of_lt hlt)
      exact (Function.update_of_ne hne _ _).trans (h.fresh b hb)

theorem deallocate_of_live {b : Ptr} {obj : T} (hb : p.objects b = some obj) :
    p.deallocate b = some { p with
      freeList := b :: p.freeList
      objects := Function.update p.objects b none } := by
  unfold deallocate
  rw [hb]
  rfl

theorem write_of_live {b : Ptr} {obj : T} (hb : p.objects b = some obj) (obj' : T) :
    p.write b obj' = some { p with objects := Function.update p.objects b (some obj') } := by
  unfold write
  rw [hb]
  rfl

/-- Nothing is changed in the free blocks by a change of a block in which an object lives. -/
theorem WellFormed.free_update (h : WellFormed p) {b : Ptr} {obj : T} (hb : p.objects b = some obj)
    (content : Option T) :
    ∀ c ∈ p.freeList, Function.update p.objects b content c = none ∧ c < p.mallocs := by
  intro c hc
  have hne : c ≠ b := fun heq => (h.live hb).1 (heq ▸ hc)
  exact ⟨(Function.update_of_ne hne _ _).trans (h.free c hc).1, (h.free c hc).2⟩

theorem WellFormed.fresh_update (h : WellFormed p) {b : Ptr} {obj : T}
    (hb : p.objects b = some obj) (content : Option T) :
    ∀ c, p.mallocs ≤ c → Function.update p.objects b content c = none := by
  intro c hc
  have hne : c ≠ b := fun heq => absurd (heq ▸ hc) (Nat.not_le_of_lt (h.live hb).2)
  exact (Function.update_of_ne hne _ _).trans (h.fresh c hc)

/-- `Deallocate` of a block in which an object lives. -/
theorem deallocate_spec (h : WellFormed p) {b : Ptr} {obj : T} (hb : p.objects b = some obj) :
    ∃ p', p.deallocate b = some p' ∧ WellFormed p' ∧
      p'.objects = Function.update p.objects b none := by
  refine ⟨_, deallocate_of_live hb, ⟨h.poolSize, ?_, ?_, h.fresh_update hb none⟩, rfl⟩
  · exact List.nodup_cons.mpr ⟨(h.live hb).1, h.nodup⟩
  · intro c hc
    rcases List.mem_cons.mp hc with rfl | hc
    · exact ⟨Function.update_self .., (h.live hb).2⟩
    · exact h.free_update hb none c hc

/-- Assignment to an object that lives. -/
theorem write_spec (h : WellFormed p) {b : Ptr} {obj : T} (hb : p.objects b = some obj) (obj' : T) :
    ∃ p', p.write b obj' = some p' ∧ WellFormed p' ∧
      p'.objects = Function.update p.objects b (some obj') :=
  ⟨_, write_of_live hb obj',
    ⟨h.poolSize, h.nodup, h.free_update hb (some obj'), h.fresh_update hb (some obj')⟩, rfl⟩

end CryptobotAlgo.Common.MemoryPoolThreadSafety
