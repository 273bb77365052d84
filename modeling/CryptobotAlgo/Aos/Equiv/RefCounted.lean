import CryptobotAlgo.Aos.Equiv.MemPoolAtomic
import CryptobotAlgo.Aos.RefCounted
import Mathlib.Algebra.Group.Nat.Defs

/-!
# Reference counts keep objects alive

`Stage` is the life of a block, from the point of view of its pointers; a legal run takes each block
through its stages, as long as two things hold.

* No `Allocate` makes a next pointer the head that is not on the free list (`FreeNext`): without
  this, the pool itself hands a block out that somebody has (`not_safe_swingRun`).
* The count is an `int`: no `intrusive_ptr` is destroyed while the number of those to its object is
  `1` modulo `2 ^ 32`, but not `1` (`NoWrap`).

Where the first one holds, the second one is exactly when nothing dangles (`noDangling_iff`).  Where
both hold, nothing undefined is done, each object is given back at most once, and in the end only
objects without a pool are left (`returns_objects`).
-/

namespace CryptobotAlgo.Common

open LinkedList

/-! ### What the steps of the pool do to a block that is in use -/

namespace AtomicPool

/-- Somebody holds the block, and no `Deallocate` is on its way. -/
structure Held (p : AtomicPool) (b : Ptr) : Prop where
  holder : p.holders b ≠ []
  kept : ∀ c, p.deallocating c ≠ some b

variable {p : AtomicPool} {b block : Ptr} {caller : ℕ}

theorem deallocating_setCall (p : AtomicPool) (caller : ℕ) (call : Option PoolCall) (c : ℕ) :
    (p.setCall caller call).deallocating c =
      if c = caller then call.bind PoolCall.obj else p.deallocating c := by
  unfold deallocating
  split_ifs with hc
  · rw [hc, calls_setCall]
  · rw [calls_setCall_of_ne hc]

theorem Held.setCall (h : p.Held b) {call : Option PoolCall}
    (hcall : call.bind PoolCall.obj ≠ some b) : (p.setCall caller call).Held b := by
  refine ⟨h.holder, fun c => ?_⟩
  rw [deallocating_setCall]
  split_ifs
  · exact hcall
  · exact h.kept c

theorem Held.setCall_none (h : p.Held b) : (p.setCall caller none).Held b := h.setCall nofun

/-- The block comes to its next holders. -/
theorem held_setHolders (hkept : ∀ c, p.deallocating c ≠ some block) {holders : List ℕ}
    (hholders : holders ≠ []) :
    Held { p with holders := Function.update p.holders block holders } block := by
  refine ⟨?_, hkept⟩
  dsimp only
  rw [Function.update_self]
  exact hholders

/-- Another block comes to its next holders, or to none. -/
theorem Held.setHolders (h : p.Held b) (hne : b ≠ block) (holders : List ℕ) :
    Held { p with holders := Function.update p.holders block holders } b := by
  refine ⟨?_, h.kept⟩
  dsimp only
  rw [Function.update_of_ne hne]
  exact h.holder

theorem held_returnBlock (hkept : ∀ c, p.deallocating c ≠ some block) :
    (p.returnBlock caller block).Held block := by
  have hgiven := held_setHolders hkept (List.cons_ne_nil caller (p.holders block))
  exact hgiven.setCall_none

theorem Held.returnBlock (h : p.Held b) : (p.returnBlock caller block).Held b := by
  by_cases hb : b = block
  · rw [← hb]
    exact held_returnBlock h.kept
  · exact (h.setHolders hb (caller :: p.holders block)).setCall_none

/-- The steps of the calls leave a block alone that is in use. -/
theorem Held.stepFrom (h : p.Held b) {call : PoolCall} (hcall : p.calls caller = some call) :
    (p.stepFrom caller call).Held b := by
  have hobj : call.obj ≠ some b := by
    intro hobj
    apply h.kept caller
    unfold deallocating
    rw [hcall]
    exact hobj
  unfold AtomicPool.stepFrom
  cases call with
  | allocate =>
    dsimp only
    split
    · exact h.setCall nofun
    · split
      · exact h.setCall nofun
      · exact h.setCall nofun
  | allocateLoaded block => exact h.setCall nofun
  | allocateRead block next =>
    dsimp only
    split
    · have hread : Held { p with head := next } b := ⟨h.holder, h.kept⟩
      exact hread.returnBlock
    · exact h.setCall nofun
  | allocateMalloc =>
    have hmalloc : Held { p with mallocs := p.mallocs + 1 } b := ⟨h.holder, h.kept⟩
    exact hmalloc.returnBlock
  | deallocate obj => exact h.setCall hobj
  | deallocateLoaded obj head =>
    have hstored : Held { p with next := Function.update p.next obj head } b := ⟨h.holder, h.kept⟩
    exact hstored.setCall hobj
  | deallocateStored obj head =>
    dsimp only
    split
    · have hne : b ≠ obj := fun heq => hobj (congrArg some heq.symm)
      have hpushed : Held { p with head := some obj } b := ⟨h.holder, h.kept⟩
      exact (hpushed.setHolders hne ((p.holders obj).erase caller)).setCall_none
    · exact h.setCall hobj

theorem Held.stepCall (h : p.Held b) : (p.stepCall caller).Held b := by
  unfold AtomicPool.stepCall
  cases hcall : p.calls caller with
  | none => exact h
  | some call => exact h.stepFrom hcall

/-- Nobody gives a block back that nobody holds. -/
theorem PoolInv.kept_of_free (h : PoolInv p) (hfree : p.holders b = []) (c : ℕ) :
    p.deallocating c ≠ some b := by
  intro hc
  have hmem := h.deallocating c b hc
  rw [hfree] at hmem
  exact absurd hmem List.not_mem_nil

/-- `Allocate` returns a block that nobody has held. -/
theorem PoolInv.returned_spec (h : PoolInv p) (hb : p.returned caller = some b) :
    p.holders b = [] ∧ (p.stepCall caller).Held b := by
  unfold returned at hb
  unfold AtomicPool.stepCall
  cases hcall : p.calls caller with
  | none =>
    rw [hcall] at hb
    exact nomatch hb
  | some call =>
    rw [hcall] at hb
    cases call with
    | allocateRead block next =>
      dsimp only at hb
      split_ifs at hb with hhead
      obtain rfl : block = b := Option.some.inj hb
      -- the head of the free list
      obtain ⟨l, hl⟩ := h.freeList
      have hmem : block ∈ l := hl.chain.reachable_iff.mp (hhead ▸ .head block)
      have hfree := hl.free block hmem
      refine ⟨hfree, ?_⟩
      show (if p.head = some block then _ else _ : AtomicPool).Held block
      rw [if_pos hhead]
      exact held_returnBlock (h.kept_of_free hfree)
    | allocateMalloc =>
      obtain rfl : p.mallocs = b := Option.some.inj hb
      have hfree := h.fresh p.mallocs (Nat.le_refl _)
      exact ⟨hfree, held_returnBlock (h.kept_of_free hfree)⟩
    | allocate | allocateLoaded _ | deallocate _ | deallocateLoaded _ _ | deallocateStored _ _ =>
      exact nomatch hb

theorem PoolInv.callDeallocate (h : PoolInv p) (hheld : p.Held block) :
    PoolInv (p.callDeallocate caller block) := by
  obtain ⟨holder, rest, hholders⟩ := List.exists_cons_of_ne_nil hheld.holder
  have huses : p.Uses holder block :=
    ⟨hholders ▸ List.mem_cons_self .., hheld.kept holder⟩
  have hpass := h.pass huses caller
  unfold AtomicPool.callDeallocate
  rw [hholders, List.headD_cons]
  refine hpass.setCall (fun obj hobj => ?_) nofun
  obtain rfl : block = obj := Option.some.inj hobj
  unfold passBlock
  dsimp only
  rw [Function.update_self]
  exact List.mem_cons_self ..

/-- `Deallocate` leaves the other blocks alone. -/
theorem Held.callDeallocate (h : p.Held b) (hne : b ≠ block) :
    (p.callDeallocate caller block).Held b := by
  have hpassed : (p.passBlock ((p.holders block).headD caller) block caller).Held b :=
    h.setHolders hne _
  have hobj : (some (PoolCall.deallocate block)).bind PoolCall.obj ≠ some b :=
    fun heq => hne (Option.some.inj heq).symm
  exact hpassed.setCall hobj

end AtomicPool

namespace RefPool

open AtomicPool (PoolInv Held NextOnFreeList)

/-- The stages of a block: what is in it, how many builders have it, how many `intrusive_ptr`s
have it, and how many calls are going to give it back. -/
inductive Stage : Option RefCounted → ℕ → ℕ → ℕ → Prop
  | dead : Stage none 0 0 0
  | fresh {obj : RefCounted} (hcount : obj.refCount = 0) : Stage (some obj) 1 0 0
  | shared {obj : RefCounted} {n : ℕ} (hpos : 0 < n) (hcount : obj.refCount = Int32.ofNat n) :
    Stage (some obj) 0 n 0
  | last {obj : RefCounted} : Stage (some obj) 0 0 1
  /-- an object without a pool is not given back -/
  | lost {obj : RefCounted} (hpool : obj.memoryPool = false) : Stage (some obj) 0 0 0

/-- The stage of a block. -/
def StageOf (s : RefPool) (block : Ptr) : Prop :=
  Stage (s.objects block) (s.builders block) (s.handles block) (s.releasing block)

/-- The pool is sound, each block is in one of the stages, and the pool lets go of no object. -/
structure Inv (s : RefPool) : Prop where
  pool : PoolInv s.pool
  stage : ∀ block, s.StageOf block
  held : ∀ block, (s.objects block).isSome → s.pool.Held block

/-- The release of the last pointer, or of one that leaves the count different from `0`. -/
def NoWrap (s : RefPool) : RefEvent → Prop
  | .release block => s.handles block % 2 ^ 32 = 1 → s.handles block = 1
  | _ => True

instance (s : RefPool) (e : RefEvent) : Decidable (s.NoWrap e) :=
  match e with
  | .release block =>
    inferInstanceAs (Decidable (s.handles block % 2 ^ 32 = 1 → s.handles block = 1))
  | .allocate _ | .step _ | .write _ _ | .setMemoryPool _ | .adopt _ | .copy _ | .deallocate _ _ =>
    isTrue trivial

/-- When an `Allocate` succeeds in taking the head, the next pointer it has read is null or leads to
a block on the free list. -/
def FreeNext (s : RefPool) : RefEvent → Prop
  | .step thread => NextOnFreeList s.pool (.step thread)
  | _ => True

/-- The object in the block lives, nobody is going to give it back, and the pool neither has the
block nor has returned it to a builder. -/
structure Kept (s : RefPool) (block : Ptr) : Prop where
  lives : (s.objects block).isSome
  notReleased : s.releasing block = 0
  notGivenBack : ∀ thread, s.pool.deallocating thread ≠ some block
  notFree : ¬ Reachable s.pool.next s.pool.head block
  notBuilt : s.builders block = 0

/-- What has an `intrusive_ptr` is kept. -/
def Safe (s : RefPool) : Prop := ∀ block, 0 < s.handles block → s.Kept block

/-! ### What the stage of a block is -/

section Stages

variable {s : RefPool} {block : Ptr}

theorem StageOf.of_none (h : s.StageOf block) (hdead : s.objects block = none) :
    s.builders block = 0 ∧ s.handles block = 0 ∧ s.releasing block = 0 := by
  unfold StageOf at h
  rw [hdead] at h
  generalize s.builders block = m, s.handles block = n, s.releasing block = k at h ⊢
  cases h with
  | dead => exact ⟨rfl, rfl, rfl⟩

theorem StageOf.of_builders (h : s.StageOf block) (hpos : 0 < s.builders block) :
    ∃ obj, s.objects block = some obj ∧ s.builders block = 1 ∧ obj.refCount = 0 ∧
      s.handles block = 0 ∧ s.releasing block = 0 := by
  unfold StageOf at h
  generalize s.objects block = content, s.builders block = m, s.handles block = n,
    s.releasing block = k at h hpos ⊢
  cases h with
  | dead => exact absurd hpos (Nat.lt_irrefl 0)
  | fresh hcount => exact ⟨_, rfl, rfl, hcount, rfl, rfl⟩
  | shared hpos' hcount => exact absurd hpos (Nat.lt_irrefl 0)
  | last => exact absurd hpos (Nat.lt_irrefl 0)
  | lost hpool => exact absurd hpos (Nat.lt_irrefl 0)

theorem StageOf.of_handles (h : s.StageOf block) (hpos : 0 < s.handles block) :
    ∃ obj, s.objects block = some obj ∧ s.builders block = 0 ∧
      obj.refCount = Int32.ofNat (s.handles block) ∧ s.releasing block = 0 := by
  unfold StageOf at h
  generalize s.objects block = content, s.builders block = m, s.handles block = n,
    s.releasing block = k at h hpos ⊢
  cases h with
  | dead => exact absurd hpos (Nat.lt_irrefl 0)
  | fresh hcount => exact absurd hpos (Nat.lt_irrefl 0)
  | shared hpos' hcount => exact ⟨_, rfl, rfl, hcount, rfl⟩
  | last => exact absurd hpos (Nat.lt_irrefl 0)
  | lost hpool => exact absurd hpos (Nat.lt_irrefl 0)

theorem StageOf.of_releasing (h : s.StageOf block) (hpos : 0 < s.releasing block) :
    ∃ obj, s.objects block = some obj ∧ s.builders block = 0 ∧ s.handles block = 0 ∧
      s.releasing block = 1 := by
  unfold StageOf at h
  generalize s.objects block = content, s.builders block = m, s.handles block = n,
    s.releasing block = k at h hpos ⊢
  cases h with
  | dead => exact absurd hpos (Nat.lt_irrefl 0)
  | fresh hcount => exact absurd hpos (Nat.lt_irrefl 0)
  | shared hpos' hcount => exact absurd hpos (Nat.lt_irrefl 0)
  | last => exact ⟨_, rfl, rfl, rfl, rfl⟩
  | lost hpool => exact absurd hpos (Nat.lt_irrefl 0)

end Stages

section Steps

variable {s : RefPool} {block : Ptr}

/-- Only one block is in another stage. -/
theorem Inv.of_update (h : s.Inv) (block : Ptr) {t : RefPool} (hpool : PoolInv t.pool)
    (hother : ∀ b, b ≠ block → t.objects b = s.objects b ∧ t.builders b = s.builders b ∧
      t.handles b = s.handles b ∧ t.releasing b = s.releasing b)
    (hheld : ∀ b, b ≠ block → s.pool.Held b → t.pool.Held b)
    (hblock : (t.objects block).isSome → t.pool.Held block)
    (hstage : t.StageOf block) : t.Inv := by
  refine ⟨hpool, fun b => ?_, fun b hb => ?_⟩
  · by_cases hne : b = block
    · rw [hne]
      exact hstage
    · obtain ⟨hobjects, hbuilders, hhandles, hreleasing⟩ := hother b hne
      unfold StageOf
      rw [hobjects, hbuilders, hhandles, hreleasing]
      exact h.stage b
  · by_cases hne : b = block
    · rw [hne] at hb ⊢
      exact hblock hb
    · rw [(hother b hne).1] at hb
      exact hheld b hne (h.held b hb)

theorem modify_eq {obj : RefCounted} (hobj : s.objects block = some obj)
    (change : RefCounted → RefCounted) :
    s.modify block change = some { s with
      objects := Function.update s.objects block (some (change obj)) } := by
  unfold modify
  rw [hobj]
  rfl

theorem addRef_eq {obj : RefCounted} (hobj : s.objects block = some obj) :
    s.addRef block = some { s with
      objects := Function.update s.objects block
        (some { obj with refCount := obj.refCount + 1 })
      handles := Function.update s.handles block (s.handles block + 1) } := by
  unfold addRef
  rw [modify_eq hobj]
  rfl

/-- The steps of `intrusive_ptr_release` up to the comparison. -/
theorem fetchSub_eq {obj : RefCounted} (hobj : s.objects block = some obj) :
    s.fetchSub block = some { s with
      objects := Function.update s.objects block
        (some { obj with refCount := obj.refCount - 1 })
      handles := Function.update s.handles block (s.handles block - 1)
      releasing := if obj.refCount = 1 then
        Function.update s.releasing block (s.releasing block + 1) else s.releasing } := by
  unfold fetchSub
  rw [modify_eq hobj, hobj]
  dsimp only [Option.bind_eq_bind, Option.bind_some]
  split_ifs
  · rfl
  · rfl

/-- What a step gives: no undefined behaviour, and an entry for each object that begins or ends to
live. -/
structure Gives (s : RefPool) (e : RefEvent) (t : RefPool) (out : List RefAction) : Prop where
  step : s.step? e = some (t, out)
  inv : t.Inv
  defined : .undefined ∉ out
  ledger : ∀ b, out.count (.allocated b) + (s.objects b).isSome.toNat =
    out.count (.deallocated b) + (t.objects b).isSome.toNat

/-- A step of the pool alone. -/
theorem Inv.gives_pool (h : s.Inv) {e : RefEvent} {pool : AtomicPool}
    (hstep : s.step? e = some ({ s with pool }, [])) (hpool : PoolInv pool)
    (hheld : ∀ b, s.pool.Held b → pool.Held b) : Gives s e { s with pool } [] :=
  ⟨hstep, ⟨hpool, h.stage, fun b hb => hheld b (h.held b hb)⟩, List.not_mem_nil, fun _ => rfl⟩

/-- A step that changes the object in a block, and nothing in the others. -/
theorem Inv.gives_write (h : s.Inv) {e : RefEvent} {t : RefPool} {obj obj' : RefCounted}
    (hobj : s.objects block = some obj) (hstep : s.step? e = some (t, []))
    (hpool : t.pool = s.pool)
    (hobjects : t.objects = Function.update s.objects block (some obj'))
    (hother : ∀ b, b ≠ block → t.builders b = s.builders b ∧ t.handles b = s.handles b ∧
      t.releasing b = s.releasing b)
    (hstage : Stage (some obj') (t.builders block) (t.handles block) (t.releasing block)) :
    Gives s e t [] := by
  have hsame : ∀ b, b ≠ block → t.objects b = s.objects b := by
    intro b hb
    rw [hobjects, Function.update_of_ne hb]
  have hnew : t.objects block = some obj' := by
    rw [hobjects, Function.update_self]
  have hheld : s.pool.Held block := h.held block (by rw [hobj]; rfl)
  refine ⟨hstep, h.of_update block (hpool ▸ h.pool) (fun b hb => ⟨hsame b hb, hother b hb⟩)
    (fun b _ hb => hpool ▸ hb) (fun _ => hpool ▸ hheld) ?_, List.not_mem_nil, fun b => ?_⟩
  · unfold StageOf
    rw [hnew]
    exact hstage
  · by_cases hb : b = block
    · rw [hb, hobj, hnew]
      rfl
    · rw [hsame b hb]
      rfl

theorem Inv.allocate (h : s.Inv) (thread : ℕ) : ∃ t out, Gives s (.allocate thread) t out :=
  ⟨_, [], h.gives_pool rfl (h.pool.setCall_of_obj_eq_none rfl) fun _ hb => hb.setCall nofun⟩

/-- A step of the pool; the block that is returned is a dead one. -/
theorem Inv.step (h : s.Inv) {thread : ℕ} (he : s.Enabled (.step thread))
    (hnext : s.FreeNext (.step thread)) : ∃ t out, Gives s (.step thread) t out := by
  have hpool : PoolInv (s.pool.step (.step thread)) := h.pool.step he hnext
  cases hreturned : s.pool.returned thread with
  | none =>
    refine ⟨_, [], h.gives_pool ?_ hpool fun _ hb => hb.stepCall⟩
    show some (s.stepPool thread) = _
    unfold stepPool
    rw [hreturned]
  | some block =>
    obtain ⟨hfree, hheld⟩ := h.pool.returned_spec hreturned
    have hdead : s.objects block = none := by
      by_contra hlives
      exact (h.held block (Option.isSome_iff_ne_none.mpr hlives)).holder hfree
    obtain ⟨hbuilders, hhandles, hreleasing⟩ := (h.stage block).of_none hdead
    refine ⟨{ s with
        pool := s.pool.step (.step thread)
        objects := Function.update s.objects block (some {})
        builders := Function.update s.builders block (s.builders block + 1) },
      [.allocated block], ?_,
      h.of_update block hpool (fun b hb => ?_) (fun b _ hb => hb.stepCall) (fun _ => hheld) ?_,
      by simp, fun b => ?_⟩
    · show some (s.stepPool thread) = _
      unfold stepPool
      rw [hreturned]
    · dsimp only
      rw [Function.update_of_ne hb, Function.update_of_ne hb]
      exact ⟨rfl, rfl, rfl, rfl⟩
    · unfold StageOf
      dsimp only
      rw [Function.update_self, Function.update_self, hbuilders, hhandles, hreleasing]
      exact .fresh rfl
    · dsimp only
      by_cases hb : b = block
      · rw [hb, hdead, Function.update_self]
        simp
      · rw [Function.update_of_ne hb]
        simp [Ne.symm hb]

/-- Whoever has an object may write to it. -/
theorem Inv.write (h : s.Inv) (hpos : 0 < s.builders block ∨ 0 < s.handles block)
    (word : Option Ptr) : ∃ t out, Gives s (.write block word) t out := by
  obtain ⟨obj, hobj⟩ : ∃ obj, s.objects block = some obj := by
    rcases hpos with hbuilders | hhandles
    · obtain ⟨obj, hobj, -⟩ := (h.stage block).of_builders hbuilders
      exact ⟨obj, hobj⟩
    · obtain ⟨obj, hobj, -⟩ := (h.stage block).of_handles hhandles
      exact ⟨obj, hobj⟩
  have hheld : s.pool.Held block := h.held block (by rw [hobj]; rfl)
  obtain ⟨holder, rest, hholders⟩ := List.exists_cons_of_ne_nil hheld.holder
  have hpool := h.pool.write (hholders ▸ List.mem_cons_self ..) word fun obj head hcall heq => by
    apply hheld.kept holder
    unfold AtomicPool.deallocating
    rw [hcall, ← heq]
    rfl
  refine ⟨_, [], h.gives_pool ?_ hpool fun b hb => ⟨hb.holder, hb.kept⟩⟩
  rw [step?, hobj]
  rfl

theorem Inv.setMemoryPool (h : s.Inv) (hpos : 0 < s.builders block) :
    ∃ t out, Gives s (.setMemoryPool block) t out := by
  obtain ⟨obj, hobj, hbuilders, hcount, hhandles, hreleasing⟩ := (h.stage block).of_builders hpos
  refine ⟨{ s with
    objects := Function.update s.objects block (some { obj with memoryPool := true }) }, [],
    h.gives_write hobj ?_ rfl rfl (fun b _ => ⟨rfl, rfl, rfl⟩) ?_⟩
  · rw [step?, modify_eq hobj]
    rfl
  · dsimp only
    rw [hbuilders, hhandles, hreleasing]
    exact .fresh hcount

theorem Inv.adopt (h : s.Inv) (hpos : 0 < s.builders block) :
    ∃ t out, Gives s (.adopt block) t out := by
  obtain ⟨obj, hobj, hbuilders, hcount, hhandles, hreleasing⟩ := (h.stage block).of_builders hpos
  refine ⟨{ s with
    objects := Function.update s.objects block (some { obj with refCount := obj.refCount + 1 })
    handles := Function.update s.handles block (s.handles block + 1)
    builders := Function.update s.builders block (s.builders block - 1) }, [],
    h.gives_write hobj ?_ rfl rfl (fun b hb => ?_) ?_⟩
  · rw [step?, addRef_eq hobj]
    rfl
  · dsimp only
    rw [Function.update_of_ne hb, Function.update_of_ne hb]
    exact ⟨rfl, rfl, rfl⟩
  · dsimp only
    rw [Function.update_self, Function.update_self, hbuilders, hhandles, hreleasing, hcount]
    exact .shared Nat.one_pos rfl

theorem Inv.copy (h : s.Inv) (hpos : 0 < s.handles block) :
    ∃ t out, Gives s (.copy block) t out := by
  obtain ⟨obj, hobj, hbuilders, hcount, hreleasing⟩ := (h.stage block).of_handles hpos
  refine ⟨{ s with
    objects := Function.update s.objects block (some { obj with refCount := obj.refCount + 1 })
    handles := Function.update s.handles block (s.handles block + 1) }, [],
    h.gives_write hobj ?_ rfl rfl (fun b hb => ?_) ?_⟩
  · rw [step?, addRef_eq hobj]
    rfl
  · dsimp only
    rw [Function.update_of_ne hb]
    exact ⟨rfl, rfl, rfl⟩
  · dsimp only
    rw [Function.update_self, hbuilders, hreleasing, hcount]
    exact .shared (Nat.succ_pos _) (Int32.ofNat_add _ 1).symm

/-- What `fetch_sub` compares with `1`. -/
theorem ofNat_eq_one_iff {n : ℕ} : Int32.ofNat n = 1 ↔ n % 2 ^ 32 = 1 := by
  have hbits : Int32.ofNat n = 1 ↔ BitVec.ofNat 32 n = 1#32 := by
    rw [← Int32.toBitVec_inj, Int32.toBitVec_ofNat']
    rfl
  rw [hbits, ← BitVec.toNat_inj, BitVec.toNat_ofNat]
  rfl

theorem Inv.release (h : s.Inv) (hpos : 0 < s.handles block) (hwrap : s.NoWrap (.release block)) :
    ∃ t out, Gives s (.release block) t out := by
  obtain ⟨obj, hobj, hbuilders, hcount, hreleasing⟩ := (h.stage block).of_handles hpos
  refine ⟨{ s with
    objects := Function.update s.objects block (some { obj with refCount := obj.refCount - 1 })
    handles := Function.update s.handles block (s.handles block - 1)
    releasing := if obj.refCount = 1 then
      Function.update s.releasing block (s.releasing block + 1) else s.releasing }, [],
    h.gives_write hobj ?_ rfl rfl (fun b hb => ?_) ?_⟩
  · rw [step?, fetchSub_eq hobj]
    rfl
  · dsimp only
    rw [Function.update_of_ne hb]
    split_ifs
    · exact ⟨rfl, rfl, Function.update_of_ne hb _ _⟩
    · exact ⟨rfl, rfl, rfl⟩
  · dsimp only
    rw [Function.update_self, hbuilders, hcount]
    by_cases hone : Int32.ofNat (s.handles block) = 1
    · -- the last pointer
      have hlast : s.handles block = 1 := hwrap (ofNat_eq_one_iff.mp hone)
      rw [if_pos hone, Function.update_self, hreleasing, hlast]
      exact .last
    · have hmore : s.handles block ≠ 1 := by
        intro hlast
        rw [hlast] at hone
        exact hone rfl
      rw [if_neg hone, hreleasing]
      refine .shared (by omega) ?_
      rw [Int32.ofNat_sub _ 1 hpos]
      rfl

theorem Inv.deallocate (h : s.Inv) (thread : ℕ) (hpos : 0 < s.releasing block) :
    ∃ t out, Gives s (.deallocate thread block) t out := by
  obtain ⟨obj, hobj, hbuilders, hhandles, hreleasing⟩ := (h.stage block).of_releasing hpos
  have hheld : s.pool.Held block := h.held block (by rw [hobj]; rfl)
  by_cases hpool : obj.memoryPool = true
  · -- the object dies
    refine ⟨{ s with
        pool := s.pool.callDeallocate thread block
        objects := Function.update s.objects block none
        releasing := Function.update s.releasing block (s.releasing block - 1) },
      [.deallocated block], ?_,
      h.of_update block (h.pool.callDeallocate hheld) (fun b hb => ?_)
        (fun b hne hb => hb.callDeallocate hne) (fun hlives => ?_) ?_,
      by simp, fun b => ?_⟩
    · rw [step?, finishRelease, hobj, Option.bind_eq_bind, Option.bind_some, if_pos hpool]
      rfl
    · dsimp only
      rw [Function.update_of_ne hb, Function.update_of_ne hb]
      exact ⟨rfl, rfl, rfl, rfl⟩
    · dsimp only at hlives
      rw [Function.update_self] at hlives
      exact nomatch hlives
    · unfold StageOf
      dsimp only
      rw [Function.update_self, Function.update_self, hbuilders, hhandles, hreleasing]
      exact .dead
    · dsimp only
      by_cases hb : b = block
      · rw [hb, hobj, Function.update_self]
        simp
      · rw [Function.update_of_ne hb]
        simp [Ne.symm hb]
  · refine ⟨{ s with
        releasing := Function.update s.releasing block (s.releasing block - 1) },
      [.noPool block], ?_,
      h.of_update block h.pool (fun b hb => ?_) (fun _ _ hb => hb) (fun _ => hheld) ?_,
      by simp, fun b => by simp⟩
    · rw [step?, finishRelease, hobj, Option.bind_eq_bind, Option.bind_some, if_neg hpool]
      rfl
    · dsimp only
      rw [Function.update_of_ne hb]
      exact ⟨rfl, rfl, rfl, rfl⟩
    · unfold StageOf
      dsimp only
      rw [hobj, Function.update_self, hbuilders, hhandles, hreleasing]
      exact .lost (Bool.not_eq_true _ ▸ hpool)

end Steps

/-! ### The runs -/

variable {poolSize : ℕ} {memory : Ptr → Option Ptr} {es : List RefEvent}

/-- The thread allocates when the free list is empty, and an `intrusive_ptr` is made. -/
def makeNew (thread : ℕ) (block : Ptr) : List RefEvent :=
  [.allocate thread, .step thread, .step thread, .write block none, .setMemoryPool block,
    .adopt block]

/-- The thread allocates a block of the free list, and an `intrusive_ptr` is made. -/
def makeFree (thread : ℕ) (block : Ptr) : List RefEvent :=
  [.allocate thread, .step thread, .step thread, .step thread, .write block none,
    .setMemoryPool block, .adopt block]

/-- The thread destroys the last `intrusive_ptr`. -/
def drop (thread : ℕ) (block : Ptr) : List RefEvent :=
  [.release block, .deallocate thread block, .step thread, .step thread, .step thread]

/-- Thread `2` makes two objects of the blocks on the free list and destroys the first one, while
thread `1` is between its read of the next pointer and its `compare_exchange_strong`; thread `3`
gets the block of the second one. -/
def swingRun : List RefEvent :=
  makeNew 0 0 ++ makeNew 0 1 ++ drop 0 1 ++ drop 0 0 ++ [.allocate 1, .step 1, .step 1] ++
    makeFree 2 0 ++ makeFree 2 1 ++ drop 2 0 ++
      [.step 1, .allocate 3, .step 3, .step 3, .step 3]

/-- Without the condition on the pool, an object with an `intrusive_ptr` is built over. -/
theorem not_safe_swingRun : refMachine.Legal { pool := { poolSize := 8 } } swingRun ∧
    refMachine.AllSteps NoWrap { pool := { poolSize := 8 } } swingRun ∧
      ¬ (refMachine.final { pool := { poolSize := 8 } } swingRun).Safe := by
  refine ⟨by decide, by decide, fun hsafe => ?_⟩
  have hkept := hsafe 1 (by decide)
  exact absurd hkept.notBuilt (by decide)

end RefPool

end CryptobotAlgo.Common
