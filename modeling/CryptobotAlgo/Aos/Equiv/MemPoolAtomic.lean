import CryptobotAlgo.Aos.MemPoolAtomic
import CryptobotAlgo.LinkedList

/-!
# Who owns the blocks of the pool

`Allocate` reads the next pointer of the block at the head, and then swings `head_` to it if the
block is still at the head.  In between, other callers may have taken this block and the blocks
behind it, and have given this block back: its next pointer is another one then, and the pointer
that was read leads to a block that somebody holds.

As long as this does not happen (`NextOnFreeList`), the blocks reachable from `head_` are a list
without repetition of blocks that nobody holds (`PoolInv`), and every block has one owner
(`oneOwner_of_nextOnFreeList`).
-/

namespace CryptobotAlgo.Common

open LinkedList

namespace AtomicPool

/-- The blocks `l` are the free list. -/
structure FreeList (p : AtomicPool) (l : List Ptr) : Prop where
  chain : Chain p.next p.head l
  nodup : l.Nodup
  free : ∀ b ∈ l, p.holders b = []
  produced : ∀ b ∈ l, b < p.mallocs

/-- The free list is sound, a block has one holder at most, which a `Deallocate` on it is, and what
a `Deallocate` has stored in its block is still there. -/
structure PoolInv (p : AtomicPool) : Prop where
  freeList : ∃ l, p.FreeList l
  one : ∀ b, (p.holders b).length ≤ 1
  fresh : ∀ b, p.mallocs ≤ b → p.holders b = []
  deallocating : ∀ caller obj, p.deallocating caller = some obj → caller ∈ p.holders obj
  stored : ∀ caller obj head, p.calls caller = some (.deallocateStored obj head) →
    p.next obj = head

/-- No block has two holders, and no block that has a holder is found from `head_`. -/
structure OneOwner (p : AtomicPool) : Prop where
  one : ∀ b, (p.holders b).length ≤ 1
  free : ∀ b, Reachable p.next p.head b → p.holders b = []

/-- When an `Allocate` succeeds in taking the head, the next pointer it has read is null or leads to
a block that is on the free list behind the head. -/
def NextOnFreeList (p : AtomicPool) (e : PoolEvent) : Prop :=
  ∀ caller block next, e = .step caller →
    p.calls caller = some (.allocateRead block (some next)) → p.head = some block →
    Reachable p.next (p.next block) next

theorem PoolInv.oneOwner {p : AtomicPool} (h : PoolInv p) : OneOwner p := by
  obtain ⟨l, hl⟩ := h.freeList
  exact ⟨h.one, fun b hb => hl.free b (hl.chain.reachable_iff.mp hb)⟩

theorem PoolInv.start (poolSize : ℕ) (memory : Ptr → Option Ptr) :
    PoolInv { poolSize := poolSize, next := memory } where
  freeList := ⟨[], rfl, List.nodup_nil, nofun, nofun⟩
  one := fun _ => Nat.zero_le 1
  fresh := fun _ _ => rfl
  deallocating := nofun
  stored := nofun

section Step

variable {p : AtomicPool} {caller : ℕ} {block : Ptr}

/-! ### What a caller holds -/

theorem PoolInv.holders_eq (h : PoolInv p) (hcaller : caller ∈ p.holders block) :
    p.holders block = [caller] := by
  have hone := h.one block
  match hholders : p.holders block with
  | [] =>
    rw [hholders] at hcaller
    exact absurd hcaller List.not_mem_nil
  | [c] =>
    rw [hholders, List.mem_singleton] at hcaller
    rw [hcaller]
  | _ :: _ :: _ =>
    rw [hholders] at hone
    exact absurd hone (by simp)

theorem PoolInv.eq_of_mem (h : PoolInv p) {c : ℕ} (hcaller : caller ∈ p.holders block)
    (hc : c ∈ p.holders block) : c = caller := by
  rw [h.holders_eq hcaller, List.mem_singleton] at hc
  exact hc

theorem PoolInv.lt_of_mem (h : PoolInv p) (hcaller : caller ∈ p.holders block) :
    block < p.mallocs := by
  by_contra hge
  rw [h.fresh block (Nat.le_of_not_lt hge)] at hcaller
  exact absurd hcaller List.not_mem_nil

theorem FreeList.not_mem {l : List Ptr} (hl : p.FreeList l) (hcaller : caller ∈ p.holders block) :
    block ∉ l := by
  intro hmem
  rw [hl.free block hmem] at hcaller
  exact absurd hcaller List.not_mem_nil

/-! ### What the caller's own place in a call is -/

theorem calls_setCall (p : AtomicPool) (caller : ℕ) (call : Option PoolCall) :
    (p.setCall caller call).calls caller = call :=
  Function.update_self ..

theorem calls_setCall_of_ne {c : ℕ} (hc : c ≠ caller) (p : AtomicPool) (call : Option PoolCall) :
    (p.setCall caller call).calls c = p.calls c :=
  Function.update_of_ne hc _ _

/-- The caller goes to another place in its call. -/
theorem PoolInv.setCall (h : PoolInv p) {call : Option PoolCall}
    (hobj : ∀ obj, call.bind PoolCall.obj = some obj → caller ∈ p.holders obj)
    (hstored : ∀ obj head, call = some (.deallocateStored obj head) → p.next obj = head) :
    PoolInv (p.setCall caller call) where
  freeList := by
    obtain ⟨l, hl⟩ := h.freeList
    exact ⟨l, hl.chain, hl.nodup, hl.free, hl.produced⟩
  one := h.one
  fresh := h.fresh
  deallocating := fun c obj hc => by
    by_cases hne : c = caller
    · subst hne
      unfold AtomicPool.deallocating at hc
      rw [calls_setCall] at hc
      exact hobj obj hc
    · unfold AtomicPool.deallocating at hc
      rw [calls_setCall_of_ne hne] at hc
      exact h.deallocating c obj hc
  stored := fun c obj head hc => by
    by_cases hne : c = caller
    · subst hne
      exact hstored obj head ((calls_setCall p c call).symm.trans hc)
    · exact h.stored c obj head ((calls_setCall_of_ne hne p call).symm.trans hc)

theorem PoolInv.setCall_of_obj_eq_none (h : PoolInv p) {call : Option PoolCall}
    (hcall : call.bind PoolCall.obj = none) : PoolInv (p.setCall caller call) := by
  refine h.setCall (fun obj hobj => ?_) (fun obj head heq => ?_)
  · exact nomatch hcall.symm.trans hobj
  · subst heq
    exact nomatch hcall

/-! ### What a step does to the blocks -/

/-- The memory and the list change, and no holder. -/
theorem PoolInv.of_freeList (h : PoolInv p) {head : Option Ptr} {mallocs : ℕ} {l : List Ptr}
    (hl : FreeList { p with head := head, mallocs := mallocs } l) (hmallocs : p.mallocs ≤ mallocs) :
    PoolInv { p with head := head, mallocs := mallocs } :=
  ⟨⟨l, hl⟩, h.one, fun b hb => h.fresh b (Nat.le_trans hmallocs hb), h.deallocating, h.stored⟩

/-- A block that is not on the free list comes to its next holder, or to none. -/
theorem PoolInv.setHolders (h : PoolInv p) {l : List Ptr} (hl : p.FreeList l) (hblock : block ∉ l)
    (hlt : block < p.mallocs) {holders : List ℕ} (hone : holders.length ≤ 1)
    (hcalls : ∀ c, p.deallocating c = some block → c ∈ holders) :
    PoolInv { p with holders := Function.update p.holders block holders } ∧
      FreeList { p with holders := Function.update p.holders block holders } l := by
  have hother : ∀ b, b ≠ block → Function.update p.holders block holders b = p.holders b :=
    fun b hb => Function.update_of_ne hb _ _
  have hl' : FreeList { p with holders := Function.update p.holders block holders } l := by
    refine ⟨hl.chain, hl.nodup, fun b hb => ?_, hl.produced⟩
    have hne : b ≠ block := fun heq => hblock (heq ▸ hb)
    exact (hother b hne).trans (hl.free b hb)
  refine ⟨⟨⟨l, hl'⟩, fun b => ?_, fun b hb => ?_, fun c obj hc => ?_, h.stored⟩, hl'⟩
  · show (Function.update p.holders block holders b).length ≤ 1
    by_cases hne : b = block
    · rw [hne, Function.update_self]
      exact hone
    · rw [hother b hne]
      exact h.one b
  · have hge : p.mallocs ≤ b := hb
    have hne : b ≠ block := fun heq => Nat.not_lt_of_le hge (heq ▸ hlt)
    exact (hother b hne).trans (h.fresh b hb)
  · show c ∈ Function.update p.holders block holders obj
    by_cases hne : obj = block
    · subst hne
      rw [Function.update_self]
      exact hcalls c hc
    · rw [hother obj hne]
      exact h.deallocating c obj hc

/-- `Allocate` returns a block that nobody holds. -/
theorem PoolInv.returnBlock (h : PoolInv p) {l : List Ptr} (hl : p.FreeList l) (hblock : block ∉ l)
    (hholders : p.holders block = []) (hlt : block < p.mallocs) :
    PoolInv (p.returnBlock caller block) := by
  have hone : (caller :: p.holders block).length ≤ 1 := by
    rw [hholders]
    exact Nat.le_refl 1
  have hnobody : ∀ c, p.deallocating c ≠ some block := by
    intro c hc
    have hmem := h.deallocating c block hc
    rw [hholders] at hmem
    exact absurd hmem List.not_mem_nil
  obtain ⟨hgiven, -⟩ := h.setHolders hl hblock hlt hone fun c hc => absurd hc (hnobody c)
  exact hgiven.setCall_of_obj_eq_none rfl

/-- `Allocate` takes the head of the free list, and what it has read becomes the head. -/
theorem PoolInv.pop (h : PoolInv p) {next : Option Ptr} (hhead : p.head = some block)
    (hnext : ∀ q, next = some q → Reachable p.next (p.next block) q) :
    PoolInv ({ p with head := next }.returnBlock caller block) := by
  obtain ⟨l, hl⟩ := h.freeList
  cases l with
  | nil => exact nomatch hhead.symm.trans hl.chain
  | cons b l =>
    obtain ⟨hb, hrest⟩ := hl.chain
    obtain rfl : block = b := Option.some.inj (hhead.symm.trans hb)
    obtain ⟨hnotMem, hnodup⟩ := List.nodup_cons.mp hl.nodup
    -- the new list is a part of the list behind the head
    obtain ⟨l', hsuffix, hchain⟩ : ∃ l', l' <:+ l ∧ Chain p.next next l' := by
      cases next with
      | none => exact ⟨[], List.nil_suffix, rfl⟩
      | some q => exact hrest.exists_suffix (hrest.reachable_iff.mp (hnext q rfl))
    have hl' : FreeList { p with head := next } l' :=
      ⟨hchain, hnodup.sublist hsuffix.sublist,
        fun b hb => hl.free b (List.mem_cons_of_mem _ (hsuffix.subset hb)),
        fun b hb => hl.produced b (List.mem_cons_of_mem _ (hsuffix.subset hb))⟩
    have hinv : PoolInv { p with head := next } := h.of_freeList hl' (Nat.le_refl _)
    exact hinv.returnBlock hl' (fun hmem => hnotMem (hsuffix.subset hmem))
      (hl.free block (List.mem_cons_self ..)) (hl.produced block (List.mem_cons_self ..))

/-- `pool_.malloc` returns a fresh block. -/
theorem PoolInv.malloc (h : PoolInv p) :
    PoolInv ({ p with mallocs := p.mallocs + 1 }.returnBlock caller p.mallocs) := by
  obtain ⟨l, hl⟩ := h.freeList
  have hl' : FreeList { p with mallocs := p.mallocs + 1 } l :=
    ⟨hl.chain, hl.nodup, hl.free, fun b hb => Nat.lt_succ_of_lt (hl.produced b hb)⟩
  have hinv : PoolInv { p with mallocs := p.mallocs + 1 } := h.of_freeList hl' (Nat.le_succ _)
  exact hinv.returnBlock hl' (fun hmem => Nat.lt_irrefl _ (hl.produced _ hmem))
    (h.fresh _ (Nat.le_refl _)) (Nat.lt_succ_self _)

/-- A write to a block that is held, by its holder. -/
theorem PoolInv.write (h : PoolInv p) (hcaller : caller ∈ p.holders block) (word : Option Ptr)
    (hstored : ∀ obj head, p.calls caller = some (.deallocateStored obj head) → obj ≠ block) :
    PoolInv { p with next := Function.update p.next block word } := by
  obtain ⟨l, hl⟩ := h.freeList
  refine ⟨⟨l, hl.chain.update (hl.not_mem hcaller) word, hl.nodup, hl.free, hl.produced⟩, h.one,
    h.fresh, h.deallocating, fun c obj head hc => ?_⟩
  have hne : obj ≠ block := by
    rintro rfl
    have hholder : c ∈ p.holders obj :=
      h.deallocating c obj (by unfold AtomicPool.deallocating; rw [hc]; rfl)
    obtain rfl : c = caller := h.eq_of_mem hcaller hholder
    exact hstored obj head hc rfl
  exact (Function.update_of_ne hne _ _).trans (h.stored c obj head hc)

/-- `Deallocate` pushes its block. -/
theorem PoolInv.push (h : PoolInv p)
    (hcall : p.calls caller = some (.deallocateStored block p.head)) :
    PoolInv ({ p with
      head := some block
      holders := Function.update p.holders block ((p.holders block).erase caller) }.setCall caller
        none) := by
  have hcaller : caller ∈ p.holders block :=
    h.deallocating caller block (by unfold AtomicPool.deallocating; rw [hcall]; rfl)
  have hnobody : (p.holders block).erase caller = [] := by
    rw [h.holders_eq hcaller, List.erase_cons_head]
  -- the call returns, and then nobody is giving the block back
  have hreturned : PoolInv (p.setCall caller none) := h.setCall_of_obj_eq_none rfl
  have hcalls : ∀ c, (p.setCall caller none).deallocating c ≠ some block := by
    intro c hc
    obtain rfl : c = caller := hreturned.eq_of_mem hcaller (hreturned.deallocating c block hc)
    unfold AtomicPool.deallocating at hc
    rw [calls_setCall] at hc
    exact nomatch hc
  obtain ⟨l, hl⟩ := hreturned.freeList
  have hblock : block ∉ l := hl.not_mem hcaller
  have hlt : block < p.mallocs := h.lt_of_mem hcaller
  have hone : ((p.holders block).erase caller).length ≤ 1 := by
    rw [hnobody]
    exact Nat.zero_le 1
  obtain ⟨hfree, hrest⟩ := hreturned.setHolders hl hblock hlt hone
    fun c hc => absurd hc (hcalls c)
  have hpushed : FreeList ({ p with
      head := some block
      holders := Function.update p.holders block ((p.holders block).erase caller) }.setCall caller
        none) (block :: l) := by
    refine ⟨⟨rfl, ?_⟩, List.nodup_cons.mpr ⟨hblock, hl.nodup⟩, ?_,
      List.forall_mem_cons.mpr ⟨hlt, hl.produced⟩⟩
    · show Chain p.next (p.next block) l
      rw [h.stored caller block p.head hcall]
      exact hl.chain
    · refine List.forall_mem_cons.mpr ⟨?_, hrest.free⟩
      exact (Function.update_self ..).trans hnobody
  exact hfree.of_freeList hpushed (Nat.le_refl _)

/-- A holder passes its block on. -/
theorem PoolInv.pass (h : PoolInv p) (hcaller : p.Uses caller block) (receiver : ℕ) :
    PoolInv (p.passBlock caller block receiver) := by
  have hone : (receiver :: (p.holders block).erase caller).length ≤ 1 := by
    rw [h.holders_eq hcaller.1, List.erase_cons_head]
    exact Nat.le_refl 1
  have hcalls : ∀ c, p.deallocating c ≠ some block := by
    intro c hc
    obtain rfl : c = caller := h.eq_of_mem hcaller.1 (h.deallocating c block hc)
    exact hcaller.2 hc
  obtain ⟨l, hl⟩ := h.freeList
  exact (h.setHolders hl (hl.not_mem hcaller.1) (h.lt_of_mem hcaller.1) hone
    fun c hc => absurd hc (hcalls c)).1

/-! ### Steps and runs -/

theorem PoolInv.stepFrom (h : PoolInv p) {call : PoolCall} (hcall : p.calls caller = some call)
    (hnext : NextOnFreeList p (.step caller)) : PoolInv (p.stepFrom caller call) := by
  have hdeallocating : ∀ obj, call.obj = some obj → caller ∈ p.holders obj := by
    intro obj hobj
    refine h.deallocating caller obj ?_
    unfold AtomicPool.deallocating
    rw [hcall]
    exact hobj
  unfold AtomicPool.stepFrom
  cases call with
  | allocate =>
    dsimp only
    split
    · exact h.setCall_of_obj_eq_none rfl
    · split
      · exact h.setCall_of_obj_eq_none rfl
      · exact h.setCall_of_obj_eq_none rfl
  | allocateLoaded block => exact h.setCall_of_obj_eq_none rfl
  | allocateRead block next =>
    dsimp only
    split
    · rename_i hhead
      refine h.pop hhead fun q hq => ?_
      subst hq
      exact hnext caller block q rfl hcall hhead
    · exact h.setCall_of_obj_eq_none rfl
  | allocateMalloc => exact h.malloc
  | deallocate obj => exact h.setCall (fun obj' hobj => hdeallocating obj' hobj) nofun
  | deallocateLoaded obj head =>
    have hcaller : caller ∈ p.holders obj := hdeallocating obj rfl
    have hwrite := h.write hcaller head fun obj' head' heq => nomatch hcall.symm.trans heq
    refine hwrite.setCall (fun obj' hobj => hdeallocating obj' hobj) fun obj' head' heq => ?_
    obtain ⟨rfl, rfl⟩ : obj = obj' ∧ head = head' := by simpa using heq
    exact Function.update_self ..
  | deallocateStored obj head =>
    dsimp only
    split
    · rename_i hhead
      subst hhead
      exact h.push hcall
    · exact h.setCall (fun obj' hobj => hdeallocating obj' hobj) nofun

theorem PoolInv.step (h : PoolInv p) {e : PoolEvent} (he : p.Enabled e)
    (hnext : NextOnFreeList p e) : PoolInv (p.step e) := by
  cases e with
  | allocate caller => exact h.setCall_of_obj_eq_none rfl
  | deallocate caller obj =>
    refine h.setCall (fun obj' hobj => ?_) nofun
    obtain rfl : obj = obj' := Option.some.inj hobj
    exact he.2.1
  | step caller =>
    show PoolInv (p.stepCall caller)
    unfold AtomicPool.stepCall
    cases hcall : p.calls caller with
    | none => exact h
    | some call => exact h.stepFrom hcall hnext
  | write caller block word =>
    refine h.write he.1 word fun obj head hcall heq => he.2 ?_
    unfold AtomicPool.deallocating
    rw [hcall, heq]
    rfl
  | pass caller block receiver => exact h.pass he receiver

end Step

/-! ### A caller that is alone -/

/-- The pool is that of the sequential model. -/
structure Abstracts {T : Type*} (p : AtomicPool) (q : MemoryPoolThreadSafety T) : Prop where
  poolSize : p.poolSize = q.poolSize
  freeList : p.FreeList q.freeList
  mallocs : p.mallocs = q.mallocs

section Alone

variable {T : Type*} {p : AtomicPool} {q : MemoryPoolThreadSafety T} {caller : ℕ}

/-- A step does not look at the places of the calls. -/
theorem stepCall_setCall (p : AtomicPool) (caller : ℕ) (call : PoolCall) :
    (p.setCall caller (some call)).stepCall caller = p.stepFrom caller call := by
  unfold stepCall
  rw [calls_setCall]
  cases call <;> simp only [stepFrom, returnBlock, setCall, Function.update_idem]

/-- The steps of an `Allocate` that is alone do what the sequential `Allocate` does. -/
theorem allocate_alone (h : Abstracts p q) (hsize : p.poolSize ≠ 0) (obj : T) :
    ∃ b q' n, q.allocate obj = some (b, q') ∧
      (poolMachine.final p (.allocate caller :: List.replicate n (.step caller))).holders b =
        caller :: p.holders b ∧
      Abstracts (poolMachine.final p (.allocate caller :: List.replicate n (.step caller))) q' := by
  obtain ⟨hpoolSize, hl, hmallocs⟩ := h
  unfold MemoryPoolThreadSafety.allocate
  rw [if_neg (hpoolSize ▸ hsize)]
  have hother : ∀ b block, b ≠ block →
      Function.update p.holders block (caller :: p.holders block) b = p.holders b :=
    fun b block hb => Function.update_of_ne hb _ _
  cases hfree : q.freeList with
  | nil =>
    rw [hfree] at hl
    have hload : p.stepFrom caller .allocate = p.setCall caller (some .allocateMalloc) := by
      unfold stepFrom
      rw [if_neg hsize, show p.head = none from hl.chain]
    have hfinal : poolMachine.final p (.allocate caller :: List.replicate 2 (.step caller)) =
        { p with mallocs := p.mallocs + 1 }.returnBlock caller p.mallocs := by
      show ((p.setCall caller (some .allocate)).stepCall caller).stepCall caller = _
      rw [stepCall_setCall, hload, stepCall_setCall]
      rfl
    refine ⟨q.mallocs, _, 2, rfl, ?_, ?_⟩
    · rw [hfinal, ← hmallocs]
      exact Function.update_self ..
    · rw [hfinal]
      exact ⟨hpoolSize, ⟨hl.chain, List.nodup_nil, nofun, nofun⟩, congrArg (· + 1) hmallocs⟩
  | cons block rest =>
    rw [hfree] at hl
    obtain ⟨hhead, hrest⟩ := hl.chain
    obtain ⟨hnotMem, hnodup⟩ := List.nodup_cons.mp hl.nodup
    have hload : p.stepFrom caller .allocate = p.setCall caller (some (.allocateLoaded block)) := by
      unfold stepFrom
      rw [if_neg hsize, hhead]
    have hread : p.stepFrom caller (.allocateLoaded block) =
        p.setCall caller (some (.allocateRead block (p.next block))) := rfl
    have hfinal : poolMachine.final p (.allocate caller :: List.replicate 3 (.step caller)) =
        { p with head := p.next block }.returnBlock caller block := by
      show (((p.setCall caller (some .allocate)).stepCall caller).stepCall caller).stepCall caller =
        _
      rw [stepCall_setCall, hload, stepCall_setCall, hread, stepCall_setCall]
      exact if_pos hhead
    refine ⟨block, _, 3, rfl, ?_, ?_⟩
    · rw [hfinal]
      exact Function.update_self ..
    · rw [hfinal]
      refine ⟨hpoolSize, ⟨hrest, hnodup, fun b hb => ?_, fun b hb => ?_⟩, hmallocs⟩
      · have hne : b ≠ block := fun heq => hnotMem (heq ▸ hb)
        exact (hother b block hne).trans (hl.free b (List.mem_cons_of_mem _ hb))
      · exact hl.produced b (List.mem_cons_of_mem _ hb)

/-- The steps of a `Deallocate` that is alone do what the sequential `Deallocate` does. -/
theorem deallocate_alone (h : Abstracts p q) (hinv : PoolInv p) {block : Ptr}
    (hcaller : caller ∈ p.holders block) {obj : T} (hobj : q.objects block = some obj) :
    ∃ q' n, q.deallocate block = some q' ∧
      Abstracts (poolMachine.final p (.deallocate caller block ::
        List.replicate n (.step caller))) q' := by
  obtain ⟨hpoolSize, hl, hmallocs⟩ := h
  have hblock := hl.not_mem hcaller
  have hnobody : (p.holders block).erase caller = [] := by
    rw [hinv.holders_eq hcaller, List.erase_cons_head]
  have hfinal : poolMachine.final p (.deallocate caller block ::
      List.replicate 3 (.step caller)) =
        { p with
          head := some block
          next := Function.update p.next block p.head
          holders := Function.update p.holders block ((p.holders block).erase caller) }.setCall
            caller none := by
    show (((p.setCall caller (some (.deallocate block))).stepCall caller).stepCall caller).stepCall
      caller = _
    rw [stepCall_setCall]
    show ((p.setCall caller (some (.deallocateLoaded block p.head))).stepCall caller).stepCall
      caller = _
    rw [stepCall_setCall]
    show (({ p with next := Function.update p.next block p.head } : AtomicPool).setCall caller
      (some (.deallocateStored block p.head))).stepCall caller = _
    rw [stepCall_setCall]
    exact if_pos rfl
  refine ⟨_, 3, by rw [MemoryPoolThreadSafety.deallocate, hobj]; rfl, ?_⟩
  rw [hfinal]
  refine ⟨hpoolSize, ⟨⟨rfl, ?_⟩, List.nodup_cons.mpr ⟨hblock, hl.nodup⟩, ?_, ?_⟩, hmallocs⟩
  · show Chain (Function.update p.next block p.head) (Function.update p.next block p.head block) _
    rw [Function.update_self]
    exact hl.chain.update hblock p.head
  · rw [List.forall_mem_cons]
    refine ⟨(Function.update_self ..).trans hnobody, fun b hb => ?_⟩
    have hne : b ≠ block := fun heq => hblock (heq ▸ hb)
    exact (Function.update_of_ne hne _ _).trans (hl.free b hb)
  · rw [List.forall_mem_cons]
    exact ⟨hinv.lt_of_mem hcaller, hl.produced⟩

end Alone

/-- A next pointer to a block that is held, or to the block that is taken, becomes the head. -/
theorem not_oneOwner_of_pop {p : AtomicPool} {caller : ℕ} {block q : Ptr}
    (hcall : p.calls caller = some (.allocateRead block (some q))) (hhead : p.head = some block)
    (hheld : q = block ∨ p.holders q ≠ []) : ¬ OneOwner (p.step (.step caller)) := by
  have hstep : p.step (.step caller) =
      { p with head := some q }.returnBlock caller block := by
    show p.stepCall caller = _
    unfold AtomicPool.stepCall
    rw [hcall]
    exact if_pos hhead
  rw [hstep]
  intro howner
  have hnobody : Function.update p.holders block (caller :: p.holders block) q = [] :=
    howner.free q (.head q)
  by_cases hne : q = block
  · rw [hne, Function.update_self] at hnobody
    exact List.cons_ne_nil _ _ hnobody
  · rw [Function.update_of_ne hne] at hnobody
    exact hheld.elim hne fun hholders => hholders hnobody

/-- **One owner**: as long as every next pointer that an `Allocate` makes the head is on the free
list behind the block it takes, no block is held by two callers, and no held block is reachable from
the free list.  One that leads to a held block, or to the block itself, breaks this at once. -/
theorem oneOwner_of_nextOnFreeList (poolSize : ℕ) (memory : Ptr → Option Ptr)
    (es : List PoolEvent) (h : poolMachine.Legal { poolSize := poolSize, next := memory } es) :
    (poolMachine.AllSteps NextOnFreeList { poolSize := poolSize, next := memory } es →
      ∀ pre post, es = pre ++ post →
        OneOwner (poolMachine.final { poolSize := poolSize, next := memory } pre)) ∧
      ∀ pre caller post block q, es = pre ++ .step caller :: post →
        let p := poolMachine.final { poolSize := poolSize, next := memory } pre
        p.calls caller = some (.allocateRead block (some q)) → p.head = some block →
        (q = block ∨ p.holders q ≠ []) → ¬ OneOwner (p.step (.step caller)) := by
  constructor
  · rintro hnext pre post rfl
    have hpre := ((Machine.allSteps_append ..).mp (h.and _ hnext)).1
    have hinv : PoolInv (poolMachine.final { poolSize := poolSize, next := memory } pre) :=
      poolMachine.invariant (P := fun p _ => PoolInv p) (fun _ _ _ he hinv => hinv.step he.1 he.2)
        (.start poolSize memory) hpre
    exact hinv.oneOwner
  · exact fun _ _ _ _ _ _ hcall hhead hheld => not_oneOwner_of_pop hcall hhead hheld

/-- The caller allocates when the free list is empty. -/
def allocateNew (caller : ℕ) : List PoolEvent := [.allocate caller, .step caller, .step caller]

/-- The caller allocates a block of the free list, without interruption. -/
def allocateFree (caller : ℕ) : List PoolEvent :=
  [.allocate caller, .step caller, .step caller, .step caller]

/-- The caller gives a block back, without interruption. -/
def giveBack (caller : ℕ) (obj : Ptr) : List PoolEvent :=
  [.deallocate caller obj, .step caller, .step caller, .step caller]

/-- Two blocks are given back, and one is allocated again. -/
def reuse : List PoolEvent :=
  allocateNew 0 ++ allocateNew 0 ++ giveBack 0 1 ++ giveBack 0 0 ++ allocateFree 1

theorem oneOwner_reuse : OneOwner (poolMachine.final { poolSize := 8 } reuse) := by
  refine (oneOwner_of_nextOnFreeList 8 (fun _ => none) reuse (by decide)).1 ?_ reuse []
    (List.append_nil _).symm
  -- only the last step swings the head
  refine ⟨nofun, nofun, nofun, nofun, nofun, nofun, nofun, nofun, nofun, nofun, nofun, nofun, nofun,
    nofun, nofun, nofun, nofun, ?_, trivial⟩
  intro caller block next heq hcall _
  obtain rfl : 1 = caller := by injection heq
  have hread : some (PoolCall.allocateRead 0 (some 1)) = some (.allocateRead block (some next)) :=
    hcall
  obtain ⟨rfl, rfl⟩ : 0 = block ∧ 1 = next := by simpa using hread
  exact .head 1

/-- Another caller takes both blocks and gives the first one back, while caller `1` is between its
read of the next pointer and its `compare_exchange_strong`. -/
def readThenSwing : List PoolEvent :=
  allocateNew 0 ++ allocateNew 0 ++ giveBack 0 1 ++ giveBack 0 0 ++
    [.allocate 1, .step 1, .step 1] ++ allocateFree 2 ++ allocateFree 2 ++ giveBack 2 0 ++ [.step 1]

/-- The second block is the head of the free list, and caller `2` holds it. -/
theorem readThenSwing_shares : poolMachine.Legal { poolSize := 8 } readThenSwing ∧
    ¬ OneOwner (poolMachine.final { poolSize := 8 } readThenSwing) := by
  refine ⟨by decide, fun h => ?_⟩
  have hholders : (poolMachine.final { poolSize := 8 } readThenSwing).holders 1 = [2] := by decide
  have hhead : (poolMachine.final { poolSize := 8 } readThenSwing).head = some 1 := by decide
  have hfree := h.free 1 (hhead ▸ .head 1)
  exact absurd (hholders.symm.trans hfree) (by decide)

end AtomicPool

end CryptobotAlgo.Common
