import Mathlib.Data.List.Chain
import Mathlib.Tactic.Common

/-!
# Snapshot-and-diff feeds

A replica is kept by three kinds of calls: `clear` empties it, `snapshot` loads a full copy and
`diff` applies an increment.  A diff extends a chain: `first s d` says that `d` may be the first
diff after the snapshot `s`, and `next d d'` that `d'` may follow `d`.

* `Gapless inside first next calls` is the statement about a whole sequence of calls: the diffs
  between a snapshot and the first later call that is not `inside` form a chain.
* `ChainFrom first next l calls` checks the calls one by one; `Link` is the open end of the chain
  that the calls so far have left, computed by `linkAfter`.
* `gapless_isDiff_iff` says that the two agree.
-/

namespace CryptobotAlgo.Feed

/-- A call made on the replica. -/
inductive Call (S D : Type*)
  | clear
  | snapshot (s : S)
  | diff (d : D)
  deriving DecidableEq, Repr

variable {S D : Type*}

namespace Call

/-- The diff a call carries. -/
def diff? : Call S D → Option D
  | diff d => some d
  | _ => none

/-- The call is a diff. -/
def IsDiff : Call S D → Prop
  | diff _ => True
  | _ => False

@[simp] theorem diff?_diff (d : D) : (diff d : Call S D).diff? = some d := rfl

@[simp] theorem diff?_clear : (clear : Call S D).diff? = none := rfl

@[simp] theorem diff?_snapshot (s : S) : (snapshot s : Call S D).diff? = none := rfl

@[simp] theorem isDiff_diff (d : D) : (diff d : Call S D).IsDiff := trivial

@[simp] theorem not_isDiff_clear : ¬ (clear : Call S D).IsDiff := id

@[simp] theorem not_isDiff_snapshot (s : S) : ¬ (snapshot s : Call S D).IsDiff := id

end Call

/-! ### Chains -/

/-- `ds` is a chain of diffs on top of the snapshot `s`. -/
def Linked (first : S → D → Prop) (next : D → D → Prop) (s : S) : List D → Prop
  | [] => True
  | d :: ds => first s d ∧ (d :: ds).IsChain next

/-- The diffs between a snapshot and the first later call that is not `inside` form a chain on top
of that snapshot. -/
def Gapless (inside : Call S D → Prop) (first : S → D → Prop) (next : D → D → Prop)
    (calls : List (Call S D)) : Prop :=
  ∀ pre s mid post, calls = pre ++ .snapshot s :: (mid ++ post) → (∀ c ∈ mid, inside c) →
    Linked first next s (mid.filterMap Call.diff?)

/-- The end of the chain that is open after some calls. -/
inductive Link (S D : Type*)
  /-- no snapshot since the last `clear` -/
  | closed
  /-- the snapshot `s`, without a diff yet -/
  | based (s : S)
  /-- a chain whose last diff is `d` -/
  | linked (d : D)
  deriving DecidableEq, Repr

/-- The end of the chain after one more call. -/
def Link.after : Link S D → Call S D → Link S D
  | _, .clear => .closed
  | _, .snapshot s => .based s
  -- a diff alone does not open a chain
  | .closed, .diff _ => .closed
  | _, .diff d => .linked d

/-- A diff has to extend the open chain. -/
def Link.Admits (first : S → D → Prop) (next : D → D → Prop) : Link S D → Call S D → Prop
  | .based s, .diff d => first s d
  | .linked d, .diff d' => next d d'
  | _, _ => True

/-- The end of the chain after the calls, starting from `l`. -/
def linkAfter (l : Link S D) (calls : List (Call S D)) : Link S D := calls.foldl Link.after l

/-- Each diff among the calls extends the chain that is open when it is made. -/
def ChainFrom (first : S → D → Prop) (next : D → D → Prop) : Link S D → List (Call S D) → Prop
  | _, [] => True
  | l, c :: cs => l.Admits first next c ∧ ChainFrom first next (l.after c) cs

@[simp] theorem Link.after_clear (l : Link S D) : l.after .clear = .closed := by cases l <;> rfl

@[simp] theorem Link.after_snapshot (l : Link S D) (s : S) : l.after (.snapshot s) = .based s := by
  cases l <;> rfl

@[simp] theorem Link.closed_after_diff (d : D) :
    (Link.closed : Link S D).after (.diff d) = .closed := rfl

@[simp] theorem Link.based_after_diff (s : S) (d : D) :
    (Link.based s).after (.diff d) = .linked d := rfl

@[simp] theorem Link.linked_after_diff (d d' : D) :
    (Link.linked d : Link S D).after (.diff d') = .linked d' := rfl

@[simp] theorem linkAfter_nil (l : Link S D) : linkAfter l [] = l := rfl

@[simp] theorem linkAfter_cons (l : Link S D) (c : Call S D) (cs : List (Call S D)) :
    linkAfter l (c :: cs) = linkAfter (l.after c) cs := rfl

theorem linkAfter_append (l : Link S D) (cs cs' : List (Call S D)) :
    linkAfter l (cs ++ cs') = linkAfter (linkAfter l cs) cs' := List.foldl_append

section Chain

variable {first : S → D → Prop} {next : D → D → Prop}

@[simp] theorem chainFrom_nil (l : Link S D) : ChainFrom first next l [] := trivial

@[simp] theorem chainFrom_cons (l : Link S D) (c : Call S D) (cs : List (Call S D)) :
    ChainFrom first next l (c :: cs) ↔
      l.Admits first next c ∧ ChainFrom first next (l.after c) cs := Iff.rfl

@[simp] theorem Link.admits_clear (l : Link S D) : l.Admits first next .clear := by
  cases l <;> trivial

@[simp] theorem Link.admits_snapshot (l : Link S D) (s : S) :
    l.Admits first next (.snapshot s) := by
  cases l <;> trivial

@[simp] theorem Link.closed_admits (c : Call S D) :
    (Link.closed : Link S D).Admits first next c := by
  cases c <;> trivial

@[simp] theorem Link.based_admits_diff (s : S) (d : D) :
    (Link.based s).Admits first next (.diff d) ↔ first s d := Iff.rfl

@[simp] theorem Link.linked_admits_diff (d d' : D) :
    (Link.linked d : Link S D).Admits first next (.diff d') ↔ next d d' := Iff.rfl

theorem chainFrom_append (l : Link S D) (cs cs' : List (Call S D)) :
    ChainFrom first next l (cs ++ cs') ↔
      ChainFrom first next l cs ∧ ChainFrom first next (linkAfter l cs) cs' := by
  induction cs generalizing l with
  | nil => simp
  | cons c cs ih =>
    rw [List.cons_append, chainFrom_cons, ih, chainFrom_cons, linkAfter_cons, and_assoc]

/-! ### Runs of diffs -/

theorem chainFrom_linked_diffs (d : D) (ds : List D) :
    ChainFrom first next (.linked d : Link S D) (ds.map .diff) ↔ (d :: ds).IsChain next := by
  induction ds generalizing d with
  | nil => simp
  | cons d' ds ih =>
    rw [List.map_cons, chainFrom_cons, Link.linked_admits_diff, Link.linked_after_diff, ih,
      List.isChain_cons_cons]

theorem chainFrom_based_diffs (s : S) (ds : List D) :
    ChainFrom first next (.based s) (ds.map .diff) ↔ Linked first next s ds := by
  cases ds with
  | nil => simp [Linked]
  | cons d ds =>
    rw [List.map_cons, chainFrom_cons, Link.based_admits_diff, Link.based_after_diff,
      chainFrom_linked_diffs, Linked]

theorem linkAfter_linked_diffs (d : D) (ds : List D) :
    linkAfter (.linked d : Link S D) (ds.map .diff) = .linked ((d :: ds).getLast (by simp)) := by
  induction ds generalizing d with
  | nil => rfl
  | cons d' ds ih =>
    rw [List.map_cons, linkAfter_cons, Link.linked_after_diff, ih]
    rfl

/-- The end of the chain after a snapshot and some diffs, the last one `d`. -/
theorem linkAfter_snapshot_diffs (l : Link S D) (cs : List (Call S D)) (s : S) (ds : List D)
    (d : D) : linkAfter l (cs ++ .snapshot s :: (ds ++ [d]).map .diff) = .linked d := by
  rw [linkAfter_append, linkAfter_cons, Link.after_snapshot, List.map_append, linkAfter_append,
    List.map_singleton, linkAfter_cons, linkAfter_nil]
  cases ds with
  | nil => rfl
  | cons d' ds =>
    rw [List.map_cons, linkAfter_cons, Link.based_after_diff, linkAfter_linked_diffs,
      Link.linked_after_diff]

theorem map_diff_filterMap {cs : List (Call S D)} (h : ∀ c ∈ cs, c.IsDiff) :
    (cs.filterMap Call.diff?).map .diff = cs := by
  induction cs with
  | nil => rfl
  | cons c cs ih =>
    have hc := h c (List.mem_cons_self ..)
    have hcs : ∀ c ∈ cs, c.IsDiff := fun c' hc' => h c' (List.mem_cons_of_mem _ hc')
    cases c with
    | clear => exact absurd hc Call.not_isDiff_clear
    | snapshot s => exact absurd hc (Call.not_isDiff_snapshot s)
    | diff d => rw [List.filterMap_cons_some (Call.diff?_diff d), List.map_cons, ih hcs]

@[simp] theorem filterMap_diff?_map_diff (ds : List D) :
    (ds.map (.diff : D → Call S D)).filterMap Call.diff? = ds := by
  induction ds with
  | nil => rfl
  | cons d ds ih => rw [List.map_cons, List.filterMap_cons_some (Call.diff?_diff d), ih]

/-! ### The two statements agree -/

/-- Where an open chain comes from: the last calls are its snapshot and its diffs. -/
theorem exists_of_linkAfter (cs : List (Call S D)) :
    (∀ s, linkAfter .closed cs = .based s → ∃ pre, cs = pre ++ [.snapshot s]) ∧
    (∀ d, linkAfter .closed cs = .linked d →
      ∃ pre s ds, cs = pre ++ .snapshot s :: (ds ++ [d]).map .diff) := by
  induction cs using List.reverseRecOn with
  | nil => exact ⟨fun s h => (by cases h), fun d h => (by cases h)⟩
  | append_singleton cs c ih =>
    rw [linkAfter_append, linkAfter_cons, linkAfter_nil]
    cases c with
    | clear => exact ⟨fun s h => (by simp at h), fun d h => (by simp at h)⟩
    | snapshot s' =>
      -- the chain that the snapshot opens has no diff yet
      rw [Link.after_snapshot]
      refine ⟨fun s h => ?_, fun d h => by cases h⟩
      obtain rfl := Link.based.inj h
      exact ⟨cs, rfl⟩
    | diff d' =>
      -- the diff becomes the end of the chain, if one is open
      cases hl : linkAfter Link.closed cs with
      | closed => exact ⟨fun s h => (by cases h), fun d h => (by cases h)⟩
      | based s =>
        obtain ⟨pre, rfl⟩ := ih.1 s hl
        refine ⟨fun s h => (by cases h), fun d h => ?_⟩
        obtain rfl := Link.linked.inj h
        exact ⟨pre, s, [], by simp⟩
      | linked d₀ =>
        obtain ⟨pre, s, ds, rfl⟩ := ih.2 d₀ hl
        refine ⟨fun s h => (by cases h), fun d h => ?_⟩
        obtain rfl := Link.linked.inj h
        exact ⟨pre, s, ds ++ [d₀], by simp⟩

theorem Gapless.of_append {inside : Call S D → Prop} {cs cs' : List (Call S D)}
    (h : Gapless inside first next (cs ++ cs')) : Gapless inside first next cs := by
  rintro pre s mid post rfl hmid
  exact h pre s mid (post ++ cs') (by simp) hmid

theorem Gapless.mono {inside inside' : Call S D → Prop} (hi : ∀ c, inside c → inside' c)
    {cs : List (Call S D)} (h : Gapless inside' first next cs) : Gapless inside first next cs :=
  fun pre s mid post hcs hmid => h pre s mid post hcs fun c hc => hi c (hmid c hc)

/-- A sequence of calls has no gap exactly when each diff extends the chain open at that point. -/
theorem gapless_isDiff_iff (cs : List (Call S D)) :
    Gapless Call.IsDiff first next cs ↔ ChainFrom first next .closed cs := by
  constructor
  · intro h
    induction cs using List.reverseRecOn with
    | nil => trivial
    | append_singleton cs c ih =>
      rw [chainFrom_append]
      refine ⟨ih h.of_append, ?_, trivial⟩
      cases c with
      | clear => simp
      | snapshot s => simp
      | diff d' =>
        -- the calls since the snapshot of the open chain are its diffs, so `h` speaks about them
        cases hl : linkAfter Link.closed cs with
        | closed => simp
        | based s =>
          obtain ⟨pre, rfl⟩ := (exists_of_linkAfter cs).1 s hl
          exact (h pre s [.diff d'] [] (by simp) (by simp)).1
        | linked d =>
          obtain ⟨pre, s, ds, rfl⟩ := (exists_of_linkAfter cs).2 d hl
          have hdiffs : ∀ c ∈ (ds ++ [d, d']).map (.diff : D → Call S D), c.IsDiff := by
            intro c hc
            obtain ⟨x, _, rfl⟩ := List.mem_map.mp hc
            trivial
          have hchain := h pre s ((ds ++ [d, d']).map .diff) [] (by simp) hdiffs
          rw [filterMap_diff?_map_diff, ← chainFrom_based_diffs, show ds ++ [d, d'] =
            (ds ++ [d]) ++ [d'] by simp, List.map_append, chainFrom_append] at hchain
          have hlast : linkAfter (Link.based s) ((ds ++ [d]).map .diff) = .linked d := by
            rw [linkAfter_append, linkAfter_cons, Link.after_snapshot] at hl
            exact hl
          rw [hlast] at hchain
          exact hchain.2.1
  · rintro h pre s mid post rfl hmid
    -- whatever was open before it, the snapshot opens a new chain
    rw [chainFrom_append, chainFrom_cons, Link.after_snapshot, chainFrom_append] at h
    rw [← chainFrom_based_diffs, map_diff_filterMap hmid]
    exact h.2.2.1

end Chain

end CryptobotAlgo.Feed
