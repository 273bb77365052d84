import CryptobotAlgo.Aoe.Bybit.OrderBookSync
import CryptobotAlgo.Feed.Grammar

/-!
# What the Bybit synchronisation forwards

`processSnapshot` and `processDiff` have one lemma for each thing they can do.

* `wellChained`: started from ids `0` and fed with ids from `1` on, the class forwards the diffs
  `S + 1, S + 2, …` after a snapshot `S`, and a diff out of order clears the book.
* `calls_independent_iff`: the calls depend on the ids that the members are left with at the start
  as soon as the run has a snapshot.  They do not if the first snapshot has a new id
  (`trace_eq_of_first_ne`).
-/

namespace CryptobotAlgo.Aoe.Bybit

open Aos Feed OrderBookSync

variable {Price Qty : Type*}

/-! ### The handlers, case by case -/

section Handlers

variable {s : OrderBookSync} {e : OrderBookEvent Price Qty}

theorem processSnapshot_of_eq (h : s.currentSnapshotUpdateId = e.updateId) :
    s.processSnapshot e = ({ s with receivedSnapshotSuccess := true }, []) := by
  unfold processSnapshot
  rw [if_pos h]

/-- A snapshot with a new id is forwarded, after a `Clear` if the id is `1`. -/
theorem processSnapshot_of_ne (h : s.currentSnapshotUpdateId ≠ e.updateId) :
    s.processSnapshot e = (⟨e.updateId, e.updateId, true⟩,
      (if e.updateId = 1 then [.clear] else []) ++ [.snapshot e]) := by
  unfold processSnapshot
  rw [if_neg h]

theorem processDiff_of_not_received (h : s.receivedSnapshotSuccess = false) :
    s.processDiff e = (s, []) := by
  unfold processDiff
  rw [h]
  rfl

theorem processDiff_of_next (h : s.receivedSnapshotSuccess = true)
    (he : s.currentDiffUpdateId + 1 = e.updateId) :
    s.processDiff e = ({ s with currentDiffUpdateId := e.updateId }, [.diff e]) := by
  simp [processDiff, h, he]

theorem processDiff_of_gap (h : s.receivedSnapshotSuccess = true)
    (he : s.currentDiffUpdateId + 1 ≠ e.updateId) :
    s.processDiff e = (⟨0, 0, false⟩, [.clear]) := by
  simp [processDiff, h, he]

end Handlers

/-! ### The chain -/

/-- The event `d` comes right after the event `x`. -/
def Follows (x d : OrderBookEvent Price Qty) : Prop := d.updateId.toNat = x.updateId.toNat + 1

/-- The chain that is open ends with the snapshot or the diff `x`. -/
def ChainEnd (calls : List (BookCall Price Qty)) (x : OrderBookEvent Price Qty) : Prop :=
  linkAfter .closed calls = .based x ∨ linkAfter .closed calls = .linked x

/-- With ids from `1` on, the test of `ProcessDiff` does not wrap around. -/
theorem add_one_eq_iff {a b : UInt64} (hb : 1 ≤ b) : a + 1 = b ↔ b.toNat = a.toNat + 1 := by
  have hlt := b.toNat_lt
  have halt := a.toNat_lt
  have hpos : 1 ≤ b.toNat := by simpa using UInt64.le_iff_toNat_le.mp hb
  rw [← UInt64.toNat_inj, UInt64.toNat_add]
  simp only [UInt64.reduceToNat, Nat.reducePow] at *
  omega

theorem add_one_ne (a : UInt64) : a + 1 ≠ a := by
  intro h
  have halt := a.toNat_lt
  have hnat := congrArg UInt64.toNat h
  rw [UInt64.toNat_add] at hnat
  simp only [UInt64.reduceToNat, Nat.reducePow] at *
  omega

/-- The invariant: a class without a snapshot has no chain open and its ids are reset; else it
holds the id of the end of the chain. -/
structure SyncInv (s : OrderBookSync) (t : List (BookCall Price Qty)) : Prop where
  closed : s.receivedSnapshotSuccess = false →
    linkAfter .closed t = .closed ∧ s.currentSnapshotUpdateId = 0
  linked : s.receivedSnapshotSuccess = true →
    ∃ x, ChainEnd t x ∧ s.currentDiffUpdateId = x.updateId
  chain : ChainFrom Follows Follows .closed t
  based : DiffsBased t

theorem ChainEnd.admits {t : List (BookCall Price Qty)} {x d : OrderBookEvent Price Qty}
    (h : ChainEnd t x) (hd : Follows x d) :
    (linkAfter .closed t).Admits Follows Follows (.diff d) := by
  rcases h with h | h
  · rw [h]; exact hd
  · rw [h]; exact hd

theorem ChainEnd.after_diff {t : List (BookCall Price Qty)} {x : OrderBookEvent Price Qty}
    (h : ChainEnd t x) (d : OrderBookEvent Price Qty) : ChainEnd (t ++ [.diff d]) d := by
  refine .inr ?_
  rw [linkAfter_append]
  rcases h with h | h
  · rw [h]; rfl
  · rw [h]; rfl

theorem ChainEnd.ne_closed {t : List (BookCall Price Qty)} {x : OrderBookEvent Price Qty}
    (h : ChainEnd t x) : linkAfter .closed t ≠ .closed := by
  intro hclosed
  rcases h with h | h
  · rw [h] at hclosed; cases hclosed
  · rw [h] at hclosed; cases hclosed

theorem ChainEnd.unique {t : List (BookCall Price Qty)} {x y : OrderBookEvent Price Qty}
    (hx : ChainEnd t x) (hy : ChainEnd t y) : x = y := by
  rcases hx with hx | hx <;> rcases hy with hy | hy <;> rw [hx] at hy <;> cases hy <;> rfl

theorem syncInv_start : SyncInv (start 0 0) ([] : List (BookCall Price Qty)) :=
  ⟨fun _ => ⟨rfl, rfl⟩, fun h => (by cases h), trivial, diffsBased_nil⟩

theorem syncInv_snapshot {s : OrderBookSync} {t : List (BookCall Price Qty)} (h : SyncInv s t)
    {e : OrderBookEvent Price Qty} (he : 1 ≤ e.updateId) :
    SyncInv (s.processSnapshot e).1 (t ++ (s.processSnapshot e).2) := by
  by_cases heq : s.currentSnapshotUpdateId = e.updateId
  · -- ignored: only possible while a chain is open
    rw [processSnapshot_of_eq heq, List.append_nil]
    refine ⟨fun h => (by cases h), fun _ => h.linked ?_, h.chain, h.based⟩
    by_contra hrec
    rw [Bool.not_eq_true] at hrec
    rw [(h.closed hrec).2] at heq
    rw [← heq] at he
    exact absurd he (by decide)
  · -- forwarded: a new chain starts
    rw [processSnapshot_of_ne heq]
    dsimp only
    rw [← List.append_assoc]
    refine ⟨fun h => (by cases h), fun _ => ⟨e, .inl ?_, rfl⟩, ?_, ?_⟩
    · rw [linkAfter_append, linkAfter_cons, Link.after_snapshot, linkAfter_nil]
    · rw [chainFrom_append, chainFrom_append]
      refine ⟨⟨h.chain, ?_⟩, Link.admits_snapshot _ _, trivial⟩
      split_ifs
      · exact ⟨Link.admits_clear _, trivial⟩
      · trivial
    · refine diffsBased_concat (?_ : DiffsBased _) (fun d hd => by cases hd)
      split_ifs
      · exact diffsBased_concat h.based (fun d hd => by cases hd)
      · rw [List.append_nil]; exact h.based

theorem syncInv_diff {s : OrderBookSync} {t : List (BookCall Price Qty)} (h : SyncInv s t)
    {d : OrderBookEvent Price Qty} (hd : 1 ≤ d.updateId) :
    SyncInv (s.processDiff d).1 (t ++ (s.processDiff d).2) := by
  cases hrec : s.receivedSnapshotSuccess with
  | false =>
    rw [processDiff_of_not_received hrec, List.append_nil]
    exact h
  | true =>
    obtain ⟨x, hx, hid⟩ := h.linked hrec
    by_cases hnext : s.currentDiffUpdateId + 1 = d.updateId
    · -- the current id is that of the end of the chain, and `d` follows it
      rw [processDiff_of_next hrec hnext]
      have hfollows : Follows x d := by
        rw [hid] at hnext
        exact (add_one_eq_iff hd).mp hnext
      refine ⟨fun h => ?_, fun _ => ⟨d, hx.after_diff d, rfl⟩, ?_, ?_⟩
      · rw [hrec] at h; cases h
      · exact (chainFrom_append _ _ _).mpr ⟨h.chain, hx.admits hfollows, trivial⟩
      · exact diffsBased_concat h.based fun _ _ => hx.ne_closed
    · rw [processDiff_of_gap hrec hnext]
      refine ⟨fun _ => ⟨?_, rfl⟩, fun h => (by cases h), ?_, ?_⟩
      · rw [linkAfter_append, linkAfter_cons, Link.after_clear, linkAfter_nil]
      · exact (chainFrom_append _ _ _).mpr ⟨h.chain, Link.admits_clear _, trivial⟩
      · exact diffsBased_concat h.based (fun d hd => by cases hd)

/-- The invariant holds after every run of events with ids from `1` on. -/
theorem syncInv_of_run {es : List (Event Price Qty)} (hes : ∀ e ∈ es, 1 ≤ e.updateId) :
    SyncInv (machine.final (start 0 0) es) (machine.trace (start 0 0) es) := by
  refine machine.invariant (C := fun _ e => 1 ≤ e.updateId) ?_ syncInv_start
    (machine.allSteps_of_mem fun e he _ => hes e he)
  intro s t e he h
  cases e with
  | snapshot ptr => exact syncInv_snapshot h he
  | diff ptr => exact syncInv_diff h he

/-! ### The ids of the forwarded diffs -/

theorem ids_of_linked {s : OrderBookEvent Price Qty} {ds : List (OrderBookEvent Price Qty)}
    (h : Linked Follows Follows s ds) :
    ds.map (fun d => d.updateId.toNat) = List.range' (s.updateId.toNat + 1) ds.length := by
  induction ds generalizing s with
  | nil => rfl
  | cons d ds ih =>
    have htail : Linked Follows Follows d ds := by
      cases ds with
      | nil => trivial
      | cons d' ds => exact List.isChain_cons_cons.mp h.2
    have hd : d.updateId.toNat = s.updateId.toNat + 1 := h.1
    rw [List.map_cons, ih htail, hd, List.length_cons, List.range'_succ]

/-- What the calls of a run look like. -/
structure WellChained (es : List (Event Price Qty)) : Prop where
  /-- the diffs after a snapshot, up to the next `Clear` or snapshot, count on from its id -/
  ids : ∀ pre s mid post,
    machine.trace (start 0 0) es = pre ++ .snapshot s :: (mid ++ post) → (∀ c ∈ mid, c.IsDiff) →
    (mid.filterMap Call.diff?).map (fun d => d.updateId.toNat) =
      List.range' (s.updateId.toNat + 1) mid.length
  /-- a diff that does not follow the end of the chain clears the book and does nothing else -/
  cleared : ∀ pre d post x, es = pre ++ .diff d :: post →
    ChainEnd (machine.trace (start 0 0) pre) x → ¬ Follows x d →
    (machine.step (machine.final (start 0 0) pre) (.diff d)).2 = [.clear]
  /-- no diff is forwarded unless a snapshot has been since the last `Clear` -/
  based : DiffsBased (machine.trace (start 0 0) es)

/-- **The Bybit chain**: with ids from `1` on and both members `0` at the start, the forwarded
diffs have no gap, no repeat and no reordering, and a break clears the book until the next
snapshot. -/
theorem wellChained (es : List (Event Price Qty)) (hes : ∀ e ∈ es, 1 ≤ e.updateId) :
    WellChained es := by
  refine ⟨?_, ?_, (syncInv_of_run hes).based⟩
  · intro pre s mid post hsplit hmid
    have hgapless := (gapless_isDiff_iff _).mpr (syncInv_of_run hes).chain
    rw [ids_of_linked (hgapless pre s mid post hsplit hmid)]
    have hlength := congrArg List.length (map_diff_filterMap hmid)
    rw [List.length_map] at hlength
    rw [hlength]
  · rintro pre d post x rfl hx hbreak
    have hpre : ∀ e ∈ pre, 1 ≤ e.updateId := fun e he => hes e (by simp [he])
    have hd : 1 ≤ d.updateId := hes (.diff d) (by simp)
    -- a chain is open, so the class has a snapshot and holds the id of the chain's end
    have hinv := syncInv_of_run hpre
    have hrec : (machine.final (start 0 0) pre).receivedSnapshotSuccess = true := by
      by_contra hrec
      rw [Bool.not_eq_true] at hrec
      exact hx.ne_closed (hinv.closed hrec).1
    obtain ⟨y, hy, hid⟩ := hinv.linked hrec
    have hgap : (machine.final (start 0 0) pre).currentDiffUpdateId + 1 ≠ d.updateId := by
      rw [hid, Ne, add_one_eq_iff hd, hy.unique hx]
      exact hbreak
    exact congrArg Prod.snd (processDiff_of_gap hrec hgap)

/-- Snapshot `7`, diff `8`, and diff `10`, which breaks the chain. -/
def brokenRun : List (Event ℕ ℕ) :=
  [.snapshot { updateId := 7 }, .diff { updateId := 8 }, .diff { updateId := 10 }]

theorem wellChained_brokenRun : WellChained brokenRun := wellChained brokenRun (by decide)

/-! ### The ids at the start -/

/-- Without a snapshot nothing is forwarded. -/
theorem trace_of_no_snapshot {s : OrderBookSync} (hs : s.receivedSnapshotSuccess = false)
    {es : List (Event Price Qty)} (hes : ∀ e ∈ es, ¬ e.IsSnapshot) :
    machine.trace s es = [] ∧ machine.final s es = s := by
  induction es with
  | nil => exact ⟨rfl, rfl⟩
  | cons e es ih =>
    have htail := ih fun e' he' => hes e' (List.mem_cons_of_mem _ he')
    cases e with
    | snapshot ptr => exact absurd trivial (hes _ (List.mem_cons_self ..))
    | diff ptr =>
      have hstep : machine.step s (.diff ptr) = (s, []) := processDiff_of_not_received hs
      rw [Machine.trace_cons, Machine.final_cons, hstep]
      exact htail

/-- A run with a snapshot has a first one. -/
theorem exists_first_snapshot {es : List (Event Price Qty)} (h : ¬ ∀ e ∈ es, ¬ e.IsSnapshot) :
    ∃ pre e post, es = pre ++ .snapshot e :: post ∧ ∀ e ∈ pre, ¬ e.IsSnapshot := by
  induction es with
  | nil => exact absurd (by simp) h
  | cons e es ih =>
    cases e with
    | snapshot ptr => exact ⟨[], ptr, es, rfl, by simp⟩
    | diff ptr =>
      obtain ⟨pre, e, post, rfl, hpre⟩ := ih fun hes => h (by simpa [Event.IsSnapshot] using hes)
      exact ⟨.diff ptr :: pre, e, post, rfl, by simpa [Event.IsSnapshot] using hpre⟩

/-- Up to the first snapshot, the class keeps the ids it found and makes no call. -/
theorem trace_of_first_snapshot {pre post : List (Event Price Qty)} {e : OrderBookEvent Price Qty}
    (hpre : ∀ e ∈ pre, ¬ e.IsSnapshot) (diffId snapshotId : UInt64) :
    machine.trace (start diffId snapshotId) (pre ++ .snapshot e :: post) =
      ((start diffId snapshotId).processSnapshot e).2 ++
        machine.trace ((start diffId snapshotId).processSnapshot e).1 post := by
  obtain ⟨htrace, hfinal⟩ := trace_of_no_snapshot (s := start diffId snapshotId) rfl hpre
  rw [machine.trace_append, htrace, hfinal, List.nil_append, Machine.trace_cons]
  rfl

/-- Two classes whose ids both differ from that of the first snapshot make the same calls. -/
theorem trace_eq_of_first_ne {pre post : List (Event Price Qty)} {e : OrderBookEvent Price Qty}
    (hpre : ∀ e ∈ pre, ¬ e.IsSnapshot) {d₁ s₁ d₂ s₂ : UInt64} (h₁ : s₁ ≠ e.updateId)
    (h₂ : s₂ ≠ e.updateId) :
    machine.trace (start d₁ s₁) (pre ++ .snapshot e :: post) =
      machine.trace (start d₂ s₂) (pre ++ .snapshot e :: post) := by
  rw [trace_of_first_snapshot hpre, trace_of_first_snapshot hpre,
    processSnapshot_of_ne (s := start d₁ s₁) h₁, processSnapshot_of_ne (s := start d₂ s₂) h₂]

/-- **The uninitialised ids**: the calls are the same for any two initial values of the two members
exactly when the run has no snapshot, so that there are none. -/
theorem calls_independent_iff (es : List (Event Price Qty)) :
    (∀ d₁ s₁ d₂ s₂ : UInt64, machine.trace (start d₁ s₁) es = machine.trace (start d₂ s₂) es) ↔
      ∀ e ∈ es, ¬ e.IsSnapshot := by
  constructor
  · intro h
    by_contra hsnap
    obtain ⟨pre, e, post, rfl, hpre⟩ := exists_first_snapshot hsnap
    -- the first class takes the snapshot for a repeated one, the second forwards it; from then on
    -- their states are equal
    have hboth := congrArg List.length (h e.updateId e.updateId 0 (e.updateId + 1))
    rw [trace_of_first_snapshot hpre, trace_of_first_snapshot hpre,
      processSnapshot_of_eq (s := start e.updateId e.updateId) rfl,
      processSnapshot_of_ne (s := start 0 (e.updateId + 1)) (add_one_ne _)] at hboth
    simp only [start, List.length_append, List.length_nil, List.length_singleton] at hboth
    omega
  · intro hes d₁ s₁ d₂ s₂
    rw [(trace_of_no_snapshot (s := start d₁ s₁) rfl hes).1,
      (trace_of_no_snapshot (s := start d₂ s₂) rfl hes).1]

/-- With `5` left in the member, the first snapshot is ignored if its id is `5`; with `0` it is
forwarded. -/
theorem calls_differ :
    machine.trace (start 0 5) [.snapshot ({ updateId := 5 } : OrderBookEvent ℕ ℕ)] ≠
      machine.trace (start 0 0) [.snapshot { updateId := 5 }] := by
  decide

end CryptobotAlgo.Aoe.Bybit
