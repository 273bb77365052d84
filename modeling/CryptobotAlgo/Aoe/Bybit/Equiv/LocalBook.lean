import CryptobotAlgo.Aoe.Bybit.Equiv.OrderBookSync
import CryptobotAlgo.Aos.Equiv.OrderBookFeed

/-!
# The local book follows the exchange

The Bybit synchronisation and the order book behind it, against the exchange that numbers the
updates of its book.  Events may be lost, repeated or reordered; each one that does arrive tells the
truth about the exchange's log (`Truthful`).

A snapshot is written over the levels that are there, so one that comes while the book is not empty
may leave levels behind that the exchange has removed.  `LandsClean` is the condition on the state
before a snapshot under which it does not, and `follows_iff` says that the book is the exchange's
book in every state of a run exactly when every snapshot meets it.  The service may have been
restarted before, with a new log (`Begins`).
-/

namespace CryptobotAlgo.Aoe.Bybit

open Aos Feed LastWrite OrderBookSync OrderBookEventListener

variable {Price Qty : Type} [LinearOrder Price] [Zero Qty]

/-- The exchange's book after the first `n` updates of its log; `0` means no level. -/
def exchangeBook (log : List ((Side × Price) × Qty)) (n : ℕ) : Side × Price → Qty :=
  after (fun _ => 0) log n

/-- The event tells the truth about the log, with the positions in the log, from `1` on, as update
ids: a snapshot lists the book, and a diff the levels that its own update has touched. -/
def Truthful (log : List ((Side × Price) × Qty)) (e : Event Price Qty) : Prop :=
  1 ≤ e.updateId ∧
    match e with
    | .snapshot ptr => Full (fun _ => 0) log ptr.updateId.toNat (eventWrites ptr)
    | .diff ptr => Delta (fun _ => 0) log ptr.updateId.toNat ptr.updateId.toNat (eventWrites ptr)

/-- The class in the state `s` leaves no level behind when it takes the snapshot `e`: a snapshot
with the current id must be one that may be ignored, one with id `1` is safe, one that starts the
book as well, and any other must list every level that the exchange had at the last diff. -/
def LandsClean (log : List ((Side × Price) × Qty)) (s : OrderBookSync) : Event Price Qty → Prop
  | .snapshot e =>
    if s.currentSnapshotUpdateId = e.updateId then
      s.receivedSnapshotSuccess = true ∨
        exchangeBook log s.currentDiffUpdateId.toNat = fun _ => 0
    else
      e.updateId = 1 ∨ s.receivedSnapshotSuccess = false ∨
        ∀ k, exchangeBook log s.currentDiffUpdateId.toNat k ≠ 0 → ∃ w ∈ eventWrites e, w.1 = k
  | .diff _ => True

/-- What the quantities in the book are, in the state `s`. -/
structure BookTracks (log : List ((Side × Price) × Qty)) (s : OrderBookSync)
    (book : Side × Price → Qty) : Prop where
  empty : s.receivedSnapshotSuccess = false → book = fun _ => 0
  current : s.receivedSnapshotSuccess = true →
    book = exchangeBook log s.currentDiffUpdateId.toNat

variable {log : List ((Side × Price) × Qty)} {s : OrderBookSync} {t : List (BookCall Price Qty)}

/-! ### What one event does -/

/-- A snapshot keeps the book right exactly when it lands clean. -/
theorem bookTracks_snapshot_iff (h : BookTracks log s (quantitiesAfter t))
    {e : OrderBookEvent Price Qty} (he : Truthful log (.snapshot e)) :
    BookTracks log (s.processSnapshot e).1 (quantitiesAfter (t ++ (s.processSnapshot e).2)) ↔
      LandsClean log s (.snapshot e) := by
  unfold LandsClean
  dsimp only
  by_cases heq : s.currentSnapshotUpdateId = e.updateId
  · -- the snapshot is ignored, but the class is synced from now on
    rw [processSnapshot_of_eq heq, List.append_nil, if_pos heq]
    cases hrec : s.receivedSnapshotSuccess with
    | false =>
      rw [h.empty hrec]
      constructor
      · exact fun h' => .inr (h'.current rfl).symm
      · rintro (htrue | hbook)
        · exact absurd htrue Bool.false_ne_true
        · exact ⟨nofun, fun _ => hbook.symm⟩
    | true =>
      constructor
      · exact fun _ => .inl rfl
      · exact fun _ => ⟨nofun, fun _ => h.current hrec⟩
  · -- the snapshot is written over what `t` and the `Clear` have left
    rw [processSnapshot_of_ne heq, if_neg heq, ← List.append_assoc, quantitiesAfter_concat]
    have hwrites : writes (fun _ => 0) (eventWrites e) = exchangeBook log e.updateId.toNat :=
      writes_full he.2
    have hiff : ∀ book,
        BookTracks log ⟨e.updateId, e.updateId, true⟩ (writes book (eventWrites e)) ↔
          ∀ k, book k ≠ 0 → ∃ w ∈ eventWrites e, w.1 = k := by
      intro book
      rw [← writes_eq_writes_iff, hwrites]
      exact ⟨fun h' => h'.current rfl, fun h' => ⟨nofun, fun _ => h'⟩⟩
    have hzero : ∀ k, (fun _ : Side × Price => (0 : Qty)) k ≠ 0 → ∃ w ∈ eventWrites e, w.1 = k :=
      fun k hk => absurd rfl hk
    refine (hiff _).trans ?_
    by_cases hone : e.updateId = 1
    · rw [if_pos hone, quantitiesAfter_concat]
      exact ⟨fun _ => .inl hone, fun _ => hzero⟩
    · rw [if_neg hone, List.append_nil, or_iff_right hone]
      cases hrec : s.receivedSnapshotSuccess with
      | false =>
        rw [h.empty hrec]
        exact ⟨fun _ => .inl rfl, fun _ => hzero⟩
      | true =>
        rw [h.current hrec]
        exact ⟨.inr, fun h' => h'.resolve_left (Ne.symm Bool.false_ne_true)⟩

theorem bookTracks_diff (h : BookTracks log s (quantitiesAfter t)) {d : OrderBookEvent Price Qty}
    (hd : Truthful log (.diff d)) :
    BookTracks log (s.processDiff d).1 (quantitiesAfter (t ++ (s.processDiff d).2)) := by
  cases hrec : s.receivedSnapshotSuccess with
  | false =>
    rw [processDiff_of_not_received hrec, List.append_nil]
    exact h
  | true =>
    by_cases hnext : s.currentDiffUpdateId + 1 = d.updateId
    · rw [processDiff_of_next hrec hnext, quantitiesAfter_concat]
      refine ⟨fun hf => absurd (hrec.symm.trans hf) (Ne.symm Bool.false_ne_true), fun _ => ?_⟩
      have hid : d.updateId.toNat = s.currentDiffUpdateId.toNat + 1 :=
        (add_one_eq_iff hd.1).mp hnext
      rw [h.current hrec]
      exact writes_delta hd.2 (Nat.le_of_eq hid) (hid ▸ Nat.le_succ _)
    · rw [processDiff_of_gap hrec hnext, quantitiesAfter_concat]
      exact ⟨fun _ => rfl, nofun⟩

theorem bookTracks_step_iff (h : BookTracks log s (quantitiesAfter t)) {e : Event Price Qty}
    (he : Truthful log e) :
    BookTracks log (machine.step s e).1 (quantitiesAfter (t ++ (machine.step s e).2)) ↔
      LandsClean log s e := by
  cases e with
  | snapshot ptr => exact bookTracks_snapshot_iff h he
  | diff ptr => exact ⟨fun _ => trivial, fun _ => bookTracks_diff h he⟩

/-! ### Runs -/

/-- The events after which the log starts: none, or any that end with the snapshot that the service
sends after a restart, which the class does not take for a repeated one. -/
inductive Begins (log : List ((Side × Price) × Qty)) (s₀ : OrderBookSync) :
    List (Event Price Qty) → Prop
  | connected : s₀.receivedSnapshotSuccess = false → Begins log s₀ []
  | restarted {pre : List (Event Price Qty)} {e : OrderBookEvent Price Qty} :
    e.updateId = 1 → (machine.final s₀ pre).currentSnapshotUpdateId ≠ 1 →
      Truthful log (.snapshot e) → Begins log s₀ (pre ++ [.snapshot e])

theorem Begins.tracks {s₀ : OrderBookSync} {pre : List (Event Price Qty)} (h : Begins log s₀ pre) :
    BookTracks log (machine.final s₀ pre) (quantitiesAfter (machine.trace s₀ pre)) := by
  cases h with
  | connected hrec =>
    exact ⟨fun _ => rfl, fun hf => absurd (hrec.symm.trans hf) Bool.false_ne_true⟩
  | @restarted pre e hone hne he =>
    have hstep : machine.step (machine.final s₀ pre) (.snapshot e) =
        (⟨e.updateId, e.updateId, true⟩, [.clear, .snapshot e]) := by
      show (machine.final s₀ pre).processSnapshot e = _
      rw [processSnapshot_of_ne (by rw [hone]; exact hne), if_pos hone]
      rfl
    rw [machine.final_concat, machine.trace_concat, hstep, List.append_cons,
      quantitiesAfter_concat, quantitiesAfter_concat]
    exact ⟨nofun, fun _ => writes_full he.2⟩

variable [DecidableEq Qty]

/-- After the events `es`, the local book is empty while there is no snapshot, and else the
exchange's book at the last diff. -/
structure FollowsExchange (log : List ((Side × Price) × Qty)) (maxLevel : ℕ) (s₀ : OrderBookSync)
    (es : List (Event Price Qty)) : Prop where
  empty : (machine.final s₀ es).receivedSnapshotSuccess = false →
    ∃ l, bookAfter maxLevel (machine.trace s₀ es) = some l ∧ l.orderBook.Represents fun _ => 0
  current : (machine.final s₀ es).receivedSnapshotSuccess = true →
    ∃ l, bookAfter maxLevel (machine.trace s₀ es) = some l ∧
      l.orderBook.Represents (exchangeBook log (machine.final s₀ es).currentDiffUpdateId.toNat)

theorem followsExchange_iff {maxLevel : ℕ} (hmax : 1 ≤ maxLevel) (s₀ : OrderBookSync)
    (es : List (Event Price Qty)) :
    FollowsExchange log maxLevel s₀ es ↔
      BookTracks log (machine.final s₀ es) (quantitiesAfter (machine.trace s₀ es)) := by
  constructor
  · intro h
    refine ⟨fun hrec => ?_, fun hrec => ?_⟩
    · exact (bookAfter_represents_iff hmax _ _).mp (h.empty hrec)
    · exact (bookAfter_represents_iff hmax _ _).mp (h.current hrec)
  · intro h
    refine ⟨fun hrec => ?_, fun hrec => ?_⟩
    · exact (bookAfter_represents_iff hmax _ _).mpr (h.empty hrec)
    · exact (bookAfter_represents_iff hmax _ _).mpr (h.current hrec)

/-- **The local book follows the exchange** in every state of a run of truthful events, whatever is
lost, repeated or reordered, exactly when every snapshot of the run lands clean. -/
theorem follows_iff {maxLevel : ℕ} (hmax : 1 ≤ maxLevel) (s₀ : OrderBookSync)
    {pre : List (Event Price Qty)} (hpre : Begins log s₀ pre) (es : List (Event Price Qty))
    (hes : ∀ e ∈ es, Truthful log e) :
    (∀ mid post, es = mid ++ post → FollowsExchange log maxLevel s₀ (pre ++ mid)) ↔
      machine.AllSteps (LandsClean log) (machine.final s₀ pre) es := by
  rw [machine.allSteps_iff]
  refine Machine.forall_prefix_iff (P := fun mid => FollowsExchange log maxLevel s₀ (pre ++ mid))
    (C := fun mid e => LandsClean log (machine.final (machine.final s₀ pre) mid) e) ?_ ?_
  · rw [List.append_nil, followsExchange_iff hmax]
    exact hpre.tracks
  · intro mid e post hsplit hmid
    have he : Truthful log e := hes e (hsplit ▸ List.mem_append_right mid List.mem_cons_self)
    rw [followsExchange_iff hmax] at hmid
    rw [followsExchange_iff hmax, ← List.append_assoc, machine.final_concat, machine.trace_concat,
      ← machine.final_append]
    exact bookTracks_step_iff hmid he

/-- A bid at `10`, a bid at `11`, and the removal of the first. -/
def bidLog : List ((Side × ℕ) × ℕ) := [((.bid, 10), 5), ((.bid, 11), 3), ((.bid, 10), 0)]

/-- The snapshot after a restart, and the two diffs that follow it. -/
def bidSnapshot : OrderBookEvent ℕ ℕ := { updateId := 1, bids := [⟨10, 5⟩] }

/-- The third diff is lost, and a snapshot with the same content comes instead, twice; it still
lists the bid that has been removed.  Then a fourth update adds a bid. -/
def relistedLog : List ((Side × ℕ) × ℕ) := bidLog ++ [((.bid, 12), 7)]

def relistedEvents : List (Event ℕ ℕ) :=
  [.diff { updateId := 2, bids := [⟨11, 3⟩] },
    .snapshot { updateId := 3, bids := [⟨10, 0⟩, ⟨11, 3⟩] },
    .snapshot { updateId := 3, bids := [⟨10, 0⟩, ⟨11, 3⟩] },
    .diff { updateId := 4, bids := [⟨12, 7⟩] }]

theorem relistedEvents_truthful : ∀ e ∈ relistedEvents, Truthful relistedLog e := by
  have hfirst : Truthful relistedLog relistedEvents[0] :=
    ⟨by decide, delta_of_forall_mem (by decide) (by decide)⟩
  have hsnapshot : Truthful relistedLog relistedEvents[1] :=
    ⟨by decide, full_of_forall_mem (by decide) (by decide)⟩
  have hlast : Truthful relistedLog relistedEvents[3] :=
    ⟨by decide, delta_of_forall_mem (by decide) (by decide)⟩
  rw [relistedEvents, List.forall_mem_cons, List.forall_mem_cons, List.forall_mem_cons,
    List.forall_mem_singleton]
  exact ⟨hfirst, hsnapshot, hsnapshot, hlast⟩

/-- After a restart, which clears the book of the old log, the book is followed through the second
snapshot up to the last diff. -/
theorem follows_iff_relistedEvents :
    FollowsExchange relistedLog 1 (start 0 0) ([.snapshot { updateId := 7, bids := [⟨9, 1⟩] }] ++
      [.snapshot bidSnapshot] ++ relistedEvents) := by
  have hbegins : Begins relistedLog (start 0 0)
      ([.snapshot { updateId := 7, bids := [⟨9, 1⟩] }] ++ [.snapshot bidSnapshot]) :=
    .restarted rfl (by decide) ⟨by decide, full_of_forall_mem (by decide) (by decide)⟩
  refine (follows_iff (le_refl 1) (start 0 0) hbegins relistedEvents
    relistedEvents_truthful).mpr ⟨trivial, .inr (.inr fun k hk => ?_), .inl rfl, trivial, trivial⟩
    relistedEvents [] rfl
  by_contra hnot
  apply hk
  -- both bids of the book after the second update are listed
  have h10 : k ≠ (.bid, 10) := fun h => hnot ⟨((.bid, 10), 0), by decide, h.symm⟩
  have h11 : k ≠ (.bid, 11) := fun h => hnot ⟨((.bid, 11), 3), by decide, h.symm⟩
  show writes (fun _ => 0) [((.bid, 10), 5), ((.bid, 11), 3)] k = 0
  simp [writes_cons, h10, h11]

end CryptobotAlgo.Aoe.Bybit
