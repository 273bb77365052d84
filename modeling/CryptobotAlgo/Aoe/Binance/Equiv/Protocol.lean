import CryptobotAlgo.Aoe.Binance.Equiv.LocalBook

/-!
# The synchronisation and the exchange

The exchange as a party of its own: its book changes, it sends the changes as diffs on a stream
that keeps their order, and it answers a request with a snapshot of the book as it is then.  The
diffs may lag behind the book, and the two channels are independent of each other.

The conditions under which the local book follows the exchange then hold by themselves:
`Conforms` relates a run of the protocol to the run of the synchronisation in it, whose diffs have
no gap, and whose snapshots are in time, since a request is made when the first diff is in the
buffer.
-/

namespace CryptobotAlgo.Aoe.Binance

open Aos Feed LastWrite OrderBookSync OrderBookEventListener

/-! ### The parties and the channels -/

/-- The synchronisation, the exchange, and what is on its way between them. -/
structure ProtocolState (Price Qty : Type) where
  sync : SyncState Price Qty (OrderBookDiffEvent Price Qty) := {}
  /-- the updates that the exchange has made to its book -/
  updates : ℕ
  /-- the updates that it has sent as diffs -/
  sent : ℕ
  diffs : List (OrderBookDiffEvent Price Qty) := []
  snapshots : List (OrderBookSnapshotEvent Price Qty) := []

inductive ProtocolEvent (Price Qty : Type)
  /-- the book of the exchange changes -/
  | update
  /-- the exchange sends a diff -/
  | sendDiff (d : OrderBookDiffEvent Price Qty)
  /-- the exchange answers a request -/
  | answer (ptr : OrderBookSnapshotEvent Price Qty)
  | deliverDiff
  | deliverSnapshot

variable {Price Qty : Type} [LinearOrder Price] [Zero Qty]
  {log : List ((Side × Price) × Qty)}

namespace ProtocolState

/-- What can happen: a diff goes on where the last one ended, and a snapshot that can be parsed is
not older than what was sent as diffs. -/
def Enabled (log : List ((Side × Price) × Qty)) (s : ProtocolState Price Qty) :
    ProtocolEvent Price Qty → Prop
  | .update => s.updates < log.length
  | .sendDiff d => IsDiffOf log d ∧ d.firstUpdateId.toNat = s.sent + 1 ∧
      d.finalUpdateId.toNat ≤ s.updates
  | .answer ptr => s.snapshots.length < s.sync.outstanding ∧ (ptr.tradingPair ≠ .kCount →
      IsSnapshotOf log ptr ∧ s.sent ≤ ptr.updateId.toNat ∧ ptr.updateId.toNat ≤ s.updates)
  | .deliverDiff => s.diffs ≠ []
  | .deliverSnapshot => s.snapshots ≠ []

omit [LinearOrder Price] [Zero Qty] in
def step (s : ProtocolState Price Qty) : ProtocolEvent Price Qty →
    ProtocolState Price Qty × List (Effect Price Qty (OrderBookDiffEvent Price Qty))
  | .update => ({ s with updates := s.updates + 1 }, [])
  | .sendDiff d => ({ s with sent := d.finalUpdateId.toNat, diffs := s.diffs ++ [d] }, [])
  | .answer ptr => ({ s with snapshots := s.snapshots ++ [ptr] }, [])
  | .deliverDiff =>
    match s.diffs with
    | [] => (s, [])
    | d :: rest => ({ s with sync := (Spot.machine.step s.sync (.diff d)).1, diffs := rest },
        (Spot.machine.step s.sync (.diff d)).2)
  | .deliverSnapshot =>
    match s.snapshots with
    | [] => (s, [])
    | ptr :: rest =>
      ({ s with sync := (Spot.machine.step s.sync (.snapshot ptr)).1, snapshots := rest }, [])

end ProtocolState

section Handlers

variable {s : SyncState Price Qty (OrderBookDiffEvent Price Qty)}
  {t : List (Call (OrderBookSnapshotEvent Price Qty) (OrderBookDiffEvent Price Qty))}

/-- What `ProcessDiff` does to the ids and to the front of the buffer. -/
structure DiffKeeps (d : OrderBookDiffEvent Price Qty)
    (s s' : OrderBookSync Price Qty (OrderBookDiffEvent Price Qty)) : Prop where
  lastSnapshot : s'.lastSnapshotUpdateId = s.lastSnapshotUpdateId
  /-- a snapshot that waits or has been processed has arrived before -/
  arrived : s'.needProcessCurrentSnapshot = true ∨ s'.snapshotWasProcessed = true →
    s.needProcessCurrentSnapshot = true ∨ s.snapshotWasProcessed = true
  lastDiff : s'.snapshotWasProcessed = true → s'.lastDiffUpdateId = d.finalUpdateId
  front : s.snapshotRequestInFlight = true → s.diffs ≠ [] → s'.diffs.head? = s.diffs.head?

omit [LinearOrder Price] [Zero Qty] in
theorem diffKeeps_processDiff (h : SyncInv s t) (d : OrderBookDiffEvent Price Qty) :
    DiffKeeps d s.sync (s.sync.processDiff Spot.checkPacketLost d).1 := by
  obtain ⟨p, hp⟩ := h
  have hfront : s.sync.diffs ≠ [] → (s.sync.diffs ++ [d]).head? = s.sync.diffs.head? := by
    intro hne
    rw [List.head?_append_of_ne_nil _ hne]
  cases p with
  | needSnapshot =>
    rw [processDiff_needSnapshot hp.flags]
    refine ⟨rfl, id, fun hproc => ?_, fun _ => hfront⟩
    exact absurd (hp.flags.processed.symm.trans hproc) Bool.false_ne_true
  | inFlight =>
    rw [processDiff_inFlight hp.flags]
    refine ⟨rfl, id, fun hproc => ?_, fun _ => hfront⟩
    exact absurd (hp.flags.processed.symm.trans hproc) Bool.false_ne_true
  | waiting =>
    obtain ⟨e, he, -⟩ := hp.snapshot rfl
    rw [processDiff_waiting hp.flags he]
    dsimp only
    obtain ⟨fwd, rest, hsplit, hdr⟩ :=
      exists_drained Spot.checkPacketLost (s.sync.applied d) (s.sync.diffs ++ [d])
    have hflight : s.sync.snapshotRequestInFlight = false := hp.flags.inFlight
    refine ⟨lastSnapshotUpdateId_drainDiffs _ _, fun _ => .inl hp.flags.needProcess,
      fun hproc => ?_, fun hf => absurd (hflight.symm.trans hf) Bool.false_ne_true⟩
    cases rest with
    | nil =>
      -- the whole buffer was forwarded, and `d` was the last of it
      rw [List.append_nil] at hsplit
      rw [hdr.lastId, ← hsplit, lastIdAfter_concat]
      rfl
    | cons x rest =>
      obtain ⟨-, -, hlost⟩ := hdr.lost x rfl
      exact absurd (hlost.symm.trans hproc) Bool.false_ne_true
  | synced =>
    have hflight : s.sync.snapshotRequestInFlight = false := hp.flags.inFlight
    cases hlost : Spot.checkPacketLost s.sync.lastDiffUpdateId d with
    | false =>
      rw [processDiff_synced_of_continues hp.flags hlost]
      exact ⟨rfl, id, fun _ => rfl,
        fun hf => absurd (hflight.symm.trans hf) Bool.false_ne_true⟩
    | true =>
      rw [processDiff_synced_of_lost hp.flags (hp.buffer rfl) hlost]
      exact ⟨rfl, fun _ => .inr hp.flags.processed, nofun,
        fun hf => absurd (hflight.symm.trans hf) Bool.false_ne_true⟩

end Handlers

/-! ### The invariant -/

/-- A run of the protocol has come to the state `s`, with the effects `t`; the synchronisation in it
has been given the events `es`. -/
structure Conforms (log : List ((Side × Price) × Qty))
    (es : List (Event Price Qty (OrderBookDiffEvent Price Qty))) (s : ProtocolState Price Qty)
    (t : List (Effect Price Qty (OrderBookDiffEvent Price Qty))) : Prop where
  legal : Spot.machine.Legal {} es
  final : s.sync = Spot.machine.final {} es
  trace : t = Spot.machine.trace {} es
  truthful : ∀ e ∈ es, Truthful log e
  inTime : Spot.machine.AllSteps SnapshotInTime {} es
  sent_le : s.sent ≤ s.updates
  updates_le : s.updates ≤ log.length
  /-- the diffs that were sent, of which some have been delivered -/
  sentDiffs : ∀ d ∈ es.filterMap Event.diff? ++ s.diffs,
    IsDiffOf log d ∧ d.finalUpdateId.toNat ≤ s.sent
  chain : (es.filterMap Event.diff? ++ s.diffs).IsChain fun d d' =>
    d'.firstUpdateId.toNat = d.finalUpdateId.toNat + 1
  lastSent : ∀ d ∈ (es.filterMap Event.diff? ++ s.diffs).getLast?, d.finalUpdateId.toNat = s.sent
  requested : s.snapshots.length ≤ s.sync.outstanding
  /-- a snapshot on its way will be in time -/
  snapshots : ∀ ptr ∈ s.snapshots, SnapshotInTime s.sync (.snapshot ptr) ∧
    (ptr.tradingPair ≠ .kCount → IsSnapshotOf log ptr ∧ ptr.updateId.toNat ≤ s.updates)
  arrived : s.sync.sync.needProcessCurrentSnapshot = true ∨
    s.sync.sync.snapshotWasProcessed = true → s.sync.sync.lastSnapshotUpdateId.toNat ≤ s.updates
  lastDelivered : s.sync.sync.snapshotWasProcessed = true →
    ∃ d, (es.filterMap Event.diff?).getLast? = some d ∧
      s.sync.sync.lastDiffUpdateId = d.finalUpdateId

section Steps

variable {es : List (Event Price Qty (OrderBookDiffEvent Price Qty))}
  {s : ProtocolState Price Qty} {t : List (Effect Price Qty (OrderBookDiffEvent Price Qty))}

theorem Conforms.syncInv (h : Conforms log es s t) : SyncInv s.sync (calls t) := by
  have hinv : SyncInv (Spot.machine.final {} es) (calls (Spot.machine.trace {} es)) :=
    syncInv_of_legal h.legal
  rw [h.final, h.trace]
  exact hinv

theorem Conforms.lossless (h : Conforms log es s t) : Lossless es := h.chain.left_of_append

theorem Conforms.update (h : Conforms log es s t) (hlt : s.updates < log.length) :
    Conforms log es { s with updates := s.updates + 1 } t where
  legal := h.legal
  final := h.final
  trace := h.trace
  truthful := h.truthful
  inTime := h.inTime
  sent_le := Nat.le_succ_of_le h.sent_le
  updates_le := hlt
  sentDiffs := h.sentDiffs
  chain := h.chain
  lastSent := h.lastSent
  requested := h.requested
  snapshots := by
    intro ptr hptr
    obtain ⟨htime, htrue⟩ := h.snapshots ptr hptr
    exact ⟨htime, fun hpair => ⟨(htrue hpair).1, Nat.le_succ_of_le (htrue hpair).2⟩⟩
  arrived := fun hflags => Nat.le_succ_of_le (h.arrived hflags)
  lastDelivered := h.lastDelivered

theorem Conforms.sendDiff (h : Conforms log es s t) {d : OrderBookDiffEvent Price Qty}
    (hd : IsDiffOf log d) (hfirst : d.firstUpdateId.toNat = s.sent + 1)
    (hfinal : d.finalUpdateId.toNat ≤ s.updates) :
    Conforms log es { s with sent := d.finalUpdateId.toNat, diffs := s.diffs ++ [d] } t := by
  have hrange : d.firstUpdateId.toNat ≤ d.finalUpdateId.toNat := hd.range
  refine { h with sent_le := hfinal, sentDiffs := ?_, chain := ?_, lastSent := ?_ }
  · rw [← List.append_assoc]
    intro x hx
    rcases List.mem_append.mp hx with hx | hx
    · obtain ⟨htrue, hle⟩ := h.sentDiffs x hx
      exact ⟨htrue, by dsimp only; omega⟩
    · obtain rfl := List.mem_singleton.mp hx
      exact ⟨hd, Nat.le_refl _⟩
  · rw [← List.append_assoc, List.isChain_append]
    refine ⟨h.chain, .singleton d, ?_⟩
    intro x hx y hy
    obtain rfl := Option.some.inj hy
    rw [h.lastSent x hx, hfirst]
  · rw [← List.append_assoc, List.getLast?_concat]
    intro x hx
    obtain rfl := Option.some.inj hx
    rfl

/-- What is in the buffer has been sent before the request is answered. -/
theorem Conforms.answer (hlog : log.length + 1 < 2 ^ 64) (h : Conforms log es s t)
    {ptr : OrderBookSnapshotEvent Price Qty} (hout : s.snapshots.length < s.sync.outstanding)
    (hptr : ptr.tradingPair ≠ .kCount →
      IsSnapshotOf log ptr ∧ s.sent ≤ ptr.updateId.toNat ∧ ptr.updateId.toNat ≤ s.updates) :
    Conforms log es { s with snapshots := s.snapshots ++ [ptr] } t := by
  refine { h with requested := ?_, snapshots := ?_ }
  · rw [List.length_append, List.length_singleton]
    exact hout
  · intro x hx
    rcases List.mem_append.mp hx with hx | hx
    · exact h.snapshots x hx
    · obtain rfl := List.mem_singleton.mp hx
      refine ⟨fun hpair d hd => ?_, fun hpair => ⟨(hptr hpair).1, (hptr hpair).2.2⟩⟩
      have hbuffers := buffers_of_run hlog h.legal h.truthful h.lossless h.inTime
      rw [← h.final] at hbuffers
      have hmem : d ∈ es.filterMap Event.diff? ++ s.diffs :=
        List.mem_append_left _ (hbuffers.suffix.subset (List.mem_of_mem_head? hd))
      obtain ⟨htrue, hsent⟩ := h.sentDiffs d hmem
      have hrange : d.firstUpdateId.toNat ≤ d.finalUpdateId.toNat := htrue.range
      have hnew := (hptr hpair).2.1
      omega

theorem Conforms.deliverDiff (hlog : log.length + 1 < 2 ^ 64)
    {d : OrderBookDiffEvent Price Qty} {rest : List (OrderBookDiffEvent Price Qty)}
    (h : Conforms log es s t) (hdiffs : s.diffs = d :: rest) :
    Conforms log (es ++ [.diff d])
      { s with sync := (Spot.machine.step s.sync (.diff d)).1, diffs := rest }
      (t ++ (Spot.machine.step s.sync (.diff d)).2) := by
  have hkeeps := diffKeeps_processDiff h.syncInv d
  -- what has been sent is the same, but `d` has been delivered
  have hsame : List.filterMap Event.diff? (es ++ [.diff d]) ++ rest =
      es.filterMap Event.diff? ++ s.diffs := by
    rw [filterMap_diff?_diff, hdiffs, List.append_assoc]
    rfl
  have hd := h.sentDiffs d (by
    rw [hdiffs]
    exact List.mem_append_right _ List.mem_cons_self)
  have hlength := h.updates_le
  have hsent := h.sent_le
  refine ⟨?_, ?_, ?_, ?_, ?_, hsent, hlength, hsame ▸ h.sentDiffs, hsame ▸ h.chain,
    hsame ▸ h.lastSent, ?_, ?_, ?_, ?_⟩
  · exact (Machine.allSteps_append _ _ _ _ _).mpr ⟨h.legal, trivial, trivial⟩
  · rw [Machine.final_concat, ← h.final]
  · rw [Machine.trace_concat, ← h.final, ← h.trace]
  · intro e he
    rcases List.mem_append.mp he with he | he
    · exact h.truthful e he
    · obtain rfl := List.mem_singleton.mp he
      exact ⟨hd.1, by omega⟩
  · exact (Machine.allSteps_append _ _ _ _ _).mpr ⟨h.inTime, trivial, trivial⟩
  · exact Nat.le_add_right_of_le h.requested
  · intro ptr hptr
    obtain ⟨htime, htrue⟩ := h.snapshots ptr hptr
    refine ⟨fun hpair x hx => htime hpair x ?_, htrue⟩
    -- a request is unanswered, so the buffer is not empty and its front stays
    have hout : 0 < s.sync.outstanding :=
      Nat.lt_of_lt_of_le (List.length_pos_of_mem hptr) h.requested
    obtain ⟨p, hp⟩ := h.syncInv
    obtain rfl := hp.inFlight_of_outstanding hout
    have hbuffers := buffers_of_run hlog h.legal h.truthful h.lossless h.inTime
    rw [← h.final] at hbuffers
    have hflight : s.sync.sync.snapshotRequestInFlight = true := hp.flags.inFlight
    rw [← hkeeps.front hflight (hbuffers.requested hflight)]
    exact hx
  · intro hflags
    show (s.sync.sync.processDiff Spot.checkPacketLost d).1.lastSnapshotUpdateId.toNat ≤ s.updates
    rw [hkeeps.lastSnapshot]
    exact h.arrived (hkeeps.arrived hflags)
  · intro hproc
    refine ⟨d, ?_, hkeeps.lastDiff hproc⟩
    rw [filterMap_diff?_diff, List.getLast?_concat]

theorem Conforms.deliverSnapshot {ptr : OrderBookSnapshotEvent Price Qty}
    {rest : List (OrderBookSnapshotEvent Price Qty)} (h : Conforms log es s t)
    (hsnapshots : s.snapshots = ptr :: rest) :
    Conforms log (es ++ [.snapshot ptr])
      { s with sync := (Spot.machine.step s.sync (.snapshot ptr)).1, snapshots := rest } t := by
  have hrequested := h.requested
  rw [hsnapshots, List.length_cons] at hrequested
  have hout : 0 < s.sync.outstanding := by omega
  obtain ⟨p, hp⟩ := h.syncInv
  obtain rfl := hp.inFlight_of_outstanding hout
  have hone : s.sync.outstanding = 1 := hp.outstanding
  have hprocessed : s.sync.sync.snapshotWasProcessed = false := hp.flags.processed
  obtain ⟨htime, htrue⟩ := h.snapshots ptr (by rw [hsnapshots]; exact List.mem_cons_self)
  have hsame : List.filterMap Event.diff? (es ++ [.snapshot ptr]) = es.filterMap Event.diff? :=
    filterMap_diff?_snapshot es ptr
  -- it was the only request
  have hrest : rest = [] := List.length_eq_zero_iff.mp (by omega)
  have hstays : (s.sync.sync.processSnapshot ptr).snapshotWasProcessed = false := by
    unfold processSnapshot
    dsimp only
    split_ifs
    · exact hprocessed
    · exact hprocessed
  refine ⟨?_, ?_, ?_, ?_, ?_, h.sent_le, h.updates_le, hsame ▸ h.sentDiffs, hsame ▸ h.chain,
    hsame ▸ h.lastSent, ?_, ?_, ?_, ?_⟩
  · refine (Machine.allSteps_append _ _ _ _ _).mpr ⟨h.legal, ?_, trivial⟩
    rw [← h.final]
    exact hout
  · rw [Machine.final_concat, ← h.final]
  · rw [Machine.trace_concat, ← h.trace]
    exact (List.append_nil t).symm
  · intro e he
    rcases List.mem_append.mp he with he | he
    · exact h.truthful e he
    · obtain rfl := List.mem_singleton.mp he
      exact fun hpair => ⟨(htrue hpair).1, Nat.le_trans (htrue hpair).2 h.updates_le⟩
  · refine (Machine.allSteps_append _ _ _ _ _).mpr ⟨h.inTime, ?_, trivial⟩
    rw [← h.final]
    exact htime
  · rw [hrest]
    exact Nat.zero_le _
  · rw [hrest]
    exact nofun
  · intro hflags
    change (s.sync.sync.processSnapshot ptr).needProcessCurrentSnapshot = true ∨
      (s.sync.sync.processSnapshot ptr).snapshotWasProcessed = true at hflags
    show (s.sync.sync.processSnapshot ptr).lastSnapshotUpdateId.toNat ≤ s.updates
    rw [hstays] at hflags
    have hneed := hflags.resolve_right Bool.false_ne_true
    unfold processSnapshot at hneed ⊢
    dsimp only at hneed ⊢
    split_ifs at hneed ⊢ with hpair
    · exact (htrue hpair).2
  · intro hproc
    exact absurd (hstays.symm.trans hproc) Bool.false_ne_true

theorem Conforms.step (hlog : log.length + 1 < 2 ^ 64) (h : Conforms log es s t)
    {e : ProtocolEvent Price Qty} (he : s.Enabled log e) :
    ∃ es', Conforms log es' (s.step e).1 (t ++ (s.step e).2) := by
  cases e with
  | update => exact ⟨es, (List.append_nil t).symm ▸ h.update he⟩
  | sendDiff d => exact ⟨es, (List.append_nil t).symm ▸ h.sendDiff he.1 he.2.1 he.2.2⟩
  | answer ptr => exact ⟨es, (List.append_nil t).symm ▸ h.answer hlog he.1 he.2⟩
  | deliverDiff =>
    cases hdiffs : s.diffs with
    | nil => exact absurd hdiffs he
    | cons d rest =>
      have hstep : s.step .deliverDiff =
          ({ s with sync := (Spot.machine.step s.sync (.diff d)).1, diffs := rest },
            (Spot.machine.step s.sync (.diff d)).2) := by
        unfold ProtocolState.step
        rw [hdiffs]
      rw [hstep]
      exact ⟨_, h.deliverDiff hlog hdiffs⟩
  | deliverSnapshot =>
    cases hsnapshots : s.snapshots with
    | nil => exact absurd hsnapshots he
    | cons ptr rest =>
      have hstep : s.step .deliverSnapshot =
          ({ s with
            sync := (Spot.machine.step s.sync (.snapshot ptr)).1, snapshots := rest }, []) := by
        unfold ProtocolState.step
        rw [hsnapshots]
      rw [hstep, List.append_nil]
      exact ⟨_, h.deliverSnapshot hsnapshots⟩

end Steps

/-! ### Runs -/

variable [DecidableEq Qty]

def bidSnapshot : OrderBookSnapshotEvent ℕ ℕ where
  updateId := 1
  tradingPair := .kBTCUSDT
  bids := [⟨10, 5⟩]

end CryptobotAlgo.Aoe.Binance
