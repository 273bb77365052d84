import CryptobotAlgo.Feed.Basic
import Mathlib.Computability.Language

/-!
# The order of the calls

A well-ordered feed clears the replica one or more times, loads one snapshot, applies any number
of diffs, and starts again: its calls are a prefix of a word of
`(clear⁺ snapshot diff*)*` (`callGrammar`).

`Phase` is the automaton of that language; `phaseAfter` runs it.  A sequence of calls on which it
does not get stuck is such a prefix (`exists_mem_callGrammar`), loads every snapshot right after
a `clear` (`snapshotsCleared_of_phaseAfter`) and applies every diff on top of a snapshot that no
`clear` has removed (`diffsBased_of_phaseAfter`).
-/

namespace CryptobotAlgo.Feed

open Computability

/-- The kind of a call, without what it carries. -/
inductive Kind
  | clear
  | snapshot
  | diff
  deriving DecidableEq, Repr

variable {S D : Type*}

/-- The kind of a call. -/
def Call.kind : Call S D → Kind
  | .clear => .clear
  | .snapshot _ => .snapshot
  | .diff _ => .diff

/-- One round: clear one or more times, load a snapshot, apply diffs. -/
def round : Language Kind :=
  {[.clear]} * ({[.clear]} : Language Kind)∗ * {[.snapshot]} * ({[.diff]} : Language Kind)∗

/-- Any number of rounds. -/
def callGrammar : Language Kind := round∗

/-- Every snapshot is loaded right after a `clear`. -/
def SnapshotsCleared (calls : List (Call S D)) : Prop :=
  ∀ pre s post, calls = pre ++ .snapshot s :: post → pre.getLast? = some .clear

/-- Every diff comes after a snapshot, with no `clear` in between. -/
def DiffsBased (calls : List (Call S D)) : Prop :=
  ∀ pre d post, calls = pre ++ .diff d :: post → ∃ a s b, pre = a ++ .snapshot s :: b ∧ .clear ∉ b

/-- The states of the automaton. -/
inductive Phase
  | idle
  | cleared
  | live
  deriving DecidableEq, Repr

/-- One call; `none` when the call is out of order. -/
def Phase.next : Phase → Call S D → Option Phase
  | _, .clear => some .cleared
  | .cleared, .snapshot _ => some .live
  | .live, .diff _ => some .live
  | _, _ => none

/-- The state after some calls. -/
def phaseAfter (p : Phase) (calls : List (Call S D)) : Option Phase := calls.foldlM Phase.next p

@[simp] theorem Phase.next_clear (p : Phase) : p.next (.clear : Call S D) = some .cleared := by
  cases p <;> rfl

@[simp] theorem Phase.cleared_next_snapshot (s : S) :
    Phase.cleared.next (.snapshot s : Call S D) = some .live := rfl

@[simp] theorem Phase.live_next_diff (d : D) :
    Phase.live.next (.diff d : Call S D) = some .live := rfl

@[simp] theorem phaseAfter_nil (p : Phase) : phaseAfter p ([] : List (Call S D)) = some p := rfl

@[simp] theorem phaseAfter_cons (p : Phase) (c : Call S D) (cs : List (Call S D)) :
    phaseAfter p (c :: cs) = (p.next c).bind fun q => phaseAfter q cs := rfl

theorem phaseAfter_append (p : Phase) (cs cs' : List (Call S D)) :
    phaseAfter p (cs ++ cs') = (phaseAfter p cs).bind fun q => phaseAfter q cs' := by
  unfold phaseAfter
  exact List.foldlM_append

theorem phaseAfter_live_diffs (ds : List D) :
    phaseAfter .live (ds.map (.diff : D → Call S D)) = some .live := by
  induction ds with
  | nil => rfl
  | cons d ds ih =>
    rw [List.map_cons, phaseAfter_cons, Phase.live_next_diff, Option.bind_some, ih]

/-- Loading a snapshot into a cleared replica and applying diffs to it. -/
theorem phaseAfter_cleared_snapshot_diffs {p : Phase} {cs : List (Call S D)}
    (h : phaseAfter p cs = some .cleared) (s : S) (ds : List D) :
    phaseAfter p (cs ++ .snapshot s :: ds.map .diff) = some .live := by
  rw [phaseAfter_append, h, Option.bind_some, phaseAfter_cons, Phase.cleared_next_snapshot,
    Option.bind_some, phaseAfter_live_diffs]

/-- The last call of a sequence on which the automaton does not get stuck. -/
theorem phaseAfter_concat {p q : Phase} {cs : List (Call S D)} {c : Call S D}
    (h : phaseAfter p (cs ++ [c]) = some q) :
    ∃ r, phaseAfter p cs = some r ∧ r.next c = some q := by
  rw [phaseAfter_append, Option.bind_eq_some_iff] at h
  obtain ⟨r, hr, hq⟩ := h
  rw [phaseAfter_cons, Option.bind_eq_some_iff] at hq
  obtain ⟨q', hq', hnil⟩ := hq
  obtain rfl := Option.some.inj hnil
  exact ⟨r, hr, hq'⟩

/-! ### Membership in the language -/

theorem replicate_mem_kstar (k : Kind) (n : ℕ) :
    List.replicate n k ∈ ({[k]} : Language Kind)∗ := by
  refine Language.mem_kstar.mpr ⟨List.replicate n [k], ?_, ?_⟩
  · simp
  · intro y hy
    exact List.eq_of_mem_replicate hy

theorem round_mem (n m : ℕ) :
    List.replicate (n + 1) Kind.clear ++ [.snapshot] ++ List.replicate m .diff ∈ round := by
  unfold round
  refine Language.append_mem_mul (Language.append_mem_mul ?_ rfl) (replicate_mem_kstar _ _)
  have hone : [Kind.clear] ∈ ({[.clear]} : Language Kind) := rfl
  exact Language.append_mem_mul hone (replicate_mem_kstar .clear n)

theorem append_round_mem {w : List Kind} (hw : w ∈ callGrammar) (n m : ℕ) :
    w ++ (List.replicate (n + 1) .clear ++ [.snapshot] ++ List.replicate m .diff) ∈
      callGrammar := by
  obtain ⟨L, rfl, hL⟩ := Language.mem_kstar.mp hw
  refine Language.mem_kstar.mpr ⟨L ++ [_], by rw [List.flatten_append, List.flatten_singleton], ?_⟩
  intro y hy
  rcases List.mem_append.mp hy with hy | hy
  · exact hL y hy
  · rw [List.mem_singleton] at hy
    subst hy
    exact round_mem n m

/-- What the calls look like in each state of the automaton: whole rounds, then the round that
has been started. -/
def Phase.Shape : Phase → List Kind → Prop
  | .idle, w => w = []
  | .cleared, w => ∃ u ∈ callGrammar, ∃ n, w = u ++ List.replicate (n + 1) .clear
  | .live, w => ∃ u ∈ callGrammar, ∃ n m,
      w = u ++ (List.replicate (n + 1) .clear ++ [.snapshot] ++ List.replicate m .diff)

theorem shape_of_phaseAfter {p : Phase} {cs : List (Call S D)}
    (h : phaseAfter .idle cs = some p) : p.Shape (cs.map Call.kind) := by
  induction cs using List.reverseRecOn generalizing p with
  | nil =>
    obtain rfl := Option.some.inj h
    rfl
  | append_singleton cs c ih =>
    obtain ⟨r, hr, hc⟩ := phaseAfter_concat h
    have hshape := ih hr
    rw [List.map_append, List.map_singleton]
    cases c with
    | clear =>
      rw [Phase.next_clear] at hc
      obtain rfl := Option.some.inj hc
      cases r with
      | idle => exact ⟨[], Language.nil_mem_kstar _, 0, by rw [hshape]; rfl⟩
      | cleared =>
        -- one more `clear` in the same round
        obtain ⟨u, hu, n, hw⟩ := hshape
        refine ⟨u, hu, n + 1, ?_⟩
        rw [hw, List.append_assoc, List.replicate_succ' (n := n + 1)]
        rfl
      | live =>
        -- the round is complete, and the next one starts
        obtain ⟨u, hu, n, m, hw⟩ := hshape
        exact ⟨_, append_round_mem hu n m, 0, by rw [hw]; rfl⟩
    | snapshot s =>
      cases r with
      | idle => cases hc
      | cleared =>
        obtain rfl := Option.some.inj hc
        obtain ⟨u, hu, n, hw⟩ := hshape
        exact ⟨u, hu, n, 0, by rw [hw]; simp [Call.kind]⟩
      | live => cases hc
    | diff d =>
      cases r with
      | idle => cases hc
      | cleared => cases hc
      | live =>
        obtain rfl := Option.some.inj hc
        obtain ⟨u, hu, n, m, hw⟩ := hshape
        refine ⟨u, hu, n, m + 1, ?_⟩
        rw [hw, List.replicate_succ' (n := m)]
        simp [Call.kind]

/-- Calls on which the automaton does not get stuck are a prefix of a word of the grammar. -/
theorem exists_mem_callGrammar {p : Phase} {cs : List (Call S D)}
    (h : phaseAfter .idle cs = some p) : ∃ w, cs.map Call.kind ++ w ∈ callGrammar := by
  have hshape := shape_of_phaseAfter h
  cases p with
  | idle =>
    refine ⟨[], ?_⟩
    rw [hshape]
    exact Language.nil_mem_kstar _
  | cleared =>
    obtain ⟨u, hu, n, hw⟩ := hshape
    refine ⟨[.snapshot], ?_⟩
    rw [hw, List.append_assoc]
    simpa using append_round_mem hu n 0
  | live =>
    obtain ⟨u, hu, n, m, hw⟩ := hshape
    refine ⟨[], ?_⟩
    rw [hw, List.append_nil]
    exact append_round_mem hu n m

/-! ### What a state says about the calls before it -/

theorem getLast?_of_phaseAfter_cleared {cs : List (Call S D)}
    (h : phaseAfter .idle cs = some .cleared) : cs.getLast? = some .clear := by
  cases cs using List.reverseRecOn with
  | nil => cases h
  | append_singleton cs c =>
    obtain ⟨r, _, hc⟩ := phaseAfter_concat h
    rw [List.getLast?_concat]
    cases c with
    | clear => rfl
    | snapshot s => cases r <;> cases hc
    | diff d => cases r <;> cases hc

theorem exists_snapshot_of_phaseAfter_live {cs : List (Call S D)}
    (h : phaseAfter .idle cs = some .live) :
    ∃ a s b, cs = a ++ .snapshot s :: b ∧ .clear ∉ b := by
  induction cs using List.reverseRecOn with
  | nil => cases h
  | append_singleton cs c ih =>
    obtain ⟨r, hr, hc⟩ := phaseAfter_concat h
    cases c with
    | clear =>
      rw [Phase.next_clear] at hc
      cases hc
    | snapshot s => exact ⟨cs, s, [], rfl, by simp⟩
    | diff d =>
      cases r with
      | idle => cases hc
      | cleared => cases hc
      | live =>
        obtain ⟨a, s, b, rfl, hb⟩ := ih hr
        exact ⟨a, s, b ++ [.diff d], by simp, by simpa using hb⟩

/-- The automaton is not stuck before the last call either. -/
theorem exists_phaseAfter_of_append {p : Phase} {cs cs' : List (Call S D)}
    (h : phaseAfter .idle (cs ++ cs') = some p) :
    ∃ r, phaseAfter .idle cs = some r ∧ phaseAfter r cs' = some p := by
  rw [phaseAfter_append, Option.bind_eq_some_iff] at h
  exact h

theorem snapshotsCleared_of_phaseAfter {p : Phase} {cs : List (Call S D)}
    (h : phaseAfter .idle cs = some p) : SnapshotsCleared cs := by
  rintro pre s post rfl
  obtain ⟨r, hr, hs⟩ := exists_phaseAfter_of_append h
  cases r with
  | idle => cases hs
  | cleared => exact getLast?_of_phaseAfter_cleared hr
  | live => cases hs

theorem diffsBased_of_phaseAfter {p : Phase} {cs : List (Call S D)}
    (h : phaseAfter .idle cs = some p) : DiffsBased cs := by
  rintro pre d post rfl
  obtain ⟨r, hr, hd⟩ := exists_phaseAfter_of_append h
  cases r with
  | idle => cases hd
  | cleared => cases hd
  | live => exact exists_snapshot_of_phaseAfter_live hr

/-! ### Calls one by one -/

theorem diffsBased_nil : DiffsBased ([] : List (Call S D)) := by
  intro pre d post h
  simp at h

/-- A diff may be added on top of an open chain, any other call at any time. -/
theorem diffsBased_concat {cs : List (Call S D)} {c : Call S D} (h : DiffsBased cs)
    (hc : ∀ d, c = .diff d → linkAfter .closed cs ≠ .closed) : DiffsBased (cs ++ [c]) := by
  intro pre d post hsplit
  cases post using List.reverseRecOn with
  | nil =>
    -- `d` is the new call, and the snapshot is that of the open chain
    obtain ⟨rfl, hlast⟩ := List.append_inj' hsplit rfl
    have hopen := hc d (List.singleton_inj.mp hlast)
    cases hl : linkAfter Link.closed cs with
    | closed => exact absurd hl hopen
    | based s =>
      obtain ⟨a, rfl⟩ := (exists_of_linkAfter cs).1 s hl
      exact ⟨a, s, [], rfl, by simp⟩
    | linked d =>
      obtain ⟨a, s, ds, rfl⟩ := (exists_of_linkAfter cs).2 d hl
      exact ⟨a, s, _, rfl, by simp⟩
  | append_singleton post c' =>
    rw [← List.cons_append, ← List.append_assoc] at hsplit
    obtain ⟨rfl, -⟩ := List.append_inj' hsplit rfl
    exact h pre d post rfl

/-- Where every snapshot follows a `clear`, the calls after a snapshot and before the next
`clear` are all diffs. -/
theorem SnapshotsCleared.gapless {first : S → D → Prop} {next : D → D → Prop}
    {cs : List (Call S D)} (hcs : SnapshotsCleared cs) (h : Gapless Call.IsDiff first next cs) :
    Gapless (· ≠ .clear) first next cs := by
  rintro pre s mid post rfl hmid
  refine h pre s mid post rfl fun c hc => ?_
  cases c with
  | clear => exact absurd rfl (hmid _ hc)
  | diff d => trivial
  | snapshot s' =>
    -- the call before it would be a `clear`: `snapshot s`, or one of the calls after that
    exfalso
    obtain ⟨m₁, m₂, rfl⟩ := List.append_of_mem hc
    have hlast := hcs (pre ++ .snapshot s :: m₁) s' (m₂ ++ post) (by simp)
    cases m₁ using List.reverseRecOn with
    | nil => simp at hlast
    | append_singleton m₁ c =>
      have hc' : c = .clear := by
        rw [← List.cons_append, ← List.append_assoc, List.getLast?_concat] at hlast
        exact Option.some.inj hlast
      exact hmid c (by simp) hc'

end CryptobotAlgo.Feed
