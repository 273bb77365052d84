import CryptobotAlgo.Machine.Basic
import Mathlib.Logic.Function.Basic

/-!
# Parties under ids

`registry M` keeps parties under ids, each of them a state of the machine `M`.  A party can be
registered at any time, in the place of the one before it, and a call goes to the party that is
registered then; without one the call comes to nothing, and says so.

A life of an id is a party from its registration on, with the calls that have gone to it.
`registryRun_of_legal` says that, however the calls to the parties alternate, each life has run as
the party would have run alone.

`storeRegistry` keeps references to parties whose states are in a common store.  As long as no two
of the parties that are registered at a time share a part of the store (`Separate`), it runs as
`registry` does (`registry_of_separate`).

`sum A B` is a party of either kind.
-/

namespace CryptobotAlgo

inductive RegistryEvent (ι σ ε : Type*)
  | register (id : ι) (party : σ)
  | call (id : ι) (e : ε)
  deriving DecidableEq, Repr

inductive RegistryAction (ι α : Type*)
  /-- the party under the id acts -/
  | act (id : ι) (a : α)
  /-- a call to an id under which there is no party -/
  | outOfRange (id : ι)
  deriving DecidableEq, Repr

/-- A party, from its registration on. -/
structure Life (σ ε : Type*) where
  party : σ
  calls : List ε := []
  deriving DecidableEq, Repr

/-- Where the states of parties are kept: what is at a reference is read and written. -/
structure Store (η ρ σ : Type*) where
  load : η → ρ → σ
  store : η → ρ → σ → η

/-- A store, and the references that are registered. -/
structure StoreRegistry (η ι ρ : Type*) where
  heap : η
  refs : ι → Option ρ := fun _ => none

namespace Machine

variable {ι σ ε α : Type*} [DecidableEq ι]

/-- Parties under ids. -/
def registry (M : Machine σ ε α) :
    Machine (ι → Option σ) (RegistryEvent ι σ ε) (RegistryAction ι α) where
  enabled s
    | .register _ _ => True
    | .call id e => ∀ party ∈ s id, M.enabled party e
  step s
    | .register id party => (Function.update s id (some party), [])
    | .call id e =>
      match s id with
      | none => (s, [.outOfRange id])
      | some party =>
        (Function.update s id (some (M.step party e).1), (M.step party e).2.map (.act id))

theorem registry_call_of_none {M : Machine σ ε α} {s : ι → Option σ} {id : ι} (h : s id = none)
    (e : ε) : (registry M).step s (.call id e) = (s, [.outOfRange id]) := by
  show (match s id with | none => _ | some party => _) = _
  rw [h]

theorem registry_call_of_some {M : Machine σ ε α} {s : ι → Option σ} {id : ι} {party : σ}
    (h : s id = some party) (e : ε) : (registry M).step s (.call id e) =
      (Function.update s id (some (M.step party e).1), (M.step party e).2.map (.act id)) := by
  show (match s id with | none => _ | some party => _) = _
  rw [h]

/-! ### Lives -/

/-- The lives of an id after one more event, newest first. -/
def livesStep (id : ι) (lives : List (Life σ ε)) : RegistryEvent ι σ ε → List (Life σ ε)
  | .register id' party => if id' = id then { party } :: lives else lives
  | .call id' e =>
    if id' = id then
      match lives with
      | [] => []
      | life :: lives => { life with calls := life.calls ++ [e] } :: lives
    else lives

section LivesStep

variable {id id' : ι} {lives : List (Life σ ε)} {e : ε}

theorem livesStep_register (party : σ) :
    livesStep id lives (.register id' party) =
      if id' = id then { party } :: lives else lives := rfl

theorem livesStep_call_nil : livesStep id [] (.call id' e) = ([] : List (Life σ ε)) := by
  unfold livesStep
  exact ite_self _

theorem livesStep_call_cons (life : Life σ ε) :
    livesStep id (life :: lives) (.call id e) =
      { life with calls := life.calls ++ [e] } :: lives := if_pos rfl

theorem livesStep_call_of_ne (h : id' ≠ id) : livesStep id lives (.call id' e) = lives :=
  if_neg h

end LivesStep

/-- The lives of an id, newest first. -/
def lives (id : ι) (es : List (RegistryEvent ι σ ε)) : List (Life σ ε) :=
  es.foldl (livesStep id) []

theorem lives_concat (id : ι) (es : List (RegistryEvent ι σ ε)) (e : RegistryEvent ι σ ε) :
    lives id (es ++ [e]) = livesStep id (lives id es) e := by
  unfold lives
  rw [List.foldl_append]
  rfl

/-- An id has a life once a party has been registered under it. -/
theorem lives_ne_nil_iff (id : ι) (es : List (RegistryEvent ι σ ε)) :
    lives id es ≠ [] ↔ ∃ party, RegistryEvent.register id party ∈ es := by
  induction es using List.reverseRecOn with
  | nil => exact iff_of_false (fun h => h rfl) (by simp)
  | append_singleton es e ih =>
    rw [lives_concat]
    cases e with
    | register id' party =>
      rw [livesStep_register]
      by_cases hid : id' = id
      · rw [if_pos hid, hid]
        exact iff_of_true (List.cons_ne_nil _ _) ⟨party, List.mem_append_right _ (by simp)⟩
      · rw [if_neg hid, ih]
        have hother : ∀ party' : σ, ¬ (id = id' ∧ party' = party) := fun _ h => hid h.1.symm
        simp [hother]
    | call id' e =>
      have hsame : livesStep id (lives id es) (.call id' e) ≠ [] ↔ lives id es ≠ [] := by
        by_cases hid : id' = id
        · rw [hid]
          cases lives id es with
          | nil => rw [livesStep_call_nil]
          | cons life rest =>
            rw [livesStep_call_cons]
            exact iff_of_true (List.cons_ne_nil _ _) (List.cons_ne_nil _ _)
        · rw [livesStep_call_of_ne hid]
      rw [hsame, ih]
      simp

/-- What the party under an id does. -/
def actOf (id : ι) : RegistryAction ι α → Option α
  | .act id' a => if id' = id then some a else none
  | .outOfRange _ => none

theorem filterMap_actOf_act (id id' : ι) (out : List α) :
    (out.map (.act id')).filterMap (actOf id) = if id' = id then out else [] := by
  rw [List.filterMap_map]
  split_ifs with hid
  · exact (List.filterMap_congr fun a _ => if_pos hid).trans List.filterMap_some
  · exact List.filterMap_eq_nil_iff.mpr fun _ _ => if_neg hid

/-- What the lives of an id have done, one after the other. -/
def livesTrace (M : Machine σ ε α) (lives : List (Life σ ε)) : List α :=
  lives.reverse.flatMap fun life => M.trace life.party life.calls

theorem livesTrace_cons (M : Machine σ ε α) (life : Life σ ε) (lives : List (Life σ ε)) :
    livesTrace M (life :: lives) = livesTrace M lives ++ M.trace life.party life.calls := by
  unfold livesTrace
  rw [List.reverse_cons, List.flatMap_append, List.flatMap_singleton]

/-! ### Runs -/

/-- A run of the parties, as a run of each of them. -/
structure RegistryRun (M : Machine σ ε α) (es : List (RegistryEvent ι σ ε)) (s : ι → Option σ)
    (out : List (RegistryAction ι α)) : Prop where
  legal : ∀ id, ∀ life ∈ lives id es, M.Legal life.party life.calls
  final : ∀ id, s id = (lives id es).head?.map fun life => M.final life.party life.calls
  trace : ∀ id, out.filterMap (actOf id) = livesTrace M (lives id es)
  /-- a call comes to nothing when it is made before any registration -/
  outOfRange : ∀ id, RegistryAction.outOfRange id ∈ out ↔
    ∃ pre e post, es = pre ++ .call id e :: post ∧ lives id pre = []

variable {M : Machine σ ε α} {es : List (RegistryEvent ι σ ε)} {s : ι → Option σ}
  {out : List (RegistryAction ι α)}

/-- The calls before any registration, after one more event. -/
theorem exists_early_concat (id : ι) (es : List (RegistryEvent ι σ ε)) (e : RegistryEvent ι σ ε) :
    (∃ pre e' post, es ++ [e] = pre ++ .call id e' :: post ∧ lives id pre = []) ↔
      (∃ pre e' post, es = pre ++ .call id e' :: post ∧ lives id pre = []) ∨
        (∃ e', e = .call id e') ∧ lives id es = [] := by
  constructor
  · rintro ⟨pre, e', post, heq, hpre⟩
    rcases List.eq_nil_or_concat post with rfl | ⟨post, f, rfl⟩
    · obtain ⟨rfl, hlast⟩ := List.append_inj' heq rfl
      exact .inr ⟨⟨e', (List.cons.inj hlast).1⟩, hpre⟩
    · rw [List.concat_eq_append, ← List.cons_append, ← List.append_assoc] at heq
      exact .inl ⟨pre, e', post, (List.append_inj' heq rfl).1, hpre⟩
  · rintro (⟨pre, e', post, rfl, hpre⟩ | ⟨⟨e', rfl⟩, hes⟩)
    · exact ⟨pre, e', post ++ [e], by simp, hpre⟩
    · exact ⟨es, e', [], rfl, hes⟩

theorem registryRun_register (h : RegistryRun M es s out) (id : ι) (party : σ) :
    RegistryRun M (es ++ [.register id party]) (Function.update s id (some party)) out := by
  refine ⟨fun i life hlife => ?_, fun i => ?_, fun i => ?_, fun i => ?_⟩
  · rw [lives_concat, livesStep_register] at hlife
    split_ifs at hlife
    · rcases List.mem_cons.mp hlife with rfl | hlife
      · trivial
      · exact h.legal i life hlife
    · exact h.legal i life hlife
  · rw [lives_concat, livesStep_register]
    by_cases hid : id = i
    · rw [if_pos hid, ← hid, Function.update_self]
      rfl
    · rw [if_neg hid, Function.update_of_ne (Ne.symm hid), h.final i]
  · rw [lives_concat, livesStep_register, h.trace i]
    split_ifs
    · rw [livesTrace_cons]
      exact (List.append_nil _).symm
    · rfl
  · rw [h.outOfRange i, exists_early_concat]
    simp

theorem registryRun_call (h : RegistryRun M es s out) {id : ι} {e : ε}
    (he : (registry M).enabled s (.call id e)) :
    RegistryRun M (es ++ [.call id e]) ((registry M).step s (.call id e)).1
      (out ++ ((registry M).step s (.call id e)).2) := by
  have hfinal := h.final id
  cases hlives : lives id es with
  | nil =>
    -- there is no party, and nothing changes but the trace
    rw [hlives] at hfinal
    have hstep := registry_call_of_none (M := M) hfinal e
    have hsame : ∀ i, lives i (es ++ [.call id e]) = lives i es := by
      intro i
      rw [lives_concat]
      by_cases hid : id = i
      · rw [← hid, hlives, livesStep_call_nil]
      · exact livesStep_call_of_ne hid
    rw [hstep]
    refine ⟨fun i => hsame i ▸ h.legal i, fun i => hsame i ▸ h.final i, fun i => ?_, fun i => ?_⟩
    · rw [hsame i, List.filterMap_append, h.trace i]
      exact List.append_nil _
    · rw [List.mem_append, h.outOfRange i, exists_early_concat, List.mem_singleton]
      refine or_congr Iff.rfl ?_
      constructor
      · intro heq
        obtain rfl := RegistryAction.outOfRange.inj heq
        exact ⟨⟨e, rfl⟩, hlives⟩
      · rintro ⟨⟨e', heq⟩, -⟩
        rw [(RegistryEvent.call.inj heq).1]
  | cons life rest =>
    rw [hlives] at hfinal
    have hparty : s id = some (M.final life.party life.calls) := hfinal
    have hstep := registry_call_of_some (M := M) hparty e
    have hnext : lives id (es ++ [.call id e]) =
        { life with calls := life.calls ++ [e] } :: rest := by
      rw [lives_concat, hlives, livesStep_call_cons]
    have hother : ∀ i, id ≠ i → lives i (es ++ [.call id e]) = lives i es := by
      intro i hid
      rw [lives_concat, livesStep_call_of_ne hid]
    rw [hstep]
    refine ⟨fun i => ?_, fun i => ?_, fun i => ?_, fun i => ?_⟩
    · by_cases hid : id = i
      · intro life' hlife'
        rw [← hid, hnext] at hlife'
        rcases List.mem_cons.mp hlife' with rfl | hlife'
        · have hlegal := h.legal id life (hlives ▸ List.mem_cons_self)
          rw [Legal, allSteps_append]
          exact ⟨hlegal, he _ hparty, trivial⟩
        · exact h.legal id life' (hlives ▸ List.mem_cons_of_mem _ hlife')
      · exact hother i hid ▸ h.legal i
    · by_cases hid : id = i
      · rw [← hid, hnext, List.head?_cons, Option.map_some, final_concat]
        exact Function.update_self ..
      · rw [hother i hid, ← h.final i]
        exact Function.update_of_ne (Ne.symm hid) ..
    · rw [List.filterMap_append, filterMap_actOf_act, h.trace i]
      by_cases hid : id = i
      · rw [if_pos hid, ← hid, hnext, hlives, livesTrace_cons, livesTrace_cons, trace_concat,
          List.append_assoc]
      · rw [if_neg hid, hother i hid, List.append_nil]
    · rw [List.mem_append, h.outOfRange i, exists_early_concat]
      refine or_congr Iff.rfl (iff_of_false (by simp) ?_)
      rintro ⟨⟨e', heq⟩, hnil⟩
      rw [← (RegistryEvent.call.inj heq).1, hlives] at hnil
      exact absurd hnil (List.cons_ne_nil _ _)

/-- However the calls alternate, each party runs as it would alone. -/
theorem registryRun_of_legal {es : List (RegistryEvent ι σ ε)}
    (h : (registry M).Legal (fun _ => none) es) :
    RegistryRun M es ((registry M).final (fun _ => none) es)
      ((registry M).trace (fun _ => none) es) := by
  refine (registry M).invariant_events ?_ ?_ h
  · intro pre s t e he hrun
    cases e with
    | register id party =>
      rw [show t ++ ((registry M).step s (.register id party)).2 = t from List.append_nil t]
      exact registryRun_register hrun id party
    | call id e => exact registryRun_call hrun he
  · refine ⟨fun _ => nofun, fun _ => rfl, fun _ => rfl, fun id => ?_⟩
    simp

/-! ### Parties by reference -/

section ByReference

variable {η ρ : Type*}

/-- What a party writes it reads again, and parties that are apart do not see it. -/
structure Keeps (M : Machine σ ε α) (S : Store η ρ σ) (Apart : ρ → ρ → Prop) : Prop where
  load_store : ∀ h r e, S.load (S.store h r (M.step (S.load h r) e).1) r =
    (M.step (S.load h r) e).1
  load_store_of_apart : ∀ h r r' s, Apart r r' → S.load (S.store h r s) r' = S.load h r'
  symm : ∀ r r', Apart r r' → Apart r' r

/-- Parties under ids, by reference. -/
def storeRegistry (M : Machine σ ε α) (S : Store η ρ σ) :
    Machine (StoreRegistry η ι ρ) (RegistryEvent ι ρ ε) (RegistryAction ι α) where
  enabled s
    | .register _ _ => True
    | .call id e => ∀ r ∈ s.refs id, M.enabled (S.load s.heap r) e
  step s
    | .register id r => ({ s with refs := Function.update s.refs id (some r) }, [])
    | .call id e =>
      match s.refs id with
      | none => (s, [.outOfRange id])
      | some r =>
        ({ s with heap := S.store s.heap r (M.step (S.load s.heap r) e).1 },
          (M.step (S.load s.heap r) e).2.map (.act id))

/-- The parties that are registered, as they are now. -/
def parties (S : Store η ρ σ) (s : StoreRegistry η ι ρ) (id : ι) : Option σ :=
  (s.refs id).map (S.load s.heap)

/-- The event, with the party at the reference as it is now. -/
def withParty (S : Store η ρ σ) (s : StoreRegistry η ι ρ) :
    RegistryEvent ι ρ ε → RegistryEvent ι σ ε
  | .register id r => .register id (S.load s.heap r)
  | .call id e => .call id e

/-- The events of a run, each party as it is when it is registered. -/
def withParties (M : Machine σ ε α) (S : Store η ρ σ) :
    StoreRegistry η ι ρ → List (RegistryEvent ι ρ ε) → List (RegistryEvent ι σ ε)
  | _, [] => []
  | s, e :: es => withParty S s e :: withParties M S ((storeRegistry M S).step s e).1 es

/-- What is registered is apart from the parties under the other ids. -/
def Separate (Apart : ρ → ρ → Prop) (s : StoreRegistry η ι ρ) : RegistryEvent ι ρ ε → Prop
  | .register id r => ∀ id', id' ≠ id → ∀ r' ∈ s.refs id', Apart r r'
  | .call _ _ => True

/-- The parties under different ids are apart. -/
def AllApart (Apart : ρ → ρ → Prop) (s : StoreRegistry η ι ρ) : Prop :=
  ∀ id id', id ≠ id' → ∀ r ∈ s.refs id, ∀ r' ∈ s.refs id', Apart r r'

variable {M : Machine σ ε α} {S : Store η ρ σ} {Apart : ρ → ρ → Prop} {s : StoreRegistry η ι ρ}
  {id : ι} {r : ρ}

theorem storeRegistry_call_of_none (h : s.refs id = none) (e : ε) :
    (storeRegistry M S).step s (.call id e) = (s, [.outOfRange id]) := by
  show (match s.refs id with | none => _ | some r => _) = _
  rw [h]

theorem storeRegistry_call_of_some (h : s.refs id = some r) (e : ε) :
    (storeRegistry M S).step s (.call id e) =
      ({ s with heap := S.store s.heap r (M.step (S.load s.heap r) e).1 },
        (M.step (S.load s.heap r) e).2.map (.act id)) := by
  show (match s.refs id with | none => _ | some r => _) = _
  rw [h]

theorem AllApart.register (hkeeps : Keeps M S Apart) (h : AllApart Apart s)
    (hr : ∀ id', id' ≠ id → ∀ r' ∈ s.refs id', Apart r r') :
    AllApart Apart { s with refs := Function.update s.refs id (some r) } := by
  have hupdate : ∀ i a, a ∈ Function.update s.refs id (some r) i →
      (i = id ∧ r = a) ∨ (i ≠ id ∧ a ∈ s.refs i) := by
    intro i a ha
    by_cases hi : i = id
    · rw [hi, Function.update_self] at ha
      exact .inl ⟨hi, Option.some.inj ha⟩
    · rw [Function.update_of_ne hi] at ha
      exact .inr ⟨hi, ha⟩
  intro i j hne a ha b hb
  rcases hupdate i a ha with ⟨hi, rfl⟩ | ⟨hi, ha⟩
  · rcases hupdate j b hb with ⟨hj, -⟩ | ⟨hj, hb⟩
    · exact absurd (hi.trans hj.symm) hne
    · exact hr j hj b hb
  · rcases hupdate j b hb with ⟨-, rfl⟩ | ⟨-, hb⟩
    · exact hkeeps.symm _ _ (hr i hi a ha)
    · exact h i j hne a ha b hb

theorem AllApart.step (hkeeps : Keeps M S Apart) (h : AllApart Apart s) {e : RegistryEvent ι ρ ε}
    (he : Separate Apart s e) : AllApart Apart ((storeRegistry M S).step s e).1 := by
  cases e with
  | register id r => exact h.register hkeeps he
  | call id e =>
    cases hrefs : s.refs id with
    | none =>
      rw [storeRegistry_call_of_none hrefs]
      exact h
    | some r =>
      rw [storeRegistry_call_of_some hrefs]
      exact h

omit [DecidableEq ι] in
theorem parties_of_some {h : η} {refs : ι → Option ρ} (hid : refs id = some r) :
    parties S ⟨h, refs⟩ id = some (S.load h r) := congrArg (Option.map _) hid

/-- A step by reference is a step of the parties. -/
theorem storeRegistry_step (hkeeps : Keeps M S Apart) (h : AllApart Apart s)
    {e : RegistryEvent ι ρ ε} (henabled : (storeRegistry M S).enabled s e) :
    (registry M).enabled (parties S s) (withParty S s e) ∧
      (registry M).step (parties S s) (withParty S s e) =
        (parties S ((storeRegistry M S).step s e).1, ((storeRegistry M S).step s e).2) := by
  cases e with
  | register id r =>
    refine ⟨trivial, Prod.ext (funext fun i => ?_) rfl⟩
    show Function.update (parties S s) id (some (S.load s.heap r)) i =
      (Function.update s.refs id (some r) i).map (S.load s.heap)
    by_cases hi : i = id
    · rw [hi, Function.update_self, Function.update_self]
      rfl
    · rw [Function.update_of_ne hi, Function.update_of_ne hi]
      rfl
  | call id e =>
    cases hrefs : s.refs id with
    | none =>
      have hparty : parties S s id = none := congrArg (Option.map _) hrefs
      refine ⟨fun party hmem => absurd (hparty.symm.trans hmem) nofun, ?_⟩
      rw [storeRegistry_call_of_none hrefs]
      exact registry_call_of_none hparty e
    | some r =>
      have hparty : parties S s id = some (S.load s.heap r) := parties_of_some hrefs
      refine ⟨fun party hmem => ?_, ?_⟩
      · obtain rfl := Option.some.inj (hparty.symm.trans hmem)
        exact henabled r hrefs
      · rw [storeRegistry_call_of_some hrefs]
        refine (registry_call_of_some hparty e).trans (Prod.ext (funext fun i => ?_) rfl)
        dsimp only
        by_cases hi : i = id
        · rw [hi, Function.update_self, parties_of_some hrefs, hkeeps.load_store]
        · -- the other parties do not see what the party has written
          rw [Function.update_of_ne hi]
          unfold parties
          cases hother : s.refs i with
          | none => rfl
          | some r' =>
            have hapart : Apart r r' := h id i (Ne.symm hi) r hrefs r' hother
            exact congrArg some (hkeeps.load_store_of_apart _ _ _ _ hapart).symm

/-- **By reference**: parties that are registered apart from each other run as parties that keep
their states. -/
theorem registry_of_separate (hkeeps : Keeps M S Apart) (h : AllApart Apart s)
    {es : List (RegistryEvent ι ρ ε)} (hlegal : (storeRegistry M S).Legal s es)
    (hseparate : (storeRegistry M S).AllSteps (Separate Apart) s es) :
    (registry M).Legal (parties S s) (withParties M S s es) ∧
      (registry M).final (parties S s) (withParties M S s es) =
        parties S ((storeRegistry M S).final s es) ∧
      (registry M).trace (parties S s) (withParties M S s es) =
        (storeRegistry M S).trace s es := by
  induction es generalizing s with
  | nil => exact ⟨trivial, rfl, rfl⟩
  | cons e es ih =>
    obtain ⟨henabled, hstep⟩ := storeRegistry_step hkeeps h hlegal.1
    obtain ⟨hrest, hfinal, htrace⟩ := ih (h.step hkeeps hseparate.1) hlegal.2 hseparate.2
    rw [withParties, final_cons, trace_cons, final_cons, trace_cons, hstep]
    refine ⟨⟨henabled, ?_⟩, hfinal, congrArg (_ ++ ·) htrace⟩
    rw [hstep]
    exact hrest

theorem withParties_append (s : StoreRegistry η ι ρ) (pre post : List (RegistryEvent ι ρ ε)) :
    withParties M S s (pre ++ post) =
      withParties M S s pre ++ withParties M S ((storeRegistry M S).final s pre) post := by
  induction pre generalizing s with
  | nil => rfl
  | cons e pre ih => exact congrArg (withParty S s e :: ·) (ih _)

/-- Something has been registered by reference when its party has been. -/
theorem lives_withParties_eq_nil (s : StoreRegistry η ι ρ) (es : List (RegistryEvent ι ρ ε)) :
    lives id (withParties M S s es) = [] ↔ ∀ r, RegistryEvent.register id r ∉ es := by
  rw [← not_iff_not, not_forall_not, ← ne_eq, lives_ne_nil_iff]
  induction es generalizing s with
  | nil => exact iff_of_false (by simp [withParties]) (by simp)
  | cons e es ih =>
    have hhead : (∃ party, RegistryEvent.register id party = withParty S s e) ↔
        ∃ r, RegistryEvent.register id r = e := by
      cases e with
      | register id' r => simp [withParty]
      | call id' e => simp [withParty]
    simp only [withParties, List.mem_cons, exists_or, ih, hhead]

/-- A call with the events before it, in a run by reference. -/
theorem exists_of_withParties_eq {es : List (RegistryEvent ι ρ ε)}
    {pre' post' : List (RegistryEvent ι σ ε)} {e : ε}
    (h : withParties M S s es = pre' ++ .call id e :: post') :
    ∃ pre post, es = pre ++ .call id e :: post ∧ pre' = withParties M S s pre := by
  induction es generalizing s pre' with
  | nil => exact absurd h.symm (by simp [withParties])
  | cons f es ih =>
    cases pre' with
    | nil =>
      obtain ⟨hhead, -⟩ := List.cons.inj h
      cases f with
      | register id' r => exact nomatch hhead
      | call id' e' =>
        obtain ⟨rfl, rfl⟩ := RegistryEvent.call.inj hhead
        exact ⟨[], es, rfl, rfl⟩
    | cons g pre' =>
      obtain ⟨rfl, htail⟩ := List.cons.inj h
      obtain ⟨pre, post, rfl, rfl⟩ := ih htail
      exact ⟨f :: pre, post, rfl, rfl⟩

/-- The calls before any registration. -/
theorem exists_early_withParties (s : StoreRegistry η ι ρ) (id : ι)
    (es : List (RegistryEvent ι ρ ε)) :
    (∃ pre e post, withParties M S s es = pre ++ .call id e :: post ∧ lives id pre = []) ↔
      ∃ pre e post, es = pre ++ .call id e :: post ∧ ∀ r, RegistryEvent.register id r ∉ pre := by
  constructor
  · rintro ⟨pre', e, post', heq, hpre⟩
    obtain ⟨pre, post, rfl, rfl⟩ := exists_of_withParties_eq heq
    exact ⟨pre, e, post, rfl, (lives_withParties_eq_nil s pre).mp hpre⟩
  · rintro ⟨pre, e, post, rfl, hpre⟩
    exact ⟨_, e, _, withParties_append s pre _, (lives_withParties_eq_nil s pre).mpr hpre⟩

end ByReference

/-! ### Parties of two kinds -/

section Sum

variable {σ' ε' α' : Type*}

/-- A party of either kind, which takes the calls for its kind. -/
def sum (A : Machine σ ε α) (B : Machine σ' ε' α') : Machine (σ ⊕ σ') (ε ⊕ ε') (α ⊕ α') where
  enabled
    | .inl s, .inl e => A.enabled s e
    | .inr s, .inr e => B.enabled s e
    | _, _ => False
  step
    | .inl s, .inl e => (.inl (A.step s e).1, (A.step s e).2.map .inl)
    | .inr s, .inr e => (.inr (B.step s e).1, (B.step s e).2.map .inr)
    | s, _ => (s, [])

variable {A : Machine σ ε α} {B : Machine σ' ε' α'}

/-- A run of a party of the first kind. -/
theorem exists_of_sum_inl {s : σ} {es : List (ε ⊕ ε')} (h : (sum A B).Legal (.inl s) es) :
    ∃ es', es = es'.map .inl ∧ A.Legal s es' ∧ (sum A B).final (.inl s) es = .inl (A.final s es') ∧
      (sum A B).trace (.inl s) es = (A.trace s es').map .inl := by
  induction es generalizing s with
  | nil => exact ⟨[], rfl, trivial, rfl, rfl⟩
  | cons e es ih =>
    cases e with
    | inl e =>
      obtain ⟨es', rfl, hlegal, hfinal, htrace⟩ := ih h.2
      refine ⟨e :: es', rfl, ⟨h.1, hlegal⟩, hfinal, ?_⟩
      rw [trace_cons, trace_cons, List.map_append]
      exact congrArg (_ ++ ·) htrace
    | inr e => exact absurd h.1 id

/-- A run of a party of the second kind. -/
theorem exists_of_sum_inr {s : σ'} {es : List (ε ⊕ ε')} (h : (sum A B).Legal (.inr s) es) :
    ∃ es', es = es'.map .inr ∧ B.Legal s es' ∧ (sum A B).final (.inr s) es = .inr (B.final s es') ∧
      (sum A B).trace (.inr s) es = (B.trace s es').map .inr := by
  induction es generalizing s with
  | nil => exact ⟨[], rfl, trivial, rfl, rfl⟩
  | cons e es ih =>
    cases e with
    | inr e =>
      obtain ⟨es', rfl, hlegal, hfinal, htrace⟩ := ih h.2
      refine ⟨e :: es', rfl, ⟨h.1, hlegal⟩, hfinal, ?_⟩
      rw [trace_cons, trace_cons, List.map_append]
      exact congrArg (_ ++ ·) htrace
    | inl e => exact absurd h.1 id

end Sum

end Machine

end CryptobotAlgo
