import CryptobotAlgo.Aos.Strategy

/-!
# The stages are levels

The `for` calls the action on the hashes that were in the queue when it began, and leaves the ones
that were pushed (`runStage_eq`).  Hence each stage is called on what the stage before it has pushed
(`LevelByLevel`, `runActions_levelByLevel`).  For actions without surroundings, the hashes of the
stages are those of `levels`, a `flatMap` for each action (`hashes_eq_levels`).
-/

namespace CryptobotAlgo.Aos

variable {S H T : Type}

/-- The calls of a stage; there are none after the last one. -/
def level (stages : List (List (ActionCall S H T))) (k : ℕ) : List (ActionCall S H T) :=
  stages.getD k []

section Level

variable (calls : List (ActionCall S H T)) (stages : List (List (ActionCall S H T))) (k : ℕ)

@[simp] theorem level_nil : level ([] : List (List (ActionCall S H T))) k = [] := rfl

@[simp] theorem level_cons_zero : level (calls :: stages) 0 = calls := rfl

@[simp] theorem level_cons_succ : level (calls :: stages) (k + 1) = level stages k := rfl

end Level

/-- The first action is called on the hashes and each other one on what the action before it has
pushed, always with the value, until nothing is pushed. -/
structure LevelByLevel (actions : List (Action S H T)) (value : T) (hashes : List H)
    (stages : List (List (ActionCall S H T))) : Prop where
  length_le : stages.length ≤ actions.length
  ne_nil : ∀ calls ∈ stages, calls ≠ []
  isCall : ∀ k, ∀ call ∈ level stages k, actions[k]? = some call.action ∧ call.value = value
  first : actions ≠ [] → (level stages 0).map ActionCall.hash = hashes
  next : ∀ k, k + 1 < actions.length →
    (level stages (k + 1)).map ActionCall.hash = (level stages k).flatMap ActionCall.pushed
  stops : ∀ k, (level stages k).flatMap ActionCall.pushed = [] → ∀ j, k < j → level stages j = []

/-- The `for` over the hashes at the front of the queue. -/
theorem runStage_eq (action : Action S H T) (value : T) (world : S) (hashes pending : List H) :
    ∃ world' calls,
      runStage action value hashes.length world (hashes ++ pending) =
          some (world', pending ++ calls.flatMap ActionCall.pushed, calls) ∧
        calls.map ActionCall.hash = hashes ∧
        ∀ call ∈ calls, call.action = action ∧ call.value = value := by
  induction hashes generalizing world pending with
  | nil => exact ⟨world, [], by simp [runStage], rfl, nofun⟩
  | cons hash hashes ih =>
    -- the action runs before `pop`, so its hash is still at the front of the queue
    let call : ActionCall S H T := ⟨action, world, hash :: hashes ++ pending, hash, value⟩
    obtain ⟨world', calls, hrun, hhashes, hcalls⟩ :=
      ih (action world call.queue hash value).1 (pending ++ call.pushed)
    refine ⟨world', call :: calls, ?_, by rw [List.map_cons, hhashes], ?_⟩
    · have htail : (call.queue ++ call.pushed).tail = hashes ++ (pending ++ call.pushed) := by
        simp [call]
      have hstage : runStage action value hashes.length (action world call.queue hash value).1
          (call.queue ++ call.pushed).tail =
            some (world', pending ++ (call :: calls).flatMap ActionCall.pushed, calls) := by
        rw [htail, hrun, List.flatMap_cons, List.append_assoc]
      exact congrArg (Option.bind · fun r => some (r.1, r.2.1, call :: r.2.2)) hstage
    · exact List.forall_mem_cons.mpr ⟨⟨rfl, rfl⟩, hcalls⟩

namespace LevelByLevel

variable {actions : List (Action S H T)} {action : Action S H T} {value : T} {hashes : List H}
  {stages : List (List (ActionCall S H T))} {calls : List (ActionCall S H T)}

/-- The stages after the first. -/
theorem tail (h : LevelByLevel (action :: actions) value hashes (calls :: stages)) :
    LevelByLevel actions value (calls.flatMap ActionCall.pushed) stages where
  length_le := Nat.le_of_succ_le_succ h.length_le
  ne_nil := fun rest hrest => h.ne_nil rest (List.mem_cons_of_mem calls hrest)
  isCall := fun k => h.isCall (k + 1)
  first := fun hne => h.next 0 (Nat.succ_lt_succ (List.length_pos_iff.mpr hne))
  next := fun k hk => h.next (k + 1) (Nat.succ_lt_succ hk)
  stops := fun k hpushed j hj => h.stops (k + 1) hpushed (j + 1) (Nat.succ_lt_succ hj)

theorem nil_of_nil (h : LevelByLevel actions value [] stages) : stages = [] := by
  cases stages with
  | nil => rfl
  | cons calls stages =>
    have hactions : actions ≠ [] := by
      rintro rfl
      exact absurd h.length_le (Nat.not_succ_le_zero _)
    exact absurd (List.map_eq_nil_iff.mp (h.first hactions)) (h.ne_nil calls List.mem_cons_self)

theorem of_nil (actions : List (Action S H T)) (value : T) :
    LevelByLevel actions value [] [] where
  length_le := Nat.zero_le _
  ne_nil := nofun
  isCall := nofun
  first := fun _ => rfl
  next := fun _ _ => rfl
  stops := fun _ _ _ _ => rfl

/-- A stage before the others. -/
theorem cons (hcalls : ∀ call ∈ calls, call.action = action ∧ call.value = value)
    (hne : calls ≠ [])
    (h : LevelByLevel actions value (calls.flatMap ActionCall.pushed) stages) :
    LevelByLevel (action :: actions) value (calls.map ActionCall.hash) (calls :: stages) where
  length_le := Nat.succ_le_succ h.length_le
  ne_nil := List.forall_mem_cons.mpr ⟨hne, h.ne_nil⟩
  isCall := by
    intro k call hcall
    cases k with
    | zero =>
      obtain ⟨haction, hvalue⟩ := hcalls call hcall
      exact ⟨by rw [haction]; rfl, hvalue⟩
    | succ k => exact h.isCall k call hcall
  first := fun _ => rfl
  next := by
    intro k hk
    cases k with
    | zero =>
      apply h.first
      rintro rfl
      exact absurd hk (Nat.lt_irrefl _)
    | succ k => exact h.next k (Nat.lt_of_succ_lt_succ hk)
  stops := by
    intro k hpushed j hj
    obtain ⟨j, rfl⟩ : ∃ i, j = i + 1 := ⟨j - 1, by omega⟩
    cases k with
    | zero =>
      -- the first stage has pushed nothing, so that there is no stage after it
      rw [level_cons_zero] at hpushed
      rw [hpushed] at h
      rw [level_cons_succ, h.nil_of_nil, level_nil]
    | succ k => exact h.stops k hpushed j (Nat.lt_of_succ_lt_succ hj)

end LevelByLevel

/-- **The loops** end, and call the actions level by level. -/
theorem runActions_levelByLevel (value : T) (actions : List (Action S H T)) (world : S)
    (hashes : List H) :
    ∃ world' stages, runActions value actions world hashes = some (world', stages) ∧
      LevelByLevel actions value hashes stages := by
  induction actions generalizing world hashes with
  | nil =>
    refine ⟨world, [], by cases hashes <;> rfl, ?_⟩
    exact ⟨Nat.le_refl _, nofun, nofun, fun h => absurd rfl h, nofun, fun _ _ _ _ => rfl⟩
  | cons action actions ih =>
    cases hashes with
    | nil => exact ⟨world, [], rfl, LevelByLevel.of_nil _ value⟩
    | cons hash hashes =>
      obtain ⟨world₁, calls, hstage, hhashes, hcalls⟩ :=
        runStage_eq action value world (hash :: hashes) []
      obtain ⟨world₂, stages, hrest, hlevels⟩ := ih world₁ (calls.flatMap ActionCall.pushed)
      rw [List.append_nil, List.nil_append] at hstage
      refine ⟨world₂, calls :: stages, ?_, ?_⟩
      · unfold runActions
        simp only [hstage, hrest, Option.bind_eq_bind, Option.bind_some]
      · rw [← hhashes]
        refine LevelByLevel.cons hcalls ?_ hlevels
        rintro rfl
        exact absurd hhashes (List.cons_ne_nil _ _).symm

/-- **Each stage** of `AnalyzeToBuy` and `AnalyzeToSell`, and of both loops of `AddData`, is called
on what the stage before it has pushed. -/
theorem staged_levelByLevel [DecidableEq H] [Field T] [LinearOrder T] (strategy : Strategy S H T)
    (observable : SlidingWindowStorageObservable S H T) (world : S) (asset : H) (value : T) :
    (∃ world' stages, strategy.analyzeToBuy world asset value = some (world', stages) ∧
        LevelByLevel strategy.actionsToBuy value [asset] stages) ∧
      (∃ world' stages, strategy.analyzeToSell world asset value = some (world', stages) ∧
        LevelByLevel strategy.actionsToSell value [asset] stages) ∧
      ∃ world' buyStages sellStages,
        observable.addData world asset value =
            some ({ observable with storage := observable.storage.addData asset value }, world',
              buyStages, sellStages) ∧
          LevelByLevel observable.actionsToBuy value [asset] buyStages ∧
          LevelByLevel observable.actionsToSell value [asset] sellStages := by
  refine ⟨runActions_levelByLevel value _ world _, runActions_levelByLevel value _ world _, ?_⟩
  obtain ⟨world₁, buyStages, hbuy, hbuyLevels⟩ :=
    runActions_levelByLevel value observable.actionsToBuy world [asset]
  obtain ⟨world₂, sellStages, hsell, hsellLevels⟩ :=
    runActions_levelByLevel value observable.actionsToSell world₁ [asset]
  refine ⟨world₂, buyStages, sellStages, ?_, hbuyLevels, hsellLevels⟩
  unfold SlidingWindowStorageObservable.addData
  simp only [hbuy, hsell, Option.bind_eq_bind, Option.bind_some]

/-! ### Actions without surroundings -/

/-- The hashes of the stages, for actions of which only the hash and the value matter. -/
def levels (value : T) : List (H → T → List H) → List H → List (List H)
  | _, [] => []
  | [], _ => []
  | push :: pushes, hashes => hashes :: levels value pushes (hashes.flatMap (push · value))

/-- What the action pushes depends on the hash and the value only. -/
def Pushes (action : Action S H T) (push : H → T → List H) : Prop :=
  ∀ world queue hash value, (action world queue hash value).2 = push hash value

theorem flatMap_pushed {action : Action S H T} {push : H → T → List H} {value : T}
    {calls : List (ActionCall S H T)} (hpush : Pushes action push)
    (hcalls : ∀ call ∈ calls, call.action = action ∧ call.value = value) :
    calls.flatMap ActionCall.pushed = (calls.map ActionCall.hash).flatMap (push · value) := by
  rw [List.flatMap_map]
  apply List.flatMap_congr
  intro call hcall
  obtain ⟨haction, hvalue⟩ := hcalls call hcall
  unfold ActionCall.pushed
  rw [haction, hvalue]
  exact hpush _ _ _ _

/-- The stages are those of the `flatMap`s. -/
theorem hashes_eq_levels {actions : List (Action S H T)} {pushes : List (H → T → List H)}
    {value : T} {hashes : List H} {stages : List (List (ActionCall S H T))}
    (hpushes : List.Forall₂ Pushes actions pushes)
    (h : LevelByLevel actions value hashes stages) :
    stages.map (List.map ActionCall.hash) = levels value pushes hashes := by
  induction hpushes generalizing hashes stages with
  | nil =>
    have hstages : stages = [] := List.eq_nil_of_length_eq_zero (Nat.le_zero.mp h.length_le)
    rw [hstages]
    cases hashes <;> rfl
  | @cons action push actions pushes hpush _ ih =>
    have hfirst := h.first (List.cons_ne_nil action actions)
    cases stages with
    | nil =>
      rw [← hfirst]
      rfl
    | cons calls stages =>
      have hcalls : ∀ call ∈ calls, call.action = action ∧ call.value = value := by
        intro call hcall
        obtain ⟨haction, hvalue⟩ := h.isCall 0 call hcall
        exact ⟨(Option.some.inj haction).symm, hvalue⟩
      rw [level_cons_zero] at hfirst
      rw [List.map_cons, ih h.tail, flatMap_pushed hpush hcalls, hfirst]
      cases hashes with
      | nil => exact absurd (List.map_eq_nil_iff.mp hfirst) (h.ne_nil calls List.mem_cons_self)
      | cons hash hashes => rfl

end CryptobotAlgo.Aos
