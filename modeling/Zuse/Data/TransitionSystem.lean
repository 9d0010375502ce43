import Zuse.Data.InsertionMap

namespace Zuse.Data

open Option

/-- A guarded, executable step function: `step state label` is `none` when the
labelled step is not enabled. -/
structure TransitionSystem (σ : Type u) (ℓ : Type v) where
  init : σ
  step : σ → ℓ → Option σ

namespace TransitionSystem

variable {σ : Type u} {ℓ : Type v} (system : TransitionSystem σ ℓ)

def runFrom (state : σ) : List ℓ → Option σ
  | [] => some state
  | label :: rest => (system.step state label).bind fun next => runFrom next rest

def run (labels : List ℓ) : Option σ := system.runFrom system.init labels

inductive Reachable : σ → Prop
  | init : Reachable system.init
  | step {state next : σ} {label : ℓ} :
      Reachable state → system.step state label = some next → Reachable next

/-- The system whose steps are those that also meet a condition on the state they
start from and on their label. -/
def restrict (condition : σ → ℓ → Prop)
    [∀ state label, Decidable (condition state label)] : TransitionSystem σ ℓ where
  init := system.init
  step := fun state label =>
    if condition state label then system.step state label else none

/-- A property of the state a run starts from and of every state it passes through. -/
def Everywhere (property : σ → Prop) (state : σ) : List ℓ → Prop
  | [] => property state
  | label :: rest =>
    property state ∧ (system.step state label).elim True fun next =>
      Everywhere property next rest

def EachStep (condition : σ → ℓ → Prop) (state : σ) : List ℓ → Prop
  | [] => True
  | label :: rest =>
    (system.step state label).elim True fun next =>
      condition state label ∧ EachStep condition next rest

instance EachStep.decidable (condition : σ → ℓ → Prop)
    [decided : ∀ state label, Decidable (condition state label)] (state : σ) :
    (labels : List ℓ) → Decidable (system.EachStep condition state labels)
  | [] => .isTrue trivial
  | label :: rest => by
      unfold EachStep
      exact match system.step state label with
        | none => .isTrue trivial
        | some next =>
          @instDecidableAnd _ _ (decided state label) (EachStep.decidable condition next rest)

open Classical in
noncomputable def stepsMeeting (condition : σ → ℓ → Prop) (state : σ) : List ℓ → Nat
  | [] => 0
  | label :: rest =>
    (system.step state label).elim 0 fun next =>
      (if condition state label then 1 else 0) + stepsMeeting condition next rest

variable {condition : σ → ℓ → Prop} {labels : List ℓ}

theorem EachStep.of_forall (meets : ∀ label ∈ labels, ∀ state, condition state label) (state : σ) :
    system.EachStep condition state labels := by
  induction labels generalizing state with
  | nil => trivial
  | cons label rest ih =>
    unfold EachStep
    cases system.step state label with
    | none => trivial
    | some next =>
      exact ⟨meets label List.mem_cons_self state,
        ih (fun other member => meets other (List.mem_cons_of_mem label member)) next⟩

variable {state : σ}

theorem EachStep.mono {weaker : σ → ℓ → Prop}
    (implies : ∀ state label, condition state label → weaker state label)
    (each : system.EachStep condition state labels) : system.EachStep weaker state labels := by
  induction labels generalizing state with
  | nil => trivial
  | cons label rest ih =>
    unfold EachStep at each ⊢
    cases stepped : system.step state label with
    | none => trivial
    | some next =>
      rw [stepped] at each
      exact ⟨implies state label each.1, ih each.2⟩

variable {system}

theorem Reachable.invariant {property : σ → Prop} (atInit : property system.init)
    (preserved : ∀ state label next, system.Reachable state → property state →
      system.step state label = some next → property next)
    {state : σ} (reachable : system.Reachable state) : property state := by
  induction reachable with
  | init => exact atInit
  | step before stepped ih => exact preserved _ _ _ before ih stepped

theorem EachStep.invariant {condition : σ → ℓ → Prop} (property : σ → Prop)
    (preserved : ∀ state label next, property state → condition state label →
      system.step state label = some next → property next)
    {state last : σ} {labels : List ℓ} (each : system.EachStep condition state labels)
    (ran : system.runFrom state labels = some last) (holds : property state) :
    property last := by
  induction labels generalizing state with
  | nil =>
    cases ran
    exact holds
  | cons label rest ih =>
    obtain ⟨next, stepped, remaining⟩ := bind_eq_some_iff.mp ran
    simp only [EachStep, stepped, elim_some] at each
    exact ih each.2 remaining (preserved state label next holds each.1 stepped)

theorem EachStep.rank_le (effective : σ → ℓ → Prop) (property : σ → Prop) (rank : σ → Nat)
    (preserved : ∀ state label next, property state → condition state label →
      system.step state label = some next → property next)
    (falls : ∀ state label next, property state → condition state label →
      system.step state label = some next →
        rank next ≤ rank state ∧ (effective state label → rank next ≤ rank state - 1))
    {last : σ} (each : system.EachStep condition state labels)
    (ran : system.runFrom state labels = some last) (holds : property state) :
    rank last ≤ rank state - system.stepsMeeting effective state labels := by
  induction labels generalizing state with
  | nil =>
    cases ran
    exact Nat.le_refl _
  | cons label rest ih =>
    obtain ⟨next, stepped, remaining⟩ := bind_eq_some_iff.mp ran
    simp only [EachStep, stepped, elim_some] at each
    have later := ih each.2 remaining (preserved state label next holds each.1 stepped)
    have fallen := falls state label next holds each.1 stepped
    simp only [stepsMeeting, stepped, elim_some]
    split
    · rename_i works
      have lower := fallen.2 works
      omega
    · omega

theorem EachStep.conclude {conclusion : σ → ℓ → Prop} (property : σ → Prop)
    (preserved : ∀ state label next, property state → condition state label →
      system.step state label = some next → property next ∧ conclusion state label)
    (each : system.EachStep condition state labels)
    (holds : property state) : system.EachStep conclusion state labels := by
  induction labels generalizing state with
  | nil => trivial
  | cons label rest ih =>
    unfold EachStep at each ⊢
    cases stepped : system.step state label with
    | none => trivial
    | some next =>
      rw [stepped] at each
      have kept := preserved state label next holds each.1 stepped
      exact ⟨kept.2, ih each.2 kept.1⟩

theorem Everywhere.of_invariant {invariant property : σ → Prop}
    (implies : ∀ state, invariant state → property state)
    (preserved : ∀ state label next, invariant state →
      system.step state label = some next → invariant next)
    {state : σ} (holds : invariant state) (labels : List ℓ) :
    system.Everywhere property state labels := by
  induction labels generalizing state with
  | nil => exact implies state holds
  | cons label rest ih =>
    refine ⟨implies state holds, ?_⟩
    cases stepped : system.step state label with
    | none => trivial
    | some next => exact ih (preserved state label next holds stepped)

theorem Everywhere.last {property : σ → Prop} {state last : σ} {labels : List ℓ}
    (everywhere : system.Everywhere property state labels)
    (ran : system.runFrom state labels = some last) : property last := by
  induction labels generalizing state with
  | nil =>
    cases ran
    exact everywhere
  | cons label rest ih =>
    obtain ⟨next, stepped, remaining⟩ := bind_eq_some_iff.mp ran
    have later := everywhere.2
    rw [stepped] at later
    exact ih later remaining

variable {earlier : List ℓ}

theorem runFrom_append {middle : σ} {later : List ℓ}
    (ran : system.runFrom state earlier = some middle) :
    system.runFrom state (earlier ++ later) = system.runFrom middle later := by
  induction earlier generalizing state with
  | nil =>
    cases ran
    rfl
  | cons label rest ih =>
    obtain ⟨next, stepped, remaining⟩ := bind_eq_some_iff.mp ran
    rw [List.cons_append, runFrom, stepped]
    exact ih remaining

theorem EachStep.append {middle : σ}
    {later : List ℓ} (each : system.EachStep condition state (earlier ++ later))
    (ran : system.runFrom state earlier = some middle) :
    system.EachStep condition state earlier ∧ system.EachStep condition middle later := by
  induction earlier generalizing state with
  | nil =>
    cases ran
    exact ⟨trivial, each⟩
  | cons label rest ih =>
    obtain ⟨next, stepped, remaining⟩ := bind_eq_some_iff.mp ran
    simp only [List.cons_append, EachStep, stepped, elim_some] at each ⊢
    obtain ⟨first, last⟩ := ih each.2 remaining
    exact ⟨⟨each.1, first⟩, last⟩

theorem runFrom_reachable {last : σ} (reachable : system.Reachable state)
    (ran : system.runFrom state labels = some last) : system.Reachable last := by
  induction labels generalizing state with
  | nil =>
    cases ran
    exact reachable
  | cons label rest ih =>
    obtain ⟨next, stepped, remaining⟩ := bind_eq_some_iff.mp ran
    exact ih (reachable.step stepped) remaining

theorem run_reachable {labels : List ℓ} {last : σ}
    (ran : system.run labels = some last) : system.Reachable last :=
  runFrom_reachable Reachable.init ran

theorem restrict_step [∀ state label, Decidable (condition state label)] {next : σ} {label : ℓ} :
    (system.restrict condition).step state label = some next ↔
      condition state label ∧ system.step state label = some next := by
  simp only [restrict]
  split
  · rename_i holds
    exact ⟨fun stepped => ⟨holds, stepped⟩, fun both => both.2⟩
  rename_i fails
  constructor
  · intro stepped
    cases stepped
  · exact fun both => absurd both.1 fails

theorem Reachable.of_restrict [∀ state label, Decidable (condition state label)]
    (reachable : (system.restrict condition).Reachable state) : system.Reachable state := by
  induction reachable with
  | init => exact Reachable.init
  | step _ stepped ih => exact ih.step (restrict_step.mp stepped).2

/-- A property holds all along a run exactly when every step meets the condition, where
an invariant makes the condition the one under which a step keeps the property. -/
theorem everywhere_iff {invariant property : σ → Prop}
    (preserved : ∀ state label next, invariant state →
      system.step state label = some next → invariant next)
    (kept : ∀ state label next, invariant state → property state →
      system.step state label = some next → (property next ↔ condition state label))
    (sound : invariant state) (holds : property state) (labels : List ℓ) :
    system.Everywhere property state labels ↔ system.EachStep condition state labels := by
  induction labels generalizing state with
  | nil => exact ⟨fun _ => trivial, fun _ => holds⟩
  | cons label rest ih =>
    simp only [Everywhere, EachStep, holds, true_and]
    cases stepped : system.step state label with
    | none => exact Iff.rfl
    | some next =>
      have exactly := kept state label next sound holds stepped
      have later := fun now => ih (preserved state label next sound stepped) now
      constructor
      · intro everywhere
        have now : property next := by
          cases rest with
          | nil => exact everywhere
          | cons _ _ => exact everywhere.1
        exact ⟨exactly.mp now, (later now).mp everywhere⟩
      · intro steps
        exact (later (exactly.mpr steps.1)).mpr steps.2

end TransitionSystem

end Zuse.Data
