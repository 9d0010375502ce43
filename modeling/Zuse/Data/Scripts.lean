import Zuse.Data.TransitionSystem

namespace Zuse.Data

/-- A program that gives way before each of its calls and goes on from the reply. -/
inductive Script (κ : Type) (ρ : κ → Type) (α : Type)
  | done (value : α)
  | call (request : κ) (rest : ρ request → Script κ ρ α)

namespace Script

variable {κ : Type} {ρ : κ → Type} {α β : Type}

def bind : Script κ ρ α → (α → Script κ ρ β) → Script κ ρ β
  | .done value, next => next value
  | .call request rest, next => .call request fun reply => (rest reply).bind next

instance : Monad (Script κ ρ) where
  pure := .done
  bind := Script.bind

def perform (request : κ) : Script κ ρ (ρ request) := .call request .done

def forEach : List β → (β → Script κ ρ Unit) → Script κ ρ Unit
  | [], _ => .done ()
  | item :: rest, body => (body item).bind fun _ => forEach rest body

/-- Run a script alone: each call is answered from the state, which it may change. -/
def run {σ : Type} (answer : (request : κ) → σ → ρ request × σ) : Script κ ρ α → σ → α × σ
  | .done value, state => (value, state)
  | .call request rest, state =>
    run answer (rest (answer request state).1) (answer request state).2

theorem run_bind {σ : Type} (answer : (request : κ) → σ → ρ request × σ)
    (script : Script κ ρ α) (next : α → Script κ ρ β) (state : σ) :
    (script >>= next).run answer state =
      (next (script.run answer state).1).run answer (script.run answer state).2 := by
  induction script generalizing state with
  | done value => rfl
  | call request rest ih => exact ih _ _

end Script

/-- What a call does to the state and replies, where the environment has a choice. -/
def Service (σ κ ε : Type) (ρ : κ → Type) : Type :=
  (request : κ) → ε → σ → ρ request × σ

/-! Scripts keep an invariant while others change the state between their calls. What
anyone may do at once is one relation; which choices of the environment are admitted may
depend on the state and the call. -/

structure Conduct (σ κ ε : Type) where
  sound : σ → Prop
  change : σ → σ → Prop
  admits : σ → κ → ε → Prop

namespace Script

variable {σ κ ε : Type} {ρ : κ → Type} {α β : Type}

/-- From this state on, each call of the script keeps the conduct whatever others have
done before it, and the postcondition holds where the script ends. -/
def Keeps (service : Service σ κ ε ρ) (conduct : Conduct σ κ ε) :
    Script κ ρ α → (α → σ → Prop) → σ → Prop
  | .done value, post, state => post value state
  | .call request rest, post, state =>
    ∀ later, conduct.change state later → conduct.sound later → ∀ choice,
      conduct.admits later request choice → conduct.change later (service request choice later).2 ∧
        conduct.sound (service request choice later).2 ∧
        Keeps service conduct (rest (service request choice later).1) post
          (service request choice later).2

variable {body : β → Script κ ρ Unit} {items : List β}

section Rules

variable {service : Service σ κ ε ρ} {conduct : Conduct σ κ ε}

variable {script : Script κ ρ α} {state : σ} {post : α → σ → Prop}

theorem Keeps.mono {weaker : α → σ → Prop}
    (implies : ∀ value state, post value state → weaker value state)
    (keeps : script.Keeps service conduct post state) :
    script.Keeps service conduct weaker state := by
  induction script generalizing state with
  | done value => exact implies value state keeps
  | call request rest ih =>
    intro later changed sound choice admitted
    obtain ⟨guaranteed, still, remaining⟩ := keeps later changed sound choice admitted
    exact ⟨guaranteed, still, ih _ remaining⟩

theorem Keeps.bind {next : α → Script κ ρ β} {post : β → σ → Prop}
    (keeps : script.Keeps service conduct
      (fun value state => (next value).Keeps service conduct post state) state) :
    (script >>= next).Keeps service conduct post state := by
  induction script generalizing state with
  | done value => exact keeps
  | call request rest ih =>
    intro later changed sound choice admitted
    obtain ⟨guaranteed, still, remaining⟩ := keeps later changed sound choice admitted
    exact ⟨guaranteed, still, ih _ remaining⟩

theorem Keeps.stable (trans : ∀ {first second third}, conduct.change first second →
      conduct.change second third → conduct.change first third)
    {script : Script κ ρ α} {post : α → σ → Prop}
    (kept : ∀ value first second, conduct.change first second → conduct.sound second →
      post value first → post value second)
    {state later : σ} (changed : conduct.change state later) (sound : conduct.sound later)
    (keeps : script.Keeps service conduct post state) :
    script.Keeps service conduct post later := by
  cases script with
  | done value => exact kept value state later changed sound keeps
  | call request rest => exact fun last further => keeps last (trans changed further)

theorem Keeps.since (trans : ∀ {first second third}, conduct.change first second →
      conduct.change second third → conduct.change first third)
    {start : σ} (before : conduct.change start state)
    (keeps : script.Keeps service conduct post state) :
    script.Keeps service conduct
      (fun value last => post value last ∧ conduct.change start last) state := by
  induction script generalizing state with
  | done value => exact ⟨keeps, before⟩
  | call request rest ih =>
    intro later changed sound choice admitted
    obtain ⟨guaranteed, still, remaining⟩ := keeps later changed sound choice admitted
    exact ⟨guaranteed, still, ih _ (trans (trans before changed) guaranteed) remaining⟩

/-- What is known of the items lasts while others and the turns of other items run. -/
theorem Keeps.forEach (trans : ∀ {first second third}, conduct.change first second →
      conduct.change second third → conduct.change first third)
    (refl : ∀ state, conduct.change state state) {known : β → σ → Prop}
    (lasts : ∀ {item first second}, known item first → conduct.change first second →
      known item second)
    (turn : ∀ item state, known item state →
      (body item).Keeps service conduct (fun _ _ => True) state)
    (holds : ∀ item ∈ items, known item state) :
    (Script.forEach items body).Keeps service conduct (fun _ _ => True) state := by
  induction items generalizing state with
  | nil => trivial
  | cons item rest ih =>
    apply Keeps.bind
    obtain ⟨first, others⟩ := List.forall_mem_cons.mp holds
    refine (Keeps.since trans (refl state) (turn item state first)).mono fun _ _ ended => ih ?_
    exact fun other member => lasts (others other member) ended.2

end Rules

section Guards

variable {τ : Type} (allows : List τ → κ → Prop) (shows : (request : κ) → ρ request → List τ)

/-- Every call is allowed by what the replies before it have shown, whatever they were, and
the postcondition holds of the result. -/
def Guarded (post : List τ → α → Prop) : Script κ ρ α → List τ → Prop
  | .done value, known => post known value
  | .call request rest, known =>
    allows known request ∧ ∀ reply, Guarded post (rest reply) (shows request reply ++ known)

variable {allows shows} {known : List τ} {script : Script κ ρ α}

theorem Guarded.bind {next : α → Script κ ρ β}
    {post : List τ → β → Prop} (guarded : script.Guarded allows shows
      (fun known value => (next value).Guarded allows shows post known) known) :
    (script >>= next).Guarded allows shows post known := by
  induction script generalizing known with
  | done value => exact guarded
  | call request rest ih => exact ⟨guarded.1, fun reply => ih reply (guarded.2 reply)⟩

/-- What has been shown stays shown. -/
theorem Guarded.widened {post wider : List τ → α → Prop}
    (implies : ∀ value shown, known ⊆ shown → post shown value → wider shown value)
    (guarded : script.Guarded allows shows post known) :
    script.Guarded allows shows wider known := by
  induction script generalizing known with
  | done value => exact implies value known (List.Subset.refl _) guarded
  | call request rest ih =>
    refine ⟨guarded.1, fun reply => ih reply ?_ (guarded.2 reply)⟩
    intro value shown among
    exact implies value shown (List.Subset.trans (List.subset_append_right _ _) among)

theorem Guarded.forEach {post : List τ → Unit → Prop}
    (turn : ∀ item known, (body item).Guarded allows shows (fun _ _ => True) known)
    (ends : ∀ known, post known ()) :
    (Script.forEach items body).Guarded allows shows post known := by
  induction items generalizing known with
  | nil => exact ends known
  | cons item rest ih =>
    apply Guarded.bind
    exact (turn item known).widened fun _ _ _ _ => ih

/-- A guarded script keeps a conduct if each allowed call does, where what the replies show
stays known. -/
theorem Guarded.keeps {service : Service σ κ ε ρ} {conduct : Conduct σ κ ε}
    {knows : τ → σ → Prop} {script : Script κ ρ α} {post : List τ → α → Prop}
    {known : List τ} {state : σ}
    (lasts : ∀ {item first second}, knows item first → conduct.change first second →
      knows item second)
    (call : ∀ {request known state choice}, conduct.sound state →
      (∀ item ∈ known, knows item state) → allows known request →
        conduct.admits state request choice →
          conduct.change state (service request choice state).2 ∧
          conduct.sound (service request choice state).2 ∧
          ∀ item ∈ shows request (service request choice state).1,
            knows item (service request choice state).2)
    (held : ∀ item ∈ known, knows item state) (guarded : script.Guarded allows shows post known) :
    script.Keeps service conduct
      (fun value last => ∃ known, (∀ item ∈ known, knows item last) ∧ post known value)
      state := by
  induction script generalizing known state with
  | done value => exact ⟨known, held, guarded⟩
  | call request rest ih =>
    intro later changed sound choice admitted
    have kept : ∀ item ∈ known, knows item later :=
      fun item member => lasts (held item member) changed
    obtain ⟨further, still, shown⟩ := call sound kept guarded.1 admitted
    refine ⟨further, still, ih _ ?_ (guarded.2 _)⟩
    intro item member
    cases List.mem_append.mp member with
    | inl new => exact shown item new
    | inr before => exact lasts (kept item before) further

end Guards

end Script

/-- What operations begin with, and what else happens to the state. -/
structure Operations (σ κ ε : Type) (ρ : κ → Type) (ο ι : Type) where
  service : Service σ κ ε ρ
  program : ο → σ → Script κ ρ Unit
  interrupt : ι → σ → Option σ

/-- A conduct for every operation: which choices are admitted depends on the operation. -/
structure Regime (σ κ ε ο : Type) where
  sound : σ → Prop
  change : σ → σ → Prop
  admits : ο → σ → κ → ε → Prop

def Regime.conduct {σ κ ε ο : Type} (regime : Regime σ κ ε ο) (operation : ο) : Conduct σ κ ε :=
  ⟨regime.sound, regime.change, regime.admits operation⟩

namespace Operations

variable {σ κ ε : Type} {ρ : κ → Type} {ο ι : Type}

/-- The state, and the operations that run with what remains of each. -/
structure Pool (σ κ : Type) (ρ : κ → Type) (ο : Type) where
  state : σ
  running : List (ο × Script κ ρ Unit)

inductive Event (ε ο ι : Type)
  | begin (operation : ο)
  | proceed (index : Nat) (choice : ε)
  | abandon (index : Nat)
  | interrupt (which : ι)

variable (operations : Operations σ κ ε ρ ο ι)

def proceed (pool : Pool σ κ ρ ο) (index : Nat) (choice : ε) : ο × Script κ ρ Unit → Pool σ κ ρ ο
  | (_, .done _) => { pool with running := pool.running.eraseIdx index }
  | (operation, .call request rest) =>
    let replied := operations.service request choice pool.state
    { state := replied.2
      running := pool.running.set index (operation, rest replied.1) }

def step (pool : Pool σ κ ρ ο) : Event ε ο ι → Option (Pool σ κ ρ ο)
  | .begin operation =>
    some { pool with
      running :=
        pool.running ++ [(operation, operations.program operation pool.state)] }
  | .proceed index choice =>
    pool.running[index]?.map fun current => operations.proceed pool index choice current
  | .abandon index =>
    pool.running[index]?.map fun _ =>
      { pool with running := pool.running.eraseIdx index }
  | .interrupt which =>
    (operations.interrupt which pool.state).map fun state => { pool with state }

def system (state : σ) : TransitionSystem (Pool σ κ ρ ο) (Event ε ο ι) where
  init := ⟨state, []⟩
  step := operations.step

/-- The steps whose call admits the environment's choice and whose interruption the state
permits. -/
def Admitted (admits : ο → σ → κ → ε → Prop) (permits : σ → ι → Prop)
    (pool : Pool σ κ ρ ο) : Event ε ο ι → Prop
  | .proceed index choice => ∀ operation request rest,
      pool.running[index]? = some (operation, .call request rest) →
        admits operation pool.state request choice
  | .interrupt which => permits pool.state which
  | _ => True

instance Admitted.decidable (admits : ο → σ → κ → ε → Prop) (permits : σ → ι → Prop)
    [decided : ∀ operation state request choice, Decidable (admits operation state request choice)]
    [∀ state which, Decidable (permits state which)] (pool : Pool σ κ ρ ο)
    (event : Event ε ο ι) : Decidable (Admitted admits permits pool event) := by
  cases event with
  | proceed index choice =>
    cases found : pool.running[index]? with
    | none => exact .isTrue fun _ _ _ runs => by cases found.symm.trans runs
    | some current =>
      obtain ⟨operation, script⟩ := current
      cases script with
      | done value => exact .isTrue fun _ _ _ runs => by cases found.symm.trans runs
      | call request rest =>
        refine @decidable_of_iff _ (admits operation pool.state request choice) ?_
          (decided operation pool.state request choice)
        constructor
        · intro admitted _ _ _ runs
          cases found.symm.trans runs
          exact admitted
        · intro admitted
          exact admitted operation request rest found
  | interrupt which =>
    unfold Admitted
    infer_instance
  | begin operation | abandon index => exact .isTrue trivial

/-- What makes operations keep a regime beside one another. -/
structure Conducted (regime : Regime σ κ ε ο) (permits : σ → ι → Prop) : Prop where
  refl : ∀ state, regime.change state state
  trans : ∀ {first second third}, regime.change first second →
    regime.change second third → regime.change first third
  program : ∀ operation state, regime.sound state →
    (operations.program operation state).Keeps operations.service (regime.conduct operation)
      (fun _ _ => True) state
  interrupt : ∀ which state next, regime.sound state → permits state which →
    operations.interrupt which state = some next → regime.change state next ∧ regime.sound next

structure Proper (regime : Regime σ κ ε ο) (pool : Pool σ κ ρ ο) : Prop where
  state : regime.sound pool.state
  running : ∀ current ∈ pool.running,
    current.2.Keeps operations.service (regime.conduct current.1) (fun _ _ => True) pool.state

section Adequacy

variable {operations} {regime : Regime σ κ ε ο} {permits : σ → ι → Prop}
variable {pool : Pool σ κ ρ ο} {state : σ}

section

variable (conducted : operations.Conducted regime permits) (proper : operations.Proper regime pool)
include conducted proper

theorem Proper.changed {running : List (ο × Script κ ρ Unit)}
    (changed : regime.change pool.state state) (sound : regime.sound state)
    (among : ∀ current ∈ running, current ∈ pool.running ∨
      current.2.Keeps operations.service (regime.conduct current.1) (fun _ _ => True) state) :
    operations.Proper regime ⟨state, running⟩ where
  state := sound
  running := by
    intro current member
    cases among current member with
    | inl before =>
      have keeps := proper.running current before
      refine keeps.stable ?_ (fun _ _ _ _ _ _ => trivial) changed sound
      exact conducted.trans
    | inr keeps => exact keeps

theorem step_proper {next : Pool σ κ ρ ο} {event : Event ε ο ι}
    (admitted : Admitted regime.admits permits pool event)
    (stepped : operations.step pool event = some next) :
    operations.Proper regime next ∧ regime.change pool.state next.state := by
  have same := conducted.refl pool.state
  cases event with
  | begin operation =>
    cases stepped
    refine ⟨proper.changed conducted same proper.state ?_, same⟩
    intro current member
    cases mem_concat.mp member with
    | inl before => exact .inl before
    | inr new =>
      rw [new]
      exact .inr (conducted.program operation pool.state proper.state)
  | proceed index choice =>
    obtain ⟨⟨operation, script⟩, runs, rfl⟩ := Option.map_eq_some_iff.mp stepped
    cases script with
    | done value =>
      refine ⟨proper.changed conducted same proper.state ?_, same⟩
      intro current member
      exact .inl (List.mem_of_mem_eraseIdx member)
    | call request rest =>
      have admits := admitted operation request rest runs
      have keeps := proper.running _ (List.mem_of_getElem? runs)
      obtain ⟨changed, sound, remaining⟩ :=
        keeps pool.state same proper.state choice admits
      refine ⟨proper.changed conducted changed sound ?_, changed⟩
      intro current member
      cases List.mem_or_eq_of_mem_set member with
      | inl before => exact .inl before
      | inr here => exact .inr (here ▸ remaining)
  | abandon index =>
    obtain ⟨current, runs, rfl⟩ := Option.map_eq_some_iff.mp stepped
    refine ⟨proper.changed conducted same proper.state ?_, same⟩
    intro current member
    exact .inl (List.mem_of_mem_eraseIdx member)
  | interrupt which =>
    obtain ⟨state, happened, rfl⟩ := Option.map_eq_some_iff.mp stepped
    obtain ⟨changed, sound⟩ :=
      conducted.interrupt which pool.state state proper.state admitted happened
    exact ⟨proper.changed conducted changed sound fun _ member => .inl member, changed⟩

theorem runFrom_proper {last : Pool σ κ ρ ο} {events : List (Event ε ο ι)}
    (ran : (operations.system state).runFrom pool events = some last)
    (admitted : (operations.system state).EachStep (Admitted regime.admits permits) pool events) :
    operations.Proper regime last ∧ regime.change pool.state last.state := by
  induction events generalizing pool with
  | nil =>
    cases ran
    exact ⟨proper, conducted.refl _⟩
  | cons event rest ih =>
    obtain ⟨next, stepped, remaining⟩ := Option.bind_eq_some_iff.mp ran
    simp only [TransitionSystem.EachStep, stepped, Option.elim_some] at admitted
    obtain ⟨still, first⟩ := step_proper conducted proper admitted.1 stepped
    obtain ⟨kept, others⟩ := ih still remaining admitted.2
    exact ⟨kept, conducted.trans first others⟩

end

theorem initial_proper (sound : regime.sound state) :
    operations.Proper regime (operations.system state).init where
  state := sound
  running := by
    intro current none
    cases none

end Adequacy

end Operations

end Zuse.Data
