import Zuse.Data.Scripts

namespace Zuse.Data

/-! Scripts of several parties over one state. A party runs one script at a time; what it
does in a call and what it counts on between its calls are its own. -/

/-- What a call does to the state and replies, and `none` while it has to wait. -/
def WaitingService (σ κ ε : Type) (ρ : κ → Type) : Type :=
  (request : κ) → ε → σ → Option (ρ request × σ)

structure Role (σ : Type) where
  rely : σ → σ → Prop
  guarantee : σ → σ → Prop

/-- What every party keeps, under which choices of the environment. -/
structure Setting (σ κ ε : Type) (ρ : κ → Type) where
  service : WaitingService σ κ ε ρ
  sound : σ → Prop
  admits : σ → κ → ε → Prop

def Role.Stable {σ : Type} (role : Role σ) (sound assertion : σ → Prop) : Prop :=
  ∀ state later, role.rely state later → sound later → assertion state → assertion later

namespace Script

variable {σ κ ε : Type} {ρ : κ → Type} {α β : Type}

/-- From this state on each call of the script keeps to its role, whatever the others have
done before it, and the postcondition holds where the script ends. -/
def Serves (setting : Setting σ κ ε ρ) (role : Role σ) : Script κ ρ α → (α → σ → Prop) → σ → Prop
  | .done value, post, state => post value state
  | .call request rest, post, state =>
    ∀ later, role.rely state later → setting.sound later → ∀ choice,
      setting.admits later request choice → ∀ reply next,
        setting.service request choice later = some (reply, next) →
          role.guarantee later next ∧ setting.sound next ∧
            Serves setting role (rest reply) post next

section Rules

variable {setting : Setting σ κ ε ρ} {role : Role σ}

theorem Serves.mono {script : Script κ ρ α} {post weaker : α → σ → Prop}
    (implies : ∀ value state, post value state → weaker value state) {state : σ}
    (serves : script.Serves setting role post state) :
    script.Serves setting role weaker state := by
  induction script generalizing state with
  | done value => exact implies value state serves
  | call request rest ih =>
    intro later others sound choice admitted reply next answered
    obtain ⟨kept, still, remaining⟩ :=
      serves later others sound choice admitted reply next answered
    exact ⟨kept, still, ih reply remaining⟩

theorem Serves.bind {script : Script κ ρ α} {next : α → Script κ ρ β}
    {post : β → σ → Prop} {state : σ}
    (serves : script.Serves setting role
      (fun value state => (next value).Serves setting role post state) state) :
    (script >>= next).Serves setting role post state := by
  induction script generalizing state with
  | done value => exact serves
  | call request rest ih =>
    intro later others sound choice admitted reply after answered
    obtain ⟨kept, still, remaining⟩ :=
      serves later others sound choice admitted reply after answered
    exact ⟨kept, still, ih reply remaining⟩

theorem Serves.call {request : κ} {rest : ρ request → Script κ ρ α}
    {post : α → σ → Prop} {assertion : σ → Prop}
    (stable : role.Stable setting.sound assertion)
    (answered : ∀ state choice reply next, setting.sound state → assertion state →
      setting.admits state request choice →
        setting.service request choice state = some (reply, next) →
          role.guarantee state next ∧ setting.sound next ∧
            (rest reply).Serves setting role post next)
    {state : σ} (holds : assertion state) :
    (Script.call request rest).Serves setting role post state :=
  fun later others sound choice admitted reply next isAnswer =>
    answered later choice reply next sound (stable state later others sound holds) admitted isAnswer

theorem Serves.stable
    (trans : ∀ {first second third}, role.rely first second → role.rely second third →
      role.rely first third)
    {script : Script κ ρ α} {post : α → σ → Prop}
    (kept : ∀ value, role.Stable setting.sound (post value)) :
    role.Stable setting.sound fun state => script.Serves setting role post state := by
  intro state later others sound serves
  cases script with
  | done value => exact kept value state later others sound serves
  | call request rest => exact fun last further => serves last (trans others further)

end Rules

end Script

/-- What each party begins with, what else happens to the state, and what a crash of all
parties leaves of it. -/
structure Parties (σ κ ε : Type) (ρ : κ → Type) (ι ο ω : Type) where
  service : WaitingService σ κ ε ρ
  party : ο → ι
  program : ο → Script κ ρ Unit
  interrupt : ω → σ → Option σ
  crash : σ → σ

/-- The role of each party, and what is left where it runs nothing. -/
structure Discipline (σ κ ε ι ω : Type) where
  sound : σ → Prop
  role : ι → Role σ
  idle : ι → σ → Prop
  admits : σ → κ → ε → Prop
  permits : σ → ω → Prop

namespace Parties

variable {σ κ ε : Type} {ρ : κ → Type} {ι ο ω : Type}

structure Pool (σ κ : Type) (ρ : κ → Type) (ι : Type) where
  state : σ
  running : ι → Option (Script κ ρ Unit)

inductive Event (ε ι ο ω : Type)
  | begin (operation : ο)
  | proceed (party : ι) (choice : ε)
  | interrupt (which : ω)
  | crash

variable [DecidableEq ι] (parties : Parties σ κ ε ρ ι ο ω)

def Pool.put (pool : Pool σ κ ρ ι) (party : ι) (script : Option (Script κ ρ Unit)) :
    Pool σ κ ρ ι :=
  { pool with running := fun other => if other = party then script else pool.running other }

def step (pool : Pool σ κ ρ ι) : Event ε ι ο ω → Option (Pool σ κ ρ ι)
  | .begin operation =>
    if (pool.running (parties.party operation)).isNone then
      some (pool.put (parties.party operation) (some (parties.program operation)))
    else none
  | .proceed party choice =>
    match pool.running party with
    | none => none
    | some (.done _) => some (pool.put party none)
    | some (.call request rest) =>
      (parties.service request choice pool.state).map fun answer =>
        { pool.put party (some (rest answer.1)) with state := answer.2 }
  | .interrupt which =>
    (parties.interrupt which pool.state).map fun state => { pool with state }
  | .crash => some { state := parties.crash pool.state, running := fun _ => none }

def system (state : σ) : TransitionSystem (Pool σ κ ρ ι) (Event ε ι ο ω) where
  init := ⟨state, fun _ => none⟩
  step := parties.step

/-- The steps whose call admits the environment's choice and whose interruption the state
permits. -/
def Admitted (admits : σ → κ → ε → Prop) (permits : σ → ω → Prop) (pool : Pool σ κ ρ ι) :
    Event ε ι ο ω → Prop
  | .proceed party choice => ∀ request rest,
      pool.running party = some (.call request rest) → admits pool.state request choice
  | .interrupt which => permits pool.state which
  | _ => True

instance Admitted.decidable (admits : σ → κ → ε → Prop) (permits : σ → ω → Prop)
    [decided : ∀ state request choice, Decidable (admits state request choice)]
    [allowed : ∀ state which, Decidable (permits state which)] (pool : Pool σ κ ρ ι)
    (event : Event ε ι ο ω) : Decidable (Admitted admits permits pool event) :=
  match event with
  | .begin _ => .isTrue trivial
  | .crash => .isTrue trivial
  | .interrupt which => allowed pool.state which
  | .proceed party choice =>
    match found : pool.running party with
    | none => .isTrue fun _ _ runs => by cases found.symm.trans runs
    | some (.done _) => .isTrue fun _ _ runs => by cases found.symm.trans runs
    | some (.call request _) =>
      @decidable_of_iff _ (admits pool.state request choice)
        ⟨fun admitted _ _ runs => by
          cases found.symm.trans runs
          exact admitted, fun admitted => admitted request _ found⟩
        (decided pool.state request choice)

def setting (discipline : Discipline σ κ ε ι ω) : Setting σ κ ε ρ where
  service := parties.service
  sound := discipline.sound
  admits := discipline.admits

/-- What makes the parties keep their roles beside one another. -/
structure Disciplined (discipline : Discipline σ κ ε ι ω) : Prop where
  refl : ∀ party state, (discipline.role party).rely state state
  trans : ∀ party {first second third}, (discipline.role party).rely first second →
    (discipline.role party).rely second third → (discipline.role party).rely first third
  apart : ∀ {party other state next}, other ≠ party →
    (discipline.role party).guarantee state next → (discipline.role other).rely state next
  idle : ∀ party, (discipline.role party).Stable discipline.sound (discipline.idle party)
  program : ∀ operation state, discipline.sound state →
    discipline.idle (parties.party operation) state →
      (parties.program operation).Serves (parties.setting discipline)
        (discipline.role (parties.party operation))
        (fun _ => discipline.idle (parties.party operation)) state
  interrupt : ∀ which state next, discipline.sound state → discipline.permits state which →
    parties.interrupt which state = some next →
      discipline.sound next ∧ ∀ party, (discipline.role party).rely state next
  crash : ∀ state, discipline.sound state →
    discipline.sound (parties.crash state) ∧ ∀ party, discipline.idle party (parties.crash state)

def Keeps (discipline : Discipline σ κ ε ι ω) (party : ι) (state : σ) :
    Option (Script κ ρ Unit) → Prop
  | none => discipline.idle party state
  | some script =>
    script.Serves (parties.setting discipline) (discipline.role party)
      (fun _ => discipline.idle party) state

structure Proper (discipline : Discipline σ κ ε ι ω) (pool : Pool σ κ ρ ι) : Prop where
  sound : discipline.sound pool.state
  keeps : ∀ party, parties.Keeps discipline party pool.state (pool.running party)

section Adequacy

variable {parties} {discipline : Discipline σ κ ε ι ω}

omit [DecidableEq ι] in
theorem Keeps.stable (disciplined : parties.Disciplined discipline) (party : ι)
    (script : Option (Script κ ρ Unit)) :
    (discipline.role party).Stable discipline.sound fun state =>
      parties.Keeps discipline party state script := by
  cases script with
  | none => exact disciplined.idle party
  | some script =>
    have kept : ∀ _ : Unit,
        (discipline.role party).Stable discipline.sound (discipline.idle party) :=
      fun _ => disciplined.idle party
    exact @Script.Serves.stable _ _ _ _ _ (parties.setting discipline) _
      (disciplined.trans party) script _ kept

variable (disciplined : parties.Disciplined discipline)
include disciplined

theorem Proper.put {pool : Pool σ κ ρ ι} (proper : parties.Proper discipline pool)
    {party : ι} {state : σ} {script : Option (Script κ ρ Unit)}
    (sound : discipline.sound state)
    (others : ∀ other, other ≠ party → (discipline.role other).rely pool.state state)
    (keeps : parties.Keeps discipline party state script) :
    parties.Proper discipline { pool.put party script with state } where
  sound := sound
  keeps := by
    intro other
    by_cases same : other = party
    · subst same
      simpa [Pool.put] using keeps
    · have before := Keeps.stable disciplined other _ _ state (others other same) sound
        (proper.keeps other)
      simpa [Pool.put, same] using before

theorem step_proper {pool next : Pool σ κ ρ ι} {event : Event ε ι ο ω}
    (proper : parties.Proper discipline pool)
    (admitted : Admitted discipline.admits discipline.permits pool event)
    (stepped : parties.step pool event = some next) : parties.Proper discipline next := by
  cases event with
  | begin operation =>
    simp only [step] at stepped
    split at stepped
    next free =>
      cases stepped
      have idle := proper.keeps (parties.party operation)
      rw [Option.isNone_iff_eq_none.mp free] at idle
      exact proper.put disciplined proper.sound (fun other _ => disciplined.refl other pool.state)
        (disciplined.program operation pool.state proper.sound idle)
    next => cases stepped
  | proceed party choice =>
    have keeps := proper.keeps party
    simp only [step] at stepped
    split at stepped
    next => cases stepped
    next value runs =>
      cases stepped
      rw [runs] at keeps
      exact proper.put disciplined proper.sound
        (fun other _ => disciplined.refl other pool.state) keeps
    next request rest runs =>
      obtain ⟨⟨reply, state⟩, answered, rfl⟩ := Option.map_eq_some_iff.mp stepped
      rw [runs] at keeps
      obtain ⟨guaranteed, sound, remaining⟩ :=
        keeps pool.state (disciplined.refl party pool.state) proper.sound choice
          (admitted request rest runs) reply state answered
      exact proper.put disciplined sound
        (fun _ other => disciplined.apart other guaranteed) remaining
  | interrupt which =>
    obtain ⟨state, happened, rfl⟩ := Option.map_eq_some_iff.mp stepped
    obtain ⟨sound, others⟩ :=
      disciplined.interrupt which pool.state state proper.sound admitted happened
    exact ⟨sound, fun party => Keeps.stable disciplined party _ _ state (others party)
      sound (proper.keeps party)⟩
  | crash =>
    cases stepped
    obtain ⟨sound, idle⟩ := disciplined.crash pool.state proper.sound
    exact ⟨sound, idle⟩

theorem run_proper {state : σ} (sound : discipline.sound state)
    (idle : ∀ party, discipline.idle party state) {last : Pool σ κ ρ ι}
    {events : List (Event ε ι ο ω)}
    (admitted : (parties.system state).EachStep (Admitted discipline.admits discipline.permits)
      (parties.system state).init events)
    (ran : (parties.system state).run events = some last) :
    parties.Proper discipline last := by
  refine admitted.invariant (parties.Proper discipline) ?_ ran ⟨sound, idle⟩
  intro pool event next proper meets stepped
  exact step_proper disciplined proper meets stepped

end Adequacy

end Parties

end Zuse.Data
