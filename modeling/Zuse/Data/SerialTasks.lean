import Zuse.Data.TransitionSystem

namespace Zuse.Data

/-- A program over a shared state that only gives way at its calls. A call has its effect
when the environment answers it, and the program goes on from that state. -/
inductive Task (σ ε α : Type)
  | pure (value : α)
  | throw (message : String)
  | read (rest : σ → Task σ ε α)
  | write (update : σ → σ) (rest : Task σ ε α)
  | call (effect : ε → σ → σ) (rest : ε → σ → Task σ ε α)

namespace Task

variable {σ ε α β : Type}

def bind : Task σ ε α → (α → Task σ ε β) → Task σ ε β
  | .pure value, next => next value
  | .throw message, _ => .throw message
  | .read rest, next => .read fun state => (rest state).bind next
  | .write update rest, next => .write update (rest.bind next)
  | .call effect rest, next => .call effect fun answer state => (rest answer state).bind next

instance : Monad (Task σ ε) where
  pure := .pure
  bind := Task.bind

def gets (view : σ → α) : Task σ ε α := .read fun state => .pure (view state)

def modify (update : σ → σ) : Task σ ε Unit := .write update (.pure ())

/-- An asynchronous call: others may run before it has its effect and again before the
program learns of it. A call that fails may still have had its effect. -/
def request (fails applies : ε → Bool) (effect : σ → σ) (answer : ε → σ → α) : Task σ ε α :=
  .call (fun reply state => if fails reply && !applies reply then state else effect state)
    fun reply state =>
      .call (fun _ later => later) fun _ _ =>
        if fails reply then .throw "Request failed" else .pure (answer reply state)

def forEach : List β → (β → Task σ ε Unit) → Task σ ε Unit
  | [], _ => .pure ()
  | item :: rest, body => (body item).bind fun _ => forEach rest body

/-- Whether the program has given way, so that something else may run. -/
def waiting : Task σ ε α → Bool
  | .call _ _ => true
  | _ => false

structure Discipline (σ : Type) where
  sound : σ → Prop
  rely : σ → σ → Prop
  guarantee : σ → σ → Prop

/-- From this state the program keeps the discipline, and where it returns a value the
postcondition holds. -/
def Keeps (discipline : Discipline σ) : Task σ ε α → (α → σ → Prop) → σ → Prop
  | .pure value, post, state => post value state
  | .throw _, _, _ => True
  | .read rest, post, state => Keeps discipline (rest state) post state
  | .write update rest, post, state =>
    discipline.guarantee state (update state) ∧ discipline.sound (update state) ∧
      Keeps discipline rest post (update state)
  | .call effect rest, post, state =>
    ∀ later, discipline.rely state later → discipline.sound later → ∀ answer,
      discipline.guarantee later (effect answer later) ∧
        discipline.sound (effect answer later) ∧
          Keeps discipline (rest answer later) post (effect answer later)

section Rules

variable {discipline : Discipline σ} {state : σ} {task : Task σ ε α}

theorem Keeps.mono {post weaker : α → σ → Prop}
    (implies : ∀ value state, post value state → weaker value state)
    (keeps : task.Keeps discipline post state) :
    task.Keeps discipline weaker state := by
  induction task generalizing state with
  | pure value => exact implies value state keeps
  | throw message => trivial
  | read rest ih => exact ih state keeps
  | write update rest ih => exact ⟨keeps.1, keeps.2.1, ih keeps.2.2⟩
  | call effect rest ih =>
    intro later relied sound answer
    obtain ⟨guaranteed, still, remaining⟩ := keeps later relied sound answer
    exact ⟨guaranteed, still, ih answer later remaining⟩

variable {post : β → σ → Prop} {next : α → Task σ ε β}

theorem Keeps.bind (keeps : task.Keeps discipline
      (fun value state => (next value).Keeps discipline post state) state) :
    (task.bind next).Keeps discipline post state := by
  induction task generalizing state with
  | pure value => exact keeps
  | throw message => trivial
  | read rest ih => exact ih state keeps
  | write update rest ih => exact ⟨keeps.1, keeps.2.1, ih keeps.2.2⟩
  | call effect rest ih =>
    intro later relied sound answer
    obtain ⟨guaranteed, still, remaining⟩ := keeps later relied sound answer
    exact ⟨guaranteed, still, ih answer later remaining⟩

theorem Keeps.gets {view : σ → α} (keeps : (next (view state)).Keeps discipline post state) :
    (Task.gets view >>= next).Keeps discipline post state :=
  keeps

theorem Keeps.modify {update : σ → σ} {next : Unit → Task σ ε β}
    (guaranteed : discipline.guarantee state (update state))
    (sound : discipline.sound (update state))
    (keeps : (next ()).Keeps discipline post (update state)) :
    (Task.modify update >>= next).Keeps discipline post state :=
  ⟨guaranteed, sound, keeps⟩

theorem Keeps.map {view : α → β}
    (keeps : task.Keeps discipline (fun value => post (view value)) state) :
    (view <$> task).Keeps discipline post state :=
  Keeps.bind keeps

theorem Keeps.stable (trans : ∀ {first second third}, discipline.rely first second →
      discipline.rely second third → discipline.rely first third)
    {task : Task σ ε α} {post : α → σ → Prop} {state later : σ}
    (waits : task.waiting = true) (relied : discipline.rely state later)
    (keeps : task.Keeps discipline post state) :
    task.Keeps discipline post later := by
  cases task with
  | call effect rest => exact fun last further => keeps last (trans relied further)
  | pure value | throw message | read rest | write update rest => cases waits

theorem Keeps.forEach {body : β → Task σ ε Unit} {invariant : List β → σ → Prop}
    {items : List β} (turn : ∀ item rest state, invariant (item :: rest) state →
      (body item).Keeps discipline (fun _ => invariant rest) state)
    (holds : invariant items state) :
    (Task.forEach items body).Keeps discipline (fun _ => invariant []) state := by
  induction items generalizing state with
  | nil => exact holds
  | cons item rest ih =>
    apply Keeps.bind
    exact (turn item rest state holds).mono fun _ _ kept => ih kept

theorem Keeps.request {fails applies : ε → Bool} {effect : σ → σ} {answer : ε → σ → α}
    {post : α → σ → Prop} (refl : ∀ state, discipline.guarantee state state)
    (done : ∀ later, discipline.rely state later → discipline.sound later →
      discipline.guarantee later (effect later) ∧ discipline.sound (effect later) ∧
        ∀ reply last, discipline.rely (effect later) last → discipline.sound last →
          post (answer reply later) last) :
    (Task.request fails applies effect answer).Keeps discipline post state := by
  intro later relied sound reply
  obtain ⟨guaranteed, still, known⟩ := done later relied sound
  cases failed : fails reply with
  | false =>
    simp only [Bool.false_and, Bool.false_eq_true, if_false, failed]
    refine ⟨guaranteed, still, ?_⟩
    intro last further finalSound ignored
    exact ⟨refl last, finalSound, known reply last further finalSound⟩
  | true =>
    have ends : ∀ state, (Task.call (fun _ later => later) fun _ _ =>
        Task.throw "Request failed" : Task σ ε α).Keeps discipline post state := by
      intro state last further finalSound ignored
      exact ⟨refl last, finalSound, trivial⟩
    cases applied : applies reply with
    | false =>
      simp only [failed, applied, Bool.not_false, Bool.and_self, if_true]
      exact ⟨refl later, sound, ends later⟩
    | true =>
      simp only [failed, applied, Bool.not_true, Bool.and_false, Bool.false_eq_true,
        if_false, if_true]
      exact ⟨guaranteed, still, ends (effect later)⟩

end Rules

end Task

/-- How the operations of a server run. The server begins with `first`, callers ask for
operations it accepts: `arrive` is what a caller does at once, `refuse` what it does when
the queue is full, and `recover` what it does after the operation failed. -/
structure SerialServer (σ ε ρ ο ι : Type) where
  limit : Nat
  first : ο
  accepts : ο → Bool
  program : ο → Task σ ε ρ
  arrive : ο → σ → σ
  refuse : ο → σ → σ
  recover : ο → σ → σ
  interrupt : ι → σ → Option σ

namespace SerialServer

variable {σ ε ρ ο ι : Type}

/-- The operation that runs: the state in which it began and what remains of it. -/
structure Current (σ ε ρ ο : Type) where
  operation : ο
  begun : σ
  task : Task σ ε ρ

structure World (σ ε ρ ο : Type) where
  state : σ
  queue : List ο
  current : Option (Current σ ε ρ ο)
  failed : List ο

inductive Event (ε ο ι : Type)
  | call (operation : ο)
  | start
  | proceed (answer : ε)
  | recover
  | interrupt (which : ι)

/-- Whether others may run: no operation does, or the one that does has given way. -/
def World.free (world : World σ ε ρ ο) : Bool :=
  world.current.all fun current => current.task.waiting

def World.queued (world : World σ ε ρ ο) : Nat :=
  world.queue.length + world.current.toList.length

/-- The running operation takes one step: it returns or fails, changes the state, or goes
on from the answer to its call. -/
def proceed (world : World σ ε ρ ο) (current : Current σ ε ρ ο) (answer : ε) : World σ ε ρ ο :=
  match current.task with
  | .pure _ => { world with current := none }
  | .throw _ =>
    { world with current := none, failed := world.failed ++ [current.operation] }
  | .read rest =>
    { world with current := some { current with task := rest world.state } }
  | .write update rest =>
    { world with
      state := update world.state
      current := some { current with task := rest } }
  | .call effect rest =>
    { world with
      state := effect answer world.state
      current := some { current with task := rest answer world.state } }

variable (server : SerialServer σ ε ρ ο ι)

def step (world : World σ ε ρ ο) : Event ε ο ι → Option (World σ ε ρ ο)
  | .call operation =>
    if world.free && server.accepts operation then
      some (if world.queued < server.limit then
        { world with
          state := server.arrive operation world.state
          queue := world.queue ++ [operation] }
      else
        { world with
          state := server.refuse operation (server.arrive operation world.state) })
    else none
  | .start =>
    match world.current, world.queue with
    | none, operation :: rest =>
      some { world with
        queue := rest
        current := some ⟨operation, world.state, server.program operation⟩ }
    | _, _ => none
  | .proceed answer => world.current.map fun current => proceed world current answer
  | .recover =>
    if world.free then
      match world.failed with
      | operation :: rest =>
        some { world with state := server.recover operation world.state, failed := rest }
      | [] => none
    else none
  | .interrupt which =>
    if world.free then
      (server.interrupt which world.state).map fun state => { world with state }
    else none

def initial (state : σ) : World σ ε ρ ο :=
  ⟨state, [], some ⟨server.first, state, server.program server.first⟩, []⟩

def system (state : σ) : TransitionSystem (World σ ε ρ ο) (Event ε ο ι) where
  init := server.initial state
  step := server.step

structure Disciplined (discipline : ο → Task.Discipline σ) (sound : σ → Prop)
    (rely : σ → σ → Prop) (post : ο → σ → ρ → σ → Prop) : Prop where
  sound_eq : ∀ operation, (discipline operation).sound = sound
  rely_eq : ∀ operation, (discipline operation).rely = rely
  refl : ∀ state, rely state state
  trans : ∀ {first second third}, rely first second → rely second third → rely first third
  arrive : ∀ operation state, sound state →
    rely state (server.arrive operation state) ∧ sound (server.arrive operation state)
  refuse : ∀ operation state, sound state →
    rely state (server.refuse operation state) ∧ sound (server.refuse operation state)
  recover : ∀ operation state, sound state →
    rely state (server.recover operation state) ∧ sound (server.recover operation state)
  interrupt : ∀ which state next, sound state →
    server.interrupt which state = some next → rely state next ∧ sound next
  program : ∀ operation state, server.accepts operation = true → sound state →
    (server.program operation).Keeps (discipline operation) (post operation state) state

/-- The invariant of a disciplined server: its state is sound and what remains of the
running operation keeps its discipline. -/
structure Proper (discipline : ο → Task.Discipline σ) (sound : σ → Prop)
    (post : ο → σ → ρ → σ → Prop) (world : World σ ε ρ ο) : Prop where
  state : sound world.state
  queue : ∀ operation ∈ world.queue, server.accepts operation = true
  current : ∀ current ∈ world.current, sound current.begun ∧
    current.task.Keeps (discipline current.operation)
      (post current.operation current.begun) world.state

/-- What one step of a disciplined server does to the state: nothing, what the running
operation guarantees, or what the others are relied on for. -/
inductive Change (discipline : ο → Task.Discipline σ) (rely : σ → σ → Prop)
    (world next : World σ ε ρ ο) : Prop
  | same (same : next.state = world.state)
  | guaranteed (current : Current σ ε ρ ο) (runs : world.current = some current)
      (changed : (discipline current.operation).guarantee world.state next.state)
  | relied (changed : rely world.state next.state)

section Adequacy

variable {server} {discipline : ο → Task.Discipline σ} {sound : σ → Prop}
  {rely : σ → σ → Prop} {post : ο → σ → ρ → σ → Prop}
variable {state : σ}

theorem Proper.relied (disciplined : server.Disciplined discipline sound rely post)
    {world : World σ ε ρ ο} {queue failed : List ο}
    (proper : server.Proper discipline sound post world) (free : world.free = true)
    (accepted : ∀ operation ∈ queue, server.accepts operation = true)
    (changed : rely world.state state) (still : sound state) :
    server.Proper discipline sound post ⟨state, queue, world.current, failed⟩ where
  state := still
  queue := accepted
  current := by
    intro current runs
    obtain ⟨begun, keeps⟩ := proper.current current runs
    have waits : current.task.waiting = true := by
      rw [World.free, runs] at free
      exact free
    have relied : (discipline current.operation).rely world.state state := by
      rw [disciplined.rely_eq]
      exact changed
    refine ⟨begun, keeps.stable ?_ waits relied⟩
    rw [disciplined.rely_eq]
    exact disciplined.trans

variable {world : World σ ε ρ ο}

variable (disciplined : server.Disciplined discipline sound rely post)
include disciplined

section

variable (proper : server.Proper discipline sound post world)
include proper

theorem proceed_proper {current : Current σ ε ρ ο} {answer : ε}
    (runs : world.current = some current) :
    server.Proper discipline sound post (proceed world current answer) ∧
      SerialServer.Change discipline rely world (proceed world current answer) := by
  obtain ⟨begun, keeps⟩ := proper.current current runs
  obtain ⟨operation, begin, task⟩ := current
  cases task with
  | pure value =>
    refine ⟨⟨proper.state, proper.queue, ?_⟩, .same rfl⟩
    intro other none
    cases none
  | throw message =>
    refine ⟨⟨proper.state, proper.queue, ?_⟩, .same rfl⟩
    intro other none
    cases none
  | read rest =>
    refine ⟨⟨proper.state, proper.queue, ?_⟩, .same rfl⟩
    intro other same
    cases same
    exact ⟨begun, keeps⟩
  | write update rest =>
    obtain ⟨guaranteed, still, remaining⟩ := keeps
    rw [disciplined.sound_eq] at still
    refine ⟨⟨still, proper.queue, ?_⟩, .guaranteed _ runs guaranteed⟩
    intro other same
    cases same
    exact ⟨begun, remaining⟩
  | call effect rest =>
    have here : (discipline operation).rely world.state world.state := by
      rw [disciplined.rely_eq]
      exact disciplined.refl world.state
    have now : (discipline operation).sound world.state := by
      rw [disciplined.sound_eq]
      exact proper.state
    obtain ⟨guaranteed, still, remaining⟩ := keeps world.state here now answer
    rw [disciplined.sound_eq] at still
    refine ⟨⟨still, proper.queue, ?_⟩, .guaranteed _ runs guaranteed⟩
    intro other same
    cases same
    exact ⟨begun, remaining⟩

variable {next : World σ ε ρ ο}

theorem call_proper {operation : ο}
    (stepped : server.step world (.call operation : Event ε ο ι) = some next) :
    server.Proper discipline sound post next ∧ SerialServer.Change discipline rely world next := by
  simp only [step] at stepped
  split at stepped
  · rename_i both
    obtain ⟨free, accepted⟩ := (Bool.and_eq_true _ _).mp both
    obtain ⟨arrived, sound⟩ := disciplined.arrive operation world.state proper.state
    cases stepped
    split
    · refine ⟨proper.relied disciplined free ?_ arrived sound, .relied arrived⟩
      intro other member
      cases List.mem_append.mp member with
      | inl queued => exact proper.queue other queued
      | inr new =>
        rw [List.mem_singleton] at new
        rw [new]
        exact accepted
    · obtain ⟨refused, still⟩ := disciplined.refuse operation _ sound
      have changed := disciplined.trans arrived refused
      exact ⟨proper.relied disciplined free proper.queue changed still, .relied changed⟩
  · cases stepped

theorem step_proper {event : Event ε ο ι} (stepped : server.step world event = some next) :
    server.Proper discipline sound post next ∧ SerialServer.Change discipline rely world next := by
  cases event with
  | call operation => exact call_proper disciplined proper stepped
  | start =>
    simp only [step] at stepped
    split at stepped
    · rename_i operation rest idle queued
      cases stepped
      have accepted := fun other member =>
        proper.queue other (queued ▸ List.mem_cons_of_mem operation member)
      refine ⟨⟨proper.state, accepted, ?_⟩, .same rfl⟩
      intro current same
      cases same
      have accepts := proper.queue operation (queued ▸ List.mem_cons_self)
      exact ⟨proper.state, disciplined.program operation _ accepts proper.state⟩
    · cases stepped
  | proceed answer =>
    obtain ⟨current, runs, rfl⟩ := Option.map_eq_some_iff.mp stepped
    exact proceed_proper disciplined proper runs
  | recover =>
    simp only [step] at stepped
    split at stepped
    · rename_i free
      split at stepped
      · cases stepped
        obtain ⟨recovered, still⟩ := disciplined.recover _ world.state proper.state
        exact ⟨proper.relied disciplined free proper.queue recovered still, .relied recovered⟩
      · cases stepped
    · cases stepped
  | interrupt which =>
    simp only [step] at stepped
    split at stepped
    · rename_i free
      obtain ⟨state, happened, rfl⟩ := Option.map_eq_some_iff.mp stepped
      obtain ⟨changed, still⟩ := disciplined.interrupt _ _ _ proper.state happened
      exact ⟨proper.relied disciplined free proper.queue changed still, .relied changed⟩
    · cases stepped

end

theorem proper_of_reachable (begins : sound state)
    (first : (server.program server.first).Keeps (discipline server.first)
      (post server.first state) state)
    (reachable : (server.system state).Reachable world) :
    server.Proper discipline sound post world := by
  induction reachable with
  | init =>
    refine ⟨begins, ?_, ?_⟩
    · intro operation none
      cases none
    · intro current same
      cases same
      exact ⟨begins, first⟩
  | step _ stepped ih => exact (step_proper disciplined ih stepped).1

end Adequacy

end SerialServer

end Zuse.Data
