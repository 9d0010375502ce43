import Mathlib.Logic.Relation
import Zuse.Client.Supervisor
import Zuse.Data.Table

namespace Zuse.Client

open Zuse.Data List AttemptStage Nat Option Table
open Table (getElem?_set_iff)

/-! Who holds a session: the client, an attempt that validates it, the chain of sessions
to close, or nobody since its disposal was called. -/

variable {κ : Type}

namespace AttemptStage

def session : AttemptStage κ → Option Nat
  | .validating session => some session
  | _ => none

def finish? : AttemptStage κ → Bool
  | .finished _ _ => true
  | _ => false

def plain : AttemptStage κ → Bool
  | .validating _ => false
  | .settled (.ready _) => false
  | .finished _ _ => false
  | _ => true

variable {stage : AttemptStage κ}

theorem plain_session (plain : stage.plain = true) : stage.session = none := by
  cases stage with
  | validating session => cases plain
  | _ => rfl

/-- The stage of an attempt that has neither a ready session nor finished. -/
def Unready (stage : AttemptStage κ) : Prop :=
  stage.finish? = false ∧ ∀ session, stage ≠ .settled (.ready session)

theorem plain_unready (plain : stage.plain = true) : stage.Unready := by
  cases stage with
  | finished outcome seen => cases plain
  | settled outcome =>
    refine ⟨rfl, fun session same => ?_⟩
    rw [same] at plain
    cases plain
  | _ => exact ⟨rfl, nofun⟩

end AttemptStage

namespace Sessions

def superseded (sessions : Sessions κ) (attempt : Attempt κ) : Bool :=
  sessions.removed || attempt.epoch ≠ sessions.epoch

/-- An attempt that may still become the client. -/
def Current (sessions : Sessions κ) (attempt : Attempt κ) : Prop :=
  sessions.superseded attempt = false ∧ attempt.stage.finish? = false

def attemptSession (attempt : Attempt κ) : Option Nat := attempt.stage.session

def loose (sessions : Sessions κ) : List Nat :=
  sessions.disposeClient.toList ++ (sessions.closing ++ sessions.disposed)

def holders (sessions : Sessions κ) : List Nat :=
  sessions.attempts.filterMap attemptSession ++
    (sessions.disposeClient.toList ++ (sessions.closing ++ sessions.disposed))

def closed (sessions : Sessions κ) : Sessions κ :=
  { sessions with
    client := none
    disposeClient := none
    closing := sessions.closing ++ sessions.disposeClient.toList }

def restaged (sessions : Sessions κ) (attempt : Attempt κ) (stage : AttemptStage κ) :
    Sessions κ :=
  { sessions with attempts := sessions.attempts.set attempt.id { attempt with stage } }

inductive Move : Sessions κ → Sessions κ → Prop
  | invalidate (sessions : Sessions κ) :
      Move sessions
        { sessions.closed with epoch := sessions.epoch + 1, inFlight := none }
  | remove (sessions : Sessions κ) :
      Move sessions
        { sessions.closed with
          removed := true, epoch := sessions.epoch + 1, inFlight := none }
  | begin (sessions : Sessions κ) (awaited : List Nat) (present : sessions.removed = false)
      (absent : sessions.client = none) (idle : sessions.inFlight = none) :
      Move sessions { sessions with
        inFlight := some sessions.attempts.length
        attempts := sessions.attempts ++
          [⟨sessions.attempts.length, sessions.epoch, .closing awaited⟩] }
  | restage (sessions : Sessions κ) (attempt : Attempt κ) (stage : AttemptStage κ)
      (found : sessions.attempts[attempt.id]? = some attempt)
      (old : attempt.stage.plain = true) (new : stage.plain = true) :
      Move sessions (sessions.restaged attempt stage)
  | create (sessions : Sessions κ) (attempt : Attempt κ)
      (found : sessions.attempts[attempt.id]? = some attempt) (old : attempt.stage.plain = true) :
      Move sessions (restaged
        { sessions with created := sessions.created ++ [sessions.created.length] } attempt
        (.validating sessions.created.length))
  | createLate (sessions : Sessions κ) (attempt : Attempt κ) (cause : κ)
      (found : sessions.attempts[attempt.id]? = some attempt) (old : attempt.stage.plain = true) :
      Move sessions (restaged { sessions with
        created := sessions.created ++ [sessions.created.length]
        disposed := sessions.disposed ++ [sessions.created.length] } attempt
        (.discarding cause))
  | discard (sessions : Sessions κ) (attempt : Attempt κ) (session : Nat) (cause : κ)
      (found : sessions.attempts[attempt.id]? = some attempt)
      (old : attempt.stage = .validating session) :
      Move sessions (restaged
        { sessions with disposed := sessions.disposed ++ [session] } attempt
        (.discarding cause))
  | validated (sessions : Sessions κ) (attempt : Attempt κ) (session : Nat)
      (found : sessions.attempts[attempt.id]? = some attempt)
      (old : attempt.stage = .validating session) (current : sessions.superseded attempt = false) :
      Move sessions (restaged { sessions with disposeClient := some session } attempt
        (.settled (.ready session)))
  | finish (sessions : Sessions κ) (attempt : Attempt κ) (outcome seen : Outcome κ)
      (found : sessions.attempts[attempt.id]? = some attempt)
      (old : attempt.stage = .settled outcome)
      (lost : sessions.superseded attempt = true ∨ ∃ cause, outcome = .rejected cause) :
      Move sessions (restaged { sessions with
        inFlight :=
          if sessions.inFlight = some attempt.id then none else sessions.inFlight } attempt
        (.finished outcome seen))
  | connect (sessions : Sessions κ) (attempt : Attempt κ) (session : Nat)
      (found : sessions.attempts[attempt.id]? = some attempt)
      (old : attempt.stage = .settled (.ready session))
      (current : sessions.superseded attempt = false) :
      Move sessions (restaged { sessions with
        inFlight :=
          if sessions.inFlight = some attempt.id then none else sessions.inFlight
        client := some session
        generation := sessions.generation + 1 } attempt
        (.finished (.ready session) (.ready session)))
  | disposeNext (sessions : Sessions κ) (session : Nat) (rest : List Nat)
      (chained : sessions.closing = session :: rest) :
      Move sessions { sessions with
        closing := rest
        closingNow := some session
        disposed := sessions.disposed ++ [session] }
  | disposalDone (sessions : Sessions κ) : Move sessions { sessions with closingNow := none }

def Moves : Sessions κ → Sessions κ → Prop := Relation.ReflTransGen Move

/-- The invariant of the sessions: every session is held once, and an attempt that is
still current is the one that calls for the client share. -/
structure Sound (sessions : Sessions κ) : Prop where
  ids : ∀ (index : Nat) (attempt : Attempt κ),
    sessions.attempts[index]? = some attempt → attempt.id = index
  epochs : ∀ (index : Nat) (attempt : Attempt κ), sessions.attempts[index]? = some attempt →
    attempt.epoch ≤ sessions.epoch
  created : sessions.created = List.range sessions.created.length
  held : sessions.holders.Perm sessions.created
  inFlight : ∀ index, sessions.inFlight = some index ↔
    ∃ attempt : Attempt κ, sessions.attempts[index]? = some attempt ∧ sessions.Current attempt
  client : sessions.client.isSome = true →
    sessions.inFlight = none ∧ sessions.disposeClient = sessions.client
  waiting : sessions.client = none → ∀ session, sessions.disposeClient = some session →
    ∃ (index : Nat) (attempt : Attempt κ), sessions.attempts[index]? = some attempt ∧
      sessions.Current attempt ∧ attempt.stage = .settled (.ready session)
  ready : ∀ (index : Nat) (attempt : Attempt κ) (session : Nat),
    sessions.attempts[index]? = some attempt →
    sessions.Current attempt → attempt.stage = .settled (.ready session) →
      sessions.disposeClient = some session

variable {sessions : Sessions κ} {next : Sessions κ}

theorem Sound.of_closed (sound : sessions.Sound) (attempts : next.attempts = sessions.attempts)
    (created : next.created = sessions.created) (epoch : next.epoch = sessions.epoch + 1)
    (client : next.client = none) (dispose : next.disposeClient = none)
    (inFlight : next.inFlight = none)
    (closing : next.closing = sessions.closing ++ sessions.disposeClient.toList)
    (disposed : next.disposed = sessions.disposed) : next.Sound := by
  have past : ∀ (index : Nat) (attempt : Attempt κ), next.attempts[index]? = some attempt →
      ¬next.Current attempt := by
    intro index attempt found current
    rw [attempts] at found
    have bound := sound.epochs index attempt found
    have fresh := (Bool.or_eq_false_iff.mp current.1).2
    rw [decide_eq_false_iff_not] at fresh
    omega
  refine ⟨?_, ?_, ?_, ?_, ?_, ?_, ?_, ?_⟩
  · rw [attempts]
    exact sound.ids
  · intro index attempt found
    rw [attempts] at found
    rw [epoch]
    exact le_succ_of_le (sound.epochs index attempt found)
  · rw [created]
    exact sound.created
  · rw [created]
    refine List.Perm.trans ?_ sound.held
    rw [holders, attempts, dispose, closing, disposed]
    apply List.Perm.append_left
    rw [append_assoc]
    have swap : (sessions.closing ++ (sessions.disposeClient.toList ++ sessions.disposed)).Perm
        (sessions.disposeClient.toList ++ (sessions.closing ++ sessions.disposed)) := by
      rw [← append_assoc, ← append_assoc]
      exact perm_append_comm.append_right _
    exact swap
  · intro index
    rw [inFlight]
    constructor
    · intro none
      cases none
    · intro found
      obtain ⟨attempt, isAttempt, current⟩ := found
      exact absurd current (past index attempt isAttempt)
  · intro some
    rw [client] at some
    cases some
  · intro _ session held
    rw [dispose] at held
    cases held
  · intro index attempt session found current
    exact absurd current (past index attempt found)

variable {attempt : Attempt κ}

/-- The attempts of `next` are those of `sessions`, one of them in another stage. -/
structure Restages (sessions next : Sessions κ) (attempt : Attempt κ)
    (stage : AttemptStage κ) : Prop where
  found : sessions.attempts[attempt.id]? = some attempt
  attempts : next.attempts = sessions.attempts.set attempt.id { attempt with stage }
  epoch : next.epoch = sessions.epoch
  removed : next.removed = sessions.removed

section

variable {stage : AttemptStage κ} {index : Nat} {other : Attempt κ}

theorem Restages.listed (restages : sessions.Restages next attempt stage) :
    next.attempts[index]? = some other ↔
      (index = attempt.id ∧ other = { attempt with stage }) ∨
        index ≠ attempt.id ∧ sessions.attempts[index]? = some other := by
  rw [restages.attempts, getElem?_set_iff restages.found]

theorem Restages.current (restages : sessions.Restages next attempt stage)
    (other : Attempt κ) : next.Current other ↔ sessions.Current other := by
  rw [Current, Current, superseded, superseded, restages.epoch, restages.removed]

variable (sound : sessions.Sound)
include sound

theorem Sound.restaged_ids (restages : sessions.Restages next attempt stage) (index : Nat)
    (other : Attempt κ) (isOther : next.attempts[index]? = some other) :
    other.id = index ∧ other.epoch ≤ next.epoch := by
  rw [restages.epoch]
  obtain ⟨rfl, rfl⟩ | ⟨_, isOther⟩ := restages.listed.mp isOther
  · exact ⟨rfl, sound.epochs _ attempt restages.found⟩
  · exact ⟨sound.ids index other isOther, sound.epochs index other isOther⟩

theorem Sound.of_restaged (restages : sessions.Restages next attempt stage)
    (old : attempt.stage.finish? = false) (new : stage.finish? = false)
    (inFlight : next.inFlight = sessions.inFlight)
    (created : next.created = List.range next.created.length)
    (held : next.holders.Perm next.created)
    (client : next.client.isSome = true → next.inFlight = none ∧ next.disposeClient = next.client)
    (waiting : next.client = none → ∀ session, next.disposeClient = some session → ∃ (index : Nat)
      (other : Attempt κ), next.attempts[index]? = some other ∧ next.Current other ∧
      other.stage = .settled (.ready session))
    (ready : ∀ (index : Nat) (other : Attempt κ) (session : Nat), next.attempts[index]? =
      some other → next.Current other → other.stage = .settled (.ready session) →
      next.disposeClient = some session) :
    next.Sound where
  ids := fun index other isOther => (sound.restaged_ids restages index other isOther).1
  epochs := fun index other isOther => (sound.restaged_ids restages index other isOther).2
  created := created
  held := held
  inFlight := by
    intro index
    rw [inFlight, sound.inFlight]
    constructor
    · intro isCurrent
      obtain ⟨other, isOther, current⟩ := isCurrent
      by_cases here : index = attempt.id
      · subst here
        cases restages.found.symm.trans isOther
        exact ⟨_, restages.listed.mpr (.inl ⟨rfl, rfl⟩), (restages.current _).mpr ⟨current.1, new⟩⟩
      · exact ⟨other, restages.listed.mpr (.inr ⟨here, isOther⟩),
          (restages.current other).mpr current⟩
    · intro isCurrent
      obtain ⟨other, isOther, current⟩ := isCurrent
      have before := (restages.current other).mp current
      obtain ⟨rfl, rfl⟩ | ⟨_, isOther⟩ := restages.listed.mp isOther
      · exact ⟨attempt, restages.found, before.1, old⟩
      · exact ⟨other, isOther, before⟩
  client := client
  waiting := waiting
  ready := ready

theorem Sound.unique {first second : Nat} (found : sessions.attempts[first]? = some attempt)
    (current : sessions.Current attempt)
    (isOther : sessions.attempts[second]? = some other) (also : sessions.Current other) :
    second = first ∧ other = attempt := by
  have one := (sound.inFlight first).mpr ⟨attempt, found, current⟩
  have two := (sound.inFlight second).mpr ⟨other, isOther, also⟩
  rw [one] at two
  cases two
  rw [found] at isOther
  cases isOther
  exact ⟨rfl, rfl⟩

theorem Sound.no_client (found : sessions.attempts[index]? = some attempt)
    (current : sessions.Current attempt) : sessions.client = none := by
  cases held : sessions.client with
  | none => rfl
  | some session =>
    have isSome : sessions.client.isSome = true := by rw [held]; rfl
    have inFlight := (sound.inFlight index).mpr ⟨attempt, found, current⟩
    rw [(sound.client isSome).1] at inFlight
    cases inFlight

theorem Sound.held_restaged (restages : sessions.Restages next attempt stage)
    (moved : ∀ session,
      (stage.session.toList ++ next.loose).count session + sessions.created.count session =
        (attempt.stage.session.toList ++ sessions.loose).count session +
          next.created.count session) :
    next.holders.Perm next.created := by
  obtain ⟨rest, before, after⟩ := filterMap_set attemptSession restages.found
    { attempt with stage }
  have held := sound.held
  rw [perm_iff_count] at before after held ⊢
  intro session
  have beforeCount := before session
  have afterCount := after session
  have heldCount := held session
  have movedCount := moved session
  simp only [holders, loose, restages.attempts, attemptSession, count_append] at *
  omega

theorem Sound.created_concat :
    sessions.created ++ [sessions.created.length] =
      List.range (sessions.created ++ [sessions.created.length]).length := by
  rw [length_append, length_singleton, range_succ, ← sound.created]

theorem Sound.unready (restages : sessions.Restages next attempt stage)
    (old : attempt.stage.Unready) (new : stage.Unready)
    (inFlight : next.inFlight = sessions.inFlight) (client : next.client = sessions.client)
    (dispose : next.disposeClient = sessions.disposeClient)
    (created : next.created = List.range next.created.length)
    (moved : ∀ session,
      (stage.session.toList ++ next.loose).count session + sessions.created.count session =
        (attempt.stage.session.toList ++ sessions.loose).count session +
          next.created.count session) : next.Sound := by
  refine sound.of_restaged restages old.1 new.1 inFlight created
    (sound.held_restaged restages moved) ?_ ?_ ?_
  · rw [client, inFlight, dispose]
    exact sound.client
  · rw [client, dispose]
    intro none session held
    obtain ⟨index, other, isOther, current, isReady⟩ := sound.waiting none session held
    refine ⟨index, other, restages.listed.mpr (.inr ⟨?_, isOther⟩),
      (restages.current other).mpr current, isReady⟩
    rintro rfl
    cases restages.found.symm.trans isOther
    exact old.2 session isReady
  · rw [dispose]
    intro index other session isOther current isReady
    obtain ⟨_, rfl⟩ | ⟨_, isOther⟩ := restages.listed.mp isOther
    · exact absurd isReady (new.2 session)
    · exact sound.ready index other session isOther ((restages.current other).mp current) isReady

section

variable (found : sessions.attempts[attempt.id]? = some attempt)
include found

theorem Sound.restage (old : attempt.stage.plain = true) (new : stage.plain = true) :
    (sessions.restaged attempt stage).Sound := by
  refine sound.unready ⟨found, rfl, rfl, rfl⟩ (plain_unready old)
    (plain_unready new) rfl rfl rfl sound.created ?_
  intro session
  rw [plain_session old, plain_session new]
  rfl

theorem Sound.create (old : attempt.stage.plain = true) :
    (restaged { sessions with created := sessions.created ++ [sessions.created.length] }
      attempt (.validating sessions.created.length)).Sound := by
  refine sound.unready ⟨found, rfl, rfl, rfl⟩ (plain_unready old) ⟨rfl, nofun⟩
    rfl rfl rfl sound.created_concat ?_
  rw [plain_session old]
  simp only [loose, restaged, session, toList_some, toList_none,
    nil_append, count_append]
  omega

variable {cause : κ}

theorem Sound.createLate (old : attempt.stage.plain = true) :
    (restaged { sessions with
      created := sessions.created ++ [sessions.created.length]
      disposed := sessions.disposed ++ [sessions.created.length] } attempt
      (.discarding cause)).Sound := by
  refine sound.unready ⟨found, rfl, rfl, rfl⟩ (plain_unready old) ⟨rfl, nofun⟩
    rfl rfl rfl sound.created_concat ?_
  rw [plain_session old]
  simp only [loose, restaged, session, toList_none, nil_append, count_append]
  omega

variable {session : Nat}

theorem Sound.discard (old : attempt.stage = .validating session) :
    (restaged { sessions with disposed := sessions.disposed ++ [session] } attempt
      (.discarding cause)).Sound := by
  have unready : attempt.stage.Unready := by
    rw [old]
    exact ⟨rfl, nofun⟩
  refine sound.unready ⟨found, rfl, rfl, rfl⟩ unready ⟨rfl, nofun⟩ rfl rfl rfl sound.created ?_
  simp only [loose, restaged, old, AttemptStage.session, toList_some,
    toList_none, nil_append, count_append]
  omega

theorem Sound.validated
    (old : attempt.stage = .validating session) (fresh : sessions.superseded attempt = false) :
    (restaged { sessions with disposeClient := some session } attempt
      (.settled (.ready session))).Sound := by
  have unfinished : attempt.stage.finish? = false := by
    rw [old]
    rfl
  have current : sessions.Current attempt := ⟨fresh, unfinished⟩
  have absent := sound.no_client found current
  have none : sessions.disposeClient = none := by
    cases kept : sessions.disposeClient with
    | none => rfl
    | some other =>
      obtain ⟨index, waiting, isWaiting, also, isReady⟩ := sound.waiting absent other kept
      obtain ⟨_, rfl⟩ := sound.unique found current isWaiting also
      rw [old] at isReady
      cases isReady
  have restages : sessions.Restages
      (restaged { sessions with disposeClient := some session } attempt (.settled (.ready session)))
      attempt (.settled (.ready session)) := ⟨found, rfl, rfl, rfl⟩
  refine sound.of_restaged restages unfinished rfl rfl sound.created ?_ ?_ ?_ ?_
  · refine sound.held_restaged restages ?_
    intro other
    simp only [loose, restaged, old, none, AttemptStage.session, toList_some,
      toList_none, nil_append, count_append]
  · intro isSome
    have held : sessions.client.isSome = true := isSome
    rw [absent] at held
    cases held
  · intro _ other same
    have equal : some session = some other := same
    cases equal
    exact ⟨attempt.id, _, restages.listed.mpr (.inl ⟨rfl, rfl⟩), ⟨fresh, rfl⟩, rfl⟩
  intro index other ready isOther also isReady
  obtain ⟨_, rfl⟩ | ⟨different, isOther⟩ := restages.listed.mp isOther
  · cases isReady
    rfl
  · exact absurd (sound.unique found current isOther also).1 different

end

theorem Sound.finished {outcome seen : Outcome κ}
    (restages : sessions.Restages next attempt (.finished outcome seen))
    (old : attempt.stage = .settled outcome)
    (inFlight : next.inFlight = if sessions.inFlight =
      some attempt.id then none else sessions.inFlight)
    (created : next.created = sessions.created)
    (dispose : next.disposeClient = sessions.disposeClient)
    (closing : next.closing = sessions.closing) (disposed : next.disposed = sessions.disposed)
    (client : next.client.isSome = true → next.inFlight = none ∧ next.disposeClient = next.client)
    (waiting : next.client = none → ∀ session, next.disposeClient = some session → ∃ (index : Nat)
      (other : Attempt κ), sessions.attempts[index]? = some other ∧ sessions.Current other ∧
      other.stage = .settled (.ready session) ∧ index ≠ attempt.id) :
    next.Sound where
  ids := fun index other isOther => (sound.restaged_ids restages index other isOther).1
  epochs := fun index other isOther => (sound.restaged_ids restages index other isOther).2
  created := created ▸ sound.created
  held := by
    refine sound.held_restaged restages ?_
    intro session
    rw [loose, old, dispose, closing, disposed, created]
    rfl
  inFlight := by
    intro index
    rw [inFlight]
    constructor
    · intro held
      split at held
      · cases held
      · rename_i differs
        obtain ⟨other, isOther, current⟩ := (sound.inFlight index).mp held
        refine ⟨other, restages.listed.mpr (.inr ⟨?_, isOther⟩),
          (restages.current other).mpr current⟩
        intro here
        exact differs (here ▸ held)
    · intro isCurrent
      obtain ⟨other, isOther, current⟩ := isCurrent
      obtain ⟨_, rfl⟩ | ⟨different, isOther⟩ := restages.listed.mp isOther
      · cases current.2
      · have held := (sound.inFlight index).mpr
          ⟨other, isOther, (restages.current other).mp current⟩
        rw [if_neg]
        · exact held
        · intro taken
          exact different (some.inj (held.symm.trans taken))
  client := client
  waiting := by
    intro none session held
    obtain ⟨index, other, isOther, current, isReady, different⟩ := waiting none session held
    exact ⟨index, other, restages.listed.mpr (.inr ⟨different, isOther⟩),
      (restages.current other).mpr current, isReady⟩
  ready := by
    intro index other session isOther current isReady
    rw [dispose]
    obtain ⟨_, rfl⟩ | ⟨_, isOther⟩ := restages.listed.mp isOther
    · cases isReady
    · exact sound.ready index other session isOther ((restages.current other).mp current) isReady

end

theorem Sound.begin (sound : sessions.Sound) (awaited : List Nat)
    (present : sessions.removed = false) (absent : sessions.client = none)
    (idle : sessions.inFlight = none) :
    Sound { sessions with
      inFlight := some sessions.attempts.length
      attempts := sessions.attempts ++
        [⟨sessions.attempts.length, sessions.epoch, .closing awaited⟩] } := by
  have alone : ∀ (index : Nat) (attempt : Attempt κ),
      sessions.attempts[index]? = some attempt → ¬sessions.Current attempt := by
    intro index attempt found current
    have held := (sound.inFlight index).mpr ⟨attempt, found, current⟩
    rw [idle] at held
    cases held
  refine ⟨?_, ?_, sound.created, ?_, ?_, ?_, ?_, ?_⟩
  · intro index attempt found
    obtain ⟨rfl, rfl⟩ | found := getElem?_concat_iff.mp found
    · rfl
    · exact sound.ids index attempt found
  · intro index attempt found
    obtain ⟨rfl, rfl⟩ | found := getElem?_concat_iff.mp found
    · exact le_refl _
    · exact sound.epochs index attempt found
  · have held := sound.held
    rw [holders] at held ⊢
    rw [filterMap_append]
    simp only [filterMap_cons, attemptSession, session, filterMap_nil, append_nil]
    exact held
  · intro index
    constructor
    · intro held
      cases held
      refine ⟨_, getElem?_concat_iff.mpr (.inl ⟨rfl, rfl⟩), ?_, rfl⟩
      rw [superseded, present]
      simp
    · intro isCurrent
      obtain ⟨attempt, found, current⟩ := isCurrent
      obtain ⟨rfl, _⟩ | found := getElem?_concat_iff.mp found
      · rfl
      · exact absurd current (alone index attempt found)
  · intro isSome
    have held : sessions.client.isSome = true := isSome
    rw [absent] at held
    cases held
  · intro _ session held
    obtain ⟨index, attempt, found, current, _⟩ := sound.waiting absent session held
    exact absurd current (alone index attempt found)
  · intro index attempt session found current isReady
    obtain ⟨_, rfl⟩ | found := getElem?_concat_iff.mp found
    · cases isReady
    · exact absurd current (alone index attempt found)

theorem Sound.move (sound : sessions.Sound) (moved : Move sessions next) : next.Sound := by
  cases moved with
  | invalidate | remove => exact sound.of_closed rfl rfl rfl rfl rfl rfl rfl rfl
  | begin awaited present absent idle => exact sound.begin awaited present absent idle
  | restage attempt stage found old new => exact sound.restage found old new
  | create attempt found old => exact sound.create found old
  | createLate attempt cause found old => exact sound.createLate found old
  | discard attempt session cause found old => exact sound.discard found old
  | validated attempt session found old fresh => exact sound.validated found old fresh
  | finish attempt outcome seen found old lost =>
    refine sound.finished ⟨found, rfl, rfl, rfl⟩ old rfl rfl rfl rfl rfl ?_ ?_
    · intro isSome
      obtain ⟨idle, same⟩ := sound.client isSome
      refine ⟨?_, same⟩
      simp only [restaged, idle]
      split
      · rfl
      · rfl
    intro none session held
    obtain ⟨index, other, isOther, current, isReady⟩ := sound.waiting none session held
    refine ⟨index, other, isOther, current, isReady, ?_⟩
    intro same
    subst same
    rw [found] at isOther
    cases isOther
    obtain late | ⟨cause, rejected⟩ := lost
    · rw [current.1] at late
      cases late
    · rw [old, rejected] at isReady
      cases isReady
  | connect attempt session found old fresh =>
    have unfinished : attempt.stage.finish? = false := by
      rw [old]
      rfl
    have current : sessions.Current attempt := ⟨fresh, unfinished⟩
    have held := (sound.inFlight attempt.id).mpr ⟨attempt, found, current⟩
    refine sound.finished ⟨found, rfl, rfl, rfl⟩ old rfl rfl rfl rfl rfl ?_ ?_
    · intro _
      simp only [restaged, held, if_true, true_and]
      exact sound.ready _ attempt session found current old
    · intro none
      cases none
  | disposeNext session rest chained =>
    refine ⟨sound.ids, sound.epochs, sound.created, ?_, sound.inFlight, sound.client,
      sound.waiting, sound.ready⟩
    have held := sound.held
    rw [perm_iff_count] at held ⊢
    intro other
    have heldCount := held other
    simp only [holders, chained, count_append, count_cons, count_nil] at heldCount ⊢
    omega
  | disposalDone =>
    exact ⟨sound.ids, sound.epochs, sound.created, sound.held, sound.inFlight,
      sound.client, sound.waiting, sound.ready⟩

theorem Sound.moves (sound : sessions.Sound) (moved : Moves sessions next) : next.Sound := by
  induction moved with
  | refl => exact sound
  | tail _ move ih => exact ih.move move

/-- The generation never goes back, and a client that was not there before is of a later
one. -/
def Succeeds (sessions next : Sessions κ) : Prop :=
  sessions.generation ≤ next.generation ∧
    (next.client.isSome = true → next.client ≠ sessions.client →
      sessions.generation < next.generation)

theorem Succeeds.trans {first second third : Sessions κ}
    (before : first.Succeeds second) (after : second.Succeeds third) :
    first.Succeeds third := by
  refine ⟨le_trans before.1 after.1, ?_⟩
  intro isSome different
  by_cases same : third.client = second.client
  · rw [same] at isSome different
    exact lt_of_lt_of_le (before.2 isSome different) after.1
  · exact lt_of_le_of_lt before.1 (after.2 isSome same)

theorem Move.succeeds (moved : Move sessions next) : sessions.Succeeds next := by
  have kept : ∀ {next : Sessions κ}, next.generation = sessions.generation →
      next.client = sessions.client ∨ next.client = none → sessions.Succeeds next := by
    intro next generation client
    refine ⟨le_of_eq generation.symm, ?_⟩
    intro isSome different
    obtain same | none := client
    · exact absurd same different
    · rw [none] at isSome
      cases isSome
  cases moved with
  | connect attempt session found old fresh =>
    exact ⟨le_succ _, fun _ _ => lt_succ_self _⟩
  | invalidate | remove => exact kept rfl (.inr rfl)
  | begin awaited present absent idle
  | restage attempt stage found old new
  | create attempt found old
  | createLate attempt cause found old
  | discard attempt session cause found old
  | validated attempt session found old fresh
  | finish attempt outcome seen found old lost
  | disposeNext session rest chained | disposalDone => exact kept rfl (.inl rfl)

theorem Moves.succeeds (moved : Moves sessions next) : sessions.Succeeds next := by
  induction moved with
  | refl => exact ⟨le_refl _, fun _ different => absurd rfl different⟩
  | tail _ move ih => exact ih.trans move.succeeds

end Sessions

end Zuse.Client
