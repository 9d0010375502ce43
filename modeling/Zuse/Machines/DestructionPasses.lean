import Zuse.Machines.RecordEdits

namespace Zuse.Machines

open MemoryState

open Data (Script)

section Rules

variable {base machine result : MachinePersistenceRecord} {world : MachineWorld}

structure Ready (base result : MachinePersistenceRecord) (world : MachineWorld) : Prop where
  knows : world.Knows base
  edits : base.Edits result
  becomes : world.store.getMachine base.machineId = some base →
    base.Becomes world.deletedUsers result ∧ result.Settled

def Yields (script : MachineScript MachinePersistenceRecord) (world : MachineWorld) : Prop :=
  script.Keeps machineService destructionConduct
    (fun result later => ∃ base, Ready base result later) world

theorem Ready.later {before after : MachineWorld} (ready : Ready base result before)
    (persists : before.Persists after) : Ready base result after where
  knows := ready.knows.later persists.follows
  edits := ready.edits
  becomes := by
    intro current
    obtain ⟨becomes, settled⟩ :=
      ready.becomes (ready.knows.earlier persists.follows current)
    exact ⟨becomes.trans (.refl result) persists.deletedUsers, settled⟩

theorem Yields.done (knows : world.Knows base) (edits : base.Edits result)
    (becomes : base.Becomes world.deletedUsers result ∧ result.Settled) :
    Yields (pure result) world :=
  ⟨base, knows, edits, fun _ => becomes⟩

variable {request : MachineCall}

theorem MachineWorld.Sound.left (sound : world.Sound) (reads : request.writesMachines = false)
    (answer : Answer) :
    world.Persists (machineService request answer world).2 ∧
      (machineService request answer world).2.Sound := by
  obtain ⟨machines, users⟩ := machineService_leaves reads answer world
  have same := getMachine_congr machines
  exact ⟨.of_same same users, sound.of_same same⟩

theorem keeps_read {α : Type} {post : α → MachineWorld → Prop}
    {rest : request.Reply → MachineScript α} (reads : request.writesMachines = false)
    (next : ∀ answer later, world.Persists later → AdmitsDeletion later request answer →
      world.Persists (machineService request answer later).2 →
        (rest (machineService request answer later).1).Keeps machineService destructionConduct
          post (machineService request answer later).2) :
    (ask request >>= rest).Keeps machineService destructionConduct post world := by
  intro later persists sound answer admitted
  obtain ⟨changed, still⟩ := sound.left reads answer
  exact ⟨changed, still, next answer later persists admitted (persists.trans changed)⟩

theorem keeps_ask {α : Type} {post : α → MachineWorld → Prop}
    {rest : request.Reply → MachineScript α} (reads : request.writesMachines = false)
    (next : ∀ reply later, world.Persists later →
      (rest reply).Keeps machineService destructionConduct post later) :
    (ask request >>= rest).Keeps machineService destructionConduct post world :=
  keeps_read reads fun _ _ _ _ persists => next _ _ persists

theorem Yields.read {rest : request.Reply → MachineScript MachinePersistenceRecord}
    (reads : request.writesMachines = false) (knows : world.Knows base)
    (next : ∀ reply later, later.Knows base → Yields (rest reply) later) :
    Yields (ask request >>= rest) world :=
  keeps_ask reads fun reply later persists => next reply later (knows.later persists.follows)

theorem Yields.asks : Asks (fun world => world.Knows base) Yields :=
  fun leaves => .read (leavesServers_reads leaves)

end Rules

variable {owner : String} {result : MachinePersistenceRecord}

section Writes

variable {α : Type} {post : α → MachineWorld → Prop}
  {base updated : MachinePersistenceRecord} {world : MachineWorld}

def MachinePersistenceRecord.writtenOver (updated base : MachinePersistenceRecord)
    (leaseOwner : Option String) (leaseExpiresAtMs : Option Int) : MachinePersistenceRecord :=
  { updated with leaseOwner, leaseExpiresAtMs, revision := base.revision + 1 }

theorem MachineWorld.Sound.rewritten (sound : world.Sound)
    (found : world.store.getMachine base.machineId = some base)
    (becomes : base.Becomes world.deletedUsers updated) (settled : updated.Settled)
    (leaseOwner : Option String) (leaseExpiresAtMs : Option Int) :
    let written := updated.writtenOver base leaseOwner leaseExpiresAtMs
    let after := world.withStore (world.store.putMachine written)
    world.Persists after ∧ after.Sound ∧ after.store.getMachine base.machineId = some written := by
  intro written after
  have here : written.machineId = base.machineId := becomes.machineId
  have stored : MemoryState.Puts written world.store after.store :=
    world.store.getMachine_putMachine written
  have found : world.store.getMachine written.machineId = some base := by
    rw [here]
    exact found
  have becoming : base.Becomes world.deletedUsers written :=
    ⟨becomes.machineId, becomes.accountId, becomes.doomed, becomes.absorbed, becomes.identity⟩
  obtain ⟨persists, still⟩ := sound.replaced found stored rfl rfl becoming
    ⟨settled.doomed, settled.destroyed⟩
  refine ⟨persists, still, ?_⟩
  rw [stored, if_pos here]

variable {rest : Bool → MachineScript α}

theorem keeps_compareAndSet (knows : world.Knows base)
    (machineId : updated.machineId = base.machineId)
    (becomes : ∀ later, world.Persists later →
      later.store.getMachine base.machineId = some base →
        base.Becomes later.deletedUsers updated ∧ updated.Settled)
    (refused : ∀ later, world.Persists later →
      (rest false).Keeps machineService destructionConduct post later)
    (saved : ∀ later, later.store.getMachine base.machineId =
        some { updated with revision := base.revision + 1 } → world.Persists later →
      (rest true).Keeps machineService destructionConduct post later) :
    (ask (.compareAndSetMachine updated base.revision) >>= rest).Keeps machineService
      destructionConduct post world := by
  intro later persists sound answer _
  obtain replied | ⟨stored, found, same, replied⟩ :=
    compareAndSetMachine_replies updated base.revision answer later
  · obtain ⟨same, still⟩ := sound.refused
    rw [replied]
    exact ⟨same, still, refused _ (persists.trans same)⟩
  rw [machineId] at found
  rw [(knows.later persists.follows).stored found same] at found
  obtain ⟨becomes, settled⟩ := becomes later persists found
  obtain ⟨changed, still, present⟩ :=
    MachineWorld.Sound.rewritten sound found becomes settled updated.leaseOwner
      updated.leaseExpiresAtMs
  rw [replied]
  exact ⟨changed, still, saved _ present (persists.trans changed)⟩

theorem keeps_saveReconciled
    (ready : Ready base result world) (finished : ∀ saved later, world.Persists later →
      (rest saved).Keeps machineService destructionConduct post later) :
    (ask (.saveReconciledMachine result owner result.revision) >>= rest).Keeps machineService
      destructionConduct post world := by
  intro later persists sound answer _
  have ready := ready.later persists
  obtain replied | ⟨stored, found, same, replied⟩ :=
    saveReconciledMachine_replies result owner result.revision answer later
  · obtain ⟨same, still⟩ := sound.refused
    rw [replied]
    exact ⟨same, still, finished false _ (persists.trans same)⟩
  rw [ready.edits.machineId] at found
  rw [ready.edits.revision] at same
  rw [ready.knows.stored found same] at found
  obtain ⟨becomes, settled⟩ := ready.becomes found
  obtain ⟨changed, still, _⟩ :=
    MachineWorld.Sound.rewritten sound found becomes settled none none
  rw [replied, ready.edits.revision]
  exact ⟨changed, still, finished true _ (persists.trans changed)⟩

end Writes

section Alive

variable {sha256Hex : String → String} {config : MachineControlConfig}
  {machine : MachinePersistenceRecord} {nowMs : Int} {world : MachineWorld}

structure Alive (machine : MachinePersistenceRecord) (world : MachineWorld) : Prop where
  knows : world.Knows machine
  settled : machine.Settled
  wanted : machine.desiredState ≠ .destroyed

section

variable (alive : Alive machine world)
include alive

theorem Alive.standing : machine.state ≠ .destroyed :=
  fun destroyed => alive.wanted (alive.settled.destroyed destroyed)

theorem Alive.done (tends : machine.Tends result) (standing : result.state ≠ .destroyed) :
    Yields (pure result) world :=
  .done alive.knows tends.toEdits (tends.alive alive.settled alive.wanted standing)

theorem Alive.failed (error : MachineProviderError) :
    Yields (pure (machine.withProviderFailure nowMs error)) world :=
  alive.done (machine.withProviderFailure_tends nowMs error)
    (machine.withProviderFailure_ne_destroyed error alive.standing)

theorem Alive.later {later : MachineWorld} (knows : later.Knows machine) : Alive machine later :=
  ⟨knows, alive.settled, alive.wanted⟩

end

section

variable (alive : Alive machine world)
include alive

theorem createServer_yields (offer : MachineOffer) :
    Yields (createServer sha256Hex config machine nowMs offer) world := by
  refine Yields.read rfl alive.knows ?_
  intro enrollmentToken later knows
  have alive := alive.later knows
  have tends : machine.Tends (machine.withEnrollmentToken nowMs (sha256Hex enrollmentToken)
      config.enrollmentTtlMs) := ⟨⟨rfl, rfl, rfl⟩, rfl, rfl⟩
  refine keeps_compareAndSet alive.knows rfl ?_ ?_ ?_
  · intro latest _ _
    exact tends.alive alive.settled alive.wanted alive.standing
  · intro latest persists
    exact (alive.later (alive.knows.later persists.follows)).done (.refl machine) alive.standing
  intro latest present _
  have persisted : Alive { machine.withEnrollmentToken nowMs (sha256Hex enrollmentToken)
      config.enrollmentTtlMs with revision := machine.revision + 1 } latest :=
    ⟨.of_get present, ⟨alive.settled.doomed, alive.settled.destroyed⟩, alive.wanted⟩
  refine Yields.read rfl persisted.knows ?_
  intro createdResult last knows
  have persisted := persisted.later knows
  cases createdResult with
  | error failure => exact persisted.failed failure
  | ok created =>
    refine persisted.done ⟨⟨rfl, rfl, rfl⟩, rfl, rfl⟩ ?_
    intro destroyed
    cases destroyed

theorem recoverServer_yields : Yields (recoverServer sha256Hex config machine nowMs) world := by
  unfold recoverServer
  split
  · exact alive.done ⟨⟨rfl, rfl, rfl⟩, rfl, rfl⟩ nofun
  rename_i offer _
  refine Yields.read rfl alive.knows ?_
  intro recoveredResult later knows
  have alive := alive.later knows
  cases recoveredResult with
  | error failure => exact alive.failed failure
  | ok recovered =>
    cases recovered with
    | none => exact createServer_yields alive offer
    | some recovered =>
      exact alive.done ⟨⟨rfl, rfl, rfl⟩, rfl, rfl⟩ nofun

theorem Alive.unmoved (tends : machine.Tends result) (state : result.state = machine.state) :
    Yields (pure result) world :=
  alive.done tends (by rw [state]; exact alive.standing)

theorem Alive.restating {script : MachineScript MachinePersistenceRecord}
    (restating : Restating machine script) : Yields script world := by
  have keeps : script.Keeps machineService destructionConduct
      (fun result last => ∃ known : List MachinePersistenceRecord,
        (∀ base ∈ known, Alive base last) ∧
        ∃ base ∈ known, Restates base result) world := by
    refine restating.keeps (fun alive persists => ?_) ?_ ?_
    · exact alive.later (alive.knows.later persists.follows)
    · intro request known state answer sound _ leaves _
      obtain ⟨changed, still⟩ := sound.left (leavesServers_reads leaves) answer
      exact ⟨changed, still, by intro item none; cases none⟩
    · intro base member
      rw [List.mem_singleton.mp member]
      exact alive
  refine keeps.mono ?_
  rintro result last ⟨known, alive, base, member, restates⟩
  have alive := alive base member
  exact alive.done restates.tends fun destroyed => alive.standing (restates.state destroyed)

theorem reconcileReadyTarget_yields :
    Yields (reconcileReadyTarget sha256Hex config machine nowMs) world := by
  by_cases awaits : machine.awaitsServer = true
  · unfold reconcileReadyTarget
    rw [if_pos awaits]
    exact recoverServer_yields alive
  · exact alive.restating (reconcileReadyTarget_restates awaits)

end

theorem MachinePersistenceRecord.requestMachineDestruction_becomes {deletedUsers : List String}
    (standing : machine.state ≠ .destroyed) (accountDeletionRequestedAtMs : Option Int)
    (kept : accountDeletionRequestedAtMs.isSome ∨
      accountDeletionRequestedAtMs = machine.accountDeletionRequestedAtMs) :
    machine.Becomes deletedUsers
        (machine.requestMachineDestruction nowMs accountDeletionRequestedAtMs) ∧
      (machine.requestMachineDestruction nowMs accountDeletionRequestedAtMs).Settled := by
  refine ⟨⟨rfl, rfl, fun _ => rfl, fun destroyed => absurd destroyed standing, ?_⟩,
    fun _ => .inl rfl, fun _ => rfl⟩
  intro requested cleared
  cases kept with
  | inl still =>
    rw [show accountDeletionRequestedAtMs = none from cleared] at still
    cases still
  | inr same => exact MachinePersistenceRecord.Becomes.identity_kept same requested cleared

theorem reconcileSuspendedTarget_yields (alive : Alive machine world) :
    Yields (reconcileSuspendedTarget sha256Hex config machine nowMs) world := by
  unfold reconcileSuspendedTarget
  split
  · split
    · exact .done alive.knows ⟨rfl, rfl, rfl⟩
        (machine.requestMachineDestruction_becomes alive.standing _ (.inr rfl))
    · exact alive.done ⟨⟨rfl, rfl, rfl⟩, rfl, rfl⟩ nofun
  refine Asks.cancelSubscription Yields.asks alive.knows ?_
  intro cancelled later knows
  have alive := alive.later knows
  split
  · exact alive.unmoved ⟨⟨rfl, rfl, rfl⟩, rfl, rfl⟩ rfl
  · split
    · exact reconcileReadyTarget_yields alive
    · exact alive.restating suspendServer_restates

end Alive

section Doomed

variable {config : MachineControlConfig} {base machine : MachinePersistenceRecord}
  {nowMs : Int} {world : MachineWorld}

structure Doomed (base machine : MachinePersistenceRecord) (world : MachineWorld) : Prop where
  knows : world.Knows base
  settled : base.Settled
  doomed : base.desiredState = .destroyed
  standing : base.state ≠ .destroyed
  tends : base.Tends machine
  state : machine.state = base.state

section

variable (doomed : Doomed base machine world)
include doomed

theorem Doomed.later {later : MachineWorld}
    (knows : later.Knows base) : Doomed base machine later :=
  ⟨knows, doomed.settled, doomed.doomed, doomed.standing, doomed.tends, doomed.state⟩

theorem Doomed.remains :
    machine.state = .destroying ∨ machine.state = .failed ∨ machine.state = .destroyed := by
  rw [doomed.state]
  exact doomed.settled.doomed doomed.doomed

theorem Doomed.done (tends : machine.Tends result)
    (state : result.state = .destroying ∨ result.state = .failed ∨
      result.state = .destroyed) : Yields (pure result) world :=
  .done doomed.knows (doomed.tends.trans tends).toEdits
    ((doomed.tends.trans tends).doomed doomed.doomed doomed.standing state)

end

theorem doomed_doom : Dooms (fun machine world => Doomed base machine world) Yields where
  asks := fun _ _ _ _ leaves doomed next =>
    Yields.asks leaves doomed.knows fun reply later knows =>
      next reply later (doomed.later knows)
  edit := fun doomed restates state =>
    ⟨doomed.knows, doomed.settled, doomed.doomed, doomed.standing,
      doomed.tends.trans restates.tends, state.trans doomed.state⟩
  done := by
    intro machine result world doomed restates state
    refine doomed.done restates.tends ?_
    obtain destroying | failed | same := state
    · exact .inl destroying
    · exact .inr (.inl failed)
    · rw [same]
      exact doomed.remains

theorem deleteAccountIdentity_yields {draft : MachinePersistenceRecord}
    {rest : IdentityDeletion → MachineScript MachinePersistenceRecord}
    (knows : world.Knows base)
    (next : ∀ identity later, later.Knows base →
      (identity = .deleted → draft.accountId ∈ later.deletedUsers) → Yields (rest identity) later) :
    Yields (deleteAccountIdentityWhenInfrastructureIsClean draft >>= rest) world := by
  apply Script.Keeps.bind
  refine keeps_ask rfl ?_
  intro machines later persists
  have knows := knows.later persists.follows
  dsimp only
  split
  · exact next .deferred _ knows nofun
  refine keeps_ask rfl ?_
  intro entitlements latest persists
  have knows := knows.later persists.follows
  split
  · exact next .deferred _ knows nofun
  refine keeps_read rfl ?_
  intro answer last _ _ persists
  refine next _ _ (knows.later persists.follows) ?_
  intro deleted
  cases failed : answer.error with
  | none => simp [machineService, Answer.takesEffect, failed]
  | some failure =>
    simp only [machineService, failed, Option.isNone_some, Bool.false_eq_true, if_false] at deleted
    cases deleted

section

variable (doomed : Doomed base machine world)
include doomed

theorem Doomed.destroyed (deferred : Bool)
    (cleared : deferred = true ∨ machine.accountDeletionRequestedAtMs = none ∨
      machine.accountId ∈ world.deletedUsers) :
    Yields (pure (machine.asDestroyed nowMs deferred)) world := by
  have still : (machine.asDestroyed nowMs deferred).desiredState = .destroyed :=
    doomed.tends.desiredState.trans doomed.doomed
  refine .done doomed.knows ⟨doomed.tends.machineId, doomed.tends.accountId,
    doomed.tends.revision⟩ ⟨⟨doomed.tends.machineId, doomed.tends.accountId, fun _ => still,
    fun _ => rfl, ?_⟩, fun _ => .inr (.inr rfl), fun _ => still⟩
  intro requested gone
  have same := doomed.tends.accountDeletionRequestedAtMs
  obtain rfl | absent | deleted := cleared
  · exact MachinePersistenceRecord.Becomes.identity_kept same requested gone
  · rw [← same, absent] at requested
    cases requested
  · rw [← doomed.tends.accountId]
    exact deleted

theorem finishDestruction_yields : Yields (finishDestruction machine nowMs) world := by
  unfold finishDestruction
  split
  · rename_i absent
    exact doomed.destroyed false (.inr (.inl absent))
  refine deleteAccountIdentity_yields doomed.knows ?_
  intro identity later knows deleted
  have doomed := doomed.later knows
  cases identity with
  | failed => exact doomed.done ⟨⟨rfl, rfl, rfl⟩, rfl, rfl⟩ (.inl rfl)
  | deferred => exact doomed.destroyed true (.inl rfl)
  | deleted => exact doomed.destroyed false (.inr (.inr (deleted rfl)))

theorem deleteServer_yields : Yields (deleteServer machine nowMs) world := by
  unfold deleteServer
  split
  · exact finishDestruction_yields doomed
  refine Yields.read rfl doomed.knows ?_
  intro deleted later knows
  have doomed := doomed.later knows
  cases deleted with
  | error failure => exact doomed_doom.failed doomed failure
  | ok done => exact finishDestruction_yields doomed

end

end Doomed

section Gone

variable {base machine : MachinePersistenceRecord} {nowMs : Int} {world : MachineWorld}

structure Gone (base machine : MachinePersistenceRecord) (world : MachineWorld) : Prop where
  knows : world.Knows base
  settled : base.Settled
  destroyed : base.state = .destroyed
  edits : base.Edits machine
  desiredState : machine.desiredState = base.desiredState
  state : machine.state = base.state
  attemptCount : machine.attemptCount = base.attemptCount
  finalSnapshotId : machine.finalSnapshotId = base.finalSnapshotId
  identity : machine.accountDeletionRequestedAtMs = base.accountDeletionRequestedAtMs ∨
    base.accountId ∈ world.deletedUsers

section

variable (gone : Gone base machine world)
include gone

theorem Gone.later {later : MachineWorld}
    (persists : world.Persists later) : Gone base machine later where
  knows := gone.knows.later persists.follows
  settled := gone.settled
  destroyed := gone.destroyed
  edits := gone.edits
  desiredState := gone.desiredState
  state := gone.state
  attemptCount := gone.attemptCount
  finalSnapshotId := gone.finalSnapshotId
  identity := gone.identity.imp_right fun deleted => persists.deletedUsers deleted

theorem Gone.becomes (tends : machine.Tends result) (state : result.state = machine.state) :
    base.Becomes world.deletedUsers result ∧ result.Settled := by
  have doomed : result.desiredState = .destroyed :=
    (tends.desiredState.trans gone.desiredState).trans (gone.settled.destroyed gone.destroyed)
  have destroyed : result.state = .destroyed :=
    (state.trans gone.state).trans gone.destroyed
  refine ⟨⟨tends.machineId.trans gone.edits.machineId,
    tends.accountId.trans gone.edits.accountId, fun _ => doomed, fun _ => destroyed, ?_⟩,
    fun _ => .inr (.inr destroyed), fun _ => doomed⟩
  cases gone.identity with
  | inl same =>
    exact MachinePersistenceRecord.Becomes.identity_kept
      (tends.accountDeletionRequestedAtMs.trans same)
  | inr deleted => exact fun _ _ => deleted

theorem Gone.done (tends : machine.Tends result) (state : result.state = machine.state) :
    Yields (pure result) world :=
  .done gone.knows
    ⟨tends.machineId.trans gone.edits.machineId, tends.accountId.trans gone.edits.accountId,
      tends.revision.trans gone.edits.revision⟩
    (gone.becomes tends state)

theorem expireFinalSnapshot_yields : Yields (expireFinalSnapshot machine nowMs) world := by
  unfold expireFinalSnapshot
  split
  · exact gone.done (.refl machine) rfl
  rename_i snapshotId kept
  split
  · refine keeps_read rfl ?_
    intro answer later _ admitted persists
    have gone := gone.later persists
    cases failed : answer.error with
    | none =>
      simp only [machineService, Answer.result, failed]
      exact gone.done ⟨⟨rfl, rfl, rfl⟩, rfl, rfl⟩ rfl
    | some failure =>
      simp only [machineService, Answer.result, failed]
      obtain ⟨accepted, few⟩ := admitted failure failed
      have tends := machine.withProviderFailure_tends nowMs failure
      refine ⟨base, gone.knows, ⟨tends.machineId.trans gone.edits.machineId,
        tends.accountId.trans gone.edits.accountId,
        tends.revision.trans gone.edits.revision⟩, ?_⟩
      intro current
      have attempts := few base (mem_of_getMachine current) (gone.finalSnapshotId.symm.trans kept)
      rw [← gone.attemptCount] at attempts
      exact gone.becomes tends
        (MachinePersistenceRecord.withProviderFailure_retries attempts accepted)
  · exact gone.done (.refl machine) rfl

end

theorem reconcileDestroyed_yields (knows : world.Knows machine) (settled : machine.Settled)
    (destroyed : machine.state = .destroyed) :
    Yields (reconcileDestroyed machine nowMs) world := by
  have gone : ∀ {later : MachineWorld}, later.Knows machine → Gone machine machine later :=
    fun knows => ⟨knows, settled, destroyed, ⟨rfl, rfl, rfl⟩, rfl, rfl, rfl, rfl, .inl rfl⟩
  unfold reconcileDestroyed
  split
  · exact expireFinalSnapshot_yields (gone knows)
  refine deleteAccountIdentity_yields knows ?_
  intro identity later knows deleted
  cases identity with
  | failed | deferred => exact (gone knows).done ⟨⟨rfl, rfl, rfl⟩, rfl, rfl⟩ rfl
  | deleted =>
    exact expireFinalSnapshot_yields ⟨knows, settled, destroyed, ⟨rfl, rfl, rfl⟩, rfl,
      rfl, rfl, rfl, .inr (deleted rfl)⟩

end Gone

section Passes

variable {sha256Hex : String → String} {config : MachineControlConfig}
  {machine : MachinePersistenceRecord} {nowMs : Int} {world : MachineWorld}

theorem reconcileOne_yields (knows : world.Knows machine) (settled : machine.Settled) :
    Yields (reconcileOne sha256Hex config machine nowMs) world := by
  refine Yields.read rfl knows ?_
  intro selected later knows
  by_cases doomed : machine.desiredState = .destroyed
  · split
    · by_cases destroyed : machine.state = .destroyed
      · exact Gone.done ⟨knows, settled, destroyed, ⟨rfl, rfl, rfl⟩, rfl, rfl, rfl, rfl,
          .inl rfl⟩ ⟨⟨rfl, rfl, rfl⟩, rfl, rfl⟩ rfl
      · exact Doomed.done ⟨knows, settled, doomed, destroyed, .refl machine, rfl⟩
          ⟨⟨rfl, rfl, rfl⟩, rfl, rfl⟩ (settled.doomed doomed)
    · rw [doomed]
      dsimp only
      unfold reconcileDestroyedTarget
      split
      · rename_i destroyed
        exact reconcileDestroyed_yields knows settled destroyed
      · rename_i standing
        exact doomed_doom.destroys deleteServer_yields
          ⟨knows, settled, doomed, standing, .refl machine, rfl⟩
  · have alive : Alive machine later := ⟨knows, settled, doomed⟩
    split
    · exact alive.unmoved ⟨⟨rfl, rfl, rfl⟩, rfl, rfl⟩ rfl
    · split
      · exact reconcileReadyTarget_yields alive
      · exact reconcileSuspendedTarget_yields alive
      · rename_i wanted
        exact absurd wanted doomed

theorem reconcileClaimed_keeps {claimed : List MachinePersistenceRecord}
    (known : ∀ machine ∈ claimed, world.Knows machine ∧ machine.Settled) :
    (reconcileClaimed sha256Hex config claimed owner nowMs).Keeps machineService
      destructionConduct (fun _ _ => True) world := by
  have lasts : ∀ {machine : MachinePersistenceRecord} {first second : MachineWorld},
      first.Knows machine ∧ machine.Settled → first.Persists second →
        second.Knows machine ∧ machine.Settled :=
    fun known changed => ⟨known.1.later changed.follows, known.2⟩
  refine Script.Keeps.forEach MachineWorld.Persists.trans MachineWorld.Persists.refl @lasts ?_
    known
  rintro machine later ⟨knows, settled⟩
  have yields : Yields (reconcileOne sha256Hex config machine nowMs) later :=
    reconcileOne_yields knows settled
  apply Script.Keeps.bind
  exact yields.mono fun _ _ ⟨_, ready⟩ => keeps_saveReconciled ready fun _ _ _ => trivial

theorem claims_keeps {claimed : List MachinePersistenceRecord} {next : MachineWorld}
    (claims : MemoryState.Claims world ⟨nowMs, owner, config.reconcileLeaseMs⟩ claimed next)
    (sound : world.Sound) :
    world.Persists next ∧ next.Sound ∧
      (reconcileClaimed sha256Hex config claimed owner nowMs).Keeps machineService
        destructionConduct (fun _ _ => True) next := by
  cases claims with
  | none =>
    obtain ⟨same, still⟩ := sound.refused
    refine ⟨same, still, reconcileClaimed_keeps ?_⟩
    exact List.forall_mem_nil _
  | one found =>
    have settled := sound.settled _ _ found
    obtain ⟨persists, still, present⟩ := MachineWorld.Sound.rewritten sound found
      (MachinePersistenceRecord.Becomes.refl _) settled (some owner)
      (some (nowMs + config.reconcileLeaseMs))
    refine ⟨persists, still, reconcileClaimed_keeps ?_⟩
    intro other member
    rw [List.mem_singleton.mp member]
    exact ⟨.of_get present, ⟨settled.doomed, settled.destroyed⟩⟩

theorem reconcileMachine_keeps (machineId owner : String) :
    (reconcileMachine sha256Hex config machineId owner nowMs).Keeps machineService
      destructionConduct (fun _ _ => True) world := by
  intro later persists sound answer _
  exact claims_keeps (MemoryState.claimMachine_claims sound.keyed _ answer machineId) sound

theorem reconcileMachines_keeps (owner : String) :
    (reconcileMachines sha256Hex config owner nowMs).Keeps machineService
      destructionConduct (fun _ _ => True) world := by
  intro later persists sound answer _
  exact claims_keeps (MemoryState.claimDueMachine_claims sound.keyed _ answer) sound

end Passes

end Zuse.Machines
