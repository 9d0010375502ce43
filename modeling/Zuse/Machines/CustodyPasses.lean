import Zuse.Machines.RecordEdits

namespace Zuse.Machines

open Data (Script)
open List MachineWorld Int Custody MemoryState
open MachinePersistenceRecord (failsForGood awaitsCreation_of_same
  withProviderFailure_ne_destroyed awaitsCreation_creating awaitsServer awaitsCreation_wants
  wantsReady)
open MachineWorld.Custody (narrowed proceeds_refl)

section Records

variable {world before after : MachineWorld} {base result : MachinePersistenceRecord}

structure Recalls (world : MachineWorld) (base : MachinePersistenceRecord) : Prop where
  knows : world.Knows base
  label : ∀ stored, world.store.getMachine base.machineId = some stored →
    stored.providerLabel = base.providerLabel ∧ stored.offerId = base.offerId
  gone : base.state = .destroyed → base.providerServerId = none

structure Carries (base result : MachinePersistenceRecord) : Prop where
  machineId : result.machineId = base.machineId
  providerLabel : result.providerLabel = base.providerLabel
  offerId : result.offerId = base.offerId
  revision : result.revision = base.revision

theorem Restates.carries (restates : Restates base result) : Carries base result :=
  ⟨restates.tends.machineId, restates.providerLabel, restates.offerId, restates.tends.revision⟩

theorem Carries.trans {machine : MachinePersistenceRecord} (first : Carries base machine)
    (second : Carries machine result) : Carries base result :=
  ⟨second.machineId.trans first.machineId, second.providerLabel.trans first.providerLabel,
    second.offerId.trans first.offerId, second.revision.trans first.revision⟩

/-- The written record names the same server, and waits for one where the other did. -/
structure Waits (world : MachineWorld) (base result : MachinePersistenceRecord) : Prop where
  providerServerId : result.providerServerId = base.providerServerId
  awaits : ∀ nowMs, world.nowMs ≤ nowMs → base.awaitsCreation nowMs = true →
    result.awaitsCreation nowMs = true

/-- No server can appear any more, and the written record names the one there is. -/
structure Closes (world : MachineWorld) (base result : MachinePersistenceRecord) : Prop where
  closed : ¬world.Opens base
  names : ∀ server ∈ world.servers, server.providerLabel = base.providerLabel → result.names server

structure Hands (world : MachineWorld) (base result : MachinePersistenceRecord) : Prop where
  recalls : Recalls world base
  carries : Carries base result
  gone : result.state = .destroyed → result.providerServerId = none
  covers : Waits world base result ∨ (world.Stored base → Closes world base result)

theorem Recalls.later (recalls : Recalls before base) (proceeds : before.Proceeds after) :
    Recalls after base where
  knows := recalls.knows.later proceeds.follows
  label := by
    intro last present
    obtain ⟨stored, found, _, _⟩ := recalls.knows
    obtain ⟨label, offer⟩ := recalls.label stored found
    obtain ⟨later, later'⟩ :=
      proceeds.providerLabel base.machineId stored last found present
    exact ⟨later.trans label, later'.trans offer⟩
  gone := recalls.gone

theorem MachineWorld.Custody.recalls (custody : world.Custody) (stored : world.Stored base) :
    Recalls world base where
  knows := .of_get stored
  label := by
    intro other present
    cases stored.symm.trans present
    exact ⟨rfl, rfl⟩
  gone := custody.gone base stored

theorem Closes.later (recalls : Recalls before base) (proceeds : before.Proceeds after)
    (closes : before.Stored base → Closes before base result) :
    after.Stored base → Closes after base result := by
  intro present
  have found : before.Stored base := recalls.knows.earlier proceeds.follows present
  obtain ⟨closed, names⟩ := closes found
  refine ⟨fun opens => closed (opens.earlier proceeds.nowMs proceeds.decided), ?_⟩
  intro server member label
  by_cases old : server ∈ before.servers
  · exact names server old label
  · exact absurd (proceeds.created server member old base found present label) closed

theorem Hands.later (hands : Hands before base result) (proceeds : before.Proceeds after) :
    Hands after base result where
  recalls := hands.recalls.later proceeds
  carries := hands.carries
  gone := hands.gone
  covers := by
    cases hands.covers with
    | inl waits =>
      exact .inl ⟨waits.providerServerId, fun nowMs later =>
        waits.awaits nowMs (le_trans proceeds.nowMs later)⟩
    | inr closes => exact .inr (Closes.later hands.recalls proceeds closes)

theorem MachineWorld.Custody.covers_of_waits (custody : world.Custody)
    (stored : world.Stored base) (waits : Waits world base result)
    (label : result.providerLabel = base.providerLabel) : world.Covers result := by
  intro server member owned
  cases custody.covered base stored server member (owned.trans label) with
  | inl named => exact .inl (waits.providerServerId.trans named)
  | inr awaits => exact .inr (waits.awaits world.nowMs (le_refl _) awaits)

theorem Hands.covered (hands : Hands world base result) (custody : world.Custody)
    (stored : world.Stored base) : world.Covers result := by
  cases hands.covers with
  | inl waits => exact custody.covers_of_waits stored waits hands.carries.providerLabel
  | inr closes =>
    intro server member owned
    exact .inl ((closes stored).names server member (owned.trans hands.carries.providerLabel))

end Records

variable {owner : String}

section Rules

variable {α : Type} {post : α → MachineWorld → Prop} {operation : MachineOperation}
  {world : MachineWorld} {base updated result : MachinePersistenceRecord}

def HandsOver (operation : MachineOperation)
    (script : MachineScript MachinePersistenceRecord) (world : MachineWorld) : Prop :=
  script.Keeps machineService (custodyRegime.conduct operation)
    (fun result later => ∃ base, Hands later base result) world

variable {request : MachineCall}

theorem machineService_servers (leaves : request.leavesServers = true)
    (answer : Answer) (world : MachineWorld) :
    let after := (machineService request answer world).2
    (∀ machineId, after.store.getMachine machineId = world.store.getMachine machineId) ∧
      after.servers = world.servers ∧ after.nowMs = world.nowMs ∧
        after.decided = world.decided := by
  have same : (∀ machineId, world.store.getMachine machineId =
      world.store.getMachine machineId) ∧ world.servers = world.servers ∧
      world.nowMs = world.nowMs ∧ world.decided = world.decided :=
    ⟨fun _ => rfl, rfl, rfl, rfl⟩
  cases request with
  | recoverByLabel label
  | create machineId label offer token
  | delete id
  | compareAndSetMachine machine revision
  | completeEnrollment machine tokenHash revision
  | claimDueMachines input limit
  | claimMachine machineId input | saveReconciledMachine machine owner revision => cases leaves
  | deleteUser accountId =>
    simp only [machineService]
    split
    · exact same
    · exact same
  | _ => exact same

theorem asks {rest : request.Reply → MachineScript α} (leaves : request.leavesServers = true)
    (next : ∀ reply later, world.Proceeds later → later.Custody →
      (rest reply).Keeps machineService (custodyRegime.conduct operation) post later) :
    (ask request >>= rest).Keeps machineService (custodyRegime.conduct operation) post
      world := by
  intro later proceeds custody answer _
  obtain ⟨same, servers, nowMs, decided⟩ := machineService_servers leaves answer later
  obtain ⟨changed, still⟩ := narrowed custody same
    (servers ▸ List.Subset.refl _) nowMs (decided ▸ List.Subset.refl _)
  exact ⟨changed, still, next _ _ (proceeds.trans changed) still⟩

theorem MachineWorld.Custody.refused (custody : world.Custody) :
    world.Proceeds (world.withStore world.store) ∧ (world.withStore world.store).Custody :=
  custody.narrowed (fun _ => rfl) (List.Subset.refl _) rfl (List.Subset.refl _)

theorem MachineWorld.Custody.rewritten (custody : world.Custody) (stored : world.Stored base)
    (carries : Carries base updated) (covers : world.Covers updated)
    (gone : updated.state = .destroyed → updated.providerServerId = none)
    (leaseOwner : Option String) (leaseExpiresAtMs : Option Int) :
    let written : MachinePersistenceRecord :=
      { updated with leaseOwner, leaseExpiresAtMs, revision := base.revision + 1 }
    let after := world.withStore (world.store.putMachine written)
    world.Proceeds after ∧ after.Custody ∧ after.Stored written := by
  intro written after
  have put : MemoryState.Puts written world.store after.store :=
    world.store.getMachine_putMachine written
  have machineId : written.machineId = base.machineId := carries.machineId
  obtain ⟨proceeds, still⟩ := custody.replaced stored machineId carries.providerLabel
    carries.offerId rfl put rfl rfl rfl covers gone
  refine ⟨proceeds, still, ?_⟩
  rw [Stored, put, if_pos rfl]

variable {rest : Bool → MachineScript α}

theorem writes (recalls : Recalls world base) (carries : Carries base updated)
    (gone : updated.state = .destroyed → updated.providerServerId = none)
    (covers : ∀ answer later, world.Proceeds later → later.Custody → later.Stored base →
      AdmitsCustody operation later (.compareAndSetMachine updated base.revision) answer →
        later.Covers updated)
    (refused : ∀ later, world.Proceeds later → later.Custody →
      (rest false).Keeps machineService (custodyRegime.conduct operation) post later)
    (saved : ∀ later, world.Proceeds later → later.Custody →
      later.Stored { updated with revision := base.revision + 1 } →
        (rest true).Keeps machineService (custodyRegime.conduct operation) post later) :
    (ask (.compareAndSetMachine updated base.revision) >>= rest).Keeps machineService
      (custodyRegime.conduct operation) post world := by
  intro later proceeds custody answer admitted
  obtain replied | ⟨stored, found, same, replied⟩ :=
    compareAndSetMachine_replies updated base.revision answer later
  · obtain ⟨changed, still⟩ := Custody.refused custody
    rw [replied]
    exact ⟨changed, still, refused _ (proceeds.trans changed) still⟩
  rw [carries.machineId] at found
  rw [(recalls.later proceeds).knows.stored found same] at found
  have covers := covers answer later proceeds custody found admitted
  obtain ⟨changed, still, present⟩ := rewritten custody found carries
    covers gone updated.leaseOwner updated.leaseExpiresAtMs
  rw [replied]
  exact ⟨changed, still, saved _ (proceeds.trans changed) still present⟩

theorem saves (hands : Hands world base result)
    (finished : ∀ saved later, world.Proceeds later → later.Custody →
      (rest saved).Keeps machineService (custodyRegime.conduct operation) post later) :
    (ask (.saveReconciledMachine result owner result.revision) >>= rest).Keeps machineService
      (custodyRegime.conduct operation) post world := by
  intro later proceeds custody answer _
  have hands := hands.later proceeds
  obtain replied | ⟨stored, found, same, replied⟩ :=
    saveReconciledMachine_replies result owner result.revision answer later
  · obtain ⟨changed, still⟩ := refused custody
    rw [replied]
    exact ⟨changed, still, finished false _ (proceeds.trans changed) still⟩
  rw [hands.carries.machineId] at found
  rw [hands.carries.revision] at same
  rw [hands.recalls.knows.stored found same] at found
  obtain ⟨changed, still, _⟩ := rewritten custody found hands.carries
    (hands.covered custody found) hands.gone none none
  rw [replied, hands.carries.revision]
  exact ⟨changed, still, finished true _ (proceeds.trans changed) still⟩

end Rules

namespace MachineWorld

variable {world : MachineWorld} {machine : MachinePersistenceRecord} {label : String}

theorem mem_withDecision {decides : MachinePersistenceRecord → Bool}
    (stored : world.Stored machine) (decided : decides machine = true) :
    (machine.providerLabel, machine.revision) ∈
      (world.withDecision machine.providerLabel decides).decided := by
  refine mem_append_right _ (mem_map.mpr ⟨machine, ?_, rfl⟩)
  refine mem_filter.mpr ⟨mem_of_getMachine stored, ?_⟩
  simp only [decide_true, Bool.true_and]
  exact decided

theorem Custody.withDecision (custody : world.Custody) (label : String)
    (decides : MachinePersistenceRecord → Bool) :
    world.Proceeds (world.withDecision label decides) ∧
      (world.withDecision label decides).Custody :=
  custody.narrowed (fun _ => rfl) (List.Subset.refl _) rfl (subset_append_left _ _)

theorem serverOf_eq_none (none : world.serverOf label = none) :
    ∀ server ∈ world.servers, server.providerLabel ≠ label := by
  intro server member same
  have absent := List.find?_eq_none.mp (Option.map_eq_none_iff.mp none) server member
  exact absent (decide_eq_true same)

theorem serverOf_eq_some {id : String} (found : world.serverOf label = some id) :
    ∃ server ∈ world.servers, server.providerLabel = label ∧ server.providerServerId = id := by
  obtain ⟨server, found, same⟩ := Option.map_eq_some_iff.mp found
  exact ⟨server, mem_of_find?_eq_some found,
    of_decide_eq_true (List.find?_some (p := fun server : ProviderServer =>
      decide (server.providerLabel = label)) found), same⟩

end MachineWorld

variable {offer : MachineOffer}

section Provider

variable {operation : MachineOperation} {world : MachineWorld}
  {base : MachinePersistenceRecord} {nowMs : Int}

theorem withProviderFailure_waits {failure : MachineProviderError}
    (retries : base.failsForGood failure = false) :
    Waits world base (base.withProviderFailure nowMs failure) where
  providerServerId := rfl
  awaits := by
    intro later _ awaits
    simp only [failsForGood, Bool.or_eq_false_iff,
      decide_eq_false_iff_not, Nat.not_le] at retries
    exact awaitsCreation_of_same awaits
      (MachinePersistenceRecord.withProviderFailure_retries retries.2 retries.1) rfl rfl

/-- A failure for good leaves the stored machine without a server. -/
def Spent (world : MachineWorld) (base : MachinePersistenceRecord)
    (failure : MachineProviderError) : Prop :=
  base.failsForGood failure = true → world.Stored base →
    ¬world.Opens base ∧ world.serverOf base.providerLabel = none

/-- The stored machine opens no server, and those under its label have the id. -/
def Serves (world : MachineWorld) (base : MachinePersistenceRecord) (id : String) : Prop :=
  world.Stored base → ¬world.Opens base ∧
    ∀ server ∈ world.servers, server.providerLabel = base.providerLabel →
      server.providerServerId = id

theorem failing (recalls : Recalls world base) (failure : MachineProviderError)
    (given : Spent world base failure)
    (standing : base.state ≠ .destroyed) :
    HandsOver operation (pure (base.withProviderFailure nowMs failure)) world := by
  refine ⟨base, recalls, ⟨rfl, rfl, rfl, rfl⟩, ?_, ?_⟩
  · intro destroyed
    exact absurd destroyed (withProviderFailure_ne_destroyed failure standing)
  cases retries : base.failsForGood failure with
  | false => exact .inl (withProviderFailure_waits retries)
  | true =>
    refine .inr fun stored => ?_
    obtain ⟨closed, none⟩ := given retries stored
    exact ⟨closed, fun server member same =>
      absurd same (serverOf_eq_none none server member)⟩

theorem serving (recalls : Recalls world base) (id : String)
    (given : Serves world base id) :
    HandsOver operation (pure (base.withServer nowMs id)) world := by
  refine ⟨base, recalls, ⟨rfl, rfl, rfl, rfl⟩, nofun, .inr ?_⟩
  intro stored
  obtain ⟨closed, same⟩ := given stored
  exact ⟨closed, fun server member label => congrArg some (same server member label).symm⟩

theorem lookUps {rest : ProviderResult (Option String) → MachineScript MachinePersistenceRecord}
    (recalls : Recalls world base)
    (failed : ∀ failure later, Recalls later base → Spent later base failure →
      HandsOver operation (rest (.error failure)) later)
    (found : ∀ id later, Recalls later base → Serves later base id →
      HandsOver operation (rest (.ok (some id))) later)
    (absent : ∀ later, Recalls later base → HandsOver operation (rest (.ok none)) later) :
    HandsOver operation (ask (.recoverByLabel base.providerLabel) >>= rest) world := by
  intro later proceeds custody answer admitted
  have recalls := recalls.later proceeds
  have decided : ∀ decides : MachinePersistenceRecord → Bool,
      (decides base = true → later.Stored base →
        ¬(later.withDecision base.providerLabel decides).Opens base) := by
    intro decides decides' stored opens
    exact opens.undecided (mem_withDecision stored decides')
  cases failing : answer.error with
  | some failure =>
    obtain ⟨changed, still⟩ := custody.withDecision base.providerLabel
      fun machine => machine.failsForGood failure
    have replied : machineService (.recoverByLabel base.providerLabel) answer later =
        (.error failure, later.withDecision base.providerLabel fun machine =>
          machine.failsForGood failure) := by
      simp only [machineService, lookUpServer, failing]
    rw [replied]
    refine ⟨changed, still, failed failure _ (recalls.later changed) ?_⟩
    intro fails stored
    refine ⟨decided _ fails stored, ?_⟩
    cases server : later.serverOf base.providerLabel with
    | none => exact server
    | some id =>
      have retries := admitted failure failing (by rw [server]; rfl) base stored rfl
      rw [retries] at fails
      cases fails
  | none =>
    obtain ⟨changed, still⟩ := custody.withDecision base.providerLabel
      fun _ => (later.serverOf base.providerLabel).isSome
    have replied : machineService (.recoverByLabel base.providerLabel) answer later =
        (.ok (later.serverOf base.providerLabel),
          later.withDecision base.providerLabel fun _ =>
            (later.serverOf base.providerLabel).isSome) := by
      simp only [machineService, lookUpServer, failing]
    rw [replied]
    refine ⟨changed, still, ?_⟩
    have recalls := recalls.later changed
    cases server : later.serverOf base.providerLabel with
    | none =>
      rw [server] at recalls
      exact absent _ recalls
    | some id =>
      rw [server] at recalls
      refine found id _ recalls ?_
      intro stored
      refine ⟨decided _ rfl stored, ?_⟩
      intro other member label
      obtain ⟨one, here, owned, same⟩ := serverOf_eq_some server
      rw [← custody.single one here other member (owned.trans label.symm)]
      exact same

theorem MachineWorld.Custody.createServer (custody : world.Custody)
    (recalls : Recalls world base) (offered : (findMachineOffer base.offerId).isSome)
    {answer : Answer}
    (admitted : answer.takesEffect = true →
      world.canCreate base.providerLabel answer.text = true →
        ∀ machine, world.Stored machine → machine.providerLabel = base.providerLabel →
          machine.awaitsCreation world.nowMs = true ∧
            (base.providerLabel, machine.revision) ∉ world.decided) :
    let created :=
      if answer.takesEffect ∧ world.canCreate base.providerLabel answer.text then
        world.withServer base.providerLabel answer.text
      else world
    world.Proceeds created ∧ created.Custody ∧ created.store = world.store := by
  intro created
  by_cases effect : answer.takesEffect ∧ world.canCreate base.providerLabel answer.text
  · have appears : created = world.withServer base.providerLabel answer.text :=
      if_pos effect
    obtain ⟨owner, found, _, _⟩ := recalls.knows
    obtain ⟨label, offer⟩ := recalls.label owner found
    have stored : world.Stored owner := custody.getMachine found
    obtain ⟨awaits, undecided⟩ := admitted effect.1 effect.2 owner stored label
    have opens : world.Opens owner := by
      refine ⟨awaits, ?_, ?_⟩
      · rw [offer]
        exact offered
      · rw [label]
        exact undecided
    obtain ⟨changed, still⟩ := custody.withServer stored label.symm effect.2 opens
    rw [appears]
    exact ⟨changed, still, rfl⟩
  · have same : created = world := if_neg effect
    rw [same]
    exact ⟨proceeds_refl world, custody, rfl⟩

variable (base) in
theorem creates {rest : ProviderResult String → MachineScript MachinePersistenceRecord}
    {machineId token : String} (recalls : Recalls world base)
    (offered : (findMachineOffer base.offerId).isSome)
    (failed : ∀ failure later, Recalls later base → Spent later base failure →
      HandsOver operation (rest (.error failure)) later)
    (created : ∀ id later, Recalls later base → Serves later base id →
      HandsOver operation (rest (.ok id)) later) :
    HandsOver operation (ask (.create machineId base.providerLabel offer token) >>= rest)
      world := by
  intro later proceeds custody answer admitted
  have recalls := recalls.later proceeds
  obtain ⟨effective, fails⟩ := admitted
  obtain ⟨appears, still, same⟩ := custody.createServer recalls offered effective
  let after :=
    if answer.takesEffect ∧ later.canCreate base.providerLabel answer.text then
      later.withServer base.providerLabel answer.text
    else later
  have stored : after.Stored base → later.Stored base := by
    intro present
    rw [MachineWorld.Stored, same] at present
    exact present
  by_cases returns : answer.error = none ∧ later.canCreate base.providerLabel answer.text
  · obtain ⟨changed, kept⟩ := still.withDecision base.providerLabel fun _ => true
    have replied : machineService (.create machineId base.providerLabel offer token) answer
        later = (.ok answer.text, after.withDecision base.providerLabel fun _ => true) := by
      simp only [machineService, MachineWorld.createServer, if_pos returns, after]
    rw [replied]
    refine ⟨appears.trans changed, kept, ?_⟩
    refine created answer.text _ (recalls.later (appears.trans changed)) ?_
    intro present
    refine ⟨fun opens => opens.undecided (MachineWorld.mem_withDecision present rfl), ?_⟩
    intro server member label
    have effect : answer.takesEffect ∧ later.canCreate base.providerLabel answer.text :=
      ⟨by rw [Answer.takesEffect, returns.1]; rfl, returns.2⟩
    have grown : after = later.withServer base.providerLabel answer.text := if_pos effect
    have here : (⟨answer.text, base.providerLabel⟩ : ProviderServer) ∈ after.servers := by
      rw [grown]
      exact mem_append_right _ (mem_singleton_self _)
    rw [still.single server member _ here label]
  · let failure := answer.error.getD .transient
    obtain ⟨changed, kept⟩ := still.withDecision base.providerLabel fun machine =>
      machine.failsForGood failure
    have created : later.createServer base.providerLabel answer =
        (.error failure, after.withDecision base.providerLabel fun machine =>
          machine.failsForGood failure) := by
      simp only [MachineWorld.createServer, if_neg returns, after, failure]
    have replied : machineService (.create machineId base.providerLabel offer token) answer
        later = later.createServer base.providerLabel answer := rfl
    rw [replied, created]
    refine ⟨appears.trans changed, kept, ?_⟩
    refine failed failure _ (recalls.later (appears.trans changed)) ?_
    intro final present
    refine ⟨fun opens => opens.undecided (MachineWorld.mem_withDecision present final), ?_⟩
    cases server : (after.withDecision base.providerLabel fun machine =>
        machine.failsForGood failure).serverOf base.providerLabel with
    | none => rfl
    | some id =>
      have retries := fails failure (by rw [created]) (by rw [created, server]; rfl) base
        (stored present) rfl
      rw [retries] at final
      cases final

end Provider

section Targets

variable {operation : MachineOperation} {sha256Hex : String → String}
  {config : MachineControlConfig} {world : MachineWorld}
  {machine result : MachinePersistenceRecord} {nowMs : Int}

theorem Recalls.hands (recalls : Recalls world machine) (carries : Carries machine result)
    (waits : Waits world machine result)
    (state : result.state = .destroyed → machine.state = .destroyed) :
    HandsOver operation (pure result) world := by
  refine ⟨machine, recalls, carries, ?_, .inl waits⟩
  intro destroyed
  exact waits.providerServerId.trans (recalls.gone (state destroyed))

theorem waits_of_not (providerServerId : result.providerServerId = machine.providerServerId)
    (idle : ∀ later, world.nowMs ≤ later → machine.awaitsCreation later ≠ true) :
    Waits world machine result where
  providerServerId := providerServerId
  awaits := fun later after awaits => absurd awaits (idle later after)

theorem idle_of_state (standing : machine.state ≠ .creating) (later : Int) :
    machine.awaitsCreation later ≠ true :=
  fun awaits => standing (awaitsCreation_creating awaits)

theorem createServer_hands (recalls : Recalls world machine)
    (offered : (findMachineOffer machine.offerId).isSome) (standing : machine.state ≠ .destroyed) :
    HandsOver operation (createServer sha256Hex config machine nowMs offer) world := by
  refine asks rfl ?_
  intro enrollmentToken later proceeds _
  have recalls := recalls.later proceeds
  let tokenReady := machine.withEnrollmentToken nowMs (sha256Hex enrollmentToken)
    config.enrollmentTtlMs
  have waits : ∀ latest, Waits latest machine tokenReady := fun latest =>
    ⟨rfl, fun _ _ awaits =>
      awaitsCreation_of_same awaits rfl rfl rfl⟩
  refine writes recalls ⟨rfl, rfl, rfl, rfl⟩ (fun destroyed => absurd destroyed standing) ?_ ?_ ?_
  · intro answer latest _ custody stored _
    exact custody.covers_of_waits stored (waits latest) rfl
  · intro latest proceeds _
    exact (recalls.later proceeds).hands ⟨rfl, rfl, rfl, rfl⟩ ⟨rfl, fun _ _ => id⟩ id
  intro latest _ custody stored
  let persisted : MachinePersistenceRecord :=
    { tokenReady with revision := machine.revision + 1 }
  have recalls : Recalls latest persisted := Custody.recalls custody stored
  refine creates persisted recalls offered ?_ ?_
  · intro failure last recalls given
    exact failing recalls failure given standing
  · intro created last recalls given
    exact serving recalls created given

theorem recoverServer_hands (recalls : Recalls world machine) (custody : world.Custody)
    (standing : machine.state ≠ .destroyed) :
    HandsOver operation (recoverServer sha256Hex config machine nowMs) world := by
  unfold recoverServer
  split
  · rename_i unknown
    refine ⟨machine, recalls, ⟨rfl, rfl, rfl, rfl⟩, nofun, .inr ?_⟩
    intro stored
    refine ⟨?_, ?_⟩
    · intro opens
      have offered := opens.offered
      rw [unknown] at offered
      cases offered
    · intro server member label
      have offered := custody.offered machine stored server member label
      rw [unknown] at offered
      cases offered
  · rename_i offer known
    refine lookUps recalls ?_ ?_ ?_
    · intro failure later recalls given
      exact failing recalls failure given standing
    · intro recovered later recalls given
      exact serving recalls recovered given
    · intro later recalls
      exact createServer_hands recalls (by rw [known]; rfl) standing

structure Idle (world : MachineWorld) (machine : MachinePersistenceRecord) : Prop where
  recalls : Recalls world machine
  idle : ∀ later, world.nowMs ≤ later → machine.awaitsCreation later ≠ true

theorem Idle.later {later : MachineWorld} (idle : Idle world machine)
    (proceeds : world.Proceeds later) : Idle later machine :=
  ⟨idle.recalls.later proceeds, fun latest after =>
    idle.idle latest (le_trans proceeds.nowMs after)⟩

theorem Idle.hands (idle : Idle world machine) (carries : Carries machine result)
    (providerServerId : result.providerServerId = machine.providerServerId)
    (state : result.state = .destroyed → machine.state = .destroyed) :
    HandsOver operation (pure result) world :=
  idle.recalls.hands carries (waits_of_not providerServerId idle.idle) state

theorem Idle.restating (idle : Idle world machine)
    {script : MachineScript MachinePersistenceRecord} (restating : Restating machine script) :
    HandsOver operation script world := by
  have keeps : script.Keeps machineService (custodyRegime.conduct operation)
      (fun result last => ∃ known : List MachinePersistenceRecord,
        (∀ base ∈ known, Idle last base) ∧
        ∃ base ∈ known, Restates base result) world := by
    refine restating.keeps (fun idle proceeds => idle.later proceeds) ?_ ?_
    · intro request known state answer custody _ leaves _
      obtain ⟨same, servers, nowMs, decided⟩ := machineService_servers leaves answer state
      obtain ⟨changed, still⟩ := narrowed custody same
        (servers ▸ List.Subset.refl _) nowMs (decided ▸ List.Subset.refl _)
      exact ⟨changed, still, by intro item none; cases none⟩
    · intro base member
      rw [mem_singleton.mp member]
      exact idle
  refine keeps.mono ?_
  rintro result last ⟨known, idle, base, member, restates⟩
  have hands : HandsOver operation (pure result) last :=
    (idle base member).hands restates.carries restates.providerServerId restates.state
  exact hands

theorem reconcileReadyTarget_hands (recalls : Recalls world machine) (custody : world.Custody) :
    HandsOver operation (reconcileReadyTarget sha256Hex config machine nowMs) world := by
  by_cases awaits : machine.awaitsServer = true
  · unfold reconcileReadyTarget
    rw [if_pos awaits]
    refine recoverServer_hands recalls custody ?_
    intro destroyed
    simp only [awaitsServer, MachinePersistenceRecord.retryableCreateFailure, destroyed] at awaits
    cases awaits
  have idle : Idle world machine := by
    refine ⟨recalls, fun later _ waiting => awaits ?_⟩
    rw [awaitsServer, awaitsCreation_creating waiting]
    rfl
  exact idle.restating (reconcileReadyTarget_restates awaits)

theorem reconcileSuspendedTarget_hands (recalls : Recalls world machine) (custody : world.Custody)
    (begun : nowMs ≤ world.nowMs) (suspended : machine.desiredState = .suspended) :
    HandsOver operation (reconcileSuspendedTarget sha256Hex config machine nowMs) world := by
  unfold reconcileSuspendedTarget
  split
  · rename_i state
    have idle : Idle world machine :=
      ⟨recalls, fun later _ => idle_of_state (by rw [state]; decide) later⟩
    split
    · exact idle.hands ⟨rfl, rfl, rfl, rfl⟩ rfl nofun
    · exact idle.hands ⟨rfl, rfl, rfl, rfl⟩ rfl nofun
  have reads : Asks (fun later => Recalls later machine ∧ later.Custody ∧ nowMs ≤ later.nowMs)
      (HandsOver operation) := fun leaves known next =>
    asks leaves fun reply later proceeds still => next reply later
      ⟨known.1.later proceeds, still, le_trans known.2.2 proceeds.nowMs⟩
  refine Asks.cancelSubscription reads ⟨recalls, custody, begun⟩ ?_
  rintro cancelled later ⟨recalls, custody, begun⟩
  split
  · exact recalls.hands ⟨rfl, rfl, rfl, rfl⟩ ⟨rfl, fun _ _ awaits =>
      awaitsCreation_of_same awaits rfl rfl rfl⟩ id
  split
  · exact reconcileReadyTarget_hands recalls custody
  rename_i unpaid
  refine Idle.restating ⟨recalls, ?_⟩ suspendServer_restates
  intro latest after awaits
  have wants := MachinePersistenceRecord.wantsReady_earlier (awaitsCreation_wants awaits)
    (le_trans begun after)
  simp only [wantsReady, suspended, Bool.or_eq_true,
    Bool.and_eq_true, decide_eq_true_eq, reduceCtorEq, false_or, true_and] at wants
  exact unpaid wants

end Targets

section Ending

variable {operation : MachineOperation} {config : MachineControlConfig}
  {world : MachineWorld} {base machine result : MachinePersistenceRecord} {nowMs : Int}

theorem idle_of_doomed (doomed : base.desiredState = .destroyed) (later : Int) :
    base.awaitsCreation later ≠ true := by
  intro awaits
  have wants := awaitsCreation_wants awaits
  simp only [wantsReady, doomed] at wants
  cases wants

structure Ending (world : MachineWorld) (base machine : MachinePersistenceRecord) : Prop where
  recalls : Recalls world base
  doomed : base.desiredState = .destroyed
  standing : base.state ≠ .destroyed
  carries : Carries base machine
  providerServerId : machine.providerServerId = base.providerServerId
  state : machine.state = base.state
  names : world.Stored base → ∀ server ∈ world.servers,
    server.providerLabel = base.providerLabel → base.names server

/-- No server of the machine's label is left, if its record is still the one that was
read. -/
def Emptied (world : MachineWorld) (base : MachinePersistenceRecord) : Prop :=
  world.Stored base → ∀ server ∈ world.servers, server.providerLabel ≠ base.providerLabel

theorem Ending.remain {later : MachineWorld} (ending : Ending world base machine)
    (proceeds : world.Proceeds later) {property : ProviderServer → Prop}
    (before : world.Stored base → ∀ server ∈ world.servers,
      server.providerLabel = base.providerLabel → property server) :
    later.Stored base → ∀ server ∈ later.servers,
      server.providerLabel = base.providerLabel → property server := by
  intro present server member label
  have found : world.Stored base := ending.recalls.knows.earlier proceeds.follows present
  by_cases old : server ∈ world.servers
  · exact before found server old label
  · have opens := proceeds.created server member old base found present label
    exact absurd opens.awaits (idle_of_doomed ending.doomed world.nowMs)

theorem Ending.emptied {later : MachineWorld} (ending : Ending world base machine)
    (proceeds : world.Proceeds later) (emptied : Emptied world base) :
    Emptied later base := by
  intro present server member label
  have none : world.Stored base → ∀ server ∈ world.servers,
      server.providerLabel = base.providerLabel → False :=
    fun found server member label => emptied found server member label
  exact ending.remain proceeds none present server member label

theorem Ending.later {later : MachineWorld} (ending : Ending world base machine)
    (proceeds : world.Proceeds later) : Ending later base machine :=
  { ending with
    recalls := ending.recalls.later proceeds
    names := ending.remain proceeds ending.names }

theorem endings_doom : Dooms (fun machine world => Ending world base machine)
    (HandsOver operation) where
  asks := fun _ _ _ _ leaves ending next =>
    asks leaves fun reply later proceeds _ => next reply later (ending.later proceeds)
  edit := fun ending restates state =>
    { ending with
      carries := ending.carries.trans restates.carries
      providerServerId := restates.providerServerId.trans ending.providerServerId
      state := state.trans ending.state }
  done := by
    intro machine result world ending restates state
    have standing : result.state ≠ .destroyed := by
      obtain state | state | state := state <;> rw [state]
      · nofun
      · nofun
      · rw [ending.state]
        exact ending.standing
    exact ending.recalls.hands (ending.carries.trans restates.carries)
      (waits_of_not (restates.providerServerId.trans ending.providerServerId)
        fun later _ => idle_of_doomed ending.doomed later)
      fun destroyed => absurd destroyed standing

theorem Ending.destroyed (ending : Ending world base machine) (emptied : Emptied world base)
    (deferred : Bool) : HandsOver operation (pure (machine.asDestroyed nowMs deferred)) world := by
  refine ⟨base, ending.recalls, ⟨ending.carries.machineId, ending.carries.providerLabel,
    ending.carries.offerId, ending.carries.revision⟩, fun _ => rfl, .inr ?_⟩
  intro stored
  refine ⟨fun opens => idle_of_doomed ending.doomed world.nowMs opens.awaits, ?_⟩
  intro server member label
  exact absurd label (emptied stored server member)

theorem deleteAccountIdentity_asks {rest : IdentityDeletion →
      MachineScript MachinePersistenceRecord}
    (next : ∀ identity later, world.Proceeds later → HandsOver operation (rest identity) later) :
    HandsOver operation (deleteAccountIdentityWhenInfrastructureIsClean machine >>= rest)
      world := by
  apply Script.Keeps.bind
  refine asks rfl ?_
  intro machines later proceeds _
  dsimp only
  split
  · exact next .deferred later proceeds
  refine asks rfl ?_
  intro entitlements latest further _
  split
  · exact next .deferred latest (proceeds.trans further)
  · refine asks rfl ?_
    intro deleted last final _
    exact next _ last ((proceeds.trans further).trans final)

theorem finishDestruction_hands (ending : Ending world base machine)
    (emptied : Emptied world base) :
    HandsOver operation (finishDestruction machine nowMs) world := by
  unfold finishDestruction
  split
  · exact ending.destroyed emptied false
  refine deleteAccountIdentity_asks ?_
  intro identity later proceeds
  have emptied := ending.emptied proceeds emptied
  have ending := ending.later proceeds
  cases identity with
  | failed =>
    exact endings_doom.done ending ⟨⟨⟨rfl, rfl, rfl⟩, rfl, rfl⟩, rfl, rfl, rfl, nofun⟩ (.inl rfl)
  | deferred => exact ending.destroyed emptied true
  | deleted => exact ending.destroyed emptied false

theorem deleteServer_hands (ending : Ending world base machine) :
    HandsOver operation (deleteServer machine nowMs) world := by
  unfold deleteServer
  split
  · rename_i unnamed
    refine finishDestruction_hands ending ?_
    intro stored server member label
    have named : base.providerServerId = _ := ending.names stored server member label
    rw [← ending.providerServerId, unnamed] at named
    cases named
  rename_i providerServerId named
  intro later proceeds custody answer _
  have ending := ending.later proceeds
  obtain ⟨changed, still⟩ : later.Proceeds (later.deleteServer providerServerId answer).2 ∧
      (later.deleteServer providerServerId answer).2.Custody := by
    unfold MachineWorld.deleteServer
    split
    · exact custody.narrowed (fun _ => rfl) (filter_subset_self _) rfl (List.Subset.refl _)
    · exact ⟨proceeds_refl later, custody⟩
  have replied : machineService (.delete providerServerId) answer later =
      later.deleteServer providerServerId answer := rfl
  rw [replied]
  refine ⟨changed, still, ?_⟩
  have remaining := ending.later changed
  cases failing : answer.error with
  | some failure =>
    simp only [MachineWorld.deleteServer, Answer.result, failing] at remaining ⊢
    exact endings_doom.failed remaining failure
  | none =>
    have effect : answer.takesEffect = true := by
      rw [Answer.takesEffect, failing]
      rfl
    simp only [MachineWorld.deleteServer, Answer.result, failing, if_pos effect] at remaining ⊢
    refine finishDestruction_hands remaining ?_
    intro stored server member label
    obtain ⟨before, kept⟩ := mem_filter.mp member
    have other : base.providerServerId = some server.providerServerId :=
      ending.names stored server before label
    rw [← ending.providerServerId, named] at other
    cases other
    exact absurd rfl (of_decide_eq_true kept)

end Ending

section Gone

variable {operation : MachineOperation} {world : MachineWorld}
  {base machine result : MachinePersistenceRecord} {nowMs : Int}

theorem Recalls.handsGone (recalls : Recalls world base) (destroyed : base.state = .destroyed)
    (carries : Carries base result)
    (providerServerId : result.providerServerId = base.providerServerId) :
    HandsOver operation (pure result) world :=
  recalls.hands carries
    (waits_of_not providerServerId fun later _ =>
      idle_of_state (by rw [destroyed]; decide) later)
    fun _ => destroyed

theorem expireFinalSnapshot_hands (recalls : Recalls world base)
    (destroyed : base.state = .destroyed) (carries : Carries base machine)
    (providerServerId : machine.providerServerId = base.providerServerId) :
    HandsOver operation (expireFinalSnapshot machine nowMs) world := by
  unfold expireFinalSnapshot
  split
  · exact recalls.handsGone destroyed carries providerServerId
  split
  · refine asks rfl ?_
    intro deleted later proceeds _
    have recalls := recalls.later proceeds
    cases deleted with
    | error failure | ok done =>
      exact recalls.handsGone destroyed ⟨carries.machineId, carries.providerLabel,
        carries.offerId, carries.revision⟩ providerServerId
  · exact recalls.handsGone destroyed carries providerServerId

theorem reconcileDestroyed_hands (recalls : Recalls world machine)
    (destroyed : machine.state = .destroyed) :
    HandsOver operation (reconcileDestroyed machine nowMs) world := by
  unfold reconcileDestroyed
  split
  · exact expireFinalSnapshot_hands recalls destroyed ⟨rfl, rfl, rfl, rfl⟩ rfl
  refine deleteAccountIdentity_asks ?_
  intro identity later proceeds
  have recalls := recalls.later proceeds
  cases identity with
  | failed | deferred => exact recalls.handsGone destroyed ⟨rfl, rfl, rfl, rfl⟩ rfl
  | deleted => exact expireFinalSnapshot_hands recalls destroyed ⟨rfl, rfl, rfl, rfl⟩ rfl

end Gone

section Passes

variable {operation : MachineOperation} {sha256Hex : String → String}
  {config : MachineControlConfig} {machine : MachinePersistenceRecord} {nowMs : Int}
  {world : MachineWorld}

theorem MachineWorld.Custody.ending (custody : world.Custody) (recalls : Recalls world machine)
    (doomed : machine.desiredState = .destroyed) (standing : machine.state ≠ .destroyed) :
    Ending world machine machine where
  recalls := recalls
  doomed := doomed
  standing := standing
  carries := ⟨rfl, rfl, rfl, rfl⟩
  providerServerId := rfl
  state := rfl
  names := fun stored server member label =>
    (custody.covered machine stored server member label).resolve_right
      (idle_of_doomed doomed world.nowMs)

theorem reconcileOne_hands (recalls : Recalls world machine) (begun : nowMs ≤ world.nowMs) :
    HandsOver operation (reconcileOne sha256Hex config machine nowMs) world := by
  refine asks rfl ?_
  intro selected later proceeds custody
  have recalls := recalls.later proceeds
  split
  · exact recalls.hands ⟨rfl, rfl, rfl, rfl⟩ ⟨rfl, fun _ _ awaits =>
      awaitsCreation_of_same awaits rfl rfl rfl⟩ id
  split
  · exact reconcileReadyTarget_hands recalls custody
  · rename_i suspended
    exact reconcileSuspendedTarget_hands recalls custody (le_trans begun proceeds.nowMs)
      suspended
  rename_i doomed
  unfold reconcileDestroyedTarget
  split
  · rename_i destroyed
    exact reconcileDestroyed_hands recalls destroyed
  · rename_i standing
    exact endings_doom.destroys deleteServer_hands (custody.ending recalls doomed standing)

theorem reconcileClaimed_custody {claimed : List MachinePersistenceRecord}
    (known : ∀ machine ∈ claimed, Recalls world machine) (begun : nowMs ≤ world.nowMs) :
    (reconcileClaimed sha256Hex config claimed owner nowMs).Keeps machineService
      (custodyRegime.conduct operation) (fun _ _ => True) world := by
  have lasts : ∀ {machine : MachinePersistenceRecord} {first second : MachineWorld},
      Recalls first machine ∧ nowMs ≤ first.nowMs → first.Proceeds second →
        Recalls second machine ∧ nowMs ≤ second.nowMs :=
    fun known changed => ⟨known.1.later changed, le_trans known.2 changed.nowMs⟩
  refine Script.Keeps.forEach Proceeds.trans proceeds_refl @lasts ?_
    fun machine member => ⟨known machine member, begun⟩
  rintro machine later ⟨recalls, begun⟩
  have hands : HandsOver operation (reconcileOne sha256Hex config machine nowMs) later :=
    reconcileOne_hands recalls begun
  apply Script.Keeps.bind
  exact hands.mono fun _ _ ⟨_, hands⟩ => saves hands fun _ _ _ _ => trivial

theorem claims_custody {claimed : List MachinePersistenceRecord} {next : MachineWorld}
    (claims : MemoryState.Claims world ⟨nowMs, owner, config.reconcileLeaseMs⟩ claimed next)
    (custody : world.Custody) (begun : nowMs ≤ world.nowMs) :
    world.Proceeds next ∧ next.Custody ∧
      (reconcileClaimed sha256Hex config claimed owner nowMs).Keeps machineService
        (custodyRegime.conduct operation) (fun _ _ => True) next := by
  cases claims with
  | none =>
    obtain ⟨changed, still⟩ := refused custody
    refine ⟨changed, still, reconcileClaimed_custody ?_ begun⟩
    exact forall_mem_nil _
  | one stored =>
    obtain ⟨changed, still, present⟩ := custody.rewritten stored
      ⟨rfl, rfl, rfl, rfl⟩ (custody.covered _ stored) (custody.gone _ stored)
      (some owner) (some (nowMs + config.reconcileLeaseMs))
    refine ⟨changed, still, reconcileClaimed_custody ?_ begun⟩
    intro other member
    rw [mem_singleton.mp member]
    exact still.recalls present

theorem reconcileMachine_custody (machineId owner : String) (begun : nowMs ≤ world.nowMs) :
    (reconcileMachine sha256Hex config machineId owner nowMs).Keeps machineService
      (custodyRegime.conduct operation) (fun _ _ => True) world := by
  intro later proceeds custody answer _
  exact claims_custody (MemoryState.claimMachine_claims custody.keyed _ answer machineId) custody
    (le_trans begun proceeds.nowMs)

theorem reconcileMachines_custody (owner : String) (begun : nowMs ≤ world.nowMs) :
    (reconcileMachines sha256Hex config owner nowMs).Keeps machineService
      (custodyRegime.conduct operation) (fun _ _ => True) world := by
  intro later proceeds custody answer _
  exact claims_custody (MemoryState.claimDueMachine_claims custody.keyed _ answer) custody
    (le_trans begun proceeds.nowMs)

end Passes

end Zuse.Machines
