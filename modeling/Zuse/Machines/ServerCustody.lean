import Zuse.Machines.Revisions

namespace Zuse.Machines

open Bool

open Data (Regime Script)

section Records

variable {sha256Hex : String → String} {config : MachineControlConfig}

namespace MachinePersistenceRecord

variable (machine : MachinePersistenceRecord) (nowMs : Int)

def wantsReady : Bool :=
  machine.desiredState = .ready ||
    (machine.desiredState = .suspended && machine.paidThroughMs.any (nowMs < ·))

def looksUp : Bool := machine.awaitsServer && machine.wantsReady nowMs

def awaitsCreation : Bool := machine.state = .creating && machine.wantsReady nowMs

def names (server : ProviderServer) : Prop :=
  machine.providerServerId = some server.providerServerId

variable {machine nowMs}

theorem looksUp_of_awaitsCreation (awaits : machine.awaitsCreation nowMs = true) :
    machine.looksUp nowMs = true := by
  simp only [awaitsCreation, and_eq_true, decide_eq_true_eq] at awaits
  simp only [looksUp, awaitsServer, awaits.1, decide_true, Bool.true_or, Bool.true_and]
  exact awaits.2

variable {earlierMs : Int}

theorem wantsReady_earlier (wants : machine.wantsReady nowMs = true)
    (earlier : earlierMs ≤ nowMs) : machine.wantsReady earlierMs = true := by
  simp only [wantsReady, or_eq_true, and_eq_true, decide_eq_true_eq,
    Option.any_eq_true] at wants ⊢
  obtain ready | ⟨suspended, paidThroughMs, paid, later⟩ := wants
  · exact .inl ready
  · exact .inr ⟨suspended, paidThroughMs, paid, Int.lt_of_le_of_lt earlier later⟩

variable (awaits : machine.awaitsCreation nowMs = true)
include awaits

theorem awaitsCreation_earlier (earlier : earlierMs ≤ nowMs) :
    machine.awaitsCreation earlierMs = true := by
  simp only [awaitsCreation, and_eq_true] at awaits ⊢
  exact ⟨awaits.1, wantsReady_earlier awaits.2 earlier⟩

theorem awaitsCreation_creating : machine.state = .creating := by
  simp only [awaitsCreation, and_eq_true, decide_eq_true_eq] at awaits
  exact awaits.1

theorem awaitsCreation_wants :
    machine.wantsReady nowMs = true := ((and_eq_true _ _).mp awaits).2

theorem awaitsCreation_of_same {result : MachinePersistenceRecord}
    (state : result.state = machine.state)
    (desiredState : result.desiredState = machine.desiredState)
    (paidThroughMs : result.paidThroughMs = machine.paidThroughMs) :
    result.awaitsCreation nowMs = true := by
  simp only [awaitsCreation, wantsReady, state, desiredState, paidThroughMs]
  exact awaits

end MachinePersistenceRecord

end Records

namespace MachineWorld

variable (world : MachineWorld)

def Stored (machine : MachinePersistenceRecord) : Prop :=
  world.store.getMachine machine.machineId = some machine

/-- Whether a server of the machine's label exists that the machine does not name. -/
def Adrift (machine : MachinePersistenceRecord) : Prop :=
  ∃ server ∈ world.servers, server.providerLabel = machine.providerLabel ∧ ¬machine.names server

/-- Every server of a machine's label is named by it or will be looked up. -/
def Covers (machine : MachinePersistenceRecord) : Prop :=
  ∀ server ∈ world.servers, server.providerLabel = machine.providerLabel →
    machine.names server ∨ machine.awaitsCreation world.nowMs = true

/-- Whether a pass may create a server for this very record. -/
structure Opens (machine : MachinePersistenceRecord) : Prop where
  awaits : machine.awaitsCreation world.nowMs = true
  offered : (findMachineOffer machine.offerId).isSome
  undecided : (machine.providerLabel, machine.revision) ∉ world.decided

structure Custody : Prop where
  keyed : world.store.Keyed
  labelled : ∀ first second, world.Stored first → world.Stored second →
    first.providerLabel = second.providerLabel → first = second
  placed : ∀ server ∈ world.servers, ∃ machine, world.Stored machine ∧
    server.providerLabel = machine.providerLabel
  single : ∀ first ∈ world.servers, ∀ second ∈ world.servers,
    first.providerLabel = second.providerLabel → first = second
  offered : ∀ machine, world.Stored machine → ∀ server ∈ world.servers,
    server.providerLabel = machine.providerLabel → (findMachineOffer machine.offerId).isSome
  covered : ∀ machine, world.Stored machine → world.Covers machine
  gone : ∀ machine, world.Stored machine → machine.state = .destroyed →
    machine.providerServerId = none

/-- What the steps may do: a server appears only under a record for which one may be
created, or one that changes. -/
structure Proceeds (before after : MachineWorld) : Prop where
  follows : before.Follows after
  providerLabel : ∀ machineId machine later,
    before.store.getMachine machineId = some machine →
      after.store.getMachine machineId = some later →
        later.providerLabel = machine.providerLabel ∧ later.offerId = machine.offerId
  nowMs : before.nowMs ≤ after.nowMs
  decided : before.decided ⊆ after.decided
  created : ∀ server ∈ after.servers, server ∉ before.servers →
    ∀ machine, before.Stored machine → after.Stored machine →
      server.providerLabel = machine.providerLabel → before.Opens machine

variable {world} {machine : MachinePersistenceRecord}

theorem Opens.earlier {before after : MachineWorld} (opens : after.Opens machine)
    (nowMs : before.nowMs ≤ after.nowMs) (decided : before.decided ⊆ after.decided) :
    before.Opens machine where
  awaits := MachinePersistenceRecord.awaitsCreation_earlier opens.awaits nowMs
  offered := opens.offered
  undecided := fun member => opens.undecided (decided member)

theorem Proceeds.trans {first second third : MachineWorld} (before : first.Proceeds second)
    (after : second.Proceeds third) : first.Proceeds third where
  follows := before.follows.trans after.follows
  providerLabel := by
    intro machineId machine last found present
    obtain ⟨middle, between, _, _⟩ := before.follows machineId machine found
    obtain ⟨label, offer⟩ := before.providerLabel machineId machine middle found between
    obtain ⟨later, later'⟩ := after.providerLabel machineId middle last between present
    exact ⟨later.trans label, later'.trans offer⟩
  nowMs := Int.le_trans before.nowMs after.nowMs
  decided := List.Subset.trans before.decided after.decided
  created := by
    intro server member new machine found present label
    have between : second.Stored machine := by
      have knows : second.Knows machine := (Knows.of_get found).later before.follows
      exact knows.earlier after.follows present
    by_cases middle : server ∈ second.servers
    · exact before.created server middle new machine found between label
    · exact (after.created server member middle machine between present label).earlier
        before.nowMs before.decided

theorem Custody.getMachine (custody : world.Custody) {machineId : String}
    (found : world.store.getMachine machineId = some machine) : world.Stored machine := by
  rw [Stored, custody.keyed machineId machine found]
  exact found

variable {before after : MachineWorld}

theorem Custody.narrowed (custody : before.Custody)
    (same : ∀ machineId, after.store.getMachine machineId = before.store.getMachine machineId)
    (servers : after.servers ⊆ before.servers) (nowMs : after.nowMs = before.nowMs)
    (decided : before.decided ⊆ after.decided) :
    before.Proceeds after ∧ after.Custody := by
  have stored : ∀ {machine}, after.Stored machine → before.Stored machine :=
    fun {machine} present => (same machine.machineId).symm.trans present
  refine ⟨⟨?_, ?_, Int.le_of_eq nowMs.symm, decided, ?_⟩, ?_, ?_, ?_, ?_, ?_, ?_, ?_⟩
  · exact fun machineId machine found =>
      ⟨machine, (same machineId).trans found, Nat.le_refl _, fun _ => rfl⟩
  · intro machineId machine later found present
    cases found.symm.trans ((same machineId).symm.trans present)
    exact ⟨rfl, rfl⟩
  · exact fun server member new => absurd (servers member) new
  · exact fun machineId machine found =>
      custody.keyed machineId machine ((same machineId).symm.trans found)
  · exact fun first second here there =>
      custody.labelled first second (stored here) (stored there)
  · intro server member
    obtain ⟨machine, found, label⟩ := custody.placed server (servers member)
    exact ⟨machine, (same machine.machineId).trans found, label⟩
  · exact fun first here second there =>
      custody.single first (servers here) second (servers there)
  · exact fun machine present server member =>
      custody.offered machine (stored present) server (servers member)
  · intro machine present server member label
    rw [nowMs]
    exact custody.covered machine (stored present) server (servers member) label
  · exact fun machine present => custody.gone machine (stored present)

theorem Custody.proceeds_refl (world : MachineWorld) : world.Proceeds world where
  follows := .refl world
  providerLabel := by
    intro machineId machine later found present
    cases found.symm.trans present
    exact ⟨rfl, rfl⟩
  nowMs := Int.le_refl _
  decided := List.Subset.refl _
  created := fun server member new => absurd member new

theorem Custody.withServer (custody : world.Custody) {label id : String}
    (stored : world.Stored machine) (labelled : label = machine.providerLabel)
    (free : world.canCreate label id = true) (opens : world.Opens machine) :
    world.Proceeds (world.withServer label id) ∧ (world.withServer label id).Custody := by
  have members : ∀ {server}, server ∈ (world.withServer label id).servers →
      server ∈ world.servers ∨ server = ⟨id, label⟩ := by
    intro server member
    exact (List.mem_append.mp member).imp_right List.mem_singleton.mp
  have alone : ∀ server ∈ world.servers, server.providerLabel ≠ label := by
    intro server member
    have apart := List.all_eq_true.mp free server member
    simp only [and_eq_true, decide_eq_true_eq] at apart
    exact apart.1
  have owner : ∀ other, world.Stored other → label = other.providerLabel → other = machine :=
    fun other present same =>
      custody.labelled other machine present stored (same.symm.trans labelled)
  refine ⟨⟨.refl world, ?_, Int.le_refl _, List.Subset.refl _, ?_⟩, custody.keyed,
    custody.labelled, ?_, ?_, ?_, ?_, custody.gone⟩
  · exact (Custody.proceeds_refl world).providerLabel
  · intro server member new other found _ same
    cases members member with
    | inl before => exact absurd before new
    | inr created =>
      subst created
      rw [owner other found same]
      exact opens
  · intro server member
    cases members member with
    | inl before => exact custody.placed server before
    | inr created => exact ⟨machine, stored, created ▸ labelled⟩
  · intro first here second there same
    cases members here with
    | inl before =>
      cases members there with
      | inl also => exact custody.single first before second also same
      | inr created =>
        subst created
        exact absurd same (alone first before)
    | inr created =>
      cases members there with
      | inl also =>
        subst created
        exact absurd same.symm (alone second also)
      | inr other => exact created.trans other.symm
  · intro other present server member same
    cases members member with
    | inl before => exact custody.offered other present server before same
    | inr created =>
      subst created
      rw [owner other present same]
      exact opens.offered
  intro other present server member same
  cases members member with
  | inl before => exact custody.covered other present server before same
  | inr created =>
    subst created
    rw [owner other present same]
    exact .inr opens.awaits

variable {machine stored base result : MachinePersistenceRecord}

theorem Custody.replaced (custody : before.Custody) (found : before.Stored stored)
    (machineId : machine.machineId = stored.machineId)
    (label : machine.providerLabel = stored.providerLabel)
    (offerId : machine.offerId = stored.offerId) (raised : machine.revision = stored.revision + 1)
    (written : MemoryState.Puts machine before.store after.store)
    (servers : after.servers = before.servers) (nowMs : after.nowMs = before.nowMs)
    (decided : after.decided = before.decided) (covers : before.Covers machine)
    (gone : machine.state = .destroyed → machine.providerServerId = none) :
    before.Proceeds after ∧ after.Custody := by
  have split : ∀ {other}, after.Stored other →
      other = machine ∨ (before.Stored other ∧ other.machineId ≠ stored.machineId) := by
    intro other present
    rw [Stored, written] at present
    split at present
    · cases present
      exact .inl rfl
    · rename_i elsewhere
      exact .inr ⟨present, fun same => elsewhere (machineId.trans same.symm)⟩
  have apart : ∀ {other}, before.Stored other → other.machineId ≠ stored.machineId →
      machine.providerLabel ≠ other.providerLabel := by
    intro other present elsewhere same
    exact elsewhere (congrArg (fun record : MachinePersistenceRecord => record.machineId)
      (custody.labelled other stored present found (same.symm.trans label)))
  have here : after.Stored machine := by
    rw [Stored, written, if_pos rfl]
  have there : ∀ {other}, before.Stored other →
      ∃ later, after.Stored later ∧ later.providerLabel = other.providerLabel := by
    intro other present
    by_cases same : other.machineId = stored.machineId
    · have equal : other = stored := by
        rw [Stored, same] at present
        cases present.symm.trans found
        rfl
      exact ⟨machine, here, label.trans (equal ▸ rfl)⟩
    · refine ⟨other, ?_, rfl⟩
      rw [Stored, written, if_neg (fun equal => same (equal.symm.trans machineId))]
      exact present
  refine ⟨⟨?_, ?_, Int.le_of_eq nowMs.symm, ?_, ?_⟩, ?_, ?_, ?_, ?_, ?_, ?_, ?_⟩
  · intro id other present
    rw [written id]
    split
    · rename_i same
      rw [← same, machineId] at present
      cases found.symm.trans present
      exact ⟨machine, rfl, by omega, by omega⟩
    · exact ⟨other, present, Nat.le_refl _, fun _ => rfl⟩
  · intro id other later present last
    rw [written id] at last
    split at last
    · rename_i same
      rw [← same, machineId] at present
      cases found.symm.trans present
      cases last
      exact ⟨label, offerId⟩
    · cases present.symm.trans last
      exact ⟨rfl, rfl⟩
  · rw [decided]
    exact List.Subset.refl _
  · intro server member new
    rw [servers] at member
    exact absurd member new
  · exact written.keyed custody.keyed
  · intro first second one two same
    obtain rfl | ⟨old, apart₁⟩ := split one
    · obtain rfl | ⟨also, apart₂⟩ := split two
      · rfl
      · exact absurd same (apart also apart₂)
    · obtain rfl | ⟨also, _⟩ := split two
      · exact absurd same.symm (apart old apart₁)
      · exact custody.labelled first second old also same
  · intro server member
    rw [servers] at member
    obtain ⟨other, present, owned⟩ := custody.placed server member
    obtain ⟨later, last, same⟩ := there present
    exact ⟨later, last, owned.trans same.symm⟩
  · rw [servers]
    exact custody.single
  · intro other present server member owned
    rw [servers] at member
    obtain rfl | ⟨old, _⟩ := split present
    · rw [offerId]
      exact custody.offered stored found server member (owned.trans label)
    · exact custody.offered other old server member owned
  · intro other present server member owned
    rw [servers] at member
    rw [nowMs]
    obtain rfl | ⟨old, _⟩ := split present
    · exact covers server member owned
    · exact custody.covered other old server member owned
  · intro other present
    obtain rfl | ⟨old, _⟩ := split present
    · exact gone
    · exact custody.gone other old

theorem Custody.added (custody : before.Custody)
    (absent : before.store.getMachine machine.machineId = none)
    (unused : ∀ other, before.Stored other → other.providerLabel ≠ machine.providerLabel)
    (written : MemoryState.Puts machine before.store after.store)
    (servers : after.servers = before.servers) (nowMs : after.nowMs = before.nowMs)
    (decided : after.decided = before.decided) (standing : machine.state ≠ .destroyed) :
    before.Proceeds after ∧ after.Custody := by
  have split : ∀ {other}, after.Stored other → other = machine ∨ before.Stored other := by
    intro other present
    rw [Stored, written] at present
    split at present
    · cases present
      exact .inl rfl
    · exact .inr present
  have empty : ∀ server ∈ before.servers, server.providerLabel ≠ machine.providerLabel := by
    intro server member same
    obtain ⟨other, present, owned⟩ := custody.placed server member
    exact unused other present (owned.symm.trans same)
  refine ⟨⟨?_, ?_, Int.le_of_eq nowMs.symm, ?_, ?_⟩, ?_, ?_, ?_, ?_, ?_, ?_, ?_⟩
  · exact fun id other present => ⟨other, written.kept absent present, Nat.le_refl _, fun _ => rfl⟩
  · intro id other later present last
    cases (written.kept absent present).symm.trans last
    exact ⟨rfl, rfl⟩
  · rw [decided]
    exact List.Subset.refl _
  · intro server member new
    rw [servers] at member
    exact absurd member new
  · exact written.keyed custody.keyed
  · intro first second one two same
    obtain rfl | old := split one
    · obtain rfl | also := split two
      · rfl
      · exact absurd same.symm (unused second also)
    · obtain rfl | also := split two
      · exact absurd same (unused first old)
      · exact custody.labelled first second old also same
  · intro server member
    rw [servers] at member
    obtain ⟨other, present, owned⟩ := custody.placed server member
    exact ⟨other, written.kept absent present, owned⟩
  · rw [servers]
    exact custody.single
  · intro other present server member owned
    rw [servers] at member
    obtain rfl | old := split present
    · exact absurd owned (empty server member)
    · exact custody.offered other old server member owned
  · intro other present server member owned
    rw [servers] at member
    rw [nowMs]
    obtain rfl | old := split present
    · exact absurd owned (empty server member)
    · exact custody.covered other old server member owned
  · intro other present destroyed
    obtain rfl | old := split present
    · exact absurd destroyed standing
    · exact custody.gone other old destroyed

end MachineWorld

/-- What a call must not do where a server could escape by it: an answer that makes a pass
give up on a server that exists, a server that appears for a record that no longer waits
for it or on which a pass has decided, or a request that moves a record which does not yet
name its server. -/
def AdmitsCustody (operation : MachineOperation) (world : MachineWorld)
    (request : MachineCall) (answer : Answer) : Prop :=
  match request with
  | .recoverByLabel label => ∀ failure, answer.error = some failure →
      (world.serverOf label).isSome → ∀ machine, world.Stored machine →
        machine.providerLabel = label → machine.failsForGood failure = false
  | .create _ label _ _ =>
    (answer.takesEffect = true → world.canCreate label answer.text = true →
      ∀ machine, world.Stored machine → machine.providerLabel = label →
        machine.awaitsCreation world.nowMs = true ∧ (label, machine.revision) ∉ world.decided) ∧
    ∀ failure, (world.createServer label answer).1 = .error failure →
      ((world.createServer label answer).2.serverOf label).isSome →
        ∀ machine, world.Stored machine → machine.providerLabel = label →
          machine.failsForGood failure = false
  | .compareAndSetMachine machine revision =>
    ∀ stored, world.Stored stored → stored.machineId = machine.machineId →
      stored.revision = revision → world.Adrift stored →
        match operation with
        | .bootStatus .. => False
        | .destroy .. => False
        | .deleteAccount _ => False
        | .cancel .. => machine.paidThroughMs.any (world.nowMs < ·) = true
        | _ => True
  | .completeEnrollment machine _ revision => ∀ stored, world.Stored stored →
      stored.machineId = machine.machineId → stored.revision = revision → ¬world.Adrift stored
  | _ => True

/-- No billing event and no moment ends the paid time of a machine that does not yet name
its server. -/
def PermitsCustody (world : MachineWorld) : MachineInterrupt → Prop
  | .applyBillingEvent input =>
    world.store.billingEvents.contains input.event.key = false → ∀ machine,
      world.store.attachedMachine input.entitlement.entitlementId = some machine →
        world.Adrift machine →
          (input.entitlement.status ≠ .ended ∧ machine.desiredState = .ready) ∨
            ((input.entitlement.paidThroughMs <|> machine.paidThroughMs).getD
              input.event.nowMs) > world.nowMs
  | .tick nowMs => ∀ machine, world.Stored machine → world.Adrift machine →
      machine.wantsReady nowMs = true
  | _ => True

def custodyRegime : Regime MachineWorld MachineCall Answer MachineOperation where
  sound := MachineWorld.Custody
  change := MachineWorld.Proceeds
  admits := AdmitsCustody

end Zuse.Machines
