import Zuse.CloudAuth.AuthorityTasks
import Zuse.Data.ScriptRights

namespace Zuse.CloudAuth

open Data (Script Service Operations Rights Conduct)
open Data.Operations (Event Pool)

/-! Operations on the login authority of one account, interleaved at their calls. -/

/-- The row of the account, and history that no operation reads: the ids that were given,
the owner of the last claim that was acquired, the place that the saved status was read
from, and the owners whose completion was taken, whose completion was refused and under
whose claim an authority was handed out. -/
structure AuthorityWorld where
  row : AuthorityRow := none
  uuids : List String := []
  latestClaim : Option String := none
  statusSource : Option AuthorityPlace := none
  accepted : List String := []
  refused : List String := []
  handedOut : List String := []

/-- What the environment answers: whether a call fails, and otherwise what it replies. -/
structure Answer where
  fails : Bool := false
  provider : SandboxProvider := ⟨"e2b", true⟩
  sandbox : Option ProviderSandbox := none
  state : SandboxState := .running
  exitCode : Int := 0
  text : String := ""
  statusFile : Option StatusFile := none
  isThere : Bool := true
  nowMs : Int := 0

def Answer.provided {α : Type} (answer : Answer) (value : α) : ProviderResult α :=
  if answer.fails then none else some value

namespace AuthorityWorld

variable (store : AuthorityStore) (world : AuthorityWorld)

def claim (input : ClaimInput) : CloudAuthAuthorityClaim × AuthorityWorld :=
  let result := AuthorityRow.claimCloudAuthAuthority store world.row input
  (result.1,
    { world with
      row := result.2
      latestClaim := if result.1.acquired then some input.leaseOwner else world.latestClaim
      statusSource := if result.1.acquired then none else world.statusSource })

def complete (input : CompletionInput) : Option CloudAuthAuthorityRecord × AuthorityWorld :=
  let result := AuthorityRow.completeCloudAuthAuthorityProvisioning store world.row input
  (result.1,
    { world with
      row := result.2
      accepted :=
        if result.1.isSome then input.leaseOwner :: world.accepted else world.accepted
      refused :=
        if result.1.isSome then world.refused else input.leaseOwner :: world.refused })

def saveStatus (expectedRevision : Nat) (status : CloudAuthStatus)
    (readFrom : AuthorityPlace) : AuthorityWorld :=
  { world with
    row := AuthorityRow.saveCloudAuthStatus world.row expectedRevision status
    statusSource :=
      if world.row.any fun existing => existing.revision = expectedRevision then
        some readFrom
      else world.statusSource }

def advanceEpoch (providerSandboxId : String) (nowMs : Int) :
    Option CloudAuthAuthorityRecord × AuthorityWorld :=
  let result := AuthorityRow.advanceCloudAuthEpoch world.row providerSandboxId nowMs
  (result.1, { world with row := result.2 })

end AuthorityWorld

def authorityService (store : AuthorityStore) :
    Service AuthorityWorld AuthCall Answer AuthCall.Reply
  | .getProvider _, answer, world => (answer.provided answer.provider, world)
  | .inspect _, answer, world => (answer.provided answer.sandbox, world)
  | .recoverByLabel _, answer, world => (answer.provided answer.sandbox, world)
  | .create .., answer, world =>
    (answer.provided ⟨answer.text, answer.state⟩, world)
  | .extendTimeout _, answer, world => (!answer.fails, world)
  | .resume _, answer, world => (answer.provided answer.state, world)
  | .runProcess .., answer, world => (answer.provided ⟨answer.exitCode, answer.text⟩, world)
  | .readTextFile .., answer, world => (answer.provided answer.text, world)
  | .readStatusFile .., answer, world => (answer.provided answer.statusFile, world)
  | .pathExists .., answer, world => (answer.provided answer.isThere, world)
  | .writeTextFile .., answer, world => (!answer.fails, world)
  | .startProcess .., answer, world => (!answer.fails, world)
  | .sleep, _, world => ((), world)
  | .randomUUID, answer, world =>
    (answer.text, { world with uuids := answer.text :: world.uuids })
  | .now, answer, world => (answer.nowMs, world)
  | .getCloudAuthAuthority, _, world => (world.row, world)
  | .claimCloudAuthAuthority input, _, world => world.claim store input
  | .completeCloudAuthAuthorityProvisioning input, _, world => world.complete store input
  | .advanceCloudAuthEpoch providerSandboxId nowMs, _, world =>
    world.advanceEpoch providerSandboxId nowMs
  | .saveCloudAuthStatus expectedRevision status readFrom, _, world =>
    ((), world.saveStatus expectedRevision status readFrom)
  | .handOut leaseOwner, _, world =>
    ((), { world with handedOut := leaseOwner :: world.handedOut })

inductive AuthorityOperation where
  | provisionAuthority (allowLostReplacement : Bool)
  | recoverAuthority (existingOnly : Bool)
  | startCloudAuthLogin (providerId : LoginProvider)
  | readCloudAuthStatus (verify wake : Bool)

def AuthTask.finish {α : Type} (task : AuthTask α) : AuthScript Unit :=
  task.run >>= fun _ => .done ()

def AuthorityOperation.script (version accountId : String) : AuthorityOperation → AuthScript Unit
  | .provisionAuthority allowLostReplacement =>
    (CloudAuth.provisionAuthority version accountId allowLostReplacement).finish
  | .recoverAuthority existingOnly =>
    (CloudAuth.recoverAuthority version accountId existingOnly).finish
  | .startCloudAuthLogin providerId =>
    (CloudAuth.startCloudAuthLogin version accountId providerId).finish
  | .readCloudAuthStatus verify wake =>
    (CloudAuth.readCloudAuthStatus version accountId verify wake).finish

/-- Operations begin, go on and are abandoned at any time; the calls to the provider are
answered in any way. -/
def authorityOperations (store : AuthorityStore) (version accountId : String) :
    Operations AuthorityWorld AuthCall Answer AuthCall.Reply AuthorityOperation Empty where
  service := authorityService store
  program := fun operation _ => operation.script version accountId
  interrupt := fun _ _ => none

/-- Whether a completion that finds the row ready leaves it where it is: a later claim was
completed with the same sandbox and storage, or, where the store looks at the sandbox, with
another sandbox. -/
def Timely (store : AuthorityStore) (row : AuthorityRow) (input : CompletionInput) : Prop :=
  ∀ existing ∈ row, existing.state = .ready →
    (store = .memory → existing.providerSandboxId = some input.providerSandboxId) ∧
      (existing.providerSandboxId = some input.providerSandboxId →
        existing.storageIncarnationId = input.storageIncarnationId)

instance (store : AuthorityStore) (row : AuthorityRow) (input : CompletionInput) :
    Decidable (Timely store row input) := by
  cases row with
  | none => exact .isTrue (fun _ member => by cases member)
  | some existing =>
    refine decidable_of_iff (existing.state = .ready →
      (store = .memory → existing.providerSandboxId = some input.providerSandboxId) ∧
        (existing.providerSandboxId = some input.providerSandboxId →
          existing.storageIncarnationId = input.storageIncarnationId)) ?_
    constructor
    · intro timely other member
      cases member
      exact timely
    · intro timely
      exact timely existing rfl

def AuthorityAdmits (store : AuthorityStore) (world : AuthorityWorld) (request : AuthCall)
    (answer : Answer) : Prop :=
  match request with
  | .randomUUID => answer.text ∉ world.uuids
  | .completeCloudAuthAuthorityProvisioning input => Timely store world.row input
  | _ => True

instance (store : AuthorityStore) (world : AuthorityWorld) (request : AuthCall)
    (answer : Answer) : Decidable (AuthorityAdmits store world request answer) := by
  unfold AuthorityAdmits
  cases request <;> infer_instance

end Zuse.CloudAuth
