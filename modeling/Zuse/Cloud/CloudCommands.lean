import Mathlib.Algebra.Order.Ring.Unbundled.Rat
import Zuse.Domain.Contracts

namespace Zuse.Cloud

open Zuse.Domain (Millis Number)

/-! Contracts of the cloud command mailbox, and the registry of the command kinds that
it takes. -/

abbrev CommandId := String

abbrev LeaseToken := String

def maxEnvelopeBytes : Nat := 256 * 1024

def maxNonterminal : Nat := 256

def maxMailboxBytes : Nat := 8 * 1024 * 1024

def watchMaxChanges : Nat := 100

def leaseTtlMs : Int := 30000

/-- `Number.isSafeInteger`. -/
def isSafeInteger (value : Number) : Bool :=
  value.den = 1 ∧ value.num.natAbs ≤ 9007199254740991

inductive CloudCommandState where
  | reserved
  | accepted
  | waitingForRuntime
  | leased
  | leaseExpiredAwaitingFence
  | blocked
  | applied
  | rejected
  | expired
  | cancelled
  | outcomeUnknown
  deriving DecidableEq

namespace CloudCommandState

def isTerminal : CloudCommandState → Bool
  | .applied | .rejected | .expired | .cancelled | .outcomeUnknown => true
  | _ => false

def isHeld : CloudCommandState → Bool
  | .leased | .leaseExpiredAwaitingFence => true
  | _ => false

def isLeasable : CloudCommandState → Bool
  | .accepted | .waitingForRuntime => true
  | _ => false

def isPending : CloudCommandState → Bool
  | .accepted | .waitingForRuntime | .blocked => true
  | _ => false

end CloudCommandState

structure CloudCommandDependency where
  blobId : String
  ciphertextBytes : Number
  ciphertextSha256 : String
  keyVersion : Number
  expiresAt : Number
  deriving DecidableEq

structure WorkspaceActor where
  subject : String
  membershipId : String
  deriving DecidableEq

/-- Opaque command. Client routing metadata is authenticated. -/
structure CloudCommandEnvelope where
  protocolVersion : Number
  workspaceId : String
  sessionId : String
  commandId : CommandId
  kind : String
  fingerprint : String
  schemaVersion : Number
  keyVersion : Number
  destructionFence : Number
  createdAt : Number
  iv : String
  ciphertext : String
  dependencies : List CloudCommandDependency
  actor : Option WorkspaceActor
  deriving DecidableEq

/-- The array whose JSON text identifies a command. -/
structure CommandIdentity where
  protocolVersion : Number
  workspaceId : String
  sessionId : String
  commandId : CommandId
  kind : String
  fingerprint : String
  schemaVersion : Number
  keyVersion : Number
  destructionFence : Number
  createdAt : Number
  dependencies : List CloudCommandDependency
  actor : Option WorkspaceActor
  deriving DecidableEq

def commandIdentity (envelope : CloudCommandEnvelope) : CommandIdentity where
  protocolVersion := envelope.protocolVersion
  workspaceId := envelope.workspaceId
  sessionId := envelope.sessionId
  commandId := envelope.commandId
  kind := envelope.kind
  fingerprint := envelope.fingerprint
  schemaVersion := envelope.schemaVersion
  keyVersion := envelope.keyVersion
  destructionFence := envelope.destructionFence
  createdAt := envelope.createdAt
  dependencies := envelope.dependencies
  actor := envelope.actor

structure CommandStatus where
  commandId : CommandId
  workspaceSequence : Nat
  revision : Nat
  fingerprint : String
  state : CloudCommandState
  everLeased : Bool
  updatedAt : Millis
  acceptedAt : Option Millis
  category : Option String
  blockedUntil : Option String
  resultIv : Option String
  resultCiphertext : Option String
  deriving DecidableEq

structure CommandChangePage where
  changes : List CommandStatus
  nextRevision : Nat
  resetRequired : Bool
  deriving DecidableEq

structure RuntimeLease where
  command : Option CloudCommandEnvelope
  workspaceSequence : Nat
  leaseToken : LeaseToken
  leaseDeadline : Millis
  runtimeGeneration : Number
  providerSandboxId : String
  storageIncarnationId : String
  deriving DecidableEq

inductive AcknowledgedState where
  | applied
  | rejected
  | expired
  | outcomeUnknown

@[simp] def AcknowledgedState.commandState : AcknowledgedState → CloudCommandState
  | .applied => .applied
  | .rejected => .rejected
  | .expired => .expired
  | .outcomeUnknown => .outcomeUnknown

structure RuntimeAcknowledgment where
  commandId : CommandId
  leaseToken : LeaseToken
  fingerprint : String
  state : AcknowledgedState
  category : Option String
  resultIv : Option String
  resultCiphertext : Option String

inductive CloudCommandDependencies where
  | none
  | encryptedAttachments
  deriving DecidableEq

inductive CloudCommandLaneKind where
  | session

structure CloudCommandEligibility where
  kind : String
  schemaVersion : Number
  lane : CloudCommandLaneKind
  dependencies : CloudCommandDependencies

def cloudCommandEligibilities : List CloudCommandEligibility :=
  [{ kind := "messages.send", schemaVersion := 1, lane := .session, dependencies := .none }]

def cloudCommandEligibility (kind : String) : Option CloudCommandEligibility :=
  cloudCommandEligibilities.find? (·.kind = kind)

def cloudCommandEnvelopeEligibility (envelope : CloudCommandEnvelope) :
    Option CloudCommandEligibility :=
  (cloudCommandEligibility envelope.kind).filter fun eligibility =>
    envelope.schemaVersion = eligibility.schemaVersion &&
      (eligibility.dependencies ≠ .none || envelope.dependencies.length = 0)

/-- Lanes are derived from authenticated envelope metadata, never payload. -/
def cloudCommandLane (envelope : CloudCommandEnvelope) : Option String :=
  (cloudCommandEnvelopeEligibility envelope).map fun eligibility =>
    match eligibility.lane with
    | .session => "session:" ++ envelope.sessionId

end Zuse.Cloud
