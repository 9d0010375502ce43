import Zuse.CloudAuth.AuthorityStore
import Zuse.Data.Scripts
import Zuse.Data.Text

namespace Zuse.CloudAuth

open Data (Script)

/-! What the operations on an account's login authority do, one call at a time. -/

def authProvisioningLeaseMs : Int := 2 * 60 * 1000

def codexExternalAuthToolchainVersion : String := "0.155.1"

def grokExternalAuthToolchainVersion : String := "1.0.13"

def authHome : String := "/home/zuse/.zuse/cloud-auth"

def authPublicJwk : String := authHome ++ "/public.jwk.json"

def authKeyId : String := authHome ++ "/key-id"

def authStorageIncarnationId : String := authHome ++ "/storage-incarnation-id"

def authCodexToolchainVersion : String := authHome ++ "/codex-toolchain-version"

def authGrokToolchainVersion : String := authHome ++ "/grok-toolchain-version"

def authPrivateKey : String := authHome ++ "/private.pem"

def authBootstrapVersion : String := authHome ++ "/bootstrap-version"

def authBootstrapFiles : List String :=
  ["initialize.mjs", "configure.mjs", "login.mjs", "cancel.mjs", "verify.mjs",
    "codex-grant.mjs"].map fun name => authHome ++ "/bootstrap/" ++ name

inductive SandboxState where
  | running
  | paused
  deriving DecidableEq

structure ProviderSandbox where
  providerSandboxId : String
  state : SandboxState

/-- The adapter of a provider; not every one runs processes to their end. -/
structure SandboxProvider where
  providerId : String
  runsProcesses : Bool

structure Authority where
  provider : SandboxProvider
  sandboxId : String
  storageIncarnationId : String
  authEpoch : Nat
  state : SandboxState

/-- The sandbox and the storage that an authority is. -/
structure AuthorityPlace where
  sandboxId : String
  storageIncarnationId : String
  deriving DecidableEq

def Authority.place (authority : Authority) : AuthorityPlace :=
  ⟨authority.sandboxId, authority.storageIncarnationId⟩

/-- The labels by which a sandbox is found: the stable one, and the one before it. -/
inductive AuthorityLabel where
  | stable
  | legacy

/-- What is written to a file of the bootstrap. -/
inductive BootstrapText where
  | blank
  | source
  | version

/-- What a status file of a provider says, as far as it is recognised. -/
structure StatusFile where
  method : Option CloudAuthMethod := none
  state : Option CloudAuthProviderState := none
  verifiedAt : Option Int := none

structure ProcessResult where
  exitCode : Int
  stdout : String

/-- The calls to the provider of the sandbox, to the store and to the clock. A save of a
status names the place that it was read from, and `handOut` the claim under which an
authority was stored that is handed out now; no operation reads these. -/
inductive AuthCall where
  | getProvider (providerId : Option String)
  | inspect (sandboxId : String)
  | recoverByLabel (label : AuthorityLabel)
  | create (label : AuthorityLabel) (sandboxName : String)
  | extendTimeout (sandboxId : String)
  | resume (sandboxId : String)
  | runProcess (sandboxId storageIncarnationId : String)
  | readTextFile (sandboxId path : String)
  | readStatusFile (sandboxId : String) (providerId : CloudAuthProvider)
  | pathExists (sandboxId path : String)
  | writeTextFile (sandboxId path : String) (text : BootstrapText)
  | startProcess (sandboxId tag : String)
  | sleep
  | randomUUID
  | now
  | getCloudAuthAuthority
  | claimCloudAuthAuthority (input : ClaimInput)
  | completeCloudAuthAuthorityProvisioning (input : CompletionInput)
  | advanceCloudAuthEpoch (providerSandboxId : String) (nowMs : Int)
  | saveCloudAuthStatus (expectedRevision : Nat) (status : CloudAuthStatus)
      (readFrom : AuthorityPlace)
  | handOut (leaseOwner : String)

abbrev ProviderResult (α : Type) := Option α

abbrev AuthCall.Reply : AuthCall → Type
  | .getProvider _ => ProviderResult SandboxProvider
  | .inspect _ => ProviderResult (Option ProviderSandbox)
  | .recoverByLabel _ => ProviderResult (Option ProviderSandbox)
  | .create .. => ProviderResult ProviderSandbox
  | .extendTimeout _ => Bool
  | .resume _ => ProviderResult SandboxState
  | .runProcess .. => ProviderResult ProcessResult
  | .readTextFile .. => ProviderResult String
  | .readStatusFile .. => ProviderResult (Option StatusFile)
  | .pathExists .. => ProviderResult Bool
  | .writeTextFile .. => Bool
  | .startProcess .. => Bool
  | .sleep => Unit
  | .randomUUID => String
  | .now => Int
  | .getCloudAuthAuthority => Option CloudAuthAuthorityRecord
  | .claimCloudAuthAuthority _ => CloudAuthAuthorityClaim
  | .completeCloudAuthAuthorityProvisioning _ => Option CloudAuthAuthorityRecord
  | .advanceCloudAuthEpoch .. => Option CloudAuthAuthorityRecord
  | .saveCloudAuthStatus .. => Unit
  | .handOut _ => Unit

abbrev AuthScript := Script AuthCall AuthCall.Reply

/-- A part of an operation: it ends with a value or is answered with an error. -/
abbrev AuthTask := ExceptT String AuthScript

namespace AuthTask

def ask (request : AuthCall) : AuthTask request.Reply := ExceptT.lift (Script.perform request)

def provided {α : Type} (code : String) (result : ProviderResult α) : AuthTask α :=
  match result with
  | some value => pure value
  | none => throw code

def succeeded (code : String) (success : Bool) : AuthTask Unit :=
  if success then pure () else throw code

def retried (code : String) (attempt : AuthTask Bool) : Nat → AuthTask Unit
  | 0 => attempt >>= succeeded code
  | retries + 1 => do
      if ← attempt then pure ()
      else
        ask .sleep
        retried code attempt retries

def authStartupRetries : Nat := 20

end AuthTask

namespace Authority

open AuthTask

def readOptional (authority : Authority) (path : String) : AuthTask (Option String) := do
  let value ← ask (.readTextFile authority.sandboxId path)
  pure (value.map Data.trim)

def waitForFile (authority : Authority) (path : String) : Nat → AuthTask String
  | 0 => throw "cloud_auth_operation_timeout"
  | attempts + 1 => do
      match (← authority.readOptional path).filter (· ≠ "") with
      | some value => pure value
      | none =>
        ask .sleep
        waitForFile authority path attempts

def holdsText (value : Option String) : Bool := value.any (· ≠ "")

section Bootstrap

variable (version : String) (authority : Authority)

/-- Whether a sandbox has the current bootstrap and the storage that is expected of it. -/
def bootstrapReady : AuthTask Bool :=
  if authority.provider.runsProcesses then do
    let result ← provided "cloud_auth_unavailable"
      (← ask (.runProcess authority.sandboxId authority.storageIncarnationId))
    if result.exitCode ≠ 0 ∨ (result.stdout ≠ "ready" ∧ result.stdout ≠ "repair") then
      throw "cloud_auth_unavailable"
    else pure (result.stdout = "ready")
  else do
    let installedVersion ← authority.readOptional authBootstrapVersion
    let existingIncarnation ← authority.readOptional authStorageIncarnationId
    let existingKey ← authority.readOptional authKeyId
    let existingPublicKey ← authority.readOptional authPublicJwk
    if installedVersion = some version ∧ existingIncarnation = some authority.storageIncarnationId ∧
        holdsText existingKey ∧ holdsText existingPublicKey then do
      let found ← ask (.pathExists authority.sandboxId authPrivateKey)
      pure (found.getD false)
    else pure false

def uploadBootstrap : List String → AuthTask Unit
  | [] => pure ()
  | path :: rest => do
      retried "cloud_auth_initialize_failed"
        (ask (.writeTextFile authority.sandboxId path .source)) authStartupRetries
      uploadBootstrap rest

def namesVersion (text version : String) : Bool :=
  (text.toList.splitOnP Data.isSpace).contains version.toList

def includes (text part : String) : Bool := text.toList.tails.any (part.toList.isPrefixOf ·)

def initializeAuthority : AuthTask Authority := do
  if ← bootstrapReady version authority then pure authority
  else
    succeeded "cloud_auth_initialize_failed"
      (← ask (.writeTextFile authority.sandboxId authBootstrapVersion .blank))
    let operation ← ask .randomUUID
    authority.uploadBootstrap authBootstrapFiles
    retried "cloud_auth_initialize_failed"
      (ask (.startProcess authority.sandboxId "zuse-cloud-auth-initialize"))
      authStartupRetries
    let _ ← authority.waitForFile
      (authHome ++ "/operations/initialize-" ++ operation ++ ".done") 1200
    let _ ← authority.waitForFile authKeyId 100
    let storageIncarnationId ← authority.waitForFile authStorageIncarnationId 100
    let codexToolchainVersion ← authority.waitForFile authCodexToolchainVersion 100
    if namesVersion codexToolchainVersion codexExternalAuthToolchainVersion then
      let grokVersion ← authority.readOptional authGrokToolchainVersion
      if grokVersion.any (includes · grokExternalAuthToolchainVersion) then
        succeeded "cloud_auth_initialize_failed"
          (← ask (.writeTextFile authority.sandboxId authBootstrapVersion .version))
        pure { authority with storageIncarnationId }
      else pure { authority with storageIncarnationId }
    else throw "codex-auth-update-required"

def ensureRunning : AuthTask Authority :=
  match authority.state with
  | .running => do
      succeeded "cloud_auth_unavailable" (← ask (.extendTimeout authority.sandboxId))
      pure authority
  | .paused => do
      let state ← provided "cloud_auth_unavailable" (← ask (.resume authority.sandboxId))
      pure { authority with state }

end Bootstrap

end Authority

section Provisioning

open AuthTask Authority

variable (version accountId : String)

def authorityProvider : AuthTask SandboxProvider := do
  provided "cloud_auth_provider_unavailable" (← ask (.getProvider none))

def providerForAuthority (locator : Option CloudAuthAuthorityRecord) :
    AuthTask SandboxProvider :=
  match locator with
  | none => authorityProvider
  | some record => do
      provided "cloud_auth_provider_unavailable" (← ask (.getProvider (some record.provider)))

/-- The authority of a recorded sandbox, where the provider still has that one. -/
def recordedAuthority (locator : CloudAuthAuthorityRecord) (provider : SandboxProvider)
    (providerSandboxId : String) : AuthTask (Option Authority) := do
  let sandbox ← provided "cloud_auth_unavailable" (← ask (.inspect providerSandboxId))
  pure (sandbox.map fun sandbox =>
    { provider
      sandboxId := sandbox.providerSandboxId
      state := sandbox.state
      storageIncarnationId := locator.storageIncarnationId
      authEpoch := locator.authEpoch })

def claimInput (provider : SandboxProvider) (candidate leaseOwner : String) (nowMs : Int)
    (replaceReady : Bool) : ClaimInput where
  accountId
  provider := provider.providerId
  candidateStorageIncarnationId := candidate
  toolchainVersion := codexExternalAuthToolchainVersion
  leaseOwner
  nowMs
  leaseExpiresAtMs := nowMs + authProvisioningLeaseMs
  replaceReady

def completionInput (sandboxId : String) (initialized : Authority) (leaseOwner : String)
    (nowMs : Int) : CompletionInput where
  providerSandboxId := sandboxId
  storageIncarnationId := initialized.storageIncarnationId
  toolchainVersion := codexExternalAuthToolchainVersion
  leaseOwner
  nowMs

/-- A sandbox that was found by its label becomes the authority of the account. -/
def adoptAuthority (provider : SandboxProvider) (sandbox : ProviderSandbox) :
    AuthTask (Option Authority) := do
  let candidate ← ask .randomUUID
  let initialized ← initializeAuthority version
    { provider
      sandboxId := sandbox.providerSandboxId
      state := sandbox.state
      storageIncarnationId := candidate
      authEpoch := 1 }
  let leaseOwner ← ask .randomUUID
  let nowMs ← ask .now
  let claim ← ask (.claimCloudAuthAuthority (claimInput accountId provider
    initialized.storageIncarnationId leaseOwner nowMs false))
  if claim.acquired then
    let completedAtMs ← ask .now
    match ← ask (.completeCloudAuthAuthorityProvisioning
        (completionInput sandbox.providerSandboxId initialized leaseOwner completedAtMs)) with
    | none => pure none
    | some record =>
      if record.providerSandboxId = some sandbox.providerSandboxId then
        ask (.handOut leaseOwner)
        pure (some { initialized with
          storageIncarnationId := record.storageIncarnationId
          authEpoch := record.authEpoch })
      else pure none
  else if claim.record.providerSandboxId = some sandbox.providerSandboxId then
    pure (some { initialized with
      storageIncarnationId := claim.record.storageIncarnationId
      authEpoch := claim.record.authEpoch })
  else pure none

def recoverByLabels : AuthTask (Option ProviderSandbox) := do
  match ← provided "cloud_auth_unavailable" (← ask (.recoverByLabel .stable)) with
  | some sandbox => pure (some sandbox)
  | none => provided "cloud_auth_unavailable" (← ask (.recoverByLabel .legacy))

def recoverAuthority (existingOnly : Bool) : AuthTask (Option Authority) := do
  let locator ← ask .getCloudAuthAuthority
  if existingOnly && !(locator.any fun record =>
      record.state = .ready && record.providerSandboxId.isSome) then
    pure none
  else
    let provider ← providerForAuthority locator
    match locator.bind fun record => record.providerSandboxId.map fun id => (record, id) with
    | some (record, id) => recordedAuthority record provider id
    | none =>
      match ← recoverByLabels with
      | none => pure none
      | some sandbox => adoptAuthority version accountId provider sandbox

def awaitWinner : Nat → AuthTask Authority
  | 0 => throw "cloud_auth_reconnect_required"
  | attempts + 1 => do
      ask .sleep
      match ← recoverAuthority version accountId false with
      | some winner => do initializeAuthority version (← ensureRunning winner)
      | none => awaitWinner attempts

def establishAuthority (provider : SandboxProvider) (claim : CloudAuthAuthorityClaim)
    (leaseOwner : String) : AuthTask Authority := do
  let concurrent ← provided "cloud_auth_unavailable" (← ask (.recoverByLabel .stable))
  let sandboxName ← ask .randomUUID
  let created ← (match concurrent with
    | some sandbox => pure sandbox
    | none => do
        provided "cloud_auth_provision_failed" (← ask (.create .stable sandboxName)) :
          AuthTask ProviderSandbox)
  let running ← ensureRunning
    { provider
      sandboxId := created.providerSandboxId
      state := created.state
      storageIncarnationId := claim.record.storageIncarnationId
      authEpoch := claim.record.authEpoch }
  let initialized ← initializeAuthority version running
  let nowMs ← ask .now
  match ← ask (.completeCloudAuthAuthorityProvisioning
      (completionInput created.providerSandboxId initialized leaseOwner nowMs)) with
  | none => throw "cloud_auth_provision_conflict"
  | some record =>
    ask (.handOut leaseOwner)
    pure { initialized with
      storageIncarnationId := record.storageIncarnationId
      authEpoch := record.authEpoch }

/-- Claim the account and make its authority, or wait for the one of another claim. -/
def replaceAuthority (allowLostReplacement : Bool) : AuthTask Authority := do
  let provider ← authorityProvider
  let locator ← ask .getCloudAuthAuthority
  let replacingLostAuthority := locator.any fun record => record.state = .ready
  if replacingLostAuthority && !allowLostReplacement then
    throw "codex-auth-reconnect-required"
  else
    let leaseOwner ← ask .randomUUID
    let nowMs ← ask .now
    let candidate ← ask .randomUUID
    let claim ← ask (.claimCloudAuthAuthority (claimInput accountId provider candidate
      leaseOwner nowMs replacingLostAuthority))
    if claim.acquired then establishAuthority version provider claim leaseOwner
    else awaitWinner version accountId 40

def provisionAuthority (allowLostReplacement : Bool) : AuthTask Authority := do
  match ← recoverAuthority version accountId false with
  | none => replaceAuthority version accountId allowLostReplacement
  | some recovered =>
    let running ← ensureRunning recovered
    let initialized ← initializeAuthority version running
    if initialized.storageIncarnationId = recovered.storageIncarnationId then
      pure initialized
    else if allowLostReplacement then
      replaceAuthority version accountId allowLostReplacement
    else throw "codex-auth-reconnect-required"

def decodeProviderStatus (providerId : CloudAuthProvider)
    (value : ProviderResult (Option StatusFile)) : CloudAuthProviderStatus :=
  match value with
  | none => { providerId, state := .disconnected }
  | some none => { providerId, state := .error, errorCode := some "invalid-authority-state" }
  | some (some parsed) =>
    { providerId
      state := parsed.state.getD .error
      method := parsed.method
      verifiedAt := parsed.verifiedAt }

def cloudAuthProviders : List CloudAuthProvider := [.claude, .codex, .cursor, .grok]

def unreadStatus (authorityState : CloudAuthAuthorityState) (state : CloudAuthProviderState)
    (errorCode : Option String) (updatedAt : Option Int) : CloudAuthStatus where
  authorityState
  providers := cloudAuthProviders.map fun providerId => { providerId, state, errorCode }
  updatedAt

def verifyProviders (authority : Authority) : AuthTask Unit := do
  let verificationId ← ask .randomUUID
  let _ ← ask (.startProcess authority.sandboxId ("zuse-cloud-auth-verify-" ++ verificationId))
  tryCatch
    (do
      let _ ← authority.waitForFile
        (authHome ++ "/operations/verify-" ++ verificationId ++ ".done") 350)
    fun _ => pure ()

def readProviders (authority : Authority) :
    List CloudAuthProvider → AuthTask (List CloudAuthProviderStatus)
  | [] => pure []
  | providerId :: rest => do
      let value ← ask (.readStatusFile authority.sandboxId providerId)
      let others ← readProviders authority rest
      pure (decodeProviderStatus providerId value :: others)

/-- Read the status of an authority and save it where the record is as it was observed. -/
def readStatusFiles (authority : Authority)
    (observedLocator : Option CloudAuthAuthorityRecord) : AuthTask CloudAuthStatus := do
  let keyId ← authority.readOptional authKeyId
  let publicJwk ← authority.readOptional authPublicJwk
  let providers ← readProviders authority cloudAuthProviders
  let nowMs ← ask .now
  let status : CloudAuthStatus :=
    { authorityState := if keyId.isNone || publicJwk.isNone then .error else .ready
      providers
      encryptionKeyId := keyId
      encryptionPublicJwk := publicJwk
      updatedAt := some nowMs }
  match observedLocator.filter fun observed =>
      observed.storageIncarnationId = authority.storageIncarnationId &&
        observed.providerSandboxId = some authority.sandboxId &&
        status.authorityState = .ready with
  | some observed => do
      ask (.saveCloudAuthStatus observed.revision status authority.place)
      pure status
  | none => pure status

def readAuthorityStatus (verify wake : Bool) (recovered : Authority) :
    AuthTask CloudAuthStatus :=
  if !wake && recovered.state ≠ .running then do
    let nowMs ← ask .now
    pure (unreadStatus .error .error (some "cloud_auth_status_refresh_required") (some nowMs))
  else do
    let authority ← (if wake then do initializeAuthority version (← ensureRunning recovered)
      else pure recovered : AuthTask Authority)
    let observedLocator ← ask .getCloudAuthAuthority
    if authority.storageIncarnationId ≠ recovered.storageIncarnationId then do
      let nowMs ← ask .now
      pure (unreadStatus .error .error (some "codex-auth-reconnect-required") (some nowMs))
    else do
      if verify then
        verifyProviders authority
        readStatusFiles authority observedLocator
      else readStatusFiles authority observedLocator

def readCloudAuthStatus (verify wake : Bool) : AuthTask CloudAuthStatus := do
  let locator ← ask .getCloudAuthAuthority
  if !wake && locator.isNone then do
    let nowMs ← ask .now
    pure (unreadStatus .notCreated .disconnected none (some nowMs))
  else
    match ← recoverAuthority version accountId false with
    | none => pure (unreadStatus .notCreated .disconnected none none)
    | some recovered => readAuthorityStatus version verify wake recovered

inductive LoginProvider where
  | codex
  | grok

def startCloudAuthLogin (providerId : LoginProvider) : AuthTask Unit := do
  let authority ← provisionAuthority version accountId true
  match providerId with
  | .codex => do
      let nowMs ← ask .now
      let _ ← ask (.advanceCloudAuthEpoch authority.sandboxId nowMs)
  | .grok => pure ()
  let operationId ← ask .randomUUID
  succeeded "cloud_auth_login_failed"
    (← ask (.startProcess authority.sandboxId ("zuse-cloud-auth-login-" ++ operationId)))

end Provisioning

end Zuse.CloudAuth
