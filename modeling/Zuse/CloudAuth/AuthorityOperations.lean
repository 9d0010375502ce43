import Zuse.CloudAuth.AuthorityRules

namespace Zuse.CloudAuth

open AuthTask Authority
open Data (Script)
open AuthTask.Makes (keepsThen)

section Parts

variable {version accountId : String} {authority : Authority}

theorem makes_readOptional (path : String) : (authority.readOptional path).Makes AuthCall.Plain :=
  makes_call trivial fun _ => makes_pure _

theorem makes_waitForFile (path : String) (attempts : Nat) :
    (authority.waitForFile path attempts).Makes AuthCall.Plain := by
  induction attempts with
  | zero => exact makes_throw _
  | succ attempts ih =>
    refine (makes_readOptional path).bind fun value => ?_
    split
    · exact makes_pure _
    · exact makes_call trivial fun _ => ih

theorem makes_bootstrapReady : (bootstrapReady version authority).Makes AuthCall.Plain := by
  unfold bootstrapReady
  split
  · refine makes_call trivial fun reply => (makes_provided _ reply).bind fun result => ?_
    split
    · exact makes_throw _
    · exact makes_pure _
  refine (makes_readOptional _).bind fun _ => (makes_readOptional _).bind fun _ => ?_
  refine (makes_readOptional _).bind fun _ => (makes_readOptional _).bind fun _ => ?_
  split
  · exact makes_call trivial fun _ => makes_pure _
  · exact makes_pure _

theorem makes_uploadBootstrap (paths : List String) :
    (authority.uploadBootstrap paths).Makes AuthCall.Plain := by
  induction paths with
  | nil => exact makes_pure ()
  | cons path rest ih =>
    exact (makes_retried _ (makes_ask trivial) _).bind fun _ => ih

theorem makes_initializeAuthority :
    (initializeAuthority version authority).Makes AuthCall.Plain := by
  refine makes_bootstrapReady.bind fun ready => ?_
  split
  · exact makes_pure _
  refine makes_call trivial fun written => (makes_succeeded _ written).bind fun _ => ?_
  refine makes_call trivial fun operation => (makes_uploadBootstrap _).bind fun _ => ?_
  refine (makes_retried _ (makes_ask trivial) _).bind fun _ => ?_
  refine (makes_waitForFile _ _).bind fun _ => (makes_waitForFile _ _).bind fun _ => ?_
  refine (makes_waitForFile _ _).bind fun _ => (makes_waitForFile _ _).bind fun _ => ?_
  split
  · refine (makes_readOptional _).bind fun _ => ?_
    split
    · exact makes_call trivial fun written =>
        (makes_succeeded _ written).bind fun _ => makes_pure _
    · exact makes_pure _
  · exact makes_throw _

theorem makes_ensureRunning : (ensureRunning authority).Makes AuthCall.Plain := by
  unfold ensureRunning
  split
  · exact makes_call trivial fun extended =>
      (makes_succeeded _ extended).bind fun _ => makes_pure _
  · exact makes_call trivial fun resumed =>
      (makes_provided _ resumed).bind fun _ => makes_pure _

theorem makes_authorityProvider : authorityProvider.Makes AuthCall.Plain :=
  makes_call trivial fun reply => makes_provided _ reply

theorem makes_providerForAuthority (locator : Option CloudAuthAuthorityRecord) :
    (providerForAuthority locator).Makes AuthCall.Plain := by
  cases locator with
  | none => exact makes_authorityProvider
  | some record => exact makes_call trivial fun reply => makes_provided _ reply

theorem makes_recordedAuthority (locator : CloudAuthAuthorityRecord)
    (provider : SandboxProvider) (providerSandboxId : String) :
    (recordedAuthority locator provider providerSandboxId).Makes AuthCall.Plain :=
  makes_call trivial fun reply => (makes_provided _ reply).bind fun _ => makes_pure _

theorem makes_recoverByLabels : recoverByLabels.Makes AuthCall.Plain := by
  refine makes_call trivial fun reply => (makes_provided _ reply).bind fun stable => ?_
  cases stable with
  | some sandbox => exact makes_pure _
  | none => exact makes_call trivial fun reply => makes_provided _ reply

theorem makes_verifyProviders : (verifyProviders authority).Makes AuthCall.Plain := by
  refine makes_call trivial fun verificationId => makes_call trivial fun _ => ?_
  exact makes_tryCatch ((makes_waitForFile _ _).bind fun _ => makes_pure ()) fun _ => makes_pure ()

theorem makes_readProviders (providers : List CloudAuthProvider) :
    (readProviders authority providers).Makes AuthCall.Plain := by
  induction providers with
  | nil => exact makes_pure _
  | cons providerId rest ih =>
    exact makes_call trivial fun _ => ih.bind fun _ => makes_pure _

theorem makes_adoptAuthority (provider : SandboxProvider) (sandbox : ProviderSandbox) :
    (adoptAuthority version accountId provider sandbox).Makes AuthCall.Unsaving := by
  refine makes_call trivial fun candidate => makes_initializeAuthority.unsaving.bind ?_
  intro initialized
  refine makes_call trivial fun leaseOwner => makes_call trivial fun nowMs => ?_
  refine makes_call trivial fun claim => ?_
  split
  · refine makes_call trivial fun completedAtMs => makes_call trivial fun record => ?_
    split
    · exact makes_pure _
    · split
      · exact makes_call trivial fun _ => makes_pure _
      · exact makes_pure _
  · split
    · exact makes_pure _
    · exact makes_pure _

theorem makes_recoverAuthority (existingOnly : Bool) :
    (recoverAuthority version accountId existingOnly).Makes AuthCall.Unsaving := by
  refine makes_call trivial fun locator => ?_
  split
  · exact makes_pure _
  refine (makes_providerForAuthority _).unsaving.bind fun provider => ?_
  split
  · exact (makes_recordedAuthority _ _ _).unsaving
  · refine makes_recoverByLabels.unsaving.bind fun found => ?_
    cases found with
    | none => exact makes_pure _
    | some sandbox => exact makes_adoptAuthority provider sandbox

theorem makes_awaitWinner (attempts : Nat) :
    (awaitWinner version accountId attempts).Makes AuthCall.Unsaving := by
  induction attempts with
  | zero => exact makes_throw _
  | succ attempts ih =>
    refine makes_call trivial fun _ => (makes_recoverAuthority false).bind fun winner => ?_
    cases winner with
    | none => exact ih
    | some winner =>
      exact makes_ensureRunning.unsaving.bind fun _ => makes_initializeAuthority.unsaving

theorem makes_establishAuthority (provider : SandboxProvider)
    (claim : CloudAuthAuthorityClaim) (leaseOwner : String) :
    (establishAuthority version provider claim leaseOwner).Makes AuthCall.Unsaving := by
  refine makes_call trivial fun reply => (makes_provided _ reply).bind fun concurrent => ?_
  refine makes_call trivial fun sandboxName => ?_
  refine AuthTask.Makes.bind ?_ fun created => ?_
  · cases concurrent with
    | some sandbox => exact makes_pure _
    | none => exact makes_call trivial fun reply => makes_provided _ reply
  refine makes_ensureRunning.unsaving.bind fun running => ?_
  refine makes_initializeAuthority.unsaving.bind fun initialized => ?_
  refine makes_call trivial fun nowMs => makes_call trivial fun record => ?_
  cases record with
  | none => exact makes_throw _
  | some record => exact makes_call trivial fun _ => makes_pure _

theorem makes_replaceAuthority (allowLostReplacement : Bool) :
    (replaceAuthority version accountId allowLostReplacement).Makes AuthCall.Unsaving := by
  refine makes_authorityProvider.unsaving.bind fun provider => ?_
  refine makes_call trivial fun locator => ?_
  dsimp only
  split
  · exact makes_throw _
  refine makes_call trivial fun leaseOwner => makes_call trivial fun nowMs => ?_
  refine makes_call trivial fun candidate => makes_call trivial fun claim => ?_
  split
  · exact makes_establishAuthority provider claim leaseOwner
  · exact makes_awaitWinner 40

theorem makes_provisionAuthority (allowLostReplacement : Bool) :
    (provisionAuthority version accountId allowLostReplacement).Makes AuthCall.Unsaving := by
  refine (makes_recoverAuthority false).bind fun recovered => ?_
  cases recovered with
  | none => exact makes_replaceAuthority allowLostReplacement
  | some recovered =>
    refine makes_ensureRunning.unsaving.bind fun running => ?_
    refine makes_initializeAuthority.unsaving.bind fun initialized => ?_
    split
    · exact makes_pure _
    · split
      · exact makes_replaceAuthority allowLostReplacement
      · exact makes_throw _

theorem makes_startCloudAuthLogin (providerId : LoginProvider) :
    (startCloudAuthLogin version accountId providerId).Makes AuthCall.Unsaving := by
  refine (makes_provisionAuthority true).bind fun authority => ?_
  cases providerId with
  | codex =>
    refine makes_call trivial fun nowMs => makes_call trivial fun _ => ?_
    exact makes_call trivial fun _ => makes_call trivial fun started =>
      makes_succeeded _ started
  | grok =>
    exact makes_call trivial fun _ => makes_call trivial fun started =>
      makes_succeeded _ started

variable {store : AuthorityStore} {operation : AuthorityOperation} {world : AuthorityWorld}

theorem keeps_readStatusFiles {observedLocator : Option CloudAuthAuthorityRecord}
    (since : RowFollows observedLocator world.row) :
    (readStatusFiles authority observedLocator).Keeps store operation (fun _ _ => True)
      world := by
  refine (makes_readOptional _).unsaving.keepsThen fun keyId first firstFollows => ?_
  refine (makes_readOptional _).unsaving.keepsThen fun publicJwk second secondFollows => ?_
  refine (makes_readProviders _).unsaving.keepsThen fun providers third thirdFollows => ?_
  refine keepsThen (makes_ask trivial) fun nowMs fourth fourthFollows => ?_
  have observed := (((since.trans firstFollows).trans secondFollows).trans
    thirdFollows).trans fourthFollows
  dsimp only
  split
  · rename_i record found
    obtain ⟨isObserved, matching⟩ := Option.filter_eq_some_iff.mp found
    rw [isObserved] at observed
    simp only [Bool.and_eq_true, decide_eq_true_eq] at matching
    obtain ⟨⟨storage, sandbox⟩, _⟩ := matching
    intro later follows sound answer _
    rw [← and_assoc]
    refine ⟨saveStatus_keeps sound _ (observed.trans follows) ?_ ?_, trivial⟩
    · exact sandbox
    · exact storage
  · exact trivial

theorem keeps_readAuthorityStatus (verify wake : Bool) (recovered : Authority) :
    (readAuthorityStatus version verify wake recovered).Keeps store operation
      (fun _ _ => True) world := by
  unfold readAuthorityStatus
  split
  · exact keepsThen (makes_ask trivial) fun _ _ _ => trivial
  refine keepsThen ?_ fun authority first _ => ?_
  · split
    · exact (makes_ensureRunning.bind fun _ => makes_initializeAuthority).unsaving
    · exact makes_pure _
  intro observed _ sound answer _
  refine ⟨.refl _, sound, ?_⟩
  split
  · exact keepsThen (makes_ask trivial) fun _ _ _ => trivial
  · split
    · refine makes_verifyProviders.unsaving.keepsThen fun _ later follows => ?_
      exact keeps_readStatusFiles follows
    · exact keeps_readStatusFiles (.refl _)

theorem keeps_readCloudAuthStatus (verify wake : Bool) :
    (readCloudAuthStatus version accountId verify wake).Keeps store operation
      (fun _ _ => True) world := by
  refine keepsThen (makes_ask trivial) fun locator first _ => ?_
  split
  · exact keepsThen (makes_ask trivial) fun _ _ _ => trivial
  · refine (makes_recoverAuthority false).keepsThen fun recovered second _ => ?_
    cases recovered with
    | none => exact trivial
    | some recovered => exact keeps_readAuthorityStatus verify wake recovered

section Spending

variable {held : List AuthorityRight}

/-- A part that spends what it holds or is granted. -/
abbrev Thrifty {α : Type} (task : AuthTask α) : Prop :=
  ∀ held, task.Spends (fun _ _ => True) held

theorem thrifty_pure {α : Type} (value : α) : Thrifty (pure value) := fun _ => trivial

theorem thrifty_throw {α : Type} (code : String) : Thrifty (throw code : AuthTask α) :=
  fun _ => trivial

theorem thrifty_of_makes {α : Type} {task : AuthTask α} (makes : task.Makes AuthCall.Plain) :
    Thrifty task := by
  intro held
  refine Script.Spends.mono ?_ (Script.Makes.spends (fun _ plain => plain.needless) makes held)
  intro result later _
  cases result with
  | ok value | error code => trivial

theorem Thrifty.bind {α β : Type} {task : AuthTask α} {next : α → AuthTask β}
    (first : Thrifty task) (after : ∀ value, Thrifty (next value)) :
    Thrifty (task >>= next) := by
  intro held
  refine AuthTask.Spends.bind (Script.Spends.mono ?_ (first held))
  intro result later _
  cases result with
  | ok value => exact after value later
  | error code => trivial

theorem thrifty_call {β : Type} {request : AuthCall} {next : request.Reply → AuthTask β}
    (plain : request.Plain) (after : ∀ reply, Thrifty (next reply)) :
    Thrifty (ask request >>= next) :=
  Thrifty.bind (thrifty_of_makes (makes_ask plain)) after

theorem thrifty_adoptAuthority (provider : SandboxProvider) (sandbox : ProviderSandbox) :
    Thrifty (adoptAuthority version accountId provider sandbox) := by
  refine thrifty_call trivial fun candidate => ?_
  refine Thrifty.bind (thrifty_of_makes makes_initializeAuthority) fun initialized held => ?_
  refine spends_randomUUID fun leaseOwner first _ owns => ?_
  refine spends_plain trivial fun nowMs second within => ?_
  refine spends_plain trivial fun claim third beyond => ?_
  have stillOwns := beyond (within owns)
  split
  · refine spends_plain trivial fun completedAtMs fourth further => ?_
    refine spends_complete (further stillOwns) (fun later => thrifty_pure _ later) ?_
    intro record later may
    show AuthTask.Spends (if _ then _ else _) _ later
    split
    · exact spends_handOut may (thrifty_pure _)
    · exact thrifty_pure _ later
  · split
    · exact thrifty_pure _ third
    · exact thrifty_pure _ third

theorem thrifty_recoverAuthority (existingOnly : Bool) :
    Thrifty (recoverAuthority version accountId existingOnly) := by
  refine thrifty_call trivial fun locator => ?_
  split
  · exact thrifty_pure _
  refine Thrifty.bind (thrifty_of_makes (makes_providerForAuthority _)) fun provider => ?_
  split
  · exact thrifty_of_makes (makes_recordedAuthority _ _ _)
  · refine Thrifty.bind (thrifty_of_makes makes_recoverByLabels) fun found => ?_
    cases found with
    | none => exact thrifty_pure _
    | some sandbox => exact thrifty_adoptAuthority provider sandbox

theorem thrifty_awaitWinner (attempts : Nat) :
    Thrifty (awaitWinner version accountId attempts) := by
  induction attempts with
  | zero => exact thrifty_throw _
  | succ attempts ih =>
    refine thrifty_call trivial fun _ => ?_
    refine Thrifty.bind (thrifty_recoverAuthority false) fun winner => ?_
    cases winner with
    | none => exact ih
    | some winner =>
      exact thrifty_of_makes (makes_ensureRunning.bind fun _ => makes_initializeAuthority)

theorem spends_establishAuthority {provider : SandboxProvider}
    {claim : CloudAuthAuthorityClaim} {leaseOwner : String}
    (owns : .complete leaseOwner ∈ held) :
    (establishAuthority version provider claim leaseOwner).Spends (fun _ _ => True) held := by
  refine spends_plain trivial fun reply first within => ?_
  refine (makes_provided _ reply).spendsThen fun concurrent second beyond => ?_
  refine spends_plain trivial fun sandboxName third further => ?_
  refine AuthTask.Makes.spendsThen ?_ fun created fourth onward => ?_
  · cases concurrent with
    | some sandbox => exact makes_pure _
    | none => exact makes_call trivial fun reply => makes_provided _ reply
  refine makes_ensureRunning.spendsThen fun running fifth runs => ?_
  refine makes_initializeAuthority.spendsThen fun initialized sixth set => ?_
  refine spends_plain trivial fun nowMs seventh last => ?_
  have stillOwns := last (set (runs (onward (further (beyond (within owns))))))
  refine spends_complete stillOwns (fun later => thrifty_throw _ later) ?_
  intro record later may
  exact spends_handOut may (thrifty_pure _)

theorem thrifty_replaceAuthority (allowLostReplacement : Bool) :
    Thrifty (replaceAuthority version accountId allowLostReplacement) := by
  refine Thrifty.bind (thrifty_of_makes makes_authorityProvider) fun provider => ?_
  refine thrifty_call trivial fun locator => ?_
  dsimp only
  split
  · exact thrifty_throw _
  intro held
  refine spends_randomUUID fun leaseOwner first _ owns => ?_
  refine spends_plain trivial fun nowMs second within => ?_
  refine spends_plain trivial fun candidate third beyond => ?_
  refine spends_plain trivial fun claim fourth further => ?_
  split
  · exact spends_establishAuthority (further (beyond (within owns)))
  · exact thrifty_awaitWinner 40 fourth

theorem thrifty_provisionAuthority (allowLostReplacement : Bool) :
    Thrifty (provisionAuthority version accountId allowLostReplacement) := by
  refine Thrifty.bind (thrifty_recoverAuthority false) fun recovered => ?_
  cases recovered with
  | none => exact thrifty_replaceAuthority allowLostReplacement
  | some recovered =>
    refine Thrifty.bind (thrifty_of_makes makes_ensureRunning) fun running => ?_
    refine Thrifty.bind (thrifty_of_makes makes_initializeAuthority) fun initialized => ?_
    split
    · exact thrifty_pure _
    · split
      · exact thrifty_replaceAuthority allowLostReplacement
      · exact thrifty_throw _

theorem thrifty_startCloudAuthLogin (providerId : LoginProvider) :
    Thrifty (startCloudAuthLogin version accountId providerId) := by
  refine Thrifty.bind (thrifty_provisionAuthority true) fun authority => ?_
  cases providerId with
  | codex =>
    refine thrifty_call trivial fun nowMs => thrifty_call trivial fun _ => ?_
    exact thrifty_call trivial fun _ => thrifty_call trivial fun started =>
      thrifty_of_makes (makes_succeeded _ started)
  | grok =>
    exact thrifty_call trivial fun _ => thrifty_call trivial fun started =>
      thrifty_of_makes (makes_succeeded _ started)

theorem thrifty_readStatusFiles (observedLocator : Option CloudAuthAuthorityRecord) :
    Thrifty (readStatusFiles authority observedLocator) := by
  refine Thrifty.bind (thrifty_of_makes (makes_readOptional _)) fun keyId => ?_
  refine Thrifty.bind (thrifty_of_makes (makes_readOptional _)) fun publicJwk => ?_
  refine Thrifty.bind (thrifty_of_makes (makes_readProviders _)) fun providers => ?_
  refine thrifty_call trivial fun nowMs => ?_
  dsimp only
  split
  · exact fun held => ⟨fun _ needed => (by cases needed), fun _ => trivial⟩
  · exact thrifty_pure _

theorem thrifty_readCloudAuthStatus (verify wake : Bool) :
    Thrifty (readCloudAuthStatus version accountId verify wake) := by
  refine thrifty_call trivial fun locator => ?_
  split
  · exact thrifty_call trivial fun _ => thrifty_pure _
  refine Thrifty.bind (thrifty_recoverAuthority false) fun recovered => ?_
  cases recovered with
  | none => exact thrifty_pure _
  | some recovered =>
    unfold readAuthorityStatus
    dsimp only
    split
    · exact thrifty_call trivial fun _ => thrifty_pure _
    refine Thrifty.bind (thrifty_of_makes ?_) fun authority => ?_
    · split
      · exact makes_ensureRunning.bind fun _ => makes_initializeAuthority
      · exact makes_pure _
    refine thrifty_call trivial fun observed => ?_
    split
    · exact thrifty_call trivial fun _ => thrifty_pure _
    · split
      · exact Thrifty.bind (thrifty_of_makes makes_verifyProviders) fun _ =>
          thrifty_readStatusFiles _
      · exact thrifty_readStatusFiles _

end Spending

end Parts

end Zuse.CloudAuth
