import Zuse.CloudAuth.AuthorityOperations

namespace Zuse.CloudAuth

open Data (Script Operations Regime TransitionSystem)
open Data.Operations (Event Pool Admitted)
open List AuthorityRow

section Runs

variable {store : AuthorityStore} {version accountId : String}

/-- What an authority's record is like, and what was saved of it and handed out. -/
structure OneAuthority (world : AuthorityWorld) : Prop where
  ready : ∀ record, world.row = some record → record.state = .ready →
    record.providerSandboxId.isSome
  status : ∀ record, world.row = some record → record.status.isSome →
    ∃ place, world.statusSource = some place ∧ record.providerSandboxId = some place.sandboxId ∧
      record.storageIncarnationId = place.storageIncarnationId
  handedOut : ∀ leaseOwner ∈ world.handedOut,
    leaseOwner ∈ world.accepted ∧ leaseOwner ∉ world.refused

/-- How a row comes to differ from an earlier one of the account. -/
structure Supersedes (before after : CloudAuthAuthorityRecord) : Prop where
  epoch : before.authEpoch ≤ after.authEpoch
  elsewhere : before.state = .ready → after.state = .ready →
    (before.providerSandboxId ≠ after.providerSandboxId ∨
      before.storageIncarnationId ≠ after.storageIncarnationId) → before.authEpoch < after.authEpoch

/-- A completion changes the row only for the latest claim, or names the sandbox of a
record that is ready. -/
def CompletesOwn (store : AuthorityStore)
    (pool : Pool AuthorityWorld AuthCall AuthCall.Reply AuthorityOperation) :
    Event Answer AuthorityOperation Empty → Prop
  | .proceed index _ => ∀ operation input rest,
      pool.running[index]? =
        some (operation, .call (.completeCloudAuthAuthorityProvisioning input) rest) →
      (pool.state.complete store input).2.row ≠ pool.state.row →
        pool.state.latestClaim = some input.leaseOwner ∨
          ∃ record, pool.state.row = some record ∧ record.state = .ready ∧
            record.providerSandboxId = some input.providerSandboxId
  | _ => True

theorem Follows.supersedes {before after : CloudAuthAuthorityRecord}
    (follows : Follows before after) : Supersedes before after where
  epoch := follows.epoch
  elsewhere := by
    intro ready _ differs
    rcases follows.place ready with ⟨_, sandbox, storage⟩ | above
    · rcases differs with other | other
      · exact absurd sandbox.symm other
      · exact absurd storage.symm other
    · exact above

def AuthorityPermits (_ : AuthorityWorld) (_ : Empty) : Prop := True

instance (world : AuthorityWorld) (which : Empty) : Decidable (AuthorityPermits world which) :=
  .isTrue trivial

variable (store version accountId) in
theorem authority_conducted :
    (authorityOperations store version accountId).Conducted (authorityRegime store)
      AuthorityPermits where
  refl := fun world => .refl world.row
  trans := fun before after => RowFollows.trans before after
  interrupt := fun which => which.elim
  program := by
    intro operation world _
    have finishes : ∀ {α : Type} {task : AuthTask α},
        task.Keeps store operation (fun _ _ => True) world →
          task.finish.Keeps (authorityService store)
            ((authorityRegime store).conduct operation) (fun _ _ => True) world := by
      intro α task keeps
      exact Script.Keeps.bind (Script.Keeps.mono (fun _ _ _ => trivial) keeps)
    have finishesUnsaving : ∀ {α : Type} {task : AuthTask α},
        task.Makes AuthCall.Unsaving →
          task.finish.Keeps (authorityService store)
            ((authorityRegime store).conduct operation) (fun _ _ => True) world := by
      intro α task makes
      refine finishes (Script.Keeps.mono ?_ (makes.keeps world))
      intro result later _
      cases result with
      | ok value | error code => trivial
    cases operation with
    | provisionAuthority allowLostReplacement =>
      exact finishesUnsaving (makes_provisionAuthority allowLostReplacement)
    | recoverAuthority existingOnly =>
      exact finishesUnsaving (makes_recoverAuthority existingOnly)
    | startCloudAuthLogin providerId =>
      exact finishesUnsaving (makes_startCloudAuthLogin providerId)
    | readCloudAuthStatus verify wake =>
      exact finishes (keeps_readCloudAuthStatus verify wake)

/-- Completions were taken or refused of ids that were given, each once, and what was
handed out was taken. -/
structure CompletionsSound (world : AuthorityWorld) : Prop where
  accepted : ∀ owner ∈ world.accepted, owner ∈ world.uuids ∧ owner ∉ world.refused
  refused : ∀ owner ∈ world.refused, owner ∈ world.uuids
  handedOut : ∀ owner ∈ world.handedOut, owner ∈ world.accepted

def RightValid (world : AuthorityWorld) : AuthorityRight → Prop
  | .complete owner =>
    owner ∈ world.uuids ∧ owner ∉ world.accepted ∧ owner ∉ world.refused
  | .handOut owner => owner ∈ world.accepted

theorem thrifty_finish {α : Type} {task : AuthTask α} (thrifty : Thrifty task) :
    task.finish.Spends authorityRights (fun _ _ => True) [] :=
  Script.Spends.bind (Script.Spends.mono (fun _ _ _ => trivial) (thrifty []))

theorem lawful_of_same {before after : AuthorityWorld} (sound : CompletionsSound before)
    (uuids : after.uuids = before.uuids) (accepted : after.accepted = before.accepted)
    (refused : after.refused = before.refused) (handedOut : after.handedOut = before.handedOut) :
    CompletionsSound after ∧ ∀ right, RightValid before right → RightValid after right := by
  constructor
  · exact
      { accepted := by rw [accepted, uuids, refused]; exact sound.accepted
        refused := by rw [refused, uuids]; exact sound.refused
        handedOut := by rw [handedOut, accepted]; exact sound.handedOut }
  intro right valid
  cases right with
  | complete owner =>
    unfold RightValid
    rw [uuids, accepted, refused]
    exact valid
  | handOut owner =>
    unfold RightValid
    rw [accepted]
    exact valid

variable {world : AuthorityWorld}

theorem lawful_randomUUID {answer : Answer}
    (sound : CompletionsSound world) (fresh : answer.text ∉ world.uuids) :
    CompletionsSound { world with uuids := answer.text :: world.uuids } ∧
      (∀ right, RightValid world right → authorityRights.needs .randomUUID ≠ some right →
        RightValid { world with uuids := answer.text :: world.uuids } right) ∧
      ∀ right, authorityRights.grants .randomUUID answer.text = some right →
        RightValid { world with uuids := answer.text :: world.uuids } right ∧
          ¬ RightValid world right := by
  refine ⟨?_, ?_, ?_⟩
  · exact
      { accepted := fun owner member =>
          ⟨mem_cons_of_mem _ (sound.accepted owner member).1, (sound.accepted owner member).2⟩
        refused := fun owner member => mem_cons_of_mem _ (sound.refused owner member)
        handedOut := sound.handedOut }
  · intro right valid _
    cases right with
    | complete owner => exact ⟨mem_cons_of_mem _ valid.1, valid.2⟩
    | handOut owner => exact valid
  intro right granted
  cases granted
  refine ⟨⟨mem_cons_self, ?_, ?_⟩, fun valid => fresh valid.1⟩
  · exact fun taken => fresh (sound.accepted _ taken).1
  · exact fun refused => fresh (sound.refused _ refused)

theorem lawful_complete {input : CompletionInput}
    (sound : CompletionsSound world) (owns : RightValid world (.complete input.leaseOwner)) :
    CompletionsSound (world.complete store input).2 ∧
      (∀ right, RightValid world right →
        authorityRights.needs (.completeCloudAuthAuthorityProvisioning input) ≠ some right →
          RightValid (world.complete store input).2 right) ∧
      ∀ right, authorityRights.grants (.completeCloudAuthAuthorityProvisioning input)
          (world.complete store input).1 = some right →
        RightValid (world.complete store input).2 right ∧ ¬ RightValid world right := by
  obtain ⟨given, untaken, unrefused⟩ := owns
  cases outcome : (world.complete store input).1 with
  | none =>
    have untook : (world.complete store input).1.isSome = false := by
      rw [outcome]
      rfl
    have refused : (world.complete store input).2.refused =
        input.leaseOwner :: world.refused := if_neg (ne_true_of_eq_false untook)
    have accepted : (world.complete store input).2.accepted = world.accepted :=
      if_neg (ne_true_of_eq_false untook)
    refine ⟨⟨?_, ?_, ?_⟩, ?_, fun right granted => (by cases granted)⟩
    · intro owner member
      rw [accepted] at member
      refine ⟨(sound.accepted owner member).1, ?_⟩
      rw [refused]
      intro either
      rcases mem_cons.mp either with rfl | before
      · exact untaken member
      · exact (sound.accepted owner member).2 before
    · intro owner member
      rw [refused] at member
      rcases mem_cons.mp member with rfl | before
      · exact given
      · exact sound.refused owner before
    · rw [accepted]
      exact sound.handedOut
    intro right valid unspent
    cases right with
    | complete owner =>
      refine ⟨valid.1, accepted ▸ valid.2.1, ?_⟩
      rw [refused]
      intro either
      rcases mem_cons.mp either with rfl | before
      · exact unspent rfl
      · exact valid.2.2 before
    | handOut owner =>
      unfold RightValid
      rw [accepted]
      exact valid
  | some record =>
    have took : (world.complete store input).1.isSome = true := by
      rw [outcome]
      rfl
    have accepted : (world.complete store input).2.accepted =
        input.leaseOwner :: world.accepted := if_pos took
    have refused : (world.complete store input).2.refused = world.refused :=
      if_pos took
    refine ⟨⟨?_, ?_, ?_⟩, ?_, ?_⟩
    · intro owner member
      rw [refused]
      rw [accepted] at member
      rcases mem_cons.mp member with rfl | before
      · exact ⟨given, unrefused⟩
      · exact sound.accepted owner before
    · rw [refused]
      exact sound.refused
    · rw [accepted]
      exact fun owner member => mem_cons_of_mem _ (sound.handedOut owner member)
    · intro right valid unspent
      cases right with
      | complete owner =>
        refine ⟨valid.1, ?_, refused ▸ valid.2.2⟩
        rw [accepted]
        intro either
        rcases mem_cons.mp either with rfl | before
        · exact unspent rfl
        · exact valid.2.1 before
      | handOut owner =>
        unfold RightValid
        rw [accepted]
        exact mem_cons_of_mem _ valid
    · intro right granted
      cases granted
      refine ⟨?_, untaken⟩
      unfold RightValid
      rw [accepted]
      exact mem_cons_self

theorem lawful_handOut {leaseOwner : String}
    (sound : CompletionsSound world) (may : RightValid world (.handOut leaseOwner)) :
    CompletionsSound { world with handedOut := leaseOwner :: world.handedOut } ∧
      (∀ right, RightValid world right →
        authorityRights.needs (.handOut leaseOwner) ≠ some right →
          RightValid { world with handedOut := leaseOwner :: world.handedOut } right) ∧
      ∀ right, authorityRights.grants (.handOut leaseOwner) () = some right →
        RightValid { world with handedOut := leaseOwner :: world.handedOut } right ∧
          ¬ RightValid world right := by
  refine ⟨?_, ?_, fun right granted => (by cases granted)⟩
  · exact
      { accepted := sound.accepted
        refused := sound.refused
        handedOut := by
          intro owner member
          rcases mem_cons.mp member with rfl | before
          · exact may
          · exact sound.handedOut owner before }
  · intro right valid _
    cases right with
    | complete owner | handOut owner => exact valid

theorem authority_lawful :
    (authorityOperations store version accountId).Lawful authorityRights CompletionsSound
      RightValid (fun _ => AuthorityAdmits store) AuthorityPermits where
  interrupt := fun which => which.elim
  program := by
    intro operation world
    cases operation with
    | provisionAuthority allowLostReplacement =>
      exact thrifty_finish (thrifty_provisionAuthority allowLostReplacement)
    | recoverAuthority existingOnly =>
      exact thrifty_finish (thrifty_recoverAuthority existingOnly)
    | startCloudAuthLogin providerId =>
      exact thrifty_finish (thrifty_startCloudAuthLogin providerId)
    | readCloudAuthStatus verify wake =>
      exact thrifty_finish (thrifty_readCloudAuthStatus verify wake)
  call := by
    intro operation request answer world sound admits owns
    have same : ∀ after : AuthorityWorld, after.uuids = world.uuids →
        after.accepted = world.accepted → after.refused = world.refused →
        after.handedOut = world.handedOut → CompletionsSound after ∧
          ∀ right, RightValid world right → authorityRights.needs request ≠ some right →
            RightValid after right := by
      intro after uuids accepted refused handedOut
      obtain ⟨still, kept⟩ := lawful_of_same sound uuids accepted refused handedOut
      exact ⟨still, fun right valid _ => kept right valid⟩
    cases request with
    | randomUUID => exact lawful_randomUUID sound admits
    | completeCloudAuthAuthorityProvisioning input =>
      exact lawful_complete sound (owns _ rfl)
    | handOut leaseOwner => exact lawful_handOut sound (owns _ rfl)
    | _ =>
      rw [← and_assoc]
      refine ⟨same _ rfl rfl rfl rfl, ?_⟩
      intro right granted
      cases granted

theorem completesOwn {pool : Pool AuthorityWorld AuthCall AuthCall.Reply AuthorityOperation}
    {event : Event Answer AuthorityOperation Empty} (sound : AuthoritySound pool.state)
    (admitted : Admitted (fun _ => AuthorityAdmits store) AuthorityPermits pool event) :
    CompletesOwn store pool event := by
  cases event with
  | proceed index answer =>
    intro operation input rest runs changed
    have timely : Timely store pool.state.row input := admitted operation _ rest runs
    cases found : pool.state.row with
    | none =>
      refine absurd ?_ changed
      simp [AuthorityWorld.complete, completeCloudAuthAuthorityProvisioning, found]
    | some existing =>
      have holds := sound existing found
      have place := timely existing found
      have taken : accepts store existing input = true := by
        by_contra refused
        refine changed ?_
        simp [AuthorityWorld.complete, completeCloudAuthAuthorityProvisioning, found, refused]
      cases store with
      | memory =>
        by_cases ready : existing.state = .ready
        · exact .inr ⟨existing, rfl, ready, (place ready).1 rfl⟩
        · left
          refine holds.leased input.leaseOwner ?_
          simpa [accepts, ready] using taken
      | postgres =>
        simp only [accepts, Bool.or_eq_true, Bool.and_eq_true,
          decide_eq_true_eq] at taken
        rcases taken with owned | ⟨ready, sandbox⟩
        · exact .inl (holds.leased input.leaseOwner owned)
        · exact .inr ⟨existing, rfl, ready, sandbox⟩
  | begin operation | abandon index | interrupt which => trivial

variable (store version accountId) in
def authoritySystem : TransitionSystem
    (Pool AuthorityWorld AuthCall AuthCall.Reply AuthorityOperation)
    (Event Answer AuthorityOperation Empty) :=
  (authorityOperations store version accountId).system {}

/-- In every run whose completions are timely the account has one authority. -/
theorem oneAuthority_of_run {events : List (Event Answer AuthorityOperation Empty)}
    {last : Pool AuthorityWorld AuthCall AuthCall.Reply AuthorityOperation}
    (admitted : (authoritySystem store version accountId).EachStep
      (Admitted (fun _ => AuthorityAdmits store) AuthorityPermits)
      (authoritySystem store version accountId).init events)
    (ran : (authoritySystem store version accountId).run events = some last) :
    OneAuthority last.state ∧
      (authoritySystem store version accountId).EachStep (CompletesOwn store)
        (authoritySystem store version accountId).init events ∧
      ∀ earlier later middle, events = earlier ++ later →
        (authoritySystem store version accountId).run earlier = some middle →
          ∀ before, middle.state.row = some before →
            ∃ after, last.state.row = some after ∧ Supersedes before after := by
  have conducted := authority_conducted store version accountId
  have begun : (authorityOperations store version accountId).Proper (authorityRegime store)
      (authoritySystem store version accountId).init :=
    Operations.initial_proper fun _ found => by cases found
  have sound : AuthoritySound last.state :=
    (Operations.runFrom_proper conducted begun ran admitted).1.state
  have completions : CompletionsSound last.state := by
    obtain ⟨_, rightful⟩ := Operations.runFrom_rightful authority_lawful
      (Operations.initial_rightful
        { accepted := forall_mem_nil _
          refused := forall_mem_nil _
          handedOut := forall_mem_nil _ }) ran admitted
    exact rightful.sound
  refine ⟨?_, ?_, ?_⟩
  · exact
      { ready := fun record found ready => ((sound record found).ready ready).1
        status := fun record found => (sound record found).status
        handedOut := fun owner member =>
          have taken := completions.handedOut owner member
          ⟨taken, (completions.accepted owner taken).2⟩ }
  · refine TransitionSystem.EachStep.conclude
      ((authorityOperations store version accountId).Proper (authorityRegime store)) ?_
      admitted begun
    intro pool event next proper meets stepped
    exact ⟨(Operations.step_proper conducted proper meets stepped).1,
      completesOwn proper.state meets⟩
  rintro earlier later middle rfl first before found
  obtain ⟨firstAdmitted, restAdmitted⟩ := admitted.append first
  have proper := (Operations.runFrom_proper conducted begun first firstAdmitted).1
  have rest : (authoritySystem store version accountId).runFrom middle later =
      some last := (TransitionSystem.runFrom_append first).symm.trans ran
  have follows := (Operations.runFrom_proper conducted proper rest restAdmitted).2
  obtain ⟨after, isAfter, becomes⟩ := follows before found
  exact ⟨after, isAfter, becomes.supersedes⟩

end Runs

def claimAnswers (leaseOwner candidate : String) (nowMs : Int) : List Answer :=
  [{}, {}, {}, {}, {}, {}, { text := leaseOwner }, { nowMs }, { text := candidate }, {}]

def establishAnswers (sandboxName sandboxId : String) (nowMs : Int) : List Answer :=
  [{}, { text := sandboxName }, { text := sandboxId }, {}, { text := "ready" }, { nowMs }, {}]

def answered (index : Nat) (answers : List Answer) : List (Event Answer AuthorityOperation Empty) :=
  answers.map (.proceed index)

def sampleProvisioning : List (Event Answer AuthorityOperation Empty) :=
  .begin (.provisionAuthority true) :: answered 0 (claimAnswers "owner" "storage" 0) ++
    answered 0 (establishAnswers "name" "sandbox" 1 ++ [({} : Answer), {}]) ++
    .begin (.readCloudAuthStatus false true) :: answered 0 [{}, {}, {},
      { sandbox := some ⟨"sandbox", .running⟩ }, {}, { text := "ready" }, {},
      { text := "key" }, { text := "jwk" }, {}, {}, {}, {}, {}, {}]

theorem oneAuthority_sample :
    ((authoritySystem .postgres "version" "account").run sampleProvisioning).any
      (fun last => last.state.statusSource = some ⟨"sandbox", "storage"⟩ ∧
        ∀ leaseOwner ∈ last.state.handedOut, leaseOwner ∉ last.state.refused) = true := by
  obtain ⟨last, ran, saved⟩ := (Option.any_eq_true _ _).mp
    (show ((authoritySystem .postgres "version" "account").run sampleProvisioning).any
      (fun last => last.state.statusSource = some ⟨"sandbox", "storage"⟩) = true by
        decide +kernel)
  have admitted : (authoritySystem .postgres "version" "account").EachStep
      (Admitted (fun _ => AuthorityAdmits .postgres) AuthorityPermits)
      (authoritySystem .postgres "version" "account").init sampleProvisioning := by
    decide +kernel
  have one := (oneAuthority_of_run admitted ran).1
  rw [ran]
  exact decide_eq_true ⟨of_decide_eq_true saved, fun owner member =>
    (one.handedOut owner member).2⟩

def GivesNewIds (world : AuthorityWorld) (request : AuthCall) (answer : Answer) : Prop :=
  match request with
  | .randomUUID => answer.text ∉ world.uuids
  | _ => True

def givesNewIds (world : AuthorityWorld) (request : AuthCall) (answer : Answer) : Bool :=
  match request with
  | .randomUUID => world.uuids.all fun uuid => !decide (uuid = answer.text)
  | _ => true

theorem givesNewIds_iff (world : AuthorityWorld) (request : AuthCall) (answer : Answer) :
    givesNewIds world request answer = true ↔ GivesNewIds world request answer := by
  cases request
  case randomUUID =>
    simp only [givesNewIds, GivesNewIds, all_eq_true, Bool.not_eq_true', decide_eq_false_iff_not]
    exact ⟨fun others member => others _ member rfl,
      fun absent _ member same => absent (same ▸ member)⟩
  all_goals simp [givesNewIds, GivesNewIds]

instance (world : AuthorityWorld) (request : AuthCall) (answer : Answer) :
    Decidable (GivesNewIds world request answer) :=
  decidable_of_iff _ (givesNewIds_iff world request answer)

def lateProvisioning : List (Event Answer AuthorityOperation Empty) :=
  .begin (.provisionAuthority true) :: answered 0 (claimAnswers "first" "storage 1" 0) ++
    .begin (.provisionAuthority true) :: answered 1 (claimAnswers "second" "storage 2" 200000) ++
    answered 1 (establishAnswers "name 2" "sandbox 2" 200001)

/-- The store in memory takes the completion of the provisioner that was late. -/
theorem not_oneAuthority :
    ¬ ∀ (earlier later : List (Event Answer AuthorityOperation Empty)) middle last,
      (authoritySystem .memory "version" "account").EachStep
        (Admitted (fun _ => GivesNewIds) AuthorityPermits)
        (authoritySystem .memory "version" "account").init (earlier ++ later) →
      (authoritySystem .memory "version" "account").run earlier = some middle →
      (authoritySystem .memory "version" "account").runFrom middle later = some last →
      ∀ before after, middle.state.row = some before → last.state.row = some after →
        Supersedes before after := by
  intro claim
  let later := answered 0 (establishAnswers "name 1" "sandbox 1" 200002)
  have admitted : (authoritySystem .memory "version" "account").EachStep
      (Admitted (fun _ => GivesNewIds) AuthorityPermits)
      (authoritySystem .memory "version" "account").init (lateProvisioning ++ later) := by
    decide +kernel
  have moved : ((authoritySystem .memory "version" "account").run lateProvisioning).any
      (fun middle => ((authoritySystem .memory "version" "account").runFrom middle later).any
        fun last => middle.state.row.any fun before => last.state.row.any fun after =>
          before.state = .ready && after.state = .ready &&
            before.providerSandboxId ≠ after.providerSandboxId &&
              before.authEpoch = after.authEpoch) = true := by
    decide +kernel
  obtain ⟨middle, first, moved⟩ := (Option.any_eq_true _ _).mp moved
  obtain ⟨last, rest, moved⟩ := (Option.any_eq_true _ _).mp moved
  obtain ⟨before, isBefore, moved⟩ := (Option.any_eq_true _ _).mp moved
  obtain ⟨after, isAfter, moved⟩ := (Option.any_eq_true _ _).mp moved
  simp only [Bool.and_eq_true, decide_eq_true_eq] at moved
  obtain ⟨⟨⟨ready, still⟩, elsewhere⟩, same⟩ := moved
  have supersedes := claim lateProvisioning later middle last admitted first rest before after
    isBefore isAfter
  have above := supersedes.elsewhere ready still (.inl elsewhere)
  omega

end Zuse.CloudAuth
