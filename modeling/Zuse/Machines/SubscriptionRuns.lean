import Zuse.Machines.BillingConvergence
import Zuse.Machines.DestructionRuns

namespace Zuse.Machines

open Data (InsertionMap TransitionSystem)
open Billing (EntitlementStatus)
open List Option

def ReconciledSubscription.IsLastOf (subscription : ReconciledSubscription)
    (versions : List ProviderSubscription) : Prop :=
  ∃ last, versions.getLast? = some last ∧ subscription.status = last.status ∧
    subscription.periodStart = last.periodStart ∧
    subscription.paidThrough = last.paidThrough

/-- What holds of a handler that runs: it was told of an event that was emitted, and what
it read is no older than that event. -/
structure RunningHandler.Runs (versions : List ProviderSubscription)
    (emitted : List (String × Nat)) (running : RunningHandler) : Prop where
  delivered : ∀ eventId nowMs, running.handler = .webhook eventId nowMs →
    eventId ∈ emitted.map Prod.fst
  read : ∀ version subscription, running.read = some (version, subscription) →
    version ≤ versions.length ∧ (version = versions.length → subscription.IsLastOf versions) ∧
      ∀ eventId nowMs, running.handler = .webhook eventId nowMs →
        ∀ told, (eventId, told) ∈ emitted → told ≤ version

namespace BillingWorld

variable (context : BillingContext) (world : BillingWorld)

/-- The entitlement has what the subscription had last, and the machines follow it. -/
def Converged : Prop :=
  ∀ last, world.versions.getLast? = some last →
    (∃ stored, world.tables.entitlements.get? context.entitlementId = some stored ∧
      stored.status = last.status ∧ stored.periodStartMs = last.periodStart ∧
      stored.paidThroughMs = last.paidThrough) ∧
    world.tables.Followed context.entitlementId last.status last.paidThrough
      context.config.recoveryWindowMs

/-- Once a handler has applied the version that the subscription has, none writes an older
one that it read before. -/
def Prompt : BillingStep → Prop
  | .apply index _ _ _ => ∀ running ∈ world.handlers[index]?, ∀ read ∈ running.read,
      (running.handler.eventId context).any (world.consumed context) = true ∨
        read.1 = world.versions.length ∨ world.applied < world.versions.length
  | _ => True

instance decidablePrompt (event : BillingStep) : Decidable (world.Prompt context event) := by
  cases event
  case apply => exact inferInstanceAs (Decidable (∀ running ∈ _, ∀ read ∈ _, _ ∨ _ ∨ _))
  all_goals exact inferInstanceAs (Decidable True)

structure Regular : Prop where
  prepared : world.tables.Prepared context.entitlementId
  applied : world.applied ≤ world.versions.length
  told : world.versions ≠ [] → ∃ eventId, (eventId, world.versions.length) ∈ world.emitted
  past : ∀ eventId version, (eventId, version) ∈ world.emitted → version ≤ world.versions.length
  ids : ∀ eventId ∈ world.emitted.map Prod.fst, "claim:".toList.isPrefixOf eventId.toList = false
  consumed : ∀ eventId version, (eventId, version) ∈ world.emitted →
    world.consumed context eventId = true → version ≤ world.applied
  answered : ∀ eventId ∈ world.answered,
    world.consumed context eventId = true ∨ eventId ∈ world.deferred
  handlers : ∀ running ∈ world.handlers, running.Runs world.versions world.emitted
  current : world.applied = world.versions.length → world.Converged context

variable {context : BillingContext} {world next : BillingWorld}

namespace Regular

variable {eventId : String}

theorem of_isNewEvent (new : world.isNewEvent context eventId = true) :
    eventId ∉ world.emitted.map Prod.fst ∧ world.consumed context eventId = false ∧
      "claim:".toList.isPrefixOf eventId.toList = false := by
  unfold isNewEvent at new
  simp only [Bool.and_eq_true, Bool.not_eq_true'] at new
  refine ⟨?_, new.1.2, new.2⟩
  intro member
  have contained := contains_iff_mem.mpr member
  rw [new.1.1] at contained
  cases contained

theorem emit (regular : world.Regular context)
    (new : world.isNewEvent context eventId = true) (changes : List ProviderSubscription) :
    ({ world with versions := world.versions ++ changes }.emit eventId).Regular context := by
  obtain ⟨unheard, unconsumed, unclaimed⟩ := of_isNewEvent new
  have longer : (world.versions ++ changes).length =
      world.versions.length + changes.length := length_append
  have unchanged : ∀ version, version ≤ world.versions.length →
      version = (world.versions ++ changes).length →
        version = world.versions.length ∧ changes = [] := by
    intro version le equal
    exact ⟨by omega, eq_nil_of_length_eq_zero (by omega)⟩
  have split : ∀ other version,
      (other, version) ∈ world.emitted ++ [(eventId, (world.versions ++ changes).length)] →
        (other, version) ∈ world.emitted ∨
          other = eventId ∧ version = (world.versions ++ changes).length := by
    intro other version member
    cases Data.mem_concat.mp member with
    | inl before => exact .inl before
    | inr added =>
      cases added
      exact .inr ⟨rfl, rfl⟩
  constructor
  case prepared => exact regular.prepared
  case applied =>
    have before := regular.applied
    show world.applied ≤ (world.versions ++ changes).length
    omega
  case told => exact fun _ => ⟨eventId, mem_append_right _ mem_cons_self⟩
  case past =>
    intro other version member
    show version ≤ (world.versions ++ changes).length
    cases split other version member with
    | inl before =>
      have past := regular.past other version before
      omega
    | inr added => exact added.2.le
  case ids =>
    intro other told
    obtain ⟨⟨id, version⟩, member, same⟩ := mem_map.mp told
    cases same
    cases split id version member with
    | inl before => exact regular.ids id (mem_map.mpr ⟨_, before, rfl⟩)
    | inr added => exact added.1 ▸ unclaimed
  case consumed =>
    intro other version member taken
    cases split other version member with
    | inl before => exact regular.consumed other version before taken
    | inr added =>
      have untaken : world.consumed context other = false := added.1 ▸ unconsumed
      exact absurd (untaken.symm.trans taken) (by decide)
  case answered => exact regular.answered
  case handlers =>
    intro running member
    have runs := regular.handlers running member
    constructor
    case delivered =>
      intro other nowMs handler
      obtain ⟨pair, member, same⟩ := mem_map.mp (runs.delivered other nowMs handler)
      exact mem_map.mpr ⟨pair, mem_append_left _ member, same⟩
    case read =>
      intro version subscription read
      obtain ⟨le, isCurrent, later⟩ := runs.read version subscription read
      refine ⟨?_, ?_, ?_⟩
      · show version ≤ (world.versions ++ changes).length
        omega
      · intro equal
        obtain ⟨same, none⟩ := unchanged version le equal
        subst none
        have here := isCurrent same
        rw [← append_nil world.versions] at here
        exact here
      intro other nowMs handler told member
      cases split other told member with
      | inl before => exact later other nowMs handler told before
      | inr added =>
        exact absurd (added.1 ▸ runs.delivered other nowMs handler) unheard
  case current =>
    intro equal
    obtain ⟨same, none⟩ := unchanged world.applied regular.applied equal
    subst none
    have here := regular.current same
    unfold Converged at here ⊢
    rw [← append_nil world.versions] at here
    exact here

theorem begin (regular : world.Regular context) {handler : BillingHandler}
    (delivered : ∀ eventId nowMs, handler = .webhook eventId nowMs →
      eventId ∈ world.emitted.map Prod.fst) :
    (world.begin handler).Regular context := by
  refine { regular with handlers := ?_ }
  intro running member
  cases Data.mem_concat.mp member with
  | inl before => exact regular.handlers running before
  | inr added =>
    rw [added]
    refine ⟨delivered, ?_⟩
    nofun

theorem finish (regular : world.Regular context) (index : Nat) :
    (world.finish index).Regular context := by
  refine { regular with handlers := ?_ }
  intro running member
  exact regular.handlers running (mem_of_mem_eraseIdx member)

variable {subscription : ReconciledSubscription}

section

variable (regular : world.Regular context)
include regular

variable {index : Nat} {running : RunningHandler}

theorem keep (found : world.handlers[index]? = some running)
    (reads : world.reconcileSubscription context = some subscription) :
    (world.keep index running subscription).Regular context := by
  refine { regular with handlers := ?_ }
  intro other member
  cases mem_or_eq_of_mem_set member with
  | inl before => exact regular.handlers other before
  | inr set =>
    subst set
    have runs := regular.handlers running (mem_of_getElem? found)
    refine ⟨runs.delivered, ?_⟩
    intro version read same
    cases same
    refine ⟨le_refl _, fun _ => ?_, ?_⟩
    · obtain ⟨accountId, _, current⟩ := bind_eq_some_iff.mp reads
      obtain ⟨last, newest, same⟩ := map_eq_some_iff.mp current
      subst same
      exact ⟨last, newest, rfl, rfl, rfl⟩
    · intro eventId _ _ told member
      exact regular.past eventId told member

theorem read (found : world.handlers[index]? = some running) :
    (world.read context index running).Regular context := by
  unfold BillingWorld.read
  split
  · have done := regular.finish index
    refine { done with answered := ?_ }
    intro other member
    cases mem_append.mp member with
    | inl before =>
      cases regular.answered other before with
      | inl taken => exact .inl taken
      | inr deferred => exact .inr (mem_append_left _ deferred)
    | inr added => exact .inr (mem_append_right _ added)
  · rename_i reads
    exact regular.keep found reads
  · exact regular.finish index
  · rename_i reads
    split
    · exact regular.finish index
    · exact regular.keep found reads
  · exact regular.finish index
  · rename_i reads
    split
    · exact regular.finish index
    · exact regular.keep found reads

variable {version : Nat} {order : RowOrder} {nowMs : Int} {machineId computeProviderId : String}

theorem applyEvent {answers : List String} (le : version ≤ world.versions.length)
    (isCurrent : version = world.versions.length → subscription.IsLastOf world.versions)
    (later : ∀ told, (eventId, told) ∈ world.emitted → told ≤ version)
    (answers_le : ∀ other ∈ answers, other = eventId)
    (prompt : world.consumed context eventId = true ∨ version = world.versions.length ∨
      world.applied < world.versions.length) :
    (world.applyEvent index version order
      (context.applyBillingSubscription eventId nowMs subscription machineId computeProviderId)
      fun applied => { applied with answered := applied.answered ++ answers }).Regular
        context := by
  unfold BillingWorld.applyEvent
  split
  · exact regular.finish index
  rename_i outcome after applies
  have done := regular.finish index
  by_cases taken : (context.billingProviderId, eventId) ∈ world.tables.billingEvents
  · obtain ⟨again, same⟩ := MachineTables.unchanged_of_duplicate taken applies
    subst same
    simp only [again, if_true]
    refine { done with answered := ?_ }
    intro other member
    cases mem_append.mp member with
    | inl before => exact regular.answered other before
    | inr added =>
      rw [answers_le other added]
      exact .inl (contains_iff_mem.mpr taken)
  · obtain ⟨new, applied⟩ :=
      MachineTables.applied_of_applyBillingEvent regular.prepared taken applies
    simp only [new, Bool.false_eq_true, if_false]
    have consumed : ∀ other, after.billingEvents.contains
        (context.billingProviderId, other) = true →
          world.consumed context other = true ∨ other = eventId := by
      intro other member
      rw [applied.billingEvents] at member
      cases Data.mem_concat.mp (contains_iff_mem.mp member) with
      | inl before => exact .inl (contains_iff_mem.mpr before)
      | inr added =>
        cases added
        exact .inr rfl
    have still : ∀ other, world.consumed context other = true →
        after.billingEvents.contains (context.billingProviderId, other) = true := by
      intro other before
      rw [applied.billingEvents]
      exact contains_iff_mem.mpr (mem_append_left _ (contains_iff_mem.mp before))
    have now : after.billingEvents.contains (context.billingProviderId, eventId) = true := by
      rw [applied.billingEvents]
      exact contains_iff_mem.mpr (mem_append_right _ mem_cons_self)
    refine { done with
      prepared := applied.prepared
      applied := max_le regular.applied le
      consumed := ?_
      answered := ?_
      current := ?_ }
    · intro other told member there
      cases consumed other there with
      | inl before =>
        exact (regular.consumed other told member before).trans (Nat.le_max_left _ _)
      | inr same =>
        rw [same] at member
        exact (later told member).trans (Nat.le_max_right _ _)
    · intro other member
      cases mem_append.mp member with
      | inl before =>
        cases regular.answered other before with
        | inl taken => exact .inl (still other taken)
        | inr deferred => exact .inr deferred
      | inr added =>
        rw [answers_le other added]
        exact .inl now
    · intro equal last newest
      -- Here a stale read is left: it is written only before the newest version.
      have newer : version = world.versions.length := by
        have reached : max world.applied version = world.versions.length := equal
        cases prompt with
        | inl consumed => exact absurd (contains_iff_mem.mp consumed) taken
        | inr rest =>
          cases rest with
          | inl same => exact same
          | inr behind => omega
      obtain ⟨other, same, status, periodStart, paidThrough⟩ := isCurrent newer
      have known : world.versions.getLast? = some last := newest
      rw [known] at same
      cases same
      rw [← status, ← periodStart, ← paidThrough]
      exact ⟨applied.filed, applied.followed⟩

theorem reconciled (index : Nat) {entitlement : EntitlementPersistenceRecord}
    (isCurrent : version = world.versions.length → subscription.IsLastOf world.versions)
    (prompt : version = world.versions.length ∨ world.applied < world.versions.length) :
    BillingWorld.Regular context
      { world.finish index with
        tables :=
          world.tables.upsertEntitlement (entitlement.reconciled subscription nowMs) } := by
  have done := regular.finish index
  refine { done with
    prepared := ⟨regular.prepared.keyed, regular.prepared.once⟩
    current := ?_ }
  intro equal last newest
  have reached : world.applied = world.versions.length := equal
  have newer : version = world.versions.length := by
    cases prompt with
    | inl same => exact same
    | inr behind => omega
  obtain ⟨known, followed⟩ := regular.current reached last newest
  refine ⟨?_, followed⟩
  by_cases ours : entitlement.entitlementId = context.entitlementId
  · obtain ⟨other, same, status, periodStart, paidThrough⟩ := isCurrent newer
    have known : world.versions.getLast? = some last := newest
    rw [known] at same
    cases same
    rw [← status, ← periodStart, ← paidThrough, ← ours]
    exact world.tables.upsertEntitlement_filed (entitlement.reconciled subscription nowMs)
  obtain ⟨stored, found, agrees⟩ := known
  refine ⟨stored, ?_, agrees⟩
  show (world.tables.entitlements.set entitlement.entitlementId _).get?
    context.entitlementId = some stored
  rw [InsertionMap.get?_set, if_neg ours]
  exact found

theorem apply (found : world.handlers[index]? = some running)
    (reads : running.read = some (version, subscription))
    (prompt : (running.handler.eventId context).any (world.consumed context) = true ∨
      version = world.versions.length ∨ world.applied < world.versions.length) :
    (world.apply context index order machineId computeProviderId running.handler version
      subscription).Regular context := by
  have runs := regular.handlers running (mem_of_getElem? found)
  obtain ⟨le, isCurrent, later⟩ := runs.read version subscription reads
  cases handler : running.handler with
  | webhook eventId nowMs =>
    rw [handler] at prompt
    refine regular.applyEvent le isCurrent (later eventId nowMs handler) ?_ prompt
    exact fun other member => mem_singleton.mp member
  | checkout accountId nowMs entitlement =>
    rw [handler] at prompt
    refine regular.reconciled index isCurrent ?_
    cases prompt with
    | inl consumed => cases consumed
    | inr rest => exact rest
  | claim accountId nowMs =>
    rw [handler] at prompt
    have claims : ∀ told, (claimEventId accountId context.providerSubscriptionId, told) ∈
        world.emitted → told ≤ version := by
      intro told member
      have other := regular.ids _ (mem_map.mpr ⟨_, member, rfl⟩)
      rw [claimEventId, String.toList_append] at other
      have starts := isPrefixOf_iff_prefix.mpr (prefix_append "claim:".toList
        (accountId ++ ":" ++ context.providerSubscriptionId).toList)
      exact absurd (other.symm.trans starts) (by decide)
    have nobody : ∀ other ∈ ([] : List String), other =
        claimEventId accountId context.providerSubscriptionId := by
      nofun
    have applied : BillingWorld.Regular context (world.applyEvent index version order
        (context.applyBillingSubscription
          (claimEventId accountId context.providerSubscriptionId) nowMs subscription
          machineId computeProviderId)
        fun applied => { applied with answered := applied.answered ++ [] }) :=
      regular.applyEvent le isCurrent claims nobody prompt
    simp only [append_nil] at applied
    exact applied

end

theorem step {event : BillingStep} (regular : world.Regular context)
    (prompt : world.Prompt context event)
    (stepped : world.step context event = some next) : next.Regular context := by
  cases event with
  | change subscription eventId =>
    unfold BillingWorld.step at stepped
    dsimp only at stepped
    split at stepped
    · rename_i new
      cases stepped
      exact regular.emit new [subscription]
    · cases stepped
  | announce eventId =>
    unfold BillingWorld.step at stepped
    dsimp only at stepped
    split at stepped
    · rename_i new
      cases stepped
      have emitted := regular.emit new []
      simp only [append_nil] at emitted
      exact emitted
    · cases stepped
  | link account =>
    cases stepped
    exact { regular with }
  | deliver eventId nowMs =>
    unfold BillingWorld.step at stepped
    dsimp only at stepped
    split at stepped
    · rename_i emitted
      cases stepped
      refine regular.begin ?_
      intro other otherMs same
      cases same
      exact contains_iff_mem.mp emitted
    · cases stepped
  | checkout accountId entitlementId nowMs =>
    unfold BillingWorld.step at stepped
    dsimp only at stepped
    split at stepped
    · cases stepped
    split at stepped
    · cases stepped
      refine regular.begin ?_
      nofun
    · cases stepped
  | claim accountId nowMs =>
    unfold BillingWorld.step at stepped
    dsimp only at stepped
    split at stepped
    · cases stepped
      have linked : BillingWorld.Regular context { world with account := some accountId } :=
        { regular with }
      refine linked.begin ?_
      nofun
    · cases stepped
  | read index =>
    unfold BillingWorld.step at stepped
    dsimp only at stepped
    split at stepped
    · cases stepped
    rename_i running found
    split at stepped
    · cases stepped
      exact regular.read found
    · cases stepped
  | apply index order machineId computeProviderId =>
    unfold BillingWorld.step at stepped
    dsimp only at stepped
    split at stepped
    · cases stepped
    · rename_i running found
      obtain ⟨⟨version, subscription⟩, reads, same⟩ := map_eq_some_iff.mp stepped
      cases same
      exact regular.apply found reads (prompt running found _ reads)
  | fail index =>
    unfold BillingWorld.step at stepped
    dsimp only at stepped
    split at stepped
    · cases stepped
      exact regular.finish index
    · cases stepped

end Regular

end BillingWorld

/-- Once no handler runs, every event was answered and those that were deferred were
followed by a handler that applied as new a read, the billing state is the provider's. -/
theorem converges_of_run {context : BillingContext} {tables : MachineTables}
    {events : List BillingStep} {world : BillingWorld}
    (prepared : tables.Prepared context.entitlementId)
    (ran : (billingSubscriptions context tables).run events = some world)
    (prompt : (billingSubscriptions context tables).EachStep
      (fun world event => world.Prompt context event)
      (billingSubscriptions context tables).init events)
    (delivered : ∀ eventId ∈ world.emitted.map Prod.fst, eventId ∈ world.answered)
    (claimed : ∀ eventId version, (eventId, version) ∈ world.emitted →
      eventId ∈ world.deferred → version ≤ world.applied) :
    world.Converged context := by
  have start : (billingSubscriptions context tables).init.Regular context := by
    constructor
    case prepared => exact prepared
    case applied => exact le_refl 0
    case told => exact fun some => absurd rfl some
    case past =>
      nofun
    case ids =>
      nofun
    case consumed =>
      nofun
    case answered =>
      nofun
    case handlers =>
      intro running member
      cases member
    case current =>
      nofun
  have regular : world.Regular context :=
    prompt.invariant _ (fun before event next known prompt stepped => known.step prompt stepped)
      ran start
  intro last newest
  have some : world.versions ≠ [] := by
    intro none
    rw [none] at newest
    cases newest
  obtain ⟨eventId, told⟩ := regular.told some
  have reached : world.versions.length ≤ world.applied := by
    cases regular.answered eventId (delivered eventId (mem_map.mpr ⟨_, told, rfl⟩)) with
    | inl consumed => exact regular.consumed eventId _ told consumed
    | inr deferred => exact claimed eventId _ told deferred
  exact regular.current (le_antisymm regular.applied reached) last newest

def sampleSha256Hex (text : String) : String :=
  if text = "polar:sub_1" then
    "3b3f7c67704e17dc9c0a12a4a51c3b076976e08387e8d3baf8cabe01d2450969"
  else text

def sampleBilling : BillingContext where
  sha256Hex := sampleSha256Hex
  config := { sampleConfig with allowlistedAccountIds := ["account"] }
  billingProviderId := "polar"
  providerSubscriptionId := "sub_1"

/-- A customer buys a cloud workspace before there is an account, claims it and renews it;
the event of the renewal is delivered twice, and a checkout reads it too. Then the customer
moves to a machine, and ends the subscription. -/
def claimedSubscription : List BillingStep :=
  [.change ⟨.active, cloudWorkspaceOfferId, some 0, some 1000⟩ "evt_1",
    .deliver "evt_1" 1, .read 0, .claim "account" 2, .read 0,
    .apply 0 .inserted "machine_1" "hetzner",
    .checkout "account" sampleBilling.entitlementId 1100,
    .change ⟨.active, cloudWorkspaceOfferId, some 1000, some 2000⟩ "evt_2",
    .deliver "evt_2" 1200, .read 0, .read 1, .apply 1 .inserted "machine_1" "hetzner",
    .apply 0 .inserted "machine_1" "hetzner",
    .deliver "evt_2" 1300, .read 0, .apply 0 .inserted "machine_1" "hetzner",
    .link (some "account"),
    .change ⟨.active, "persistent-standard-v1", some 2000, some 3000⟩ "evt_3",
    .deliver "evt_3" 2010, .read 0, .apply 0 .inserted "machine_1" "hetzner",
    .change ⟨.ended, "persistent-standard-v1", some 2000, some 3000⟩ "evt_4",
    .deliver "evt_4" 2100, .read 0, .apply 0 .inserted "machine_1" "hetzner"]

theorem converges_of_claimed : ∃ world,
    (billingSubscriptions sampleBilling .empty).run claimedSubscription = some world ∧
      world.handlers = [] ∧ world.Converged sampleBilling ∧
        (world.tables.getMachine "machine_1").map (·.desiredState) = some .suspended := by
  have checked : ((billingSubscriptions sampleBilling .empty).run claimedSubscription).any
      (fun world => decide (world.handlers = []) &&
        (decide (∀ eventId ∈ world.emitted.map Prod.fst, eventId ∈ world.answered) &&
          (decide (∀ told ∈ world.emitted, told.2 ≤ world.applied) &&
            decide ((world.tables.getMachine "machine_1").map (·.desiredState) =
              some .suspended)))) = true := by
    decide +kernel
  obtain ⟨world, ran, checked⟩ := (any_eq_true _ _).mp checked
  simp only [Bool.and_eq_true, decide_eq_true_eq] at checked
  obtain ⟨idle, delivered, applied, suspended⟩ := checked
  have prompt : (billingSubscriptions sampleBilling .empty).EachStep
      (fun world event => world.Prompt sampleBilling event)
      (billingSubscriptions sampleBilling .empty).init claimedSubscription := by
    decide +kernel
  have prepared : MachineTables.Prepared .empty sampleBilling.entitlementId := by
    constructor
    case keyed =>
      intro machineId machine found
      cases found
    case once =>
      intro machineId otherId machine other found
      cases found
  refine ⟨world, ran, idle, converges_of_run prepared ran prompt delivered ?_, suspended⟩
  exact fun eventId version told _ => applied (eventId, version) told

/-- A slow delivery of the first event, which read the subscription before it ended. -/
def overtakenDelivery : List BillingStep :=
  [.link (some "account"), .change ⟨.active, "persistent-standard-v1", some 0, some 1000⟩ "evt_1",
    .deliver "evt_1" 1, .read 0,
    .change ⟨.ended, "persistent-standard-v1", some 0, some 1000⟩ "evt_2",
    .deliver "evt_2" 2, .read 1, .apply 1 .inserted "machine_1" "hetzner",
    .apply 0 .inserted "machine_1" "hetzner"]

/-- The ended subscription is stored as active, and a machine is created for it. -/
theorem not_converged : ¬ ∀ (events : List BillingStep) (world : BillingWorld),
    (billingSubscriptions sampleBilling .empty).run events = some world →
      world.handlers = [] →
        (∀ eventId ∈ world.emitted.map Prod.fst, eventId ∈ world.answered) →
          world.deferred = [] → world.Converged sampleBilling := by
  intro claim
  have stale : ((billingSubscriptions sampleBilling .empty).run overtakenDelivery).any
      (fun world => decide (world.handlers = []) &&
        (decide (∀ eventId ∈ world.emitted.map Prod.fst, eventId ∈ world.answered) &&
          (decide (world.deferred = []) &&
            (decide (world.versions.getLast?.map (·.status) = some .ended) &&
              (world.tables.entitlements.get? sampleBilling.entitlementId).any
                fun entitlement => decide (entitlement.status = .active))))) = true := by
    decide +kernel
  obtain ⟨world, ran, checked⟩ := (any_eq_true _ _).mp stale
  simp only [Bool.and_eq_true, decide_eq_true_eq] at checked
  obtain ⟨idle, delivered, linked, ended, stored⟩ := checked
  obtain ⟨last, newest, isOver⟩ := map_eq_some_iff.mp ended
  obtain ⟨entitlement, found, active⟩ := (any_eq_true _ _).mp stored
  obtain ⟨⟨other, same, status, _⟩, _⟩ :=
    claim overtakenDelivery world ran idle delivered linked last newest
  cases found.symm.trans same
  rw [isOver, of_decide_eq_true active] at status
  cases status

end Zuse.Machines
