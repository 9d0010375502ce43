import Zuse.PublicApi.DeliveryInvariant

namespace Zuse.PublicApi

open Data (TransitionSystem)
open List DispatchWorld

section Runs

variable {store : LedgerStore} {deliveryIdFor : String → String → String}
  {world next : DispatchWorld} {label : DispatchStep}

def Absorbs (before after : DispatchWorld) : Prop :=
  ∀ delivery ∈ before.ledger.deliveries, delivery.status ≠ .pending →
    ∀ later ∈ after.ledger.deliveries, later.deliveryId = delivery.deliveryId →
      later.status = delivery.status

structure DeliversOnce (world : DispatchWorld) : Prop where
  unique : (world.ledger.deliveries.map fun delivery =>
    (delivery.webhookId, delivery.eventId)).Nodup
  counted : ∀ delivery ∈ world.ledger.deliveries,
    delivery.attempts = world.failures.count delivery.deliveryId
  ended : ∀ delivery ∈ world.ledger.deliveries, delivery.status = .failed →
    maxDeliveryAttempts ≤ delivery.attempts ∨ delivery.deliveryId ∈ world.refused
  payload : ∀ delivery ∈ world.ledger.deliveries, delivery.status = .pending →
    ∃ created ∈ world.enqueued, created.deliveryId = delivery.deliveryId ∧
      delivery.sealedPayload = created.sealedPayload
  enqueued : (world.enqueued.map (·.deliveryId)).Nodup
  dueAgain : ∀ delivery ∈ world.ledger.deliveries, delivery.status = .pending →
    ((world.ledger.webhook? delivery.webhookId).any fun webhook =>
      webhook.disabledAtMs.isNone) = true →
    ∀ nowMs, world.clock + retryHorizonMs ≤ nowMs → world.ledger.deliveryDue nowMs delivery = true

theorem DispatchInv.deliversOnce (inv : DispatchInv deliveryIdFor world) : DeliversOnce world where
  unique := by
    refine List.Nodup.of_map (fun names => deliveryIdFor names.1 names.2) ?_
    rw [map_map]
    refine (map_congr_left fun delivery member => ?_) ▸ inv.ids
    exact inv.named delivery member
  counted := inv.counted
  ended := inv.ended
  payload := by
    intro delivery member waits
    obtain ⟨created, isCreated, same, payload⟩ := inv.origin delivery member
    exact ⟨created, isCreated, same, payload waits⟩
  enqueued := inv.enqueuedIds
  dueAgain := by
    intro delivery member waits enabled nowMs later
    unfold ApiLedger.deliveryDue
    have due := Int.le_trans (inv.due delivery member waits) later
    simp only [waits, enabled, due, decide_true, Bool.and_self]

theorem inv_init : DispatchInv deliveryIdFor {} where
  ids := nodup_nil
  named := forall_mem_nil _
  origin := forall_mem_nil _
  enqueuedIds := nodup_nil
  enqueuedNamed := forall_mem_nil _
  live := forall_mem_nil _
  webhooksKnown := forall_mem_nil _
  enqueuedKnown := forall_mem_nil _
  due := forall_mem_nil _
  counted := forall_mem_nil _
  failuresKnown := forall_mem_nil _
  ended := forall_mem_nil _
  inHand := forall_mem_nil _

theorem Rewrites.absorbs {ledger : ApiLedger} (inv : DispatchInv deliveryIdFor world)
    (rewrites : Rewrites world.clock world.ledger ledger) {delivery later : ApiWebhookDelivery}
    (member : delivery ∈ world.ledger.deliveries) (isLater : later ∈ ledger.deliveries)
    (same : later.deliveryId = delivery.deliveryId) : later.status = delivery.status := by
  obtain ⟨old, isOld, id, _, _, _, status, _⟩ := rewrites.old later isLater
  cases inv.unique isOld member (id.symm.trans same)
  exact status

section

variable (distinct : ∀ webhook event other otherEvent, deliveryIdFor webhook event =
    deliveryIdFor other otherEvent → webhook = other ∧ event = otherEvent)
include distinct

theorem inv_step
    (inv : DispatchInv deliveryIdFor world) (timely : world.Timely label)
    (stepped : (dispatchers store deliveryIdFor).step world label = some next) :
    DispatchInv deliveryIdFor next := by
  cases label with
  | tick | deleteWebhook | prune | start | crash => exact (step_quiet stepped).inv inv
  | createWebhook webhook activeLimit => exact inv_create store inv stepped
  | recordEvent input => exact inv_record distinct inv stepped
  | claim => exact inv_claim store inv stepped
  | settle index outcome => exact inv_settle store inv timely stepped

theorem absorbs_step
    (inv : DispatchInv deliveryIdFor world) (timely : world.Timely label)
    (stepped : (dispatchers store deliveryIdFor).step world label = some next) :
    Absorbs world next := by
  intro delivery member ended later isLater same
  cases label with
  | tick | deleteWebhook | prune | start | crash =>
    exact ((step_quiet stepped).rewrites world.clock).absorbs inv member isLater same
  | createWebhook webhook activeLimit =>
    simp only [dispatchers, step] at stepped
    split at stepped
    · cases stepped
    cases stepped
    have stored : later ∈ world.ledger.deliveries := by
      simp only [ApiLedger.createApiWebhook] at isLater
      split at isLater
      · exact isLater
      · exact isLater
    rw [inv.unique stored member same]
  | recordEvent input =>
    simp only [dispatchers, step] at stepped
    split at stepped
    · rename_i routed
      cases stepped
      rcases recordEvent_adds routed isLater with earlier | fresh
      · rw [inv.unique earlier member same]
      · obtain ⟨created, isCreated, id, _⟩ := inv.origin delivery member
        exact absurd (mem_map.mpr ⟨created, isCreated, id.trans same.symm⟩)
          (fresh.fresh distinct inv)
    · cases stepped
  | claim =>
    cases stepped
    exact (rewrites_claim world.clock deliveryBatchLimit world.ledger).absorbs inv member
      isLater same
  | settle index outcome =>
    simp only [dispatchers, step] at stepped
    split at stepped
    · cases stepped
    rename_i attempt found
    obtain ⟨nowMs, _, rfl⟩ := Option.map_eq_some_iff.mp stepped
    rcases recordDelivery_mem isLater with
      ⟨earlier, _⟩ | ⟨old, isOld, claimed, id, _, _, _, status, _⟩
    · rw [inv.unique earlier member same]
    · cases inv.unique isOld member (id.symm.trans same)
      rcases timely attempt found delivery member claimed with pending | already
      · exact absurd pending ended
      · exact status.trans already.symm

/-- In every run whose attempts settle in time, each webhook has one delivery of an event,
which ends once: what was delivered or has failed stays so, failures are counted, and what
is pending keeps its payload and becomes due again. -/
theorem deliversOnce_of_run
    {labels : List DispatchStep} {last : DispatchWorld}
    (timely : (dispatchers store deliveryIdFor).EachStep DispatchWorld.Timely {} labels)
    (ran : (dispatchers store deliveryIdFor).run labels = some last) :
    DeliversOnce last ∧
      (dispatchers store deliveryIdFor).EachStep
        (fun world label => ∀ next,
          (dispatchers store deliveryIdFor).step world label = some next →
            Absorbs world next) {} labels := by
  constructor
  · have inv := TransitionSystem.EachStep.invariant
      (DispatchInv deliveryIdFor)
      (fun world label next inv inTime stepped => inv_step distinct inv inTime stepped)
      timely ran inv_init
    exact inv.deliversOnce
  refine TransitionSystem.EachStep.conclude (DispatchInv deliveryIdFor) ?_ timely inv_init
  intro world label next inv inTime stepped
  exact ⟨inv_step distinct inv inTime stepped,
    fun other stepped => absorbs_step distinct inv inTime stepped⟩

end

end Runs

section Leases

variable {store : LedgerStore} {deliveryIdFor : String → String → String}
  {world next : DispatchWorld} {label : DispatchStep}

/-- The claimed deliveries whose leases have not run out. -/
def DispatchWorld.leases (world : DispatchWorld) : List ApiWebhookDelivery :=
  (world.attempts.map (·.due.delivery)).filter fun held => world.clock < held.nextAttemptAtMs

structure Leased (world : DispatchWorld) : Prop where
  alone : (world.leases.map (·.deliveryId)).Nodup
  waits : ∀ held ∈ world.leases, ∀ delivery ∈ world.ledger.deliveries,
    delivery.deliveryId = held.deliveryId →
      delivery.status = .pending ∧ delivery.nextAttemptAtMs = held.nextAttemptAtMs

theorem Leased.kept (leased : Leased world) (fewer : next.leases.Sublist world.leases)
    (rows : ∀ held ∈ next.leases, ∀ delivery ∈ next.ledger.deliveries,
      delivery.deliveryId = held.deliveryId → ∃ old ∈ world.ledger.deliveries,
        delivery.deliveryId = old.deliveryId ∧ (old.status = .pending →
          delivery.status = .pending ∧ delivery.nextAttemptAtMs = old.nextAttemptAtMs)) :
    Leased next where
  alone := leased.alone.sublist (fewer.map _)
  waits := by
    intro held isHeld delivery member same
    obtain ⟨old, isOld, id, keeps⟩ := rows held isHeld delivery member same
    obtain ⟨waits, leasedUntil⟩ := leased.waits held (fewer.subset isHeld) old isOld
      (id.symm.trans same)
    obtain ⟨still, kept⟩ := keeps waits
    exact ⟨still, kept.trans leasedUntil⟩

theorem Quiet.leased (leased : Leased world) (quiet : Quiet world next) : Leased next := by
  refine leased.kept ?_ fun _ _ delivery member _ => ?_
  · unfold leases
    have dues := (quiet.dues.map (·.delivery)).filter fun held =>
      Decidable.decide (next.clock < held.nextAttemptAtMs)
    rw [map_map, map_map] at dues
    refine dues.trans (monotone_filter_right _ fun held unexpired => ?_)
    have later := quiet.later
    simp only [decide_eq_true_eq] at unexpired ⊢
    omega
  -- The rewrite bounds no row by a clock that is early enough, so what waits is not moved.
  obtain ⟨old, isOld, id, _, _, _, status, pending⟩ :=
    (quiet.rewrites (delivery.nextAttemptAtMs - retryHorizonMs - 1)).old delivery member
  refine ⟨old, isOld, id, fun waits => ?_⟩
  have still := status.trans waits
  refine ⟨still, (pending still).2.resolve_right ?_⟩
  omega

theorem Leased.claim (inv : DispatchInv deliveryIdFor world) (leased : Leased world)
    (stepped : (dispatchers store deliveryIdFor).step world .claim = some next) : Leased next := by
  cases stepped
  let due := world.ledger.dueDeliveries world.clock deliveryBatchLimit
  have isDue : ∀ delivery ∈ due, delivery ∈ world.ledger.deliveries ∧
      delivery.status = .pending ∧ delivery.nextAttemptAtMs ≤ world.clock := by
    intro delivery member
    obtain ⟨stored, due⟩ := mem_filter.mp ((mem_insertionSort _).mp (mem_of_mem_take member))
    simp only [ApiLedger.deliveryDue, Bool.and_eq_true, decide_eq_true_eq] at due
    exact ⟨stored, due.1⟩
  have dueIds : (due.map (·.deliveryId)).Nodup := by
    refine List.Nodup.sublist ((take_sublist _ _).map _) ?_
    refine ((perm_insertionSort _ _).map _).nodup_iff.mpr ?_
    exact inv.ids.sublist (filter_sublist.map _)
  have unclaimed : ∀ held ∈ world.leases, held.deliveryId ∉ due.map (·.deliveryId) := by
    intro held isHeld claimed
    obtain ⟨delivery, member, same⟩ := mem_map.mp claimed
    obtain ⟨stored, _, due⟩ := isDue delivery member
    obtain ⟨_, leasedUntil⟩ := leased.waits held isHeld delivery stored same
    have unexpired := of_decide_eq_true (mem_filter.mp isHeld).2
    omega
  let claimed := world.ledger.claimDueApiWebhookDeliveries world.clock deliveryBatchLimit
    deliveryLeaseMs
  have isClaimed : ∀ held ∈ claimed.1.map (·.delivery), ∃ delivery ∈ due,
      held = ApiLedger.leased world.clock deliveryLeaseMs delivery := by
    intro held member
    obtain ⟨found, isFound, rfl⟩ := mem_map.mp member
    obtain ⟨delivery, isDelivery, given⟩ := mem_filterMap.mp isFound
    obtain ⟨webhook, _, rfl⟩ := Option.map_eq_some_iff.mp given
    exact ⟨delivery, isDelivery, rfl⟩
  have leases : DispatchWorld.leases
        { world with
          ledger := claimed.2
          attempts := world.attempts ++ claimed.1.map fun due => { due } } =
      world.leases ++ (claimed.1.map (·.delivery)).filter fun held =>
        world.clock < held.nextAttemptAtMs := by
    simp only [DispatchWorld.leases, map_append, map_map, filter_append]
    rfl
  have ids : ((claimed.1.map (·.delivery)).map (·.deliveryId)).Nodup := by
    rw [map_map]
    refine pairwise_map.mpr (pairwise_filterMap.mpr ((pairwise_map.mp dueIds).imp ?_))
    intro first second differ one isOne two isTwo
    obtain ⟨_, _, rfl⟩ := Option.map_eq_some_iff.mp isOne
    obtain ⟨_, _, rfl⟩ := Option.map_eq_some_iff.mp isTwo
    exact differ
  constructor
  · refine leases ▸ ?_
    rw [map_append]
    refine nodup_append.mpr ⟨leased.alone, ids.sublist (filter_sublist.map _), ?_⟩
    intro id isHeld other isFresh same
    obtain ⟨held, member, rfl⟩ := mem_map.mp isHeld
    obtain ⟨fresh, added, rfl⟩ := mem_map.mp isFresh
    obtain ⟨taken, isTaken, rfl⟩ := isClaimed fresh (mem_of_mem_filter added)
    exact unclaimed held member (mem_map.mpr ⟨taken, isTaken, same.symm⟩)
  intro held isHeld delivery member same
  obtain ⟨old, isOld, kept⟩ := ApiLedger.claimed_mem member
  rcases mem_append.mp (leases ▸ isHeld) with earlier | fresh
  · obtain ⟨_, rfl⟩ | ⟨again, rfl⟩ := kept
    · exact leased.waits held earlier _ isOld same
    · exact absurd (same ▸ again) (unclaimed held earlier)
  · obtain ⟨taken, isTaken, rfl⟩ := isClaimed held (mem_of_mem_filter fresh)
    obtain ⟨stored, waits, _⟩ := isDue taken isTaken
    obtain ⟨other, rfl⟩ | ⟨_, rfl⟩ := kept
    · exact absurd (mem_map.mpr ⟨taken, isTaken, same.symm⟩) other
    · cases inv.unique isOld stored same
      exact ⟨waits, rfl⟩

theorem Leased.timely (leased : Leased world) (within : world.withinLease label = true) :
    world.Timely label := by
  cases label with
  | settle index outcome =>
    intro attempt found delivery member same
    rw [withinLease, Option.mem_def.mp found, Option.all_some] at within
    have held : attempt.due.delivery ∈ world.leases :=
      mem_filter.mpr ⟨mem_map_of_mem (mem_of_getElem? found), within⟩
    exact .inl (leased.waits _ held delivery member same).1
  | _ => trivial

variable (distinct : ∀ webhook event other otherEvent, deliveryIdFor webhook event =
    deliveryIdFor other otherEvent → webhook = other ∧ event = otherEvent)
include distinct

theorem Leased.step (inv : DispatchInv deliveryIdFor world) (leased : Leased world)
    (within : world.withinLease label = true)
    (stepped : (dispatchers store deliveryIdFor).step world label = some next) : Leased next := by
  cases label with
  | tick | deleteWebhook | prune | start | crash => exact (step_quiet stepped).leased leased
  | claim => exact leased.claim inv stepped
  | createWebhook webhook activeLimit =>
    simp only [dispatchers, DispatchWorld.step] at stepped
    split at stepped
    · cases stepped
    cases stepped
    refine leased.kept (.refl _) fun held isHeld delivery member _ => ?_
    simp only [ApiLedger.createApiWebhook] at member
    refine ⟨delivery, ?_, rfl, fun waits => ⟨waits, rfl⟩⟩
    split at member
    · exact member
    · exact member
  | recordEvent input =>
    simp only [dispatchers, DispatchWorld.step] at stepped
    split at stepped
    · rename_i routed
      cases stepped
      refine leased.kept (.refl _) fun held isHeld delivery member same => ?_
      rcases recordEvent_adds routed member with earlier | fresh
      · exact ⟨delivery, earlier, rfl, fun waits => ⟨waits, rfl⟩⟩
      obtain ⟨attempt, isAttempt, rfl⟩ := mem_map.mp (mem_of_mem_filter isHeld)
      exact absurd (same ▸ (inv.inHand attempt isAttempt).1) (fresh.fresh distinct inv)
    · cases stepped
  | settle index outcome =>
    simp only [dispatchers, DispatchWorld.step] at stepped
    split at stepped
    · cases stepped
    rename_i attempt found
    obtain ⟨nowMs, _, rfl⟩ := Option.map_eq_some_iff.mp stepped
    refine leased.kept (((eraseIdx_sublist _ index).map _).filter _)
      fun held isHeld delivery member same => ?_
    rcases recordDelivery_mem member with ⟨earlier, _⟩ | ⟨old, _, claimed, id, _⟩
    · exact ⟨delivery, earlier, rfl, fun waits => ⟨waits, rfl⟩⟩
    -- Nobody else holds a lease of what is settled.
    have unexpired := within
    rw [withinLease, found, Option.all_some] at unexpired
    obtain ⟨bound, rfl⟩ := List.getElem?_eq_some_iff.mp found
    have split := ((getElem_cons_eraseIdx_perm bound).map (·.due.delivery)).filter fun held =>
      Decidable.decide (world.clock < held.nextAttemptAtMs)
    rw [map_cons, filter_cons, if_pos unexpired] at split
    have alone := (split.map (·.deliveryId)).nodup_iff.mpr leased.alone
    rw [map_cons, nodup_cons] at alone
    exact absurd (mem_map.mpr ⟨held, isHeld, same.symm.trans (id.trans claimed)⟩) alone.1

/-- What settles before its lease runs out settles in time. -/
theorem timely_of_withinLease {labels : List DispatchStep}
    (within : (dispatchers store deliveryIdFor).EachStep
      (fun world label => world.withinLease label = true) {} labels) :
    (dispatchers store deliveryIdFor).EachStep DispatchWorld.Timely {} labels := by
  refine TransitionSystem.EachStep.conclude
    (fun world => DispatchInv deliveryIdFor world ∧ Leased world) ?_ within
    ⟨inv_init, nodup_nil, forall_mem_nil _⟩
  rintro world label next ⟨inv, leased⟩ within stepped
  have timely := leased.timely within
  exact ⟨⟨inv_step distinct inv timely stepped, leased.step distinct inv within stepped⟩, timely⟩

end Leases

def sampleDeliveryId (webhookId eventId : String) : String :=
  String.ofList (webhookId.toList.flatMap (fun letter => ['+', letter]) ++ '/' :: eventId.toList)

theorem sampleDeliveryId_distinct (webhook event other otherEvent : String)
    (same : sampleDeliveryId webhook event = sampleDeliveryId other otherEvent) :
    webhook = other ∧ event = otherEvent := by
  have lists := congrArg String.toList same
  simp only [sampleDeliveryId, String.toList_ofList] at lists
  rw [← String.toList_inj, ← String.toList_inj]
  generalize webhook.toList = first at lists ⊢
  generalize other.toList = second at lists ⊢
  induction first generalizing second with
  | nil =>
    cases second with
    | nil => simpa using lists
    | cons letter rest => simp at lists
  | cons letter rest ih =>
    cases second with
    | nil => simp at lists
    | cons otherLetter otherRest =>
      simp only [flatMap_cons, cons_append, List.cons.injEq, true_and, nil_append] at lists
      obtain ⟨rfl, later⟩ := lists
      obtain ⟨rfl, events⟩ := ih otherRest later
      exact ⟨rfl, events⟩

def deliveryStart : List DispatchStep :=
  [.createWebhook
      { webhookId := "hook"
        accountId := "account"
        url := "https://example.test"
        sealedSecret := "secret"
        createdAtMs := 0 } 5,
    .recordEvent
      { messageId := "answer"
        workspaceId := "workspace"
        accountId := "account"
        turnId := "turn"
        outcome := .completed
        sealedContent := "reply"
        contentDigest := "digest"
        nowMs := 0
        receivedAtMs := 0
        webhookFanout := some
          { eventId := "event"
            sealedPayload := "payload"
            enqueuedAtMs := 0
            targets :=
              [{ webhookId := "hook", deliveryId := sampleDeliveryId "hook" "event" }] } },
    .claim, .start 0]

theorem deliversOnce_sample :
    ((dispatchers .postgres sampleDeliveryId).run
      (deliveryStart ++ [.settle 0 (.answered false 500), .tick 60000, .claim, .start 0,
        .settle 0 (.answered true 200)])).any
      (fun last => last.ledger.deliveries.map (·.status) = [.delivered] ∧
        ∀ delivery ∈ last.ledger.deliveries,
          delivery.attempts = last.failures.count delivery.deliveryId) = true := by
  obtain ⟨last, ran, delivered⟩ := (Option.any_eq_true _ _).mp
    (show ((dispatchers .postgres sampleDeliveryId).run
      (deliveryStart ++ [.settle 0 (.answered false 500), .tick 60000, .claim, .start 0,
        .settle 0 (.answered true 200)])).any
      (fun last => last.ledger.deliveries.map (·.status) = [.delivered]) = true by
        decide +kernel)
  have timely : (dispatchers .postgres sampleDeliveryId).EachStep DispatchWorld.Timely {}
      (deliveryStart ++ [.settle 0 (.answered false 500), .tick 60000, .claim, .start 0,
        .settle 0 (.answered true 200)]) :=
    timely_of_withinLease sampleDeliveryId_distinct (by decide +kernel)
  have once := (deliversOnce_of_run sampleDeliveryId_distinct timely ran).1
  rw [ran]
  exact decide_eq_true ⟨of_decide_eq_true delivered, once.counted⟩

/-- An attempt whose lease ran out fails after a later one has delivered, and the delivery
is pending again. -/
theorem not_absorbing :
    ¬ ∀ (labels : List DispatchStep) (world next : DispatchWorld) (label : DispatchStep),
      (dispatchers .postgres sampleDeliveryId).run labels = some world →
      (dispatchers .postgres sampleDeliveryId).step world label = some next →
        Absorbs world next := by
  intro claim
  have revived : (((dispatchers .postgres sampleDeliveryId).run
      (deliveryStart ++ [.tick deliveryLeaseMs, .claim, .start 1,
        .settle 1 (.answered true 200)])).any fun world =>
      ((dispatchers .postgres sampleDeliveryId).step world
        (.settle 0 (.answered false 500))).any fun next =>
          world.ledger.deliveries.any (fun delivery => delivery.status = .delivered &&
            next.ledger.deliveries.any fun later =>
              later.deliveryId = delivery.deliveryId && later.status = .pending)) = true := by
    decide +kernel
  obtain ⟨world, ran, stepped⟩ := (Option.any_eq_true _ _).mp revived
  obtain ⟨next, taken, found⟩ := (Option.any_eq_true _ _).mp stepped
  obtain ⟨delivery, member, both⟩ := any_eq_true.mp found
  obtain ⟨delivered, again⟩ := Bool.and_eq_true_iff.mp both
  obtain ⟨later, isLater, same⟩ := any_eq_true.mp again
  obtain ⟨sameId, pending⟩ := Bool.and_eq_true_iff.mp same
  have isDelivered := of_decide_eq_true delivered
  have kept := claim _ world next _ ran taken delivery member (by simp [isDelivered]) later
    isLater (of_decide_eq_true sameId)
  rw [of_decide_eq_true pending, isDelivered] at kept
  cases kept

end Zuse.PublicApi
