import Zuse.PublicApi.WebhookDispatch

namespace Zuse.PublicApi

open Data (TransitionSystem Table.mem_revise Table.map_revise)
open List ApiLedger
open DispatchWorld (settle withLedger)

variable {input : RecordApiTurnEventInput} {nowMs : Int} {delivery : ApiWebhookDelivery}

namespace ApiLedger

variable {ledger after : ApiLedger}

@[simp] theorem settleApiTurnUserMessage_deliveries (workspaceId turnId : String) :
    (ledger.settleApiTurnUserMessage workspaceId turnId).deliveries = ledger.deliveries := by
  unfold settleApiTurnUserMessage
  split
  · rfl
  · rfl

@[simp] theorem settleApiTurnUserMessage_webhooks (workspaceId turnId : String) :
    (ledger.settleApiTurnUserMessage workspaceId turnId).webhooks = ledger.webhooks := by
  unfold settleApiTurnUserMessage
  split
  · rfl
  · rfl

/-- What a fanout may add to the deliveries of a ledger. -/
structure FannedOut (fanout : ApiTurnWebhookFanout) (before after : ApiLedger) : Prop where
  webhooks : after.webhooks = before.webhooks
  kept : ∀ delivery ∈ before.deliveries, delivery ∈ after.deliveries
  ids : (before.deliveries.map (·.deliveryId)).Nodup → (after.deliveries.map (·.deliveryId)).Nodup
  added : ∀ delivery ∈ after.deliveries, delivery ∈ before.deliveries ∨
    ((∀ old ∈ before.deliveries, ¬ (old.webhookId = delivery.webhookId ∧
        old.eventId = delivery.eventId)) ∧
      (before.webhook? delivery.webhookId).isSome ∧
      (∃ target ∈ fanout.targets, target.deliveryId = delivery.deliveryId ∧
        target.webhookId = delivery.webhookId) ∧
      delivery.eventId = fanout.eventId ∧ delivery.status = .pending ∧
      delivery.attempts = 0 ∧ delivery.nextAttemptAtMs = fanout.enqueuedAtMs)

theorem FannedOut.refl (fanout : ApiTurnWebhookFanout) (ledger : ApiLedger) :
    FannedOut fanout ledger ledger where
  webhooks := rfl
  kept := fun _ member => member
  ids := id
  added := fun _ member => .inl member

variable {fanout : ApiTurnWebhookFanout}

theorem FannedOut.trans {before middle after : ApiLedger}
    (first : FannedOut fanout before middle) (second : FannedOut fanout middle after) :
    FannedOut fanout before after where
  webhooks := second.webhooks.trans first.webhooks
  kept := fun delivery member => second.kept delivery (first.kept delivery member)
  ids := fun distinct => second.ids (first.ids distinct)
  added := by
    intro delivery member
    rcases second.added delivery member with earlier | ⟨other, live, rest⟩
    · exact first.added delivery earlier
    refine .inr ⟨?_, ?_, rest⟩
    · exact fun old isOld => other old (first.kept old isOld)
    · unfold webhook? at live ⊢
      rw [← first.webhooks]
      exact live

variable {accountId : String} {settledAtMs : Int}

theorem fanOutTo_fannedOut {target : ApiWebhookTarget} (member : target ∈ fanout.targets)
    (sent : fanOutTo accountId settledAtMs fanout ledger target = some after) :
    FannedOut fanout ledger after := by
  unfold fanOutTo at sent
  split at sent
  · cases sent
    exact .refl fanout _
  rename_i webhook found
  have live : (ledger.webhook? target.webhookId).isSome :=
    Option.isSome_iff_exists.mpr ⟨webhook, (Option.filter_eq_some_iff.mp found).1⟩
  split at sent
  · cases sent
    exact .refl fanout _
  rename_i unsent
  split at sent
  · cases sent
  rename_i free
  cases sent
  refine ⟨rfl, fun delivery isOld => mem_append_left _ isOld, ?_, ?_⟩
  · intro distinct
    rw [map_append]
    refine nodup_append.mpr ⟨distinct, nodup_singleton _, ?_⟩
    intro id isOld new isNew same
    obtain ⟨delivery, stored, rfl⟩ := mem_map.mp isOld
    cases mem_singleton.mp isNew
    exact free (any_eq_true.mpr ⟨delivery, stored, decide_eq_true same⟩)
  intro delivery present
  rcases Data.mem_concat.mp present with isOld | rfl
  · exact .inl isOld
  refine .inr ⟨?_, live, ⟨target, member, rfl, rfl⟩, rfl, rfl, rfl, rfl⟩
  rintro old isOld ⟨sameWebhook, sameEvent⟩
  refine unsent (any_eq_true.mpr ⟨old, isOld, ?_⟩)
  simp [sameWebhook, sameEvent]

theorem foldlM_fannedOut
    {targets : List ApiWebhookTarget} (among : ∀ target ∈ targets, target ∈ fanout.targets)
    (sent : targets.foldlM (fanOutTo accountId settledAtMs fanout) ledger = some after) :
    FannedOut fanout ledger after := by
  induction targets generalizing ledger with
  | nil =>
    cases sent
    exact .refl fanout _
  | cons target rest ih =>
    obtain ⟨middle, first, later⟩ := Option.bind_eq_some_iff.mp sent
    exact (fanOutTo_fannedOut (among target mem_cons_self) first).trans
      (ih (fun other member => among other (mem_cons_of_mem target member)) later)

structure Delivers (input : RecordApiTurnEventInput) (before after : ApiLedger) : Prop where
  same : input.webhookFanout = none →
    after.webhooks = before.webhooks ∧ after.deliveries = before.deliveries
  fanned : ∀ fanout, input.webhookFanout = some fanout → FannedOut fanout before after

theorem Delivers.of_eq (webhooks : after.webhooks = ledger.webhooks)
    (deliveries : after.deliveries = ledger.deliveries) : Delivers input ledger after where
  same := fun _ => ⟨webhooks, deliveries⟩
  fanned := fun _ _ =>
    { webhooks
      kept := fun _ member => deliveries ▸ member
      ids := fun distinct => deliveries ▸ distinct
      added := fun _ member => .inl (deliveries ▸ member) }

theorem Delivers.grows (delivers : Delivers input ledger after) :
    after.webhooks = ledger.webhooks ∧ ledger.deliveries ⊆ after.deliveries ∧
      ((ledger.deliveries.map (·.deliveryId)).Nodup →
        (after.deliveries.map (·.deliveryId)).Nodup) := by
  cases given : input.webhookFanout with
  | none =>
    obtain ⟨webhooks, deliveries⟩ := delivers.same given
    rw [deliveries]
    exact ⟨webhooks, fun _ member => member, id⟩
  | some fanout =>
    obtain ⟨webhooks, kept, ids, _⟩ := delivers.fanned fanout given
    exact ⟨webhooks, kept, ids⟩

theorem fannedOut_delivers {receipt : ApiTurnReceipt}
    {outcome : RecordApiTurnEventOutcome} {changed : ApiLedger}
    (webhooks : changed.webhooks = ledger.webhooks)
    (deliveries : changed.deliveries = ledger.deliveries) :
    Delivers input ledger (fannedOut ledger input receipt outcome changed).2 := by
  unfold fannedOut
  split
  · rename_i after sent
    unfold applyApiWebhookFanout at sent
    have start : Delivers input ledger changed := .of_eq webhooks deliveries
    split at sent
    · cases sent
      exact start
    · rename_i fanout given
      have grown := foldlM_fannedOut (fun target member => member) sent
      constructor
      · intro absent
        exact absurd (given.symm.trans absent) (by simp)
      · intro other found
        cases given.symm.trans found
        exact (start.fanned fanout given).trans grown
  · exact .of_eq rfl rfl

variable (ledger) in
theorem recordApiTurnEvent_delivers (store : LedgerStore) (input : RecordApiTurnEventInput) :
    Delivers input ledger (ledger.recordApiTurnEvent store input).2 := by
  unfold recordApiTurnEvent
  split
  · split
    · exact .of_eq rfl rfl
    · exact fannedOut_delivers (by simp) (by simp)
  · split
    · exact .of_eq rfl rfl
    · exact fannedOut_delivers rfl rfl
  · split
    · exact .of_eq rfl rfl
    · exact fannedOut_delivers rfl rfl
  · dsimp only
    split
    · exact .of_eq rfl rfl
    · exact fannedOut_delivers (by simp) (by simp)

theorem claimed_mem {leaseMs : Int} {due : List ApiWebhookDelivery}
    (member : delivery ∈ (due.foldl (fun ledger delivery =>
      ledger.reviseDelivery delivery.deliveryId (leased nowMs leaseMs)) ledger).deliveries) :
    ∃ old ∈ ledger.deliveries, old.deliveryId ∉ due.map (·.deliveryId) ∧ delivery = old ∨
      old.deliveryId ∈ due.map (·.deliveryId) ∧ delivery = leased nowMs leaseMs old := by
  induction due generalizing ledger with
  | nil => exact ⟨delivery, member, .inl ⟨not_mem_nil, rfl⟩⟩
  | cons first rest ih =>
    rw [map_cons]
    obtain ⟨middle, isMiddle, ⟨apart, rfl⟩ | ⟨claimed, rfl⟩⟩ := ih member
    · rcases Table.mem_revise.mp isMiddle with ⟨isOld, other⟩ | ⟨old, isOld, same, rfl⟩
      · exact ⟨_, isOld, .inl ⟨not_mem_cons_of_ne_of_not_mem other apart, rfl⟩⟩
      · exact ⟨old, isOld, .inr ⟨mem_cons.mpr (.inl same), rfl⟩⟩
    · rcases Table.mem_revise.mp isMiddle with ⟨isOld, _⟩ | ⟨old, isOld, _, rfl⟩
      · exact ⟨_, isOld, .inr ⟨mem_cons_of_mem _ claimed, rfl⟩⟩
      · exact ⟨old, isOld, .inr ⟨mem_cons_of_mem _ claimed, rfl⟩⟩

variable (ledger) in
theorem claimed_keeps (nowMs leaseMs : Int) (due : List ApiWebhookDelivery) :
    (due.foldl (fun ledger delivery =>
      ledger.reviseDelivery delivery.deliveryId (leased nowMs leaseMs)) ledger).webhooks =
        ledger.webhooks ∧
    (due.foldl (fun ledger delivery =>
      ledger.reviseDelivery delivery.deliveryId (leased nowMs leaseMs)) ledger).deliveries.map
        (fun delivery => (delivery.deliveryId, delivery.webhookId)) =
      ledger.deliveries.map fun delivery => (delivery.deliveryId, delivery.webhookId) := by
  induction due generalizing ledger with
  | nil => exact ⟨rfl, rfl⟩
  | cons first rest ih =>
    obtain ⟨webhooks, names⟩ := ih (ledger.reviseDelivery first.deliveryId (leased nowMs leaseMs))
    refine ⟨webhooks, names.trans ?_⟩
    exact Table.map_revise (fun _ _ _ => rfl)

theorem same_names {before after : List ApiWebhookDelivery}
    (names : after.map (fun delivery => (delivery.deliveryId, delivery.webhookId)) =
      before.map fun delivery => (delivery.deliveryId, delivery.webhookId)) :
    after.map (·.deliveryId) = before.map (·.deliveryId) ∧
      ∀ delivery ∈ before, ∃ later ∈ after, later.deliveryId = delivery.deliveryId ∧
        later.webhookId = delivery.webhookId := by
  constructor
  · have ids := congrArg (List.map Prod.fst) names
    rwa [map_map, map_map] at ids
  · intro delivery member
    have present := mem_map_of_mem
      (f := fun delivery : ApiWebhookDelivery => (delivery.deliveryId, delivery.webhookId)) member
    rw [← names] at present
    obtain ⟨later, isLater, same⟩ := mem_map.mp present
    exact ⟨later, isLater, Prod.mk.inj same⟩

end ApiLedger

def retryHorizonMs : Int := 60 * 60000

section Invariant

variable {store : LedgerStore} {deliveryIdFor : String → String → String}
  {world next : DispatchWorld}

structure DispatchInv (deliveryIdFor : String → String → String) (world : DispatchWorld) :
    Prop where
  ids : (world.ledger.deliveries.map (·.deliveryId)).Nodup
  named : ∀ delivery ∈ world.ledger.deliveries,
    delivery.deliveryId = deliveryIdFor delivery.webhookId delivery.eventId
  origin : ∀ delivery ∈ world.ledger.deliveries, ∃ created ∈ world.enqueued,
    created.deliveryId = delivery.deliveryId ∧
      (delivery.status = .pending → delivery.sealedPayload = created.sealedPayload)
  enqueuedIds : (world.enqueued.map (·.deliveryId)).Nodup
  enqueuedNamed : ∀ created ∈ world.enqueued,
    created.deliveryId = deliveryIdFor created.webhookId created.eventId
  live : ∀ created ∈ world.enqueued,
    (∃ webhook ∈ world.ledger.webhooks, webhook.webhookId = created.webhookId) →
      ∃ delivery ∈ world.ledger.deliveries, delivery.deliveryId = created.deliveryId ∧
        delivery.webhookId = created.webhookId
  webhooksKnown : ∀ webhook ∈ world.ledger.webhooks, webhook.webhookId ∈ world.webhookIds
  enqueuedKnown : ∀ created ∈ world.enqueued, created.webhookId ∈ world.webhookIds
  due : ∀ delivery ∈ world.ledger.deliveries, delivery.status = .pending →
    delivery.nextAttemptAtMs ≤ world.clock + retryHorizonMs
  counted : ∀ delivery ∈ world.ledger.deliveries,
    delivery.attempts = world.failures.count delivery.deliveryId
  failuresKnown : ∀ id ∈ world.failures, id ∈ world.enqueued.map (·.deliveryId)
  ended : ∀ delivery ∈ world.ledger.deliveries, delivery.status = .failed →
    maxDeliveryAttempts ≤ delivery.attempts ∨ delivery.deliveryId ∈ world.refused
  inHand : ∀ attempt ∈ world.attempts,
    attempt.due.delivery.deliveryId ∈ world.enqueued.map (·.deliveryId) ∧
      (∀ delivery ∈ world.ledger.deliveries,
        delivery.deliveryId = attempt.due.delivery.deliveryId →
          attempt.due.delivery.attempts ≤ delivery.attempts) ∧
      ∀ nowMs, attempt.beganAtMs = some nowMs → nowMs ≤ world.clock

/-- A change of deliveries in place that ends none of them. -/
structure Rewrites (clock : Int) (before after : ApiLedger) : Prop where
  ids : (before.deliveries.map (·.deliveryId)).Nodup → (after.deliveries.map (·.deliveryId)).Nodup
  webhooks : ∀ webhook ∈ after.webhooks, webhook ∈ before.webhooks
  old : ∀ delivery ∈ after.deliveries, ∃ old ∈ before.deliveries,
    delivery.deliveryId = old.deliveryId ∧ delivery.webhookId = old.webhookId ∧
      delivery.eventId = old.eventId ∧ delivery.attempts = old.attempts ∧
      delivery.status = old.status ∧
      (delivery.status = .pending → delivery.sealedPayload = old.sealedPayload ∧
        (delivery.nextAttemptAtMs = old.nextAttemptAtMs ∨
          delivery.nextAttemptAtMs ≤ clock + retryHorizonMs))
  kept : ∀ delivery ∈ before.deliveries,
    (∃ webhook ∈ after.webhooks, webhook.webhookId = delivery.webhookId) →
      ∃ later ∈ after.deliveries, later.deliveryId = delivery.deliveryId ∧
        later.webhookId = delivery.webhookId

theorem DispatchInv.unique (inv : DispatchInv deliveryIdFor world)
    {first second : ApiWebhookDelivery} (isFirst : first ∈ world.ledger.deliveries)
    (isSecond : second ∈ world.ledger.deliveries)
    (same : first.deliveryId = second.deliveryId) : first = second :=
  inj_on_of_nodup_map inv.ids isFirst isSecond same

variable {ledger : ApiLedger}

theorem Rewrites.inv (inv : DispatchInv deliveryIdFor world) {clock : Int}
    (rewrites : Rewrites clock world.ledger ledger) (later : world.clock ≤ clock)
    {attempts : List DeliveryAttempt}
    (inHand : ∀ attempt ∈ attempts,
      (∀ nowMs, attempt.beganAtMs = some nowMs → nowMs ≤ clock) ∧
        ((∃ earlier ∈ world.attempts, attempt.due = earlier.due) ∨
          ∃ old ∈ world.ledger.deliveries, attempt.due.delivery.deliveryId = old.deliveryId ∧
            attempt.due.delivery.attempts = old.attempts)) :
    DispatchInv deliveryIdFor { world with ledger, clock, attempts } where
  ids := rewrites.ids inv.ids
  named := by
    intro delivery member
    obtain ⟨old, isOld, id, webhook, event, _⟩ := rewrites.old delivery member
    rw [id, webhook, event]
    exact inv.named old isOld
  origin := by
    intro delivery member
    obtain ⟨old, isOld, id, _, _, _, status, pending⟩ := rewrites.old delivery member
    obtain ⟨created, isCreated, same, payload⟩ := inv.origin old isOld
    refine ⟨created, isCreated, same.trans id.symm, ?_⟩
    intro waits
    rw [(pending waits).1]
    exact payload (status ▸ waits)
  enqueuedIds := inv.enqueuedIds
  enqueuedNamed := inv.enqueuedNamed
  live := by
    rintro created isCreated ⟨webhook, isWebhook, same⟩
    obtain ⟨delivery, isDelivery, id, owner⟩ := inv.live created isCreated
      ⟨webhook, rewrites.webhooks webhook isWebhook, same⟩
    obtain ⟨later, isLater, laterId, laterWebhook⟩ := rewrites.kept delivery isDelivery
      ⟨webhook, isWebhook, same.trans owner.symm⟩
    exact ⟨later, isLater, laterId.trans id, laterWebhook.trans owner⟩
  webhooksKnown := fun webhook member =>
    inv.webhooksKnown webhook (rewrites.webhooks webhook member)
  enqueuedKnown := inv.enqueuedKnown
  due := by
    intro delivery member waits
    obtain ⟨old, isOld, _, _, _, _, status, pending⟩ := rewrites.old delivery member
    rcases (pending waits).2 with same | bounded
    · rw [same]
      exact Int.le_trans (inv.due old isOld (status ▸ waits)) (Int.add_le_add_right later _)
    · exact bounded
  counted := by
    intro delivery member
    obtain ⟨old, isOld, id, _, _, attempts, _⟩ := rewrites.old delivery member
    rw [id, attempts]
    exact inv.counted old isOld
  failuresKnown := inv.failuresKnown
  ended := by
    intro delivery member failed
    obtain ⟨old, isOld, id, _, _, attempts, status, _⟩ := rewrites.old delivery member
    rw [id, attempts]
    exact inv.ended old isOld (status ▸ failed)
  inHand := by
    intro attempt member
    obtain ⟨began, ⟨earlier, isEarlier, due⟩ | ⟨claimed, isClaimed, id, attempts⟩⟩ :=
      inHand attempt member
    · obtain ⟨known, bounded, _⟩ := inv.inHand earlier isEarlier
      rw [due]
      refine ⟨known, ?_, began⟩
      intro delivery isDelivery same
      obtain ⟨old, isOld, oldId, _, _, oldAttempts, _⟩ := rewrites.old delivery isDelivery
      rw [oldAttempts]
      exact bounded old isOld (oldId.symm.trans same)
    obtain ⟨created, isCreated, same, _⟩ := inv.origin claimed isClaimed
    refine ⟨mem_map.mpr ⟨created, isCreated, same.trans id.symm⟩, ?_, began⟩
    intro delivery isDelivery sameId
    obtain ⟨old, isOld, oldId, _, _, oldAttempts, _⟩ := rewrites.old delivery isDelivery
    cases inv.unique isOld isClaimed (oldId.symm.trans (sameId.trans id))
    rw [oldAttempts, attempts]

theorem rewrites_refl (clock : Int) (ledger : ApiLedger) : Rewrites clock ledger ledger where
  ids := id
  webhooks := fun _ member => member
  old := fun delivery member =>
    ⟨delivery, member, rfl, rfl, rfl, rfl, rfl, fun _ => ⟨rfl, .inl rfl⟩⟩
  kept := fun delivery member _ => ⟨delivery, member, rfl, rfl⟩

theorem rewrites_prune (store : LedgerStore) (clock beforeMs : Int) (ledger : ApiLedger) :
    Rewrites clock ledger (ledger.pruneApiData store beforeMs) := by
  have keeps : ∀ delivery, (prunedDelivery store beforeMs delivery).deliveryId =
      delivery.deliveryId ∧ (prunedDelivery store beforeMs delivery).webhookId =
        delivery.webhookId ∧ (prunedDelivery store beforeMs delivery).eventId =
          delivery.eventId ∧ (prunedDelivery store beforeMs delivery).attempts =
            delivery.attempts ∧ (prunedDelivery store beforeMs delivery).status =
              delivery.status ∧ (delivery.status = .pending →
                prunedDelivery store beforeMs delivery = delivery) := by
    intro delivery
    unfold prunedDelivery
    split
    · rename_i ended
      refine ⟨rfl, rfl, rfl, rfl, rfl, ?_⟩
      intro waits
      rcases ended.2.1 with delivered | failed
      · exact absurd (waits.symm.trans delivered) (by simp)
      · exact absurd (waits.symm.trans failed) (by simp)
    · exact ⟨rfl, rfl, rfl, rfl, rfl, fun _ => rfl⟩
  constructor
  · intro distinct
    unfold pruneApiData
    rw [map_map]
    refine (map_congr_left fun delivery _ => ?_) ▸ distinct
    exact (keeps delivery).1.symm
  · exact fun _ member => member
  · intro delivery member
    obtain ⟨old, isOld, rfl⟩ := mem_map.mp member
    obtain ⟨id, webhook, event, attempts, status, pending⟩ := keeps old
    refine ⟨old, isOld, id, webhook, event, attempts, status, ?_⟩
    intro waits
    rw [pending (status ▸ waits)]
    exact ⟨rfl, .inl rfl⟩
  · intro delivery member _
    exact ⟨_, mem_map_of_mem member, (keeps delivery).1, (keeps delivery).2.1⟩

theorem rewrites_delete (clock : Int) (accountId webhookId : String) (ledger : ApiLedger) :
    Rewrites clock ledger (ledger.deleteApiWebhook accountId webhookId).2 := by
  unfold deleteApiWebhook
  split
  · exact rewrites_refl clock ledger
  constructor
  · exact fun distinct => distinct.sublist (filter_sublist.map _)
  · exact fun _ member => mem_of_mem_filter member
  · intro delivery member
    exact ⟨delivery, mem_of_mem_filter member, rfl, rfl, rfl, rfl, rfl, fun _ => ⟨rfl, .inl rfl⟩⟩
  · rintro delivery member ⟨webhook, isWebhook, same⟩
    have other := (mem_filter.mp isWebhook).2
    rw [same] at other
    exact ⟨delivery, mem_filter.mpr ⟨member, other⟩, rfl, rfl⟩

theorem rewrites_claim (clock : Int) (limit : Nat) (ledger : ApiLedger) :
    Rewrites clock ledger (ledger.claimDueApiWebhookDeliveries clock limit deliveryLeaseMs).2 := by
  unfold claimDueApiWebhookDeliveries
  obtain ⟨webhooks, names⟩ := claimed_keeps ledger clock deliveryLeaseMs
     (ledger.dueDeliveries clock limit)
  obtain ⟨ids, kept⟩ := same_names names
  constructor
  · exact fun distinct => ids ▸ distinct
  · intro webhook member
    rw [webhooks] at member
    exact member
  · intro delivery member
    obtain ⟨old, isOld, ⟨_, rfl⟩ | ⟨_, rfl⟩⟩ := claimed_mem member
    · exact ⟨_, isOld, rfl, rfl, rfl, rfl, rfl, fun _ => ⟨rfl, .inl rfl⟩⟩
    · refine ⟨old, isOld, rfl, rfl, rfl, rfl, rfl, fun _ => ⟨rfl, .inr ?_⟩⟩
      exact Int.add_le_add_left (by decide) clock
  · exact fun delivery member _ => kept delivery member

/-- A step that neither enqueues deliveries nor claims or settles one. -/
structure Quiet (world next : DispatchWorld) : Prop where
  rewrites : ∀ clock, Rewrites clock world.ledger next.ledger
  later : world.clock ≤ next.clock
  dues : (next.attempts.map (·.due)).Sublist (world.attempts.map (·.due))
  began : ∀ attempt ∈ next.attempts, attempt ∈ world.attempts ∨
    attempt.beganAtMs = some world.clock
  same : next =
    { world with ledger := next.ledger, clock := next.clock, attempts := next.attempts }

theorem Quiet.inv (inv : DispatchInv deliveryIdFor world) (quiet : Quiet world next) :
    DispatchInv deliveryIdFor next := by
  rw [quiet.same]
  refine (quiet.rewrites next.clock).inv inv quiet.later fun attempt member => ⟨?_, .inl ?_⟩
  · intro nowMs began
    rcases quiet.began attempt member with earlier | now
    · exact Int.le_trans ((inv.inHand attempt earlier).2.2 nowMs began) quiet.later
    · cases now.symm.trans began
      exact quiet.later
  · obtain ⟨earlier, isEarlier, due⟩ := mem_map.mp (quiet.dues.subset (mem_map_of_mem member))
    exact ⟨earlier, isEarlier, due.symm⟩

theorem step_quiet {label : DispatchStep}
    (stepped : (dispatchers store deliveryIdFor).step world label = some next) :
    match label with
    | .createWebhook .. | .recordEvent _ | .claim | .settle .. => True
    | _ => Quiet world next := by
  have refl := fun clock => rewrites_refl clock world.ledger
  cases label with
  | createWebhook | recordEvent | claim | settle => trivial
  | tick nowMs =>
    simp only [dispatchers, DispatchWorld.step] at stepped
    split at stepped
    · rename_i later
      cases stepped
      exact ⟨refl, later, .refl _, fun _ member => .inl member, rfl⟩
    · cases stepped
  | deleteWebhook accountId webhookId =>
    cases stepped
    exact ⟨fun clock => rewrites_delete clock accountId webhookId world.ledger, Int.le_refl _,
      .refl _, fun _ member => .inl member, rfl⟩
  | prune beforeMs =>
    cases stepped
    exact ⟨fun clock => rewrites_prune store clock beforeMs world.ledger, Int.le_refl _, .refl _,
      fun _ member => .inl member, rfl⟩
  | start index =>
    simp only [dispatchers, DispatchWorld.step] at stepped
    split at stepped
    · cases stepped
    rename_i attempt found
    split at stepped
    · cases stepped
    cases stepped
    refine ⟨refl, Int.le_refl _, ?_, fun other member => ?_, rfl⟩
    · obtain ⟨bound, rfl⟩ := List.getElem?_eq_some_iff.mp found
      rw [map_set, ← getElem_map DeliveryAttempt.due, set_getElem_self]
      rwa [length_map]
    · rcases mem_or_eq_of_mem_set member with earlier | rfl
      · exact .inl earlier
      · exact .inr rfl
  | crash index =>
    simp only [dispatchers, DispatchWorld.step] at stepped
    split at stepped
    · cases stepped
      exact ⟨refl, Int.le_refl _, (eraseIdx_sublist _ index).map _,
        fun _ member => .inl (mem_of_mem_eraseIdx member), rfl⟩
    · cases stepped

variable (store) in
theorem inv_claim (inv : DispatchInv deliveryIdFor world)
    (stepped : world.step store deliveryIdFor .claim = some next) :
    DispatchInv deliveryIdFor next := by
  cases stepped
  refine (rewrites_claim world.clock deliveryBatchLimit world.ledger).inv inv (Int.le_refl _) ?_
  intro attempt member
  rcases mem_append.mp member with earlier | claimed
  · exact ⟨(inv.inHand attempt earlier).2.2, .inl ⟨attempt, earlier, rfl⟩⟩
  obtain ⟨due, isDue, rfl⟩ := mem_map.mp claimed
  obtain ⟨delivery, isDelivery, found⟩ := mem_filterMap.mp isDue
  obtain ⟨webhook, _, rfl⟩ := Option.map_eq_some_iff.mp found
  have stored : delivery ∈ world.ledger.deliveries :=
    mem_of_mem_filter ((mem_insertionSort _).mp (mem_of_mem_take isDelivery))
  exact ⟨fun _ began => (by cases began), .inr ⟨delivery, stored, rfl, rfl⟩⟩

variable {outcome : DeliveryOutcome}

theorem recordDelivery_mem {claimed : ApiWebhookDelivery}
    (member : delivery ∈ (recordDelivery ledger claimed nowMs outcome).deliveries) :
    (delivery ∈ ledger.deliveries ∧ delivery.deliveryId ≠ claimed.deliveryId) ∨
      ∃ old ∈ ledger.deliveries, old.deliveryId = claimed.deliveryId ∧
        delivery.deliveryId = old.deliveryId ∧ delivery.webhookId = old.webhookId ∧
        delivery.eventId = old.eventId ∧ delivery.sealedPayload = old.sealedPayload ∧
        delivery.status = outcome.status claimed ∧
        delivery.attempts = old.attempts + (if outcome.succeeds then 0 else 1) ∧
        (outcome.succeeds = false → delivery.nextAttemptAtMs ≤ nowMs + retryHorizonMs) := by
  have soon : nowMs + apiWebhookRetryDelayMs (claimed.attempts + 1) ≤
      nowMs + retryHorizonMs := Int.add_le_add_left (min_le_right _ _) nowMs
  cases outcome with
  | unsafeTarget | unsealable | threw message =>
    rcases Table.mem_revise.mp member with earlier | ⟨old, isOld, same, rfl⟩
    · exact .inl earlier
    · refine .inr ⟨old, isOld, same, rfl, rfl, rfl, rfl, ?_, rfl, fun _ => soon⟩
      simp [failure, DeliveryOutcome.status, DeliveryOutcome.succeeds, DeliveryOutcome.terminal]
  | answered ok status =>
    cases ok with
    | true =>
      rcases Table.mem_revise.mp member with earlier | ⟨old, isOld, same, rfl⟩
      · exact .inl earlier
      · exact .inr ⟨old, isOld, same, rfl, rfl, rfl, rfl, rfl, rfl, fun failed => by
          cases failed⟩
    | false =>
      rcases Table.mem_revise.mp member with earlier | ⟨old, isOld, same, rfl⟩
      · exact .inl earlier
      · refine .inr ⟨old, isOld, same, rfl, rfl, rfl, rfl, ?_, rfl, fun _ => soon⟩
        simp [failure, DeliveryOutcome.status, DeliveryOutcome.succeeds, DeliveryOutcome.terminal]

theorem recordDelivery_keeps (ledger : ApiLedger) (claimed : ApiWebhookDelivery)
    (nowMs : Int) (outcome : DeliveryOutcome) :
    (recordDelivery ledger claimed nowMs outcome).webhooks = ledger.webhooks ∧
      (recordDelivery ledger claimed nowMs outcome).deliveries.map
        (fun delivery => (delivery.deliveryId, delivery.webhookId)) =
      ledger.deliveries.map fun delivery => (delivery.deliveryId, delivery.webhookId) := by
  cases outcome with
  | unsafeTarget | unsealable | threw message => exact ⟨rfl, Table.map_revise (fun _ _ _ => rfl)⟩
  | answered ok status =>
    cases ok with
    | true | false => exact ⟨rfl, Table.map_revise (fun _ _ _ => rfl)⟩

variable (store) in
theorem inv_settle {index : Nat}
    (inv : DispatchInv deliveryIdFor world) (timely : world.Timely (.settle index outcome))
    (stepped : world.step store deliveryIdFor (.settle index outcome) = some next) :
    DispatchInv deliveryIdFor next := by
  simp only [DispatchWorld.step] at stepped
  split at stepped
  · cases stepped
  rename_i attempt found
  obtain ⟨nowMs, began, rfl⟩ := Option.map_eq_some_iff.mp stepped
  obtain ⟨known, bounded, beganBy⟩ :=
    inv.inHand attempt (mem_of_getElem? found)
  have early := beganBy nowMs began
  obtain ⟨webhooks, names⟩ := recordDelivery_keeps world.ledger attempt.due.delivery nowMs outcome
  obtain ⟨ids, kept⟩ := same_names names
  -- The row of the attempt is pending, or has the status that the attempt gives it.
  have inTime := timely attempt found
  constructor
  · exact ids ▸ inv.ids
  · intro delivery member
    rcases recordDelivery_mem member with ⟨earlier, _⟩ | ⟨old, isOld, _, id, webhook, event, _⟩
    · exact inv.named delivery earlier
    · rw [id, webhook, event]
      exact inv.named old isOld
  · intro delivery member
    rcases recordDelivery_mem member with
      ⟨earlier, _⟩ | ⟨old, isOld, same, id, _, _, payload, status, _⟩
    · exact inv.origin delivery earlier
    · obtain ⟨created, isCreated, createdId, kept⟩ := inv.origin old isOld
      refine ⟨created, isCreated, createdId.trans id.symm, ?_⟩
      intro waits
      rw [payload]
      rcases inTime old isOld same with pending | ended
      · exact kept pending
      · exact kept (ended.trans (status.symm.trans waits))
  · exact inv.enqueuedIds
  · exact inv.enqueuedNamed
  · rintro created isCreated ⟨webhook, isWebhook, owner⟩
    simp only [settle] at isWebhook
    rw [webhooks] at isWebhook
    obtain ⟨delivery, isDelivery, id, webhookId⟩ :=
      inv.live created isCreated ⟨webhook, isWebhook, owner⟩
    obtain ⟨later, isLater, laterId, laterWebhook⟩ := kept delivery isDelivery
    exact ⟨later, isLater, laterId.trans id, laterWebhook.trans webhookId⟩
  · intro webhook member
    simp only [settle] at member
    rw [webhooks] at member
    exact inv.webhooksKnown webhook member
  · exact inv.enqueuedKnown
  · intro delivery member waits
    rcases recordDelivery_mem member with
      ⟨earlier, _⟩ | ⟨old, isOld, _, _, _, _, _, status, _, soon⟩
    · exact inv.due delivery earlier waits
    · have failed : outcome.succeeds = false := by
        cases succeeds : outcome.succeeds with
        | false => rfl
        | true =>
          rw [waits] at status
          simp [DeliveryOutcome.status, succeeds] at status
      exact Int.le_trans (soon failed) (Int.add_le_add_right early _)
  · intro delivery member
    simp only [settle]
    rcases recordDelivery_mem member with
      ⟨earlier, other⟩ | ⟨old, isOld, same, id, _, _, _, _, attempts, _⟩
    · rw [inv.counted delivery earlier]
      split
      · rfl
      · rw [count_append, count_singleton, if_neg]
        · rfl
        · simpa using Ne.symm other
    · rw [attempts, id, inv.counted old isOld]
      split
      · rfl
      · rw [count_append, count_singleton]
        simpa using same.symm
  · intro id member
    simp only [settle] at member
    split at member
    · exact inv.failuresKnown id member
    · rcases Data.mem_concat.mp member with earlier | rfl
      · exact inv.failuresKnown id earlier
      · exact known
  · intro delivery member failed
    have grown : ∀ id ∈ world.refused, id ∈ (world.settle index attempt nowMs outcome).refused := by
      intro id isRefused
      simp only [settle]
      split
      · exact mem_append_left _ isRefused
      · exact isRefused
    rcases recordDelivery_mem member with
      ⟨earlier, _⟩ | ⟨old, isOld, same, id, _, _, _, status, attempts, _⟩
    · rcases inv.ended delivery earlier failed with enough | refused
      · exact .inl enough
      · exact .inr (grown _ refused)
    · rw [failed] at status
      unfold DeliveryOutcome.status at status
      split at status
      · cases status
      · rename_i fails
        split at status
        · rename_i final
          rcases final with terminal | enough
          · right
            simp only [settle]
            rw [if_pos terminal, id, same]
            exact mem_append_right _ (mem_singleton.mpr rfl)
          · have atLeast := bounded old isOld same
            rw [attempts, if_neg fails]
            omega
        · cases status
  · intro other member
    have earlier : other ∈ world.attempts := mem_of_mem_eraseIdx member
    obtain ⟨otherKnown, otherBounded, otherBegan⟩ := inv.inHand other earlier
    refine ⟨otherKnown, ?_, otherBegan⟩
    intro delivery isDelivery same
    rcases recordDelivery_mem isDelivery with
      ⟨kept, _⟩ | ⟨old, isOld, _, id, _, _, _, _, attempts, _⟩
    · exact otherBounded delivery kept same
    · rw [attempts]
      exact Nat.le_trans (otherBounded old isOld (id.symm.trans same)) (Nat.le_add_right _ _)

theorem webhook?_mem {webhookId : String} (live : (ledger.webhook? webhookId).isSome) :
    ∃ webhook ∈ ledger.webhooks, webhook.webhookId = webhookId := by
  obtain ⟨webhook, found⟩ := Option.isSome_iff_exists.mp live
  have same := List.find?_some found
  exact ⟨webhook, mem_of_find?_eq_some found, of_decide_eq_true same⟩

structure Enqueues (deliveryIdFor : String → String → String) (world : DispatchWorld)
    (delivery : ApiWebhookDelivery) : Prop where
  unsent : ∀ old ∈ world.ledger.deliveries, ¬ (old.webhookId = delivery.webhookId ∧
    old.eventId = delivery.eventId)
  webhook : ∃ webhook ∈ world.ledger.webhooks, webhook.webhookId = delivery.webhookId
  named : delivery.deliveryId = deliveryIdFor delivery.webhookId delivery.eventId
  status : delivery.status = .pending
  attempts : delivery.attempts = 0
  nextAttemptAtMs : delivery.nextAttemptAtMs ≤ world.clock

theorem recordEvent_adds (routed : routeFanout deliveryIdFor world.clock input = true)
    (member : delivery ∈ (world.ledger.recordApiTurnEvent store input).2.deliveries) :
    delivery ∈ world.ledger.deliveries ∨ Enqueues deliveryIdFor world delivery := by
  have delivers := recordApiTurnEvent_delivers world.ledger store input
  cases given : input.webhookFanout with
  | none =>
    rw [(delivers.same given).2] at member
    exact .inl member
  | some fanout =>
    rcases (delivers.fanned fanout given).added delivery member with
      earlier | ⟨unsent, live, ⟨target, isTarget, id, webhook⟩, event, status, attempts, next⟩
    · exact .inl earlier
    simp only [routeFanout, given, Option.all_some, Bool.and_eq_true, decide_eq_true_eq,
      all_eq_true] at routed
    refine .inr ⟨unsent, webhook?_mem live, ?_, status, attempts, next.trans_le routed.1⟩
    rw [← id, ← webhook, event]
    exact routed.2 target isTarget

section

variable (distinct : ∀ webhook event other otherEvent, deliveryIdFor webhook event =
    deliveryIdFor other otherEvent → webhook = other ∧ event = otherEvent)
include distinct

theorem Enqueues.fresh (inv : DispatchInv deliveryIdFor world)
    (added : Enqueues deliveryIdFor world delivery) :
    delivery.deliveryId ∉ world.enqueued.map (·.deliveryId) := by
  intro known
  obtain ⟨created, isCreated, same⟩ := mem_map.mp known
  obtain ⟨sameWebhook, sameEvent⟩ := distinct _ _ _ _
    ((inv.enqueuedNamed created isCreated).symm.trans (same.trans added.named))
  obtain ⟨webhook, isWebhook, owner⟩ := added.webhook
  obtain ⟨stored, isStored, id, _⟩ := inv.live created isCreated
    ⟨webhook, isWebhook, owner.trans sameWebhook.symm⟩
  obtain ⟨storedWebhook, storedEvent⟩ := distinct _ _ _ _
    ((inv.named stored isStored).symm.trans (id.trans (same.trans added.named)))
  exact added.unsent stored isStored ⟨storedWebhook, storedEvent⟩

theorem inv_record (inv : DispatchInv deliveryIdFor world)
    (stepped : world.step store deliveryIdFor (.recordEvent input) = some next) :
    DispatchInv deliveryIdFor next := by
  simp only [DispatchWorld.step] at stepped
  split at stepped
  · rename_i routed
    cases stepped
    obtain ⟨webhooks, kept, distinctIds⟩ :=
      (recordApiTurnEvent_delivers world.ledger store input).grows
    have ids := distinctIds inv.ids
    have added : ∀ delivery ∈ (world.ledger.recordApiTurnEvent store input).2.deliveries,
        delivery ∈ world.ledger.deliveries ∨ Enqueues deliveryIdFor world delivery :=
      fun delivery member => recordEvent_adds routed member
    -- What is new in the ledger is enqueued.
    have enqueues : ∀ created,
        created ∈ (world.withLedger (world.ledger.recordApiTurnEvent store input).2).enqueued ↔
        created ∈ world.enqueued ∨
          created ∈ (world.ledger.recordApiTurnEvent store input).2.deliveries ∧
            ∀ old ∈ world.ledger.deliveries, old.deliveryId ≠ created.deliveryId := by
      simp [withLedger, mem_filter]
    have isNew : ∀ created ∈ (world.ledger.recordApiTurnEvent store input).2.deliveries,
        (∀ old ∈ world.ledger.deliveries, old.deliveryId ≠ created.deliveryId) →
          Enqueues deliveryIdFor world created := by
      intro created member unlike
      rcases added created member with earlier | fresh
      · exact absurd rfl (unlike created earlier)
      · exact fresh
    have freshIds : ∀ delivery, Enqueues deliveryIdFor world delivery →
        ∀ old ∈ world.ledger.deliveries, old.deliveryId ≠ delivery.deliveryId := by
      intro delivery fresh old isOld same
      obtain ⟨created, isCreated, createdId, _⟩ := inv.origin old isOld
      exact fresh.fresh distinct inv (mem_map.mpr ⟨created, isCreated, createdId.trans same⟩)
    constructor
    · exact ids
    · intro delivery member
      rcases added delivery member with earlier | fresh
      · exact inv.named delivery earlier
      · exact fresh.named
    · intro delivery member
      rcases added delivery member with earlier | fresh
      · obtain ⟨created, isCreated, rest⟩ := inv.origin delivery earlier
        exact ⟨created, (enqueues created).mpr (.inl isCreated), rest⟩
      · exact ⟨delivery, (enqueues delivery).mpr (.inr ⟨member, freshIds delivery fresh⟩), rfl,
          fun _ => rfl⟩
    · simp only [withLedger]
      rw [map_append]
      refine nodup_append.mpr ⟨inv.enqueuedIds, ids.sublist (filter_sublist.map _), ?_⟩
      intro id isOld new isAdded same
      obtain ⟨created, member, rfl⟩ := mem_map.mp isAdded
      obtain ⟨isStored, unlike⟩ := mem_filter.mp member
      have fresh := isNew created isStored (by simpa using unlike)
      exact fresh.fresh distinct inv (same ▸ isOld)
    · intro created member
      rcases (enqueues created).mp member with earlier | ⟨isStored, unlike⟩
      · exact inv.enqueuedNamed created earlier
      · exact (isNew created isStored unlike).named
    · rintro created member ⟨webhook, isWebhook, owner⟩
      rcases (enqueues created).mp member with earlier | ⟨isStored, _⟩
      · have isWebhookBefore : webhook ∈ world.ledger.webhooks := webhooks ▸ isWebhook
        obtain ⟨delivery, isDelivery, rest⟩ :=
          inv.live created earlier ⟨webhook, isWebhookBefore, owner⟩
        exact ⟨delivery, kept isDelivery, rest⟩
      · exact ⟨created, isStored, rfl, rfl⟩
    · intro webhook member
      exact inv.webhooksKnown webhook (webhooks ▸ member)
    · intro created member
      rcases (enqueues created).mp member with earlier | ⟨isStored, unlike⟩
      · exact inv.enqueuedKnown created earlier
      · obtain ⟨webhook, isWebhook, owner⟩ := (isNew created isStored unlike).webhook
        exact owner ▸ inv.webhooksKnown webhook isWebhook
    · intro delivery member waits
      rcases added delivery member with earlier | fresh
      · exact inv.due delivery earlier waits
      · exact Int.le_trans fresh.nextAttemptAtMs (Int.le_add_of_nonneg_right (by decide))
    · intro delivery member
      rcases added delivery member with earlier | fresh
      · exact inv.counted delivery earlier
      · rw [fresh.attempts]
        refine (count_eq_zero.mpr fun failed => ?_).symm
        exact fresh.fresh distinct inv (inv.failuresKnown _ failed)
    · intro id member
      obtain ⟨created, isCreated, same⟩ := mem_map.mp (inv.failuresKnown id member)
      exact mem_map.mpr ⟨created, (enqueues created).mpr (.inl isCreated), same⟩
    · intro delivery member failed
      rcases added delivery member with earlier | fresh
      · exact inv.ended delivery earlier failed
      · exact absurd (failed.symm.trans fresh.status) (by simp)
    · intro attempt member
      obtain ⟨known, bounded, began⟩ := inv.inHand attempt member
      obtain ⟨created, isCreated, same⟩ := mem_map.mp known
      refine ⟨mem_map.mpr ⟨created, (enqueues created).mpr (.inl isCreated), same⟩, ?_, began⟩
      intro delivery isDelivery sameId
      rcases added delivery isDelivery with earlier | fresh
      · exact bounded delivery earlier sameId
      · exact absurd (sameId ▸ known) (fresh.fresh distinct inv)
  · cases stepped

end

variable (store) in
theorem inv_create {webhook : ApiWebhook} {activeLimit : Nat}
    (inv : DispatchInv deliveryIdFor world)
    (stepped : world.step store deliveryIdFor (.createWebhook webhook activeLimit) =
      some next) : DispatchInv deliveryIdFor next := by
  simp only [DispatchWorld.step] at stepped
  split at stepped
  · cases stepped
  rename_i unused
  cases stepped
  have same : (world.ledger.createApiWebhook webhook activeLimit).2.deliveries =
      world.ledger.deliveries := by
    unfold createApiWebhook
    dsimp only
    split
    · rfl
    · rfl
  have webhooks : ∀ other ∈ (world.ledger.createApiWebhook webhook activeLimit).2.webhooks,
      other ∈ world.ledger.webhooks ∨ other = webhook := by
    intro other member
    unfold createApiWebhook at member
    dsimp only at member
    split at member
    · exact .inl member
    · rcases Data.mem_concat.mp member with earlier | new
      · exact .inl earlier
      · exact .inr (new)
  constructor
  · rw [same]
    exact inv.ids
  · rw [same]
    exact inv.named
  · rw [same]
    exact inv.origin
  · exact inv.enqueuedIds
  · exact inv.enqueuedNamed
  · rintro created isCreated ⟨other, isOther, owner⟩
    rw [same]
    rcases webhooks other isOther with earlier | rfl
    · exact inv.live created isCreated ⟨other, earlier, owner⟩
    · exact absurd (owner ▸ inv.enqueuedKnown created isCreated) unused
  · intro other member
    rcases webhooks other member with earlier | rfl
    · exact mem_cons_of_mem _ (inv.webhooksKnown other earlier)
    · exact mem_cons_self
  · exact fun created member => mem_cons_of_mem _ (inv.enqueuedKnown created member)
  · rw [same]
    exact inv.due
  · rw [same]
    exact inv.counted
  · exact inv.failuresKnown
  · rw [same]
    exact inv.ended
  · rw [same]
    exact inv.inHand

end Invariant

end Zuse.PublicApi
