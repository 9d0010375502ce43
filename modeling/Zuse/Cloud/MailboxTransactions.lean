import Zuse.Cloud.MailboxLoops

namespace Zuse.Cloud

open Zuse.Domain (Millis Number)
open List MailboxCommand

namespace Mailbox

variable {mailbox after : Mailbox} {operation : MailboxOperation} {now later : Millis}
variable {destructionFence : Number} {commandId : CommandId}

section Tables

theorem bySequence_perm (rows : List MailboxCommand) : (bySequence rows).Perm rows :=
  perm_insertionSort _ rows

variable {row : MailboxCommand} {rows : List MailboxCommand}

theorem mem_bySequence : row ∈ bySequence rows ↔ row ∈ rows :=
  (bySequence_perm rows).mem_iff

theorem bySequence_distinct (distinct : mailbox.commandIds.Nodup)
    (condition : MailboxCommand → Bool) :
    ((bySequence (mailbox.commands.filter condition)).map (·.commandId)).Nodup :=
  ((bySequence_perm _).map _).nodup_iff.mpr (distinct.sublist (filter_sublist.map commandId))

theorem le_observeDestructionFence (mailbox : Mailbox) (now : Millis) (destructionFence : Number) :
    ∃ current, (mailbox.observeDestructionFence now destructionFence).destructionFence =
      some current ∧ destructionFence ≤ current := by
  rw [observeDestructionFence]
  split
  · rename_i lower
    cases stored : mailbox.destructionFence with
    | none => simp [stored] at lower
    | some current =>
      rw [stored] at lower
      exact ⟨current, rfl, by simpa using lower⟩
  · refine ⟨destructionFence, ?_, le_refl _⟩
    exact terminalize_frame (·.destructionFence) (fun _ _ _ => rfl) fun _ _ => rfl

theorem observeDestructionFence_frame {α : Type} (read : Mailbox → α)
    (update : ∀ mailbox condition set, read (mailbox.update condition set) = read mailbox)
    (changed : ∀ mailbox commandId, read (mailbox.changed commandId) = read mailbox)
    (fence : ∀ mailbox destructionFence,
      read { mailbox with destructionFence } = read mailbox) (destructionFence : Number) :
    read (mailbox.observeDestructionFence now destructionFence) = read mailbox := by
  rw [observeDestructionFence]
  split
  · rfl
  · rw [terminalizeBelowFence, terminalize_frame read update changed, fence]

def leaseEnded (now : Millis) (row : MailboxCommand) : MailboxCommand :=
  if row.isDestructive then row.terminate now .outcomeUnknown row.category
  else row.awaitFence now

theorem expireLeases_eq (mailbox : Mailbox) (now : Millis) :
    mailbox.expireLeases now =
      (mailbox.update (·.leaseExpired now) (leaseEnded now)).changedAll
        ((mailbox.commands.filter (·.leaseExpired now)).map (·.commandId)) := by
  have ended (row : MailboxCommand) :
      (row.terminate now .outcomeUnknown row.category).leaseExpired now = false := by
    simp [leaseExpired, terminate]
  rw [expireLeases]
  congr 1
  change (mailbox.rewrite _).rewrite _ = mailbox.rewrite _
  rw [rewrite_rewrite]
  refine rewrite_congr fun row _ => ?_
  cases expired : row.leaseExpired now <;> cases destructive : row.isDestructive <;>
    simp [expired, destructive, ended, leaseEnded]

theorem leased_of_leaseExpired (expired : row.leaseExpired now = true) : row.state = .leased := by
  simp only [leaseExpired, decide_eq_true_eq] at expired
  exact expired.1

theorem observeDestructionFence_le {current : Number}
    (accepted : ∀ known, mailbox.destructionFence = some known → known ≤ destructionFence)
    (observed : (mailbox.observeDestructionFence now destructionFence).destructionFence =
      some current) : current ≤ destructionFence := by
  rw [observeDestructionFence] at observed
  split at observed
  · exact accepted current observed
  · rw [terminalizeBelowFence, terminalize_frame (·.destructionFence) (fun _ _ _ => rfl)
      fun _ _ => rfl] at observed
    exact ge_of_eq (Option.some.inj observed)

theorem leaseEnded_edit (expired : row.leaseExpired now = true) :
    RowEdit operation mailbox row (leaseEnded now row) := by
  have leased := leased_of_leaseExpired expired
  rw [leaseEnded]
  split
  · exact .terminateLeased now _ (by rw [leased]; rfl) (.inr leased)
  · rename_i ordinary
    exact .awaitFence now leased (Bool.eq_false_iff.mpr ordinary)

theorem blockCandidates_eq (blockedUntil : String) (rows : List MailboxCommand)
    (blocked : Nat × Mailbox) :
    (rows.foldl (blockCandidate now blockedUntil) blocked).2 =
      (rows.filter fun row =>
        !(row.state = .blocked ∧ row.blockedUntil = some blockedUntil)).foldl
        (fun mailbox row =>
          (mailbox.update
            (fun stored => stored.commandId = row.commandId ∧ !stored.everLeased ∧
              stored.state.isPending)
            (·.block now blockedUntil)).changed row.commandId) blocked.2 := by
  induction rows generalizing blocked with
  | nil => rfl
  | cons row rest ih =>
    rw [foldl_cons, ih, filter_cons, blockCandidate]
    by_cases same : row.state = .blocked ∧ row.blockedUntil = some blockedUntil
    · simp [same]
    · simp [same]

theorem command_update (condition : MailboxCommand → Bool) (set : MailboxCommand → MailboxCommand)
    (same : ∀ row, (set row).commandId = row.commandId)
    (distinct : mailbox.commandIds.Nodup) (stored : row ∈ mailbox.commands)
    (sameId : row.commandId = commandId) :
    (mailbox.update condition set).command commandId =
      some (if condition row then set row else row) := by
  have ids : (mailbox.update condition set).commandIds = mailbox.commandIds := by
    refine rewrite_commandIds fun row => ?_
    split
    · exact same row
    · rfl
  rw [command_eq_some (ids ▸ distinct)]
  refine ⟨mem_map.mpr ⟨row, stored, rfl⟩, ?_⟩
  split
  · exact (same row).trans sameId
  · exact sameId

theorem mem_leaseCandidates (listed : row ∈ mailbox.leaseCandidates) :
    row ∈ mailbox.commands ∧ row.state.isLeasable = true ∧ mailbox.isFirstInLane row = true := by
  have candidate := mem_filter.mp (mem_bySequence.mp (mem_of_mem_take listed))
  exact ⟨candidate.1, Bool.and_eq_true_iff.mp candidate.2⟩

theorem leaseCandidates_distinct (distinct : mailbox.commandIds.Nodup) :
    (mailbox.leaseCandidates.map (·.commandId)).Nodup :=
  (bySequence_distinct distinct _).sublist ((take_sublist _ _).map commandId)

def leasedRow (now : Millis) (input : LeaseInput) (tokens : CommandId → LeaseToken)
    (row : MailboxCommand) : MailboxCommand :=
  row.lease now input (tokens row.commandId)

theorem leasedRow_commandId (now : Millis) (input : LeaseInput)
    (tokens : CommandId → LeaseToken) (row : MailboxCommand) :
    (leasedRow now input tokens row).commandId = row.commandId := rfl

section LeaseLoop

variable {input : LeaseInput} {tokens : CommandId → LeaseToken}

variable (distinct : mailbox.commandIds.Nodup)
include distinct

theorem leaseCandidate_eq {row : MailboxCommand} (stored : row ∈ mailbox.commands)
    (leasable : row.state.isLeasable = true) (leases : List RuntimeLease) :
    leaseCandidate now input tokens (leases, mailbox) row.commandId =
      (leases ++ [row.runtimeLease now input (tokens row.commandId)],
        pass (leasedRow now input tokens) mailbox row) := by
  let updated := mailbox.update
    (fun stored => stored.commandId = row.commandId ∧ stored.state.isLeasable)
    (·.lease now input (tokens row.commandId))
  have isPass : updated =
      mailbox.rewrite (setAll (leasedRow now input tokens) [row.commandId]) := by
    refine rewrite_congr fun other member => ?_
    by_cases sameId : other.commandId = row.commandId
    · cases eq_of_commandId distinct member stored sameId
      simp [setAll, leasable, leasedRow]
    · simp [setAll, sameId]
  have updatedDistinct : updated.commandIds.Nodup := by
    rw [isPass, rewrite_commandIds (setAll_commandId (leasedRow_commandId now input tokens) _)]
    exact distinct
  have leased : leasedRow now input tokens row ∈ updated.commands := by
    rw [isPass]
    exact mem_map.mpr ⟨row, stored, by simp [setAll]⟩
  have found : updated.commands.find? (fun stored =>
      stored.commandId = row.commandId ∧ stored.leaseToken = some (tokens row.commandId)) =
      some (leasedRow now input tokens row) := by
    rw [List.find?_eq_some_iff_append]
    obtain ⟨before, after, split⟩ := append_of_mem leased
    refine ⟨decide_eq_true ⟨rfl, rfl⟩, before, after, split, ?_⟩
    intro other member
    simp only [Bool.not_eq_true', decide_eq_false_iff_not, not_and]
    intro sameId
    rw [commandIds, split, map_append] at updatedDistinct
    refine absurd ?_ (disjoint_of_nodup_append updatedDistinct (mem_map_of_mem member))
    exact sameId ▸ mem_cons_self
  rw [leaseCandidate]
  rw [found, pass, ← isPass]
  rfl

theorem leaseLoop_eq (rowsDistinct : (rows.map (·.commandId)).Nodup)
    (stored : ∀ row ∈ rows, row ∈ mailbox.commands ∧ row.state.isLeasable = true)
    (leases : List RuntimeLease) :
    (rows.map (·.commandId)).foldl (leaseCandidate now input tokens) (leases, mailbox) =
      (leases ++ rows.map fun row => row.runtimeLease now input (tokens row.commandId),
        rows.foldl (pass (leasedRow now input tokens)) mailbox) := by
  induction rows generalizing mailbox leases with
  | nil => simp
  | cons row rest ih =>
    obtain ⟨⟨rowStored, leasable⟩, restStored⟩ := forall_mem_cons.mp stored
    rw [map_cons, nodup_cons] at rowsDistinct
    rw [map_cons, foldl_cons, leaseCandidate_eq distinct rowStored leasable,
      ih ?_ rowsDistinct.2 ?_]
    · simp
    · rw [pass_commandIds (leasedRow_commandId now input tokens)]
      exact distinct
    · intro other member
      refine ⟨mem_pass (restStored other member).1 ?_, (restStored other member).2⟩
      intro sameId
      exact rowsDistinct.1 (sameId ▸ mem_map_of_mem member)

theorem leaseAll_eq :
    mailbox.leaseAll now input tokens =
      (mailbox.leaseCandidates.map fun row =>
          row.runtimeLease now input (tokens row.commandId),
        (mailbox.rewrite (setAll (leasedRow now input tokens)
          (mailbox.leaseCandidates.map (·.commandId)))).changedAll
            (mailbox.leaseCandidates.map (·.commandId))) := by
  have candidatesDistinct := leaseCandidates_distinct distinct
  rw [leaseAll, leaseLoop_eq distinct candidatesDistinct fun row listed =>
    ⟨(mem_leaseCandidates listed).1, (mem_leaseCandidates listed).2.1⟩,
    foldl_pass (leasedRow_commandId now input tokens) candidatesDistinct]
  simp

end LeaseLoop

theorem observeGeneration_eq {runtimeGeneration : Number}
    (notOlder : ¬(mailbox.runtimeGeneration.any fun known =>
      runtimeGeneration < known) = true) :
    (mailbox.observeGeneration runtimeGeneration).runtimeGeneration =
      some runtimeGeneration := by
  rw [observeGeneration]
  split
  · rfl
  rename_i notNewer
  cases stored : mailbox.runtimeGeneration with
  | none => simp [stored] at notNewer
  | some known =>
    rw [stored] at notOlder notNewer
    simp only [Option.any_some, Option.all_some, decide_eq_true_eq, not_lt] at notOlder notNewer
    rw [le_antisymm notOlder notNewer]

theorem acknowledgeExpired_cases (now : Millis)
    (distinct : mailbox.commandIds.Nodup) (ack : RuntimeAcknowledgment) :
    (mailbox.acknowledgeExpired now ack).2 = mailbox ∨
      ∃ row ∈ mailbox.commands, row.commandId = ack.commandId ∧
        row.fingerprint = ack.fingerprint ∧ row.accepts ack = true ∧
        (mailbox.acknowledgeExpired now ack).2 =
          (mailbox.update (fun stored => stored.commandId = ack.commandId)
            (·.acknowledge now ack)).changed ack.commandId := by
  rw [acknowledgeExpired]
  split
  · exact .inl rfl
  split
  · exact .inl rfl
  rename_i row found
  obtain ⟨stored, sameId⟩ := (command_eq_some distinct).mp found
  split
  · exact .inl rfl
  rename_i fingerprint
  split
  · exact .inl rfl
  split
  · exact .inl rfl
  · rename_i accepted
    exact .inr ⟨row, stored, sameId, not_not.mp fingerprint, by simpa using accepted, rfl⟩

end Tables

variable [MailboxHost]

omit [MailboxHost] in
theorem rewrite_commandIds_of_edits {set : MailboxCommand → MailboxCommand}
    (edits : ∀ row ∈ mailbox.commands,
      set row = row ∨ RowEdit operation mailbox row (set row)) :
    (mailbox.rewrite set).commandIds = mailbox.commandIds := by
  rw [commandIds, rewrite_commands, map_map]
  refine map_congr_left fun row member => ?_
  rcases edits row member with unchanged | edit
  · exact congrArg _ unchanged
  · exact edit.same.commandId

theorem insertReserved_commandIds (lane : String) (envelope : CloudCommandEnvelope) :
    (mailbox.insertReserved now lane envelope).commandIds =
      mailbox.commandIds ++ [envelope.commandId] := by
  simp [commandIds, insertReserved, setCommandIdentity, reservedCommand]

theorem Edit.distinct (edit : Edit operation mailbox after)
    (distinct : mailbox.commandIds.Nodup) : after.commandIds.Nodup := by
  cases edit with
  | rewrite set ids edits recorded =>
    rw [commandIds, changedAll_commands]
    change (mailbox.rewrite set).commandIds.Nodup
    rw [rewrite_commandIds_of_edits edits]
    exact distinct
  | insert now lane envelope request inLane safe nonnegative fence absent room =>
    rw [insertReserved_commandIds, nodup_append]
    refine ⟨distinct, nodup_singleton _, ?_⟩
    intro known knownMember new newMember same
    rw [mem_singleton.mp newMember] at same
    exact command_eq_none.mp absent (same ▸ knownMember)
  | configure same => rw [commandIds, same.commands]; exact distinct
  | identify | generation | incarnation | fence | bump => exact distinct

theorem Edits.trans {between : Mailbox} (first : Edits operation mailbox between)
    (second : Edits operation between after) : Edits operation mailbox after :=
  Relation.ReflTransGen.trans first second

theorem Edits.preserves (property : Mailbox → Prop)
    (preserved : ∀ before after, property before → Edit operation before after →
      property after) (edits : Edits operation mailbox after)
    (start : property mailbox) : property after := by
  induction edits with
  | refl => exact start
  | tail _ edit ih => exact preserved _ _ ih edit

theorem Edits.distinct (edits : Edits operation mailbox after)
    (distinct : mailbox.commandIds.Nodup) : after.commandIds.Nodup :=
  edits.preserves (·.commandIds.Nodup) (fun _ _ before edit => edit.distinct before) distinct

theorem Edits.fenced {categories : TerminalCategories} (distinct : mailbox.commandIds.Nodup)
    (destructive : categories.everLeased ∈ destructiveLeaseCategories)
    (higher : ∀ current, mailbox.destructionFence = some current →
      current ≤ destructionFence) (lifecycleFence : Option Number) :
    Edits operation mailbox
      ({ mailbox with
        destructionFence := some destructionFence
        lifecycleFence }.terminalizeBelowFence now destructionFence categories) := by
  let stale := mailbox.nonterminal.filter (·.belowFence destructionFence)
  have staleStored : ∀ row ∈ stale, row ∈ mailbox.commands ∧ row.state.isTerminal = false :=
    fun row listed => mem_nonterminal.mp (mem_filter.mp listed).1
  have ended : Edit operation mailbox (mailbox.terminalize now categories stale) :=
    terminalize_edit distinct (nonterminal_distinct distinct _) staleStored destructive
  have raised : Edit operation (mailbox.terminalize now categories stale)
      { mailbox.terminalize now categories stale with
        destructionFence := some destructionFence } := by
    apply Edit.fence
    · rw [terminalize_frame (·.destructionFence) (fun _ _ _ => rfl) fun _ _ => rfl]
      exact higher
    · exact fun row => terminalizeBelowFence_survives distinct destructive
  have same : { mailbox with
        destructionFence := some destructionFence
        lifecycleFence }.terminalizeBelowFence now destructionFence categories =
      { mailbox.terminalize now categories stale with
        destructionFence := some destructionFence
        lifecycleFence } :=
    terminalize_withFences (some destructionFence) lifecycleFence
  rw [same]
  have configured : Edit operation
      { mailbox.terminalize now categories stale with
        destructionFence := some destructionFence }
      { mailbox.terminalize now categories stale with
        destructionFence := some destructionFence
        lifecycleFence } :=
    .configure ⟨rfl, rfl, rfl, rfl, rfl, rfl, rfl, rfl, rfl⟩ ⟨.inl ⟨rfl, rfl, rfl, rfl⟩, .inl rfl⟩
  exact ((Relation.ReflTransGen.single ended).tail raised).tail configured

theorem observeDestructionFence_edits (now : Millis)
    (distinct : mailbox.commandIds.Nodup) (destructionFence : Number) :
    Edits operation mailbox (mailbox.observeDestructionFence now destructionFence) := by
  rw [observeDestructionFence]
  split
  · exact .refl
  rename_i lower
  refine Edits.fenced distinct (by decide) ?_ mailbox.lifecycleFence
  intro current known
  rw [known] at lower
  simp only [Option.any_some, decide_eq_true_eq] at lower
  exact le_of_lt (not_le.mp lower)

theorem expireLeases_edit (operation : MailboxOperation) (mailbox : Mailbox)
    (now : Millis) : Edit operation mailbox (mailbox.expireLeases now) := by
  rw [expireLeases_eq]
  exact edit_updateAll fun row _ expired => leaseEnded_edit expired

structure Reservable (mailbox : Mailbox) (lane : String) (envelope : CloudCommandEnvelope) :
    Prop where
  inLane : cloudCommandLane envelope = some lane
  safe : isSafeInteger envelope.destructionFence = true
  nonnegative : 0 ≤ envelope.destructionFence
  fence : ∀ current, mailbox.destructionFence = some current → current ≤ envelope.destructionFence
  absent : mailbox.command envelope.commandId = none
  room : mailbox.atCapacity (MailboxHost.envelopeBytes envelope) = false

theorem reserve_cases (now later : Millis) (distinct : mailbox.commandIds.Nodup)
    (envelope : CloudCommandEnvelope) :
    ((∀ sequence, (mailbox.reserve now later envelope).1.body ≠ .reserved sequence) ∧
        ∀ operation, Edits operation mailbox (mailbox.reserve now later envelope).2) ∨
      ∃ lane between, (∀ operation, Edits operation mailbox between) ∧
        Reservable between lane envelope ∧
        mailbox.reserve now later envelope =
          ({ body := .reserved (between.sequence + 1) },
            between.insertReserved later lane envelope) := by
  rw [reserve]
  split
  · exact .inl ⟨by rintro _ ⟨⟩, fun _ => .refl⟩
  rename_i lane inLane
  split
  · exact .inl ⟨by rintro _ ⟨⟩, fun _ => .refl⟩
  split
  · exact .inl ⟨by rintro _ ⟨⟩, fun _ => .refl⟩
  rename_i valid
  split
  · exact .inl ⟨by rintro _ ⟨⟩, fun _ => .refl⟩
  rename_i accepted
  simp only [Bool.not_eq_true', not_or, Bool.not_eq_false, not_lt] at valid
  have higher : ∀ known, mailbox.destructionFence = some known →
      known ≤ envelope.destructionFence := by
    intro known isKnown
    rw [isKnown] at accepted
    simpa using accepted
  have observed (operation : MailboxOperation) : Edits operation mailbox
      (mailbox.observeDestructionFence now envelope.destructionFence) :=
    observeDestructionFence_edits now distinct _
  have observedDistinct := (observed .alarm).distinct distinct
  rw [reserveObserved]
  split
  · rename_i existing found
    obtain ⟨stored, sameId⟩ := (command_eq_some observedDistinct).mp found
    split
    · exact .inl ⟨by rintro _ ⟨⟩, observed⟩
    · refine .inl ⟨by rintro _ ⟨⟩, fun operation => ?_⟩
      split
      · rename_i unknown
        rw [Option.isNone_iff_eq_none, ← sameId] at unknown
        rw [← sameId]
        exact (observed operation).tail (.identify existing stored _ unknown)
      · exact observed operation
  · rename_i absent
    split
    · exact .inl ⟨by rintro _ ⟨⟩, observed⟩
    · rename_i room
      exact .inr ⟨lane, _, observed, ⟨inLane, valid.1, valid.2,
        fun current => observeDestructionFence_le higher, absent,
        Bool.eq_false_iff.mpr room⟩, rfl⟩

theorem reserve_edits (distinct : mailbox.commandIds.Nodup) (envelope : CloudCommandEnvelope) :
    Edits (.request (.reserve envelope)) mailbox (mailbox.reserve now later envelope).2 := by
  rcases reserve_cases now later distinct envelope with
    ⟨_, kept⟩ | ⟨lane, between, edits, reservable, same⟩
  · exact kept _
  · rw [same]
    exact (edits _).tail (.insert later lane envelope rfl reservable.inLane reservable.safe
      reservable.nonnegative reservable.fence reservable.absent reservable.room)

theorem commitReserved_edit {before : MailboxCommand}
    (distinct : mailbox.commandIds.Nodup) (stored : before ∈ mailbox.commands)
    (blockedUntil : Option String) :
    Edit operation mailbox (mailbox.commitReserved now before blockedUntil) := by
  let ids := if before.state = .reserved then [before.commandId] else []
  have recorded : mailbox.commitReserved now before blockedUntil =
      (mailbox.update (fun row => row.commandId = before.commandId ∧ row.state = .reserved)
        (·.accept now blockedUntil)).changedAll ids := by
    rw [commitReserved]
    dsimp only [ids]
    split <;> rfl
  rw [recorded]
  apply edit_update ids
  · intro row _ selected
    exact .accept now blockedUntil (of_decide_eq_true selected).2
  · intro row member selected _
    obtain ⟨sameId, reserved⟩ := of_decide_eq_true selected
    cases eq_of_commandId distinct member stored sameId
    simp [ids, reserved]
  intro commandId listed
  simp only [ids] at listed
  split at listed
  · exact ⟨before, stored, (mem_singleton.mp listed).symm⟩
  · cases listed

theorem armWake_edit (before : MailboxCommand) (delivery : Option MailboxWakeDelivery) :
    Edit operation mailbox (mailbox.armWake now before delivery) := by
  cases delivery with
  | none => exact .configure ⟨rfl, rfl, rfl, rfl, rfl, rfl, rfl, rfl, rfl⟩ .refl
  | some delivery =>
    simp only [armWake]
    split
    · exact .configure ⟨rfl, rfl, rfl, rfl, rfl, rfl, rfl, rfl, rfl⟩ ⟨.inr ⟨rfl, rfl⟩, .inl rfl⟩
    · exact .configure ⟨rfl, rfl, rfl, rfl, rfl, rfl, rfl, rfl, rfl⟩ .refl

section

variable (distinct : mailbox.commandIds.Nodup)
include distinct

theorem commit_edits (commandId : CommandId) (blockedUntil : Option String)
    (delivery : Option MailboxWakeDelivery) :
    Edits operation mailbox (mailbox.commit now commandId blockedUntil delivery).2 := by
  rw [commit]
  split
  · exact .refl
  rename_i before found
  have stored := ((command_eq_some distinct).mp found).1
  split
  · exact .refl
  split
  · exact .refl
  have committed : Edits operation mailbox
      ((mailbox.commitReserved now before blockedUntil).armWake now before delivery) :=
    (Relation.ReflTransGen.single (commitReserved_edit distinct stored _)).tail
      (armWake_edit before delivery)
  dsimp only
  split <;> exact committed

theorem blockAll_edit (blockedUntil : String) :
    Edit operation mailbox (mailbox.blockAll now blockedUntil).2 := by
  rw [blockAll]
  rw [blockCandidates_eq]
  have stored : ∀ row ∈ (bySequence (mailbox.commands.filter fun row =>
      !row.everLeased && row.state.isPending)).filter fun row =>
        !(row.state = .blocked ∧ row.blockedUntil = some blockedUntil),
      row ∈ mailbox.commands ∧ row.everLeased = false ∧ row.state.isPending = true := by
    intro row listed
    have candidate := mem_bySequence.mp (mem_filter.mp listed).1
    simpa using mem_filter.mp candidate
  rw [foldl_eq (·.block now blockedUntil) (fun row =>
      row.everLeased = false ∧ row.state.isPending = true) (fun _ => rfl) ?_ distinct stored]
  · exact edit_setAll distinct (fun row listed => (stored row listed).1)
      fun row listed => .block now blockedUntil (stored row listed).2.1 (stored row listed).2.2
  · exact (bySequence_distinct distinct _).sublist (filter_sublist.map commandId)
  intro mailbox row distinct member selected
  congr 1
  refine rewrite_congr fun other otherMember => ?_
  by_cases sameId : other.commandId = row.commandId
  · cases eq_of_commandId distinct otherMember member sameId
    simp [setAll, selected.1, selected.2]
  · simp [setAll, sameId]

theorem blockCommand_edits (commandId : CommandId) (blockedUntil : String) :
    Edits operation mailbox (mailbox.blockCommand now commandId blockedUntil).2 := by
  rw [blockCommand]
  split
  · exact .refl
  rename_i before found
  obtain ⟨stored, storedMember, storedId, isBefore⟩ := status_eq_some distinct found
  split
  · exact .refl
  split
  · exact .refl
  split
  · exact .refl
  rename_i unleased
  let ids := if before.state ≠ .blocked ∨ before.blockedUntil ≠ some blockedUntil
    then [commandId] else []
  have recorded (updated : Mailbox) :
      (if before.state ≠ .blocked ∨ before.blockedUntil ≠ some blockedUntil then
        updated.changed commandId else updated) = updated.changedAll ids := by
    dsimp only [ids]
    split <;> rfl
  dsimp only
  rw [recorded]
  refine .single (edit_update ids ?_ ?_ ?_)
  · intro row member selected
    obtain ⟨sameId, pending⟩ := of_decide_eq_true selected
    cases eq_of_commandId distinct member storedMember (sameId.trans storedId.symm)
    refine .block now blockedUntil ?_ pending
    subst isBefore
    exact Bool.eq_false_iff.mpr (not_or.mp unleased).2
  · intro row member selected differs
    obtain ⟨sameId, _⟩ := of_decide_eq_true selected
    cases eq_of_commandId distinct member storedMember (sameId.trans storedId.symm)
    subst isBefore
    simp only [ids, sameId]
    split
    · exact mem_singleton_self _
    · rename_i unchanged
      simp only [ne_eq, not_or, not_not] at unchanged
      refine absurd ?_ differs
      simp only [MailboxCommand.view, MailboxCommand.block]
      rw [show stored.state = .blocked from unchanged.1,
        show stored.blockedUntil = some blockedUntil from unchanged.2]
  · intro other listed
    simp only [ids] at listed
    split at listed
    · exact mem_singleton.mp listed ▸ stored_of_status found
    · cases listed

theorem block_edits (commandId : Option CommandId) (blockedUntil : String) :
    Edits operation mailbox (mailbox.block now commandId blockedUntil).2 := by
  cases commandId with
  | none => exact .single (blockAll_edit distinct blockedUntil)
  | some commandId => exact blockCommand_edits distinct commandId blockedUntil

end

theorem rearmWake_edit : Edit operation mailbox (mailbox.rearmWake later) := by
  rw [rearmWake]
  split
  · exact .configure ⟨rfl, rfl, rfl, rfl, rfl, rfl, rfl, rfl, rfl⟩ .refl
  · exact .configure ⟨rfl, rfl, rfl, rfl, rfl, rfl, rfl, rfl, rfl⟩ ⟨.inr ⟨rfl, rfl⟩, .inl rfl⟩

theorem unblockOne_edit (stored : ∃ row ∈ mailbox.commands, row.commandId = commandId) :
    Edit operation mailbox (mailbox.unblockOne now commandId) := by
  refine edit_update [commandId] ?_ ?_ ?_
  · intro row _ selected
    exact .unblock now (of_decide_eq_true selected).2
  · intro row _ selected _
    exact mem_singleton.mpr (of_decide_eq_true selected).1
  · intro other listed
    exact mem_singleton.mp listed ▸ stored

omit [MailboxHost] in
theorem unblockOne_commandIds (commandId : CommandId) :
    (mailbox.unblockOne now commandId).commandIds = mailbox.commandIds := by
  refine rewrite_commandIds fun row => ?_
  split <;> rfl

theorem unblockAll_edits (blockedUntil : Option String) :
    Edits operation mailbox (mailbox.unblockAll now later blockedUntil).2 := by
  have loop : ∀ (ids : List CommandId) (mailbox : Mailbox),
      (∀ commandId ∈ ids, ∃ row ∈ mailbox.commands, row.commandId = commandId) →
      Edits operation mailbox
        (ids.foldl (fun mailbox commandId => mailbox.unblockOne now commandId) mailbox) := by
    intro ids
    induction ids with
    | nil => exact fun _ _ => .refl
    | cons head rest ih =>
      intro mailbox stored
      have first : Edit operation mailbox (mailbox.unblockOne now head) :=
        unblockOne_edit (stored head mem_cons_self)
      refine (Relation.ReflTransGen.single first).trans (ih _ ?_)
      intro commandId listed
      have member : commandId ∈ (mailbox.unblockOne now head).commandIds := by
        rw [unblockOne_commandIds]
        exact mem_map.mpr (stored commandId (mem_cons_of_mem _ listed))
      exact mem_map.mp member
  rw [unblockAll]
  have unblocked := loop ((bySequence (mailbox.commands.filter fun row =>
    row.state = .blocked && blockedUntil.all fun reason =>
      row.blockedUntil = some reason)).map (·.commandId)) mailbox ?_
  · split
    · exact unblocked.tail rearmWake_edit
    · exact unblocked
  · intro commandId listed
    obtain ⟨row, selected, sameId⟩ := mem_map.mp listed
    rw [bySequence, mem_insertionSort] at selected
    exact ⟨row, (mem_filter.mp selected).1, sameId⟩

theorem unblock_edits (commandId : Option CommandId) (blockedUntil : Option String) :
    Edits operation mailbox (mailbox.unblock now later commandId blockedUntil).2 := by
  cases commandId with
  | none => exact unblockAll_edits blockedUntil
  | some commandId =>
    rw [unblock, unblockCommand]
    split
    · exact .refl
    rename_i before found
    split
    · exact .refl
    · split
      · exact .refl
      · exact (Relation.ReflTransGen.single
          (unblockOne_edit (stored_of_status found))).tail rearmWake_edit

theorem cancel_edits (distinct : mailbox.commandIds.Nodup) (commandId : CommandId)
    (category : String) :
    Edits operation mailbox (mailbox.cancel now commandId category).2 := by
  rw [cancel]
  split
  · exact .refl
  rename_i before found
  obtain ⟨stored, storedMember, storedId, isBefore⟩ := status_eq_some distinct found
  have updated : ∀ ids, (stored.isCancellable = true → commandId ∈ ids) →
      (∀ other ∈ ids, other = commandId) →
      Edit operation mailbox ((mailbox.update
        (fun row => row.commandId = commandId ∧ row.isCancellable)
        (·.cancel now category)).changedAll ids) := by
    intro ids recorded only
    apply edit_update ids
    · intro row _ selected
      exact .cancel now category (of_decide_eq_true selected).2
    · intro row member selected _
      obtain ⟨sameId, cancellable⟩ := of_decide_eq_true selected
      cases eq_of_commandId distinct member storedMember (sameId.trans storedId.symm)
      exact sameId ▸ recorded cancellable
    · intro other listed
      exact ⟨stored, storedMember, storedId.trans (only other listed).symm⟩
  have read := command_update (fun row =>
    row.commandId = commandId ∧ row.isCancellable) (·.cancel now category)
    (fun _ => rfl) distinct storedMember storedId
  dsimp only
  split
  · rename_i absent
    rw [status, read] at absent
    cases absent
  rename_i status found
  rw [Mailbox.status, read] at found
  have isStatus := Option.some.inj found
  let ids := if before.state ≠ .cancelled ∧ status.state = .cancelled then [commandId]
    else []
  have recorded (updated : Mailbox) :
      (if before.state ≠ .cancelled ∧ status.state = .cancelled then
        updated.changed commandId else updated) = updated.changedAll ids := by
    dsimp only [ids]
    split <;> rfl
  have listed : stored.isCancellable = true → commandId ∈ ids := by
    intro cancellable
    have ongoing : before.state ≠ .cancelled := by
      subst isBefore
      intro cancelled
      have isCancelled : stored.state = .cancelled := cancelled
      simp [isCancellable, isCancelled, CloudCommandState.isPending] at cancellable
    have ended : status.state = .cancelled := by
      rw [← isStatus, if_pos (decide_eq_true ⟨storedId, cancellable⟩)]
      rfl
    rw [show ids = [commandId] from if_pos ⟨ongoing, ended⟩]
    exact mem_singleton_self _
  have only : ∀ other ∈ ids, other = commandId := by
    intro other isListed
    simp only [ids] at isListed
    split at isListed
    · exact mem_singleton.mp isListed
    · cases isListed
  rw [recorded]
  split <;> exact .single (updated ids listed only)

theorem observeGeneration_edits (runtimeGeneration : Number) :
    Edits operation mailbox (mailbox.observeGeneration runtimeGeneration) := by
  rw [observeGeneration]
  split
  · rename_i newer
    refine .single (.generation runtimeGeneration ?_)
    intro known isKnown
    rw [isKnown] at newer
    simpa using newer
  · exact .refl

theorem replaceStorageIncarnation_edits (storageIncarnationId : String) :
    Edits operation mailbox (mailbox.replaceStorageIncarnation now storageIncarnationId) := by
  rw [replaceStorageIncarnation]
  split
  · have abandoned : Edit operation mailbox ((mailbox.update
        (fun row => row.everLeased && !row.state.isTerminal)
        (·.terminate now .outcomeUnknown (some "runtime-storage-replaced"))).changedAll
          ((mailbox.nonterminal.filter (·.everLeased)).map (·.commandId))) := by
      rw [nonterminal, filter_filter]
      apply edit_updateAll
      intro row _ selected
      obtain ⟨leased, ongoing⟩ := Bool.and_eq_true_iff.mp selected
      exact .terminateLeased now _ (by simpa using ongoing) (.inl leased)
    refine (Relation.ReflTransGen.single abandoned).tail (.incarnation _ (.inr (.inr ?_)))
    intro row member leased
    rw [changedAll_commands] at member
    obtain ⟨stored, _, rfl⟩ := mem_map.mp member
    split at leased
    · rename_i selected
      rw [if_pos selected]
      rfl
    · rename_i unselected
      rw [if_neg unselected]
      simpa [leased] using unselected
  · rename_i same
    refine .single (.incarnation _ ?_)
    cases stored : mailbox.storageIncarnation with
    | none => exact .inl rfl
    | some previous =>
      rw [stored] at same
      exact .inr (.inl (by simpa using same))

variable {input : LeaseInput}

theorem fenceExpiredLeases_edit
    (current : mailbox.runtimeGeneration = some input.runtimeGeneration) :
    Edit operation mailbox (mailbox.fenceExpiredLeases now input) :=
  edit_updateAll fun _ _ fenced => .fence now input fenced current

theorem leaseAll_edit {tokens : CommandId → LeaseToken} (distinct : mailbox.commandIds.Nodup)
    (current : mailbox.runtimeGeneration = some input.runtimeGeneration)
    (incarnation : mailbox.storageIncarnation = some input.storageIncarnationId) :
    Edit (.request (.lease input tokens)) mailbox (mailbox.leaseAll now input tokens).2 := by
  rw [leaseAll_eq distinct]
  refine edit_setAll distinct (fun row listed => (mem_leaseCandidates listed).1) ?_
  intro row listed
  obtain ⟨_, leasable, first⟩ := mem_leaseCandidates listed
  exact .lease now input tokens rfl leasable first current incarnation

structure LeasesFrom (mailbox between : Mailbox) (input : LeaseInput) : Prop where
  edits : ∀ operation, Edits operation mailbox between
  current : between.runtimeGeneration = some input.runtimeGeneration
  incarnation : between.storageIncarnation = some input.storageIncarnationId
  fence : ∃ destructionFence, between.destructionFence = some destructionFence ∧
    input.destructionFence ≤ destructionFence

def emptyLeases (response : Response) : Prop :=
  ∀ leases fenced count revision fenceRequired,
    response.body = .leases leases fenced count revision fenceRequired → leases = []

theorem leaseCurrent_cases (now : Millis) (tokens : CommandId → LeaseToken)
    (current : mailbox.runtimeGeneration = some input.runtimeGeneration)
    (fence : ∃ destructionFence, mailbox.destructionFence = some destructionFence ∧
      input.destructionFence ≤ destructionFence) :
    (emptyLeases (mailbox.leaseCurrent now input tokens).1 ∧
        ∀ operation, Edits operation mailbox (mailbox.leaseCurrent now input tokens).2) ∨
      ∃ between, LeasesFrom mailbox between input ∧
        mailbox.leaseCurrent now input tokens =
          ((between.leaseAll now input tokens).2.leasePage
            (between.leaseAll now input tokens).1 false false,
            (between.leaseAll now input tokens).2) := by
  have stillCurrent : (mailbox.replaceStorageIncarnation now
      input.storageIncarnationId).runtimeGeneration = some input.runtimeGeneration := by
    rw [← current, replaceStorageIncarnation]
    split
    · exact changedAll_runtimeGeneration _ _
    · rfl
  have sameFence : (mailbox.replaceStorageIncarnation now
      input.storageIncarnationId).destructionFence = mailbox.destructionFence := by
    rw [replaceStorageIncarnation]
    split
    · exact changedAll_destructionFence _ _
    · rfl
  let between := (mailbox.replaceStorageIncarnation now
    input.storageIncarnationId).fenceExpiredLeases now input
  have fenced (operation : MailboxOperation) : Edits operation mailbox between :=
    (replaceStorageIncarnation_edits _).tail (fenceExpiredLeases_edit stillCurrent)
  rw [leaseCurrent]
  split
  · refine .inl ⟨?_, fenced⟩
    rintro _ _ _ _ _ ⟨⟩
    rfl
  refine .inr ⟨between, ⟨fenced, ?_, ?_, ?_⟩, rfl⟩
  · rw [← stillCurrent]
    exact changedAll_runtimeGeneration _ _
  · exact changedAll_storageIncarnation _ _
  · have kept : between.destructionFence = mailbox.destructionFence :=
      (changedAll_destructionFence _ _).trans sameFence
    rw [kept]
    exact fence

theorem lease_cases (now later : Millis) (distinct : mailbox.commandIds.Nodup) (input : LeaseInput)
    (tokens : CommandId → LeaseToken) :
    (emptyLeases (mailbox.lease now later input tokens).1 ∧
        ∀ operation, Edits operation mailbox (mailbox.lease now later input tokens).2) ∨
      ∃ between, LeasesFrom mailbox between input ∧
        mailbox.lease now later input tokens =
          ((between.leaseAll now input tokens).2.leasePage
            (between.leaseAll now input tokens).1 false false,
            (between.leaseAll now input tokens).2) := by
  have expired (operation : MailboxOperation) : Edits operation mailbox
      (mailbox.expireLeases now) := .single (expireLeases_edit _ mailbox now)
  rw [lease]
  split
  · exact .inl ⟨by rintro _ _ _ _ _ ⟨⟩, fun _ => .refl⟩
  dsimp only
  split
  · exact .inl ⟨by rintro _ _ _ _ _ ⟨⟩; rfl, expired⟩
  rename_i notOlder
  have observed (operation : MailboxOperation) := Edits.trans (expired operation)
    (observeGeneration_edits input.runtimeGeneration)
  split
  · exact .inl ⟨by rintro _ _ _ _ _ ⟨⟩; rfl, observed⟩
  have fenced (operation : MailboxOperation) := Edits.trans (observed operation)
    (observeDestructionFence_edits later
      ((observed operation).distinct distinct) input.destructionFence)
  have current : ((mailbox.expireLeases now).observeGeneration
      input.runtimeGeneration |>.observeDestructionFence later
        input.destructionFence).runtimeGeneration = some input.runtimeGeneration := by
    rw [observeDestructionFence_frame (·.runtimeGeneration) (fun _ _ _ => rfl)
      (fun _ _ => rfl) fun _ _ => rfl]
    exact observeGeneration_eq notOlder
  rcases leaseCurrent_cases now tokens current
    (le_observeDestructionFence _ _ _) with ⟨none, kept⟩ | ⟨between, started, same⟩
  · exact .inl ⟨none, fun operation => (fenced operation).trans (kept operation)⟩
  · exact .inr ⟨between, ⟨fun operation => (fenced operation).trans
      (started.edits operation), started.current, started.incarnation, started.fence⟩, same⟩

section

variable (distinct : mailbox.commandIds.Nodup)
include distinct

theorem lease_edits (input : LeaseInput) (tokens : CommandId → LeaseToken) :
    Edits (.request (.lease input tokens)) mailbox (mailbox.lease now later input tokens).2 := by
  rcases lease_cases now later distinct input tokens with
    ⟨_, kept⟩ | ⟨between, leases, same⟩
  · exact kept _
  · rw [same]
    exact (leases.edits _).tail (leaseAll_edit ((leases.edits .alarm).distinct distinct)
      leases.current leases.incarnation)

theorem acknowledge_edits (ack : RuntimeAcknowledgment) :
    Edits (.request (.acknowledge ack)) mailbox (mailbox.acknowledge now ack).2 := by
  have expired : Edits (.request (.acknowledge ack)) mailbox
      (mailbox.expireLeases now) := .single (expireLeases_edit _ mailbox now)
  have nextDistinct := expired.distinct distinct
  rw [acknowledge]
  rcases acknowledgeExpired_cases now nextDistinct ack with
    unchanged | ⟨row, stored, sameId, fingerprint, accepted, settled⟩
  · rw [unchanged]
    exact expired
  rw [settled]
  refine expired.tail (edit_update [ack.commandId] ?_ ?_ ?_)
  · intro other member selected
    have otherId := of_decide_eq_true selected
    cases eq_of_commandId nextDistinct member stored (otherId.trans sameId.symm)
    exact .acknowledge now ack rfl otherId fingerprint accepted
  · intro other _ selected _
    exact mem_singleton.mpr (of_decide_eq_true selected)
  · intro other listed
    exact ⟨row, stored, sameId.trans (mem_singleton.mp listed).symm⟩

theorem lifecycle_edits (action : LifecycleAction) (destructionFence : Option Number) :
    Edits operation mailbox (mailbox.lifecycle now action destructionFence).2 := by
  have destructive : (lifecycleCategories action).everLeased ∈
      destructiveLeaseCategories := by
    cases action <;> decide
  cases destructionFence with
  | none =>
    refine .single (terminalize_edit distinct ?_ (fun row => mem_nonterminal.mp) destructive)
    exact distinct.sublist (filter_sublist.map commandId)
  | some destructionFence =>
    rw [lifecycle]
    split
    · exact .refl
    split
    · exact .refl
    split
    · exact .refl
    rename_i accepted
    refine Edits.fenced distinct destructive ?_ (some destructionFence)
    intro current isCurrent
    rw [isCurrent] at accepted
    simpa using accepted

theorem handle_edits (request : MailboxRequest) :
    Edits (.request request) mailbox (mailbox.handle now later request).2 := by
  cases request with
  | reserve envelope => exact reserve_edits distinct envelope
  | commit commandId blockedUntil delivery =>
    exact commit_edits distinct commandId blockedUntil delivery
  | block commandId blockedUntil => exact block_edits distinct commandId blockedUntil
  | unblock commandId blockedUntil => exact unblock_edits commandId blockedUntil
  | cancel commandId category => exact cancel_edits distinct commandId category
  | lease input tokens => exact lease_edits distinct input tokens
  | acknowledge ack => exact acknowledge_edits distinct ack
  | lifecycle action destructionFence =>
    exact lifecycle_edits distinct action destructionFence

end

theorem sweep_edits : Edits .alarm mailbox (mailbox.sweep now) := by
  have reservations : Edit .alarm mailbox (mailbox.expireReservations now) :=
    edit_updateAll fun _ _ expired => .expireReservation now rfl expired
  have leases := expireLeases_edit .alarm (mailbox.expireReservations now) now
  refine ((Relation.ReflTransGen.single reservations).tail leases).tail
    (edit_update [] ?_ ?_ (forall_mem_nil _))
  · intro row _ ended
    refine .purge ?_
    rw [endedBefore] at ended
    cases stored : row.terminalAt with
    | none => simp [stored] at ended
    | some terminalAt => rfl
  · intro row _ _ differs
    exact absurd rfl differs

end Mailbox

end Zuse.Cloud
