import Zuse.Cloud.MailboxSystem

namespace Zuse.Cloud

open Zuse.Domain (Millis Number)
open List MailboxCommand Nat Bool

/-- Whether a command in this state was leased before, where the state tells it. -/
def CloudCommandState.leasedBefore : CloudCommandState → Option Bool
  | .reserved | .accepted | .blocked | .cancelled => some false
  | .waitingForRuntime => none
  | .leased | .leaseExpiredAwaitingFence | .applied | .rejected | .expired
  | .outcomeUnknown => some true

variable {now : Millis}

namespace MailboxCommand

structure Valid (row : MailboxCommand) : Prop where
  leasing : ∀ leased, row.state.leasedBefore = some leased → row.everLeased = leased
  unaccepted : row.state = .reserved → row.acceptedAt = none
  unended : row.state.isTerminal = false → row.terminalAt = none ∧ row.envelope.isSome = true
  held : row.state.isHeld = true → row.leaseToken.isSome = true

variable {row : MailboxCommand}

theorem Valid.everLeased_of_held (valid : row.Valid) (held : row.state.isHeld = true) :
    row.everLeased = true := by
  refine valid.leasing true ?_
  cases state : row.state <;> rw [state] at held <;> first | rfl | cases held

variable {state : CloudCommandState}

theorem isPending_of_isLeasable (leasable : state.isLeasable = true) : state.isPending = true := by
  cases state <;> first | rfl | cases leasable

theorem not_terminal_of_isPending (pending : state.isPending = true) :
    state.isTerminal = false := by
  cases state <;> first | rfl | cases pending

theorem not_terminal_of_isHeld (held : state.isHeld = true) : state.isTerminal = false := by
  cases state <;> first | rfl | cases held

theorem not_terminal_of_isCancellable (cancellable : row.isCancellable = true) :
    row.state.isTerminal = false := by
  simp only [isCancellable, and_eq_true, or_eq_true,
    decide_eq_true_eq] at cancellable
  rcases cancellable.2 with reserved | pending
  · rw [reserved]
    rfl
  · exact not_terminal_of_isPending pending

theorem isHeld_of_isFencedBy {input : LeaseInput} (fenced : row.isFencedBy input = true) :
    row.state = .leaseExpiredAwaitingFence := by
  simp only [isFencedBy, and_eq_true, decide_eq_true_eq] at fenced
  exact fenced.1.1

theorem reserved_of_reservationExpired
    (expired : row.reservationExpired now = true) : row.state = .reserved := by
  simp only [reservationExpired, and_eq_true, decide_eq_true_eq] at expired
  exact expired.1

theorem isHeld_of_accepts {ack : RuntimeAcknowledgment} (accepted : row.accepts ack = true) :
    row.state.isHeld = true ∧ row.leaseToken = some ack.leaseToken := by
  simpa [accepts] using accepted

end MailboxCommand

/-- The lease of a command that was leased and goes on: the storage is the current one,
and no runtime of the current generation had it unless it still holds it. -/
structure LeasedBy (mailbox : Mailbox) (row : MailboxCommand) : Prop where
  generation : ∃ generation, row.runtimeGeneration = some generation ∧
    ∃ known, mailbox.runtimeGeneration = some known ∧ generation ≤ known ∧
      (row.state.isHeld = false → generation < known)
  incarnation : row.storageIncarnationId = mailbox.storageIncarnation
  stored : mailbox.storageIncarnation.isSome = true

variable {row : MailboxCommand}

theorem LeasedBy.of_same {mailbox after : Mailbox} (leased : LeasedBy mailbox row)
    (generation : after.runtimeGeneration = mailbox.runtimeGeneration)
    (incarnation : after.storageIncarnation = mailbox.storageIncarnation) :
    LeasedBy after row where
  generation := by
    rw [generation]
    exact leased.generation
  incarnation := by
    rw [incarnation]
    exact leased.incarnation
  stored := by
    rw [incarnation]
    exact leased.stored

namespace RowEdit

variable {operation : MailboxOperation} {mailbox : Mailbox} {before after : MailboxCommand}

section

variable (edit : RowEdit operation mailbox before after)
include edit

theorem ongoing_or_purge (valid : before.Valid) :
    before.state.isTerminal = false ∨ before.state.isTerminal = true ∧ after = before.purge := by
  cases edit with
  | accept now blockedUntil reserved => left; rw [reserved]; rfl
  | block now blockedUntil neverLeased pending =>
    exact .inl (not_terminal_of_isPending pending)
  | unblock now blocked => left; rw [blocked]; rfl
  | cancel now category cancellable =>
    exact .inl (not_terminal_of_isCancellable cancellable)
  | expireReservation now alarm expired =>
    left
    rw [reserved_of_reservationExpired expired]
    rfl
  | keepLease now category leased | awaitFence now leased => left; rw [leased]; rfl
  | terminateUnleased now category ongoing | terminateLeased now category ongoing =>
    exact .inl ongoing
  | fence now input fenced =>
    left
    rw [isHeld_of_isFencedBy fenced]
    rfl
  | lease now input tokens request leasable =>
    exact .inl (not_terminal_of_isPending (isPending_of_isLeasable leasable))
  | acknowledge now ack request sameId fingerprint accepted =>
    exact .inl (not_terminal_of_isHeld (isHeld_of_accepts accepted).1)
  | purge ended =>
    refine .inr ⟨?_, rfl⟩
    cases terminal : before.state.isTerminal with
    | true => rfl
    | false =>
      rw [(valid.unended terminal).1] at ended
      cases ended

theorem absorbing (valid : before.Valid) (terminal : before.state.isTerminal = true) :
    after.state = before.state := by
  rcases edit.ongoing_or_purge valid with ongoing | ⟨_, rfl⟩
  · rw [terminal] at ongoing
    cases ongoing
  · rfl

theorem keeps_envelope (valid : before.Valid) (ongoing : after.state.isTerminal = false) :
    before.state.isTerminal = false ∧ after.envelope = before.envelope ∧
      after.envelopeBytes = before.envelopeBytes := by
  rcases edit.ongoing_or_purge valid with started | ⟨terminal, rfl⟩
  · refine ⟨started, ?_⟩
    cases edit with
    | purge ended =>
      rw [(valid.unended started).1] at ended
      cases ended
    | _ => exact ⟨rfl, rfl⟩
  · rw [show before.purge.state = before.state from rfl, terminal] at ongoing
    cases ongoing

theorem envelope : after.envelope = before.envelope ∨ after.envelope = none := by
  cases edit with
  | purge ended => exact .inr rfl
  | _ => exact .inl rfl

end

section

variable (edit : RowEdit operation mailbox before after)
include edit

theorem valid (valid : before.Valid) : after.Valid := by
  have unended := valid.unended
  cases edit with
  | accept now blockedUntil reserved =>
    rw [reserved] at unended
    have neverLeased := valid.leasing false (by rw [reserved]; rfl)
    cases blockedUntil with
    | none | some reason =>
      refine ⟨?_, by rintro ⟨⟩, fun _ => unended rfl, by rintro ⟨⟩⟩
      rintro _ ⟨⟩
      exact neverLeased
  | block now blockedUntil neverLeased pending =>
    refine ⟨?_, by rintro ⟨⟩, fun _ => ?_, by rintro ⟨⟩⟩
    · rintro _ ⟨⟩
      exact neverLeased
    · exact unended (not_terminal_of_isPending pending)
  | unblock now blocked =>
    rw [blocked] at unended
    exact ⟨by rintro _ ⟨⟩, by rintro ⟨⟩, fun _ => unended rfl, by rintro ⟨⟩⟩
  | cancel now category cancellable =>
    refine ⟨?_, by rintro ⟨⟩, by rintro ⟨⟩, by rintro ⟨⟩⟩
    rintro _ ⟨⟩
    simp only [isCancellable, and_eq_true, not_eq_true'] at cancellable
    exact cancellable.1
  | expireReservation now alarm expired =>
    refine ⟨?_, by rintro ⟨⟩, by rintro ⟨⟩, by rintro ⟨⟩⟩
    rintro _ ⟨⟩
    exact valid.leasing false (by rw [reserved_of_reservationExpired expired]; rfl)
  | keepLease now category leased =>
    exact ⟨valid.leasing, valid.unaccepted, unended, valid.held⟩
  | terminateUnleased now category ongoing neverLeased =>
    refine ⟨?_, by rintro ⟨⟩, by rintro ⟨⟩, by rintro ⟨⟩⟩
    rintro _ ⟨⟩
    exact neverLeased
  | terminateLeased now category ongoing everLeased =>
    refine ⟨?_, by rintro ⟨⟩, by rintro ⟨⟩, by rintro ⟨⟩⟩
    rintro _ ⟨⟩
    rcases everLeased with already | leased
    · exact already
    · exact valid.everLeased_of_held (by rw [leased]; rfl)
  | awaitFence now leased =>
    rw [leased] at unended
    refine ⟨?_, by rintro ⟨⟩, fun _ => unended rfl, fun _ => ?_⟩
    · rintro _ ⟨⟩
      exact valid.everLeased_of_held (by rw [leased]; rfl)
    · exact valid.held (by rw [leased]; rfl)
  | fence now input fenced =>
    rw [isHeld_of_isFencedBy fenced] at unended
    exact ⟨by rintro _ ⟨⟩, by rintro ⟨⟩, fun _ => unended rfl, by rintro ⟨⟩⟩
  | lease now input tokens request leasable =>
    refine ⟨?_, by rintro ⟨⟩, fun _ => ?_, fun _ => rfl⟩
    · rintro _ ⟨⟩
      rfl
    · exact unended (not_terminal_of_isPending (isPending_of_isLeasable leasable))
  | acknowledge now ack request sameId fingerprint accepted =>
    have everLeased := valid.everLeased_of_held (isHeld_of_accepts accepted).1
    obtain ⟨_, _, _, state, _⟩ := ack
    cases state <;>
      exact ⟨by rintro _ ⟨⟩; exact everLeased, by rintro ⟨⟩, by rintro ⟨⟩, by rintro ⟨⟩⟩
  | purge ended =>
    refine ⟨valid.leasing, valid.unaccepted, fun ongoing => ?_, valid.held⟩
    rw [(unended ongoing).1] at ended
    cases ended

theorem held (held : after.state.isHeld = true) :
    before.state.isHeld = true ∨ mailbox.isFirstInLane before = true := by
  cases edit with
  | keepLease now category leased | awaitFence now leased => left; rw [leased]; rfl
  | lease now input tokens request leasable first => exact .inr first
  | purge ended => exact .inl held
  | accept now blockedUntil => cases blockedUntil <;> cases held
  | acknowledge now ack =>
    obtain ⟨_, _, _, state, _⟩ := ack
    cases state <;> cases held
  | _ => cases held

theorem survives (valid : before.Valid)
    (ongoing : after.state.isTerminal = false) {destructionFence : Number}
    (survives : Mailbox.Survives before destructionFence) :
    Mailbox.Survives after destructionFence := by
  have envelope := (edit.keeps_envelope valid ongoing).2.1
  rcases survives with above | ⟨leased, destructive⟩
  · left
    rw [belowFence, envelopeFence, envelope]
    exact above
  cases edit with
  | keepLease now category _ listed =>
    refine .inr ⟨leased, ?_⟩
    simpa [MailboxCommand.isDestructive, MailboxCommand.keepLease] using listed
  | awaitFence now _ ordinary =>
    rw [destructive] at ordinary
    cases ordinary
  | accept now blockedUntil reserved => rw [leased] at reserved; cases reserved
  | block now blockedUntil neverLeased pending => rw [leased] at pending; cases pending
  | unblock now blocked => rw [leased] at blocked; cases blocked
  | fence now input fenced =>
    have expired := isHeld_of_isFencedBy fenced
    rw [leased] at expired
    cases expired
  | lease now input tokens request leasable => rw [leased] at leasable; cases leasable
  | acknowledge now ack =>
    obtain ⟨_, _, _, state, _⟩ := ack
    cases state <;> cases ongoing
  | purge ended =>
    rw [(valid.unended ongoing).1] at ended
    cases ended
  | _ => cases ongoing

theorem leasedBy (valid : before.Valid)
    (ongoing : after.state.isTerminal = false) (everLeased : after.everLeased = true)
    (leased : before.everLeased = true → LeasedBy mailbox before) : LeasedBy mailbox after := by
  have unleased {leased : Bool} (state : before.state.leasedBefore = some false)
      (same : leased = before.everLeased) (isLeased : leased = true) : False := by
    rw [same, valid.leasing false state] at isLeased
    cases isLeased
  cases edit with
  | accept now blockedUntil reserved =>
    exact (unleased (by rw [reserved]; rfl) rfl everLeased).elim
  | block now blockedUntil neverLeased =>
    rw [show (before.block now blockedUntil).everLeased = before.everLeased from rfl,
      neverLeased] at everLeased
    cases everLeased
  | unblock now blocked => exact (unleased (by rw [blocked]; rfl) rfl everLeased).elim
  | keepLease | purge ended =>
    exact ⟨(leased everLeased).1, (leased everLeased).2, (leased everLeased).3⟩
  | awaitFence now isLeased =>
    obtain ⟨⟨generation, isGeneration, known, isKnown, le, _⟩, incarnation, stored⟩ :=
      leased everLeased
    exact ⟨⟨generation, isGeneration, known, isKnown, le, by rintro ⟨⟩⟩, incarnation, stored⟩
  | fence now input fenced current =>
    obtain ⟨⟨generation, isGeneration, known, isKnown, le, _⟩, incarnation, stored⟩ :=
      leased everLeased
    refine ⟨⟨generation, isGeneration, known, isKnown, le, fun _ => ?_⟩, incarnation, stored⟩
    simp only [isFencedBy, isGeneration, Option.any_some, and_eq_true,
      decide_eq_true_eq] at fenced
    rw [current] at isKnown
    cases isKnown
    exact fenced.2
  | lease now input tokens request leasable first current incarnation =>
    refine ⟨⟨input.runtimeGeneration, rfl, input.runtimeGeneration, current, le_refl _,
      by rintro ⟨⟩⟩, incarnation.symm, ?_⟩
    rw [incarnation]
    rfl
  | acknowledge now ack =>
    obtain ⟨_, _, _, state, _⟩ := ack
    cases state <;> cases ongoing
  | _ => cases ongoing

end

end RowEdit

namespace Mailbox

structure Sound (mailbox : Mailbox) : Prop where
  distinct : mailbox.commandIds.Nodup
  sequences : mailbox.commands.Pairwise fun earlier later =>
    earlier.workspaceSequence < later.workspaceSequence
  sequenceBound : ∀ row ∈ mailbox.commands, row.workspaceSequence ≤ mailbox.sequence
  valid : ∀ row ∈ mailbox.commands, row.Valid
  lanes : ∀ row ∈ mailbox.commands, row.state.isHeld = true → mailbox.isFirstInLane row = true
  leased : ∀ row ∈ mailbox.commands, row.state.isTerminal = false →
    row.everLeased = true → LeasedBy mailbox row
  fences : ∀ row ∈ mailbox.commands, row.state.isTerminal = false →
    ∀ destructionFence, mailbox.destructionFence = some destructionFence →
      Survives row destructionFence
  identified : ∀ row ∈ mailbox.commands, (mailbox.commandIdentities row.commandId).isSome = true
  envelopes : ∀ row ∈ mailbox.commands, ∀ envelope, row.envelope = some envelope →
    envelope.commandId = row.commandId
  count : mailbox.nonterminalCount ≤ maxNonterminal
  bytes : mailbox.nonterminalBytes ≤ maxMailboxBytes

theorem Sound.empty : Sound Mailbox.empty where
  distinct := nodup_nil
  sequences := List.Pairwise.nil
  sequenceBound := forall_mem_nil _
  valid := forall_mem_nil _
  lanes := forall_mem_nil _
  leased := forall_mem_nil _
  fences := forall_mem_nil _
  identified := forall_mem_nil _
  envelopes := forall_mem_nil _
  count := zero_le _
  bytes := zero_le _

variable {mailbox : Mailbox}

theorem isFirstInLane_iff :
    mailbox.isFirstInLane row = true ↔ ∀ prior ∈ mailbox.commands,
      prior.lane = row.lane → prior.workspaceSequence < row.workspaceSequence →
        prior.state.isTerminal = true := by
  simp only [isFirstInLane, all_eq_true, or_eq_true, decide_eq_true_eq]
  refine forall₂_congr fun prior _ => ?_
  rw [← not_lt]
  tauto

theorem Sound.sequences_distinct (sound : Sound mailbox) :
    (mailbox.commands.map (·.workspaceSequence)).Nodup :=
  pairwise_map.mpr (sound.sequences.imp fun lt => ne_of_lt lt)

section

variable {left right : MailboxCommand} (sound : Sound mailbox)
  (leftMember : left ∈ mailbox.commands) (rightMember : right ∈ mailbox.commands)
include sound leftMember rightMember

theorem Sound.eq_of_sequence
    (same : left.workspaceSequence = right.workspaceSequence) : left = right :=
  inj_on_of_nodup_map sound.sequences_distinct leftMember rightMember same

theorem Sound.eq_of_held (sameLane : left.lane = right.lane) (leftHeld : left.state.isHeld = true)
    (rightHeld : right.state.isHeld = true) : left = right := by
  have leftFirst := isFirstInLane_iff.mp (sound.lanes left leftMember leftHeld)
  have rightFirst := isFirstInLane_iff.mp (sound.lanes right rightMember rightHeld)
  rcases lt_trichotomy left.workspaceSequence right.workspaceSequence with
    earlier | same | later
  · have ended := rightFirst left leftMember sameLane earlier
    rw [not_terminal_of_isHeld leftHeld] at ended
    cases ended
  · exact sound.eq_of_sequence leftMember rightMember same
  · have ended := leftFirst right rightMember sameLane.symm later
    rw [not_terminal_of_isHeld rightHeld] at ended
    cases ended

end

variable {set : MailboxCommand → MailboxCommand}

/-- The sum of sizes that `nonterminalBytes` computes. -/
theorem foldl_bytes_le :
    ∀ (rows : List MailboxCommand) (left right : Nat), left ≤ right →
      (∀ row ∈ rows, (set row).state.isTerminal = false →
        row.state.isTerminal = false ∧ (set row).envelopeBytes = row.envelopeBytes) →
      ((rows.map set).filter fun row => !row.state.isTerminal).foldl
          (fun bytes row => bytes + row.envelopeBytes) left ≤
        (rows.filter fun row => !row.state.isTerminal).foldl
          (fun bytes row => bytes + row.envelopeBytes) right := by
  intro rows
  induction rows with
  | nil => exact fun _ _ le _ => le
  | cons row rest ih =>
    intro left right le kept
    obtain ⟨rowKept, restKept⟩ := forall_mem_cons.mp kept
    rw [map_cons, filter_cons, filter_cons]
    cases after : (set row).state.isTerminal with
    | false =>
      obtain ⟨before, same⟩ := rowKept after
      simp only [before, Bool.not_false, if_true, foldl_cons, same]
      exact ih _ _ (Nat.add_le_add_right le _) restKept
    | true =>
      cases row.state.isTerminal with
      | false => exact ih _ _ (le.trans (le_add_right _ _)) restKept
      | true => exact ih _ _ le restKept

theorem length_nonterminal_le {rows : List MailboxCommand}
    (kept : ∀ row ∈ rows, (set row).state.isTerminal = false → row.state.isTerminal = false) :
    ((rows.map set).filter fun row => !row.state.isTerminal).length ≤
      (rows.filter fun row => !row.state.isTerminal).length := by
  rw [← countP_eq_length_filter, ← countP_eq_length_filter, countP_map]
  refine countP_mono_left fun row member after => ?_
  simp only [Function.comp_apply, not_eq_true'] at after ⊢
  exact kept row member after

section Preserved

variable {operation : MailboxOperation} {mailbox after : Mailbox}

theorem Sound.rewrite (sound : Sound mailbox) {ids : List CommandId}
    (edits : ∀ row ∈ mailbox.commands,
      set row = row ∨ RowEdit operation mailbox row (set row))
    (distinct : ((mailbox.rewrite set).changedAll ids).commandIds.Nodup) :
    Sound ((mailbox.rewrite set).changedAll ids) := by
  have same : ∀ row ∈ mailbox.commands, SameCommand row (set row) := by
    intro row member
    rcases edits row member with unchanged | edit
    · rw [unchanged]
      exact ⟨rfl, rfl, rfl, rfl⟩
    · exact edit.same
  have terminal : ∀ row ∈ mailbox.commands, row.state.isTerminal = true →
      (set row).state.isTerminal = true := by
    intro row member ended
    rcases edits row member with unchanged | edit
    · rw [unchanged]
      exact ended
    · rw [edit.absorbing (sound.valid row member) ended]
      exact ended
  have kept : ∀ row ∈ mailbox.commands, (set row).state.isTerminal = false →
      row.state.isTerminal = false ∧ (set row).envelopeBytes = row.envelopeBytes := by
    intro row member ongoing
    rcases edits row member with unchanged | edit
    · rw [unchanged] at ongoing ⊢
      exact ⟨ongoing, rfl⟩
    · have unchanged := edit.keeps_envelope (sound.valid row member) ongoing
      exact ⟨unchanged.1, unchanged.2.2⟩
  have first : ∀ row ∈ mailbox.commands, mailbox.isFirstInLane row = true →
      ((mailbox.rewrite set).changedAll ids).isFirstInLane (set row) = true := by
    intro row member isFirst
    rw [isFirstInLane_iff] at isFirst ⊢
    intro prior priorMember sameLane earlier
    rw [changedAll_commands] at priorMember
    obtain ⟨stored, storedMember, rfl⟩ := mem_map.mp priorMember
    rw [(same stored storedMember).lane, (same row member).lane] at sameLane
    rw [(same stored storedMember).workspaceSequence,
      (same row member).workspaceSequence] at earlier
    exact terminal stored storedMember (isFirst stored storedMember sameLane earlier)
  constructor
  case distinct => exact distinct
  case sequences =>
    rw [changedAll_commands, rewrite_commands, pairwise_map]
    refine sound.sequences.imp_of_mem fun {earlier later} earlierMember laterMember lt => ?_
    rw [(same earlier earlierMember).workspaceSequence, (same later laterMember).workspaceSequence]
    exact lt
  all_goals try rw [changedAll_commands, rewrite_commands, forall_mem_map]
  case sequenceBound =>
    intro row member
    rw [(same row member).workspaceSequence, changedAll_sequence]
    exact sound.sequenceBound row member
  case valid =>
    intro row member
    rcases edits row member with unchanged | edit
    · rw [unchanged]
      exact sound.valid row member
    · exact edit.valid (sound.valid row member)
  case lanes =>
    intro row member held
    refine first row member ?_
    rcases edits row member with unchanged | edit
    · rw [unchanged] at held
      exact sound.lanes row member held
    · rcases edit.held held with already | isFirst
      · exact sound.lanes row member already
      · exact isFirst
  case leased =>
    intro row member ongoing everLeased
    have leased : LeasedBy mailbox (set row) := by
      rcases edits row member with unchanged | edit
      · rw [unchanged] at ongoing everLeased ⊢
        exact sound.leased row member ongoing everLeased
      · exact edit.leasedBy (sound.valid row member) ongoing everLeased
          (sound.leased row member (kept row member ongoing).1)
    refine ⟨?_, ?_, ?_⟩
    · rw [changedAll_runtimeGeneration]
      exact leased.generation
    · rw [changedAll_storageIncarnation]
      exact leased.incarnation
    · rw [changedAll_storageIncarnation]
      exact leased.stored
  case fences =>
    intro row member ongoing destructionFence isFence
    rw [changedAll_destructionFence] at isFence
    have survives := sound.fences row member (kept row member ongoing).1 destructionFence isFence
    rcases edits row member with unchanged | edit
    · rw [unchanged]
      exact survives
    · exact edit.survives (sound.valid row member) ongoing survives
  case identified =>
    intro row member
    rw [(same row member).commandId, changedAll_commandIdentities]
    exact sound.identified row member
  case envelopes =>
    intro row member envelope isEnvelope
    rw [(same row member).commandId]
    rcases edits row member with unchanged | edit
    · rw [unchanged] at isEnvelope
      exact sound.envelopes row member envelope isEnvelope
    · rcases edit.envelope with kept | cleared
      · exact sound.envelopes row member envelope (kept.symm.trans isEnvelope)
      · rw [cleared] at isEnvelope
        cases isEnvelope
  case count =>
    rw [nonterminalCount, nonterminal, changedAll_commands]
    exact (length_nonterminal_le fun row member ongoing =>
      (kept row member ongoing).1).trans sound.count
  case bytes =>
    rw [nonterminalBytes, nonterminal, changedAll_commands]
    exact (foldl_bytes_le _ _ _ (le_refl _) kept).trans sound.bytes

theorem Sound.of_same (sound : Sound mailbox)
    (commands : after.commands = mailbox.commands) (sequence : after.sequence = mailbox.sequence)
    (leased : ∀ row ∈ mailbox.commands, row.state.isTerminal = false →
      row.everLeased = true → LeasedBy after row)
    (fences : ∀ row ∈ mailbox.commands, row.state.isTerminal = false →
      ∀ destructionFence, after.destructionFence = some destructionFence →
        Survives row destructionFence)
    (identified : ∀ row ∈ mailbox.commands,
      (after.commandIdentities row.commandId).isSome = true) : Sound after where
  distinct := by
    rw [commandIds, commands]
    exact sound.distinct
  sequences := by
    rw [commands]
    exact sound.sequences
  sequenceBound := by
    rw [commands, sequence]
    exact sound.sequenceBound
  valid := by
    rw [commands]
    exact sound.valid
  lanes := by
    intro row member held
    rw [commands] at member
    have first := sound.lanes row member held
    rw [isFirstInLane_iff] at first ⊢
    rw [commands]
    exact first
  leased := by
    rw [commands]
    exact leased
  fences := by
    rw [commands]
    exact fences
  identified := by
    rw [commands]
    exact identified
  envelopes := by
    rw [commands]
    exact sound.envelopes
  count := by
    rw [nonterminalCount, nonterminal, commands]
    exact sound.count
  bytes := by
    rw [nonterminalBytes, nonterminal, commands]
    exact sound.bytes

theorem setCommandIdentity_isSome (mailbox : Mailbox) (commandId other : CommandId)
    (identity : CommandIdentity)
    (known : other = commandId ∨ (mailbox.commandIdentities other).isSome = true) :
    ((mailbox.setCommandIdentity commandId identity).commandIdentities other).isSome =
      true := by
  simp only [setCommandIdentity]
  split
  · rfl
  · rename_i differs
    exact known.resolve_left differs

variable [MailboxHost]

theorem Sound.insert (sound : Sound mailbox) {lane : String} {envelope : CloudCommandEnvelope}
    (safe : isSafeInteger envelope.destructionFence = true)
    (nonnegative : 0 ≤ envelope.destructionFence)
    (fence : ∀ current, mailbox.destructionFence = some current →
      current ≤ envelope.destructionFence)
    (room : mailbox.atCapacity (MailboxHost.envelopeBytes envelope) = false)
    (distinct : (mailbox.insertReserved now lane envelope).commandIds.Nodup) :
    Sound (mailbox.insertReserved now lane envelope) := by
  let row := reservedCommand now lane (mailbox.sequence + 1) envelope
  have commands : (mailbox.insertReserved now lane envelope).commands =
      mailbox.commands ++ [row] := rfl
  have forAll {property : MailboxCommand → Prop}
      (old : ∀ row ∈ mailbox.commands, property row) (new : property row) :
      ∀ row ∈ (mailbox.insertReserved now lane envelope).commands, property row := by
    intro other member
    rcases Data.mem_concat.mp member with known | rfl
    · exact old other known
    · exact new
  have rooms := not_or.mp (of_decide_eq_false room)
  have nonterminals : (mailbox.insertReserved now lane envelope).nonterminal =
      mailbox.nonterminal ++ [row] := by
    rw [nonterminal, commands, filter_append]
    rfl
  constructor
  case distinct => exact distinct
  case sequences =>
    rw [commands, pairwise_append]
    refine ⟨sound.sequences, pairwise_singleton _ _, ?_⟩
    intro known knownMember new newMember
    rw [mem_singleton.mp newMember]
    exact lt_succ_of_le (sound.sequenceBound known knownMember)
  case sequenceBound =>
    exact forAll (fun other member =>
      le_succ_of_le (sound.sequenceBound other member)) (le_refl _)
  case valid =>
    refine forAll sound.valid ⟨?_, fun _ => rfl, fun _ => ⟨rfl, rfl⟩, by rintro ⟨⟩⟩
    rintro _ ⟨⟩
    rfl
  case lanes =>
    refine forAll ?_ (by rintro ⟨⟩)
    intro other member held
    have first := sound.lanes other member held
    rw [isFirstInLane_iff] at first ⊢
    refine forAll first ?_
    intro _ earlier
    exact absurd (sound.sequenceBound other member) (not_le.mpr (lt_of_succ_lt earlier))
  case leased =>
    refine forAll ?_ (by rintro _ ⟨⟩)
    intro other member ongoing everLeased
    exact (sound.leased other member ongoing everLeased).of_same rfl rfl
  case fences =>
    refine forAll sound.fences ?_
    intro _ destructionFence isFence
    left
    have isEnvelopeFence : row.envelopeFence = some envelope.destructionFence := by
      simp [envelopeFence, row, reservedCommand, safe, nonnegative]
    rw [belowFence, isEnvelopeFence]
    simpa using fence destructionFence isFence
  case identified =>
    refine forAll ?_ ?_
    · exact fun other member => setCommandIdentity_isSome { mailbox with
        sequence := mailbox.sequence + 1
        commands := mailbox.commands ++ [row] } _ _ _ (.inr (sound.identified other member))
    · exact setCommandIdentity_isSome { mailbox with
        sequence := mailbox.sequence + 1
        commands := mailbox.commands ++ [row] } _ _ _ (.inl rfl)
  case envelopes =>
    refine forAll sound.envelopes ?_
    intro other isEnvelope
    cases isEnvelope
    rfl
  case count =>
    rw [nonterminalCount, nonterminals, length_append]
    exact Nat.succ_le_of_lt (Nat.lt_of_not_le rooms.1)
  case bytes =>
    rw [nonterminalBytes, nonterminals, foldl_append]
    exact Nat.le_of_not_lt rooms.2

theorem Sound.edit (sound : Sound mailbox) (edit : Edit operation mailbox after) :
    Sound after := by
  have distinct := edit.distinct sound.distinct
  cases edit with
  | rewrite set ids edits recorded => exact sound.rewrite edits distinct
  | insert now lane envelope request inLane safe nonnegative fence absent room =>
    exact sound.insert safe nonnegative fence room distinct
  | identify existing stored identity unknown =>
    exact sound.of_same rfl rfl
      (fun row member ongoing everLeased =>
        (sound.leased row member ongoing everLeased).of_same rfl rfl)
      sound.fences fun row member =>
        setCommandIdentity_isSome mailbox _ _ _ (.inr (sound.identified row member))
  | generation runtimeGeneration newer =>
    refine sound.of_same rfl rfl ?_ sound.fences sound.identified
    intro row member ongoing everLeased
    obtain ⟨⟨generation, isGeneration, known, isKnown, le, _⟩, incarnation, stored⟩ :=
      sound.leased row member ongoing everLeased
    have lt := lt_of_le_of_lt le (newer known isKnown)
    exact ⟨⟨generation, isGeneration, runtimeGeneration, rfl, le_of_lt lt, fun _ => lt⟩,
      incarnation, stored⟩
  | incarnation storageIncarnationId replaced =>
    refine sound.of_same rfl rfl ?_ sound.fences sound.identified
    intro row member ongoing everLeased
    obtain ⟨generation, incarnation, stored⟩ := sound.leased row member ongoing everLeased
    rcases replaced with none | same | ended
    · rw [none] at stored
      cases stored
    · exact ⟨generation, incarnation.trans same, rfl⟩
    · rw [ended row member everLeased] at ongoing
      cases ongoing
  | fence destructionFence higher survives =>
    refine sound.of_same rfl rfl (fun row member ongoing everLeased =>
      (sound.leased row member ongoing everLeased).of_same rfl rfl) ?_ sound.identified
    intro row member ongoing current isCurrent
    cases isCurrent
    exact survives row member ongoing
  | configure same =>
    refine sound.of_same same.commands same.sequence ?_ ?_ ?_
    · exact fun row member ongoing everLeased =>
        (sound.leased row member ongoing everLeased).of_same same.runtimeGeneration
          same.storageIncarnation
    · rw [same.destructionFence]
      exact sound.fences
    · rw [same.commandIdentities]
      exact sound.identified
  | bump =>
    exact sound.of_same rfl rfl
      (fun row member ongoing everLeased =>
        (sound.leased row member ongoing everLeased).of_same rfl rfl)
      sound.fences sound.identified

theorem Sound.edits (sound : Sound mailbox) (edits : Edits operation mailbox after) :
    Sound after :=
  edits.preserves Sound (fun _ _ sound edit => sound.edit edit) sound

variable {calls : List MailboxCall}

theorem Sound.history (sound : Sound mailbox)
    (history : History mailbox calls after) : Sound after :=
  history.preserves Sound (fun _ sound => sound.distinct)
    (fun _ _ _ sound edit => sound.edit edit) sound

theorem Sound.of_history (history : History Mailbox.empty calls mailbox) : Sound mailbox :=
  Sound.empty.history history

theorem Sound.performs {call : MailboxCall} (sound : Sound call.before)
    (performs : Performs call) : Sound call.after :=
  sound.edits (performs.edits sound.distinct)

variable {row : MailboxCommand}

theorem Edit.origin (edit : Edit operation mailbox after) (member : row ∈ after.commands) :
    (∃ stored ∈ mailbox.commands, row = stored ∨ RowEdit operation mailbox stored row) ∨
      row.state = .reserved ∧ row.commandId ∉ mailbox.commandIds := by
  cases edit with
  | rewrite set ids edits recorded =>
    rw [changedAll_commands] at member
    obtain ⟨stored, storedMember, rfl⟩ := mem_map.mp member
    exact .inl ⟨stored, storedMember, edits stored storedMember⟩
  | insert now lane envelope request inLane safe nonnegative fence absent room =>
    rcases Data.mem_concat.mp member with known | rfl
    · exact .inl ⟨row, known, .inl rfl⟩
    · exact .inr ⟨rfl, command_eq_none.mp absent⟩
  | configure same =>
    rw [same.commands] at member
    exact .inl ⟨row, member, .inl rfl⟩
  | identify | generation | incarnation | fence | bump =>
    exact .inl ⟨row, member, .inl rfl⟩

theorem Edit.image (edit : Edit operation mailbox after) (member : row ∈ mailbox.commands) :
    ∃ edited ∈ after.commands, edited = row ∨ RowEdit operation mailbox row edited := by
  cases edit with
  | rewrite set ids edits recorded =>
    refine ⟨set row, ?_, edits row member⟩
    rw [changedAll_commands]
    exact mem_map_of_mem member
  | insert now lane envelope request inLane safe nonnegative fence absent room =>
    exact ⟨row, mem_append_left _ member, .inl rfl⟩
  | configure same =>
    rw [same.commands]
    exact ⟨row, member, .inl rfl⟩
  | identify | generation | incarnation | fence | bump => exact ⟨row, member, .inl rfl⟩

theorem Edit.absorbing (sound : Sound mailbox) (edit : Edit operation mailbox after)
    (member : row ∈ mailbox.commands) (ended : row.state.isTerminal = true) :
    ∃ later ∈ after.commands, later.commandId = row.commandId ∧ later.state = row.state := by
  obtain ⟨edited, editedMember, unchanged | rowEdit⟩ := edit.image member
  · exact ⟨edited, editedMember, unchanged ▸ rfl, unchanged ▸ rfl⟩
  · exact ⟨edited, editedMember, rowEdit.same.commandId,
      rowEdit.absorbing (sound.valid row member) ended⟩

theorem absorbing_of_history (sound : Sound mailbox)
    (history : History mailbox calls after) (member : row ∈ mailbox.commands)
    (ended : row.state.isTerminal = true) :
    ∃ later ∈ after.commands, later.commandId = row.commandId ∧ later.state = row.state := by
  refine (history.preserves (fun reached => Sound reached ∧
    ∃ later ∈ reached.commands, later.commandId = row.commandId ∧
      later.state = row.state) (fun _ reached => reached.1.distinct) ?_
        ⟨sound, row, member, rfl, rfl⟩).2
  rintro _ reached next ⟨reachedSound, later, laterMember, sameId, sameState⟩ edit
  obtain ⟨edited, editedMember, editedId, editedState⟩ :=
    edit.absorbing reachedSound laterMember (sameState ▸ ended)
  exact ⟨reachedSound.edit edit, edited, editedMember, editedId.trans sameId,
    editedState.trans sameState⟩

theorem Edits.fence_mono (edits : Edits operation mailbox after) {fence : Number}
    (isFence : mailbox.destructionFence = some fence) :
    ∃ higher, after.destructionFence = some higher ∧ fence ≤ higher := by
  refine edits.preserves (fun reached =>
    ∃ higher, reached.destructionFence = some higher ∧ fence ≤ higher) ?_
      ⟨fence, isFence, le_refl _⟩
  rintro reached next ⟨higher, isHigher, le⟩ edit
  cases edit with
  | rewrite set ids edits recorded =>
    rw [changedAll_destructionFence]
    exact ⟨higher, isHigher, le⟩
  | fence raised raises survives => exact ⟨raised, rfl, le.trans (raises higher isHigher)⟩
  | configure same =>
    rw [same.destructionFence]
    exact ⟨higher, isHigher, le⟩
  | insert | identify | generation | incarnation | bump => exact ⟨higher, isHigher, le⟩

end Preserved

end Mailbox

end Zuse.Cloud
