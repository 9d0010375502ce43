import Zuse.Data.ChangeFeed
import Zuse.Cloud.MailboxInvariants

namespace Zuse.Cloud

open Zuse.Domain (Millis Number)
open Zuse.Data List MailboxChange Option

/-! A client that watches the mailbox: it polls from the last `nextRevision` on, and after
a reset it reads the status of every command before it polls again. -/

structure WatchClient where
  afterRevision : Nat
  known : CommandId → Option CommandStatus
  unread : List CommandId
  pages : List CommandChangePage

namespace WatchClient

variable (client : WatchClient)

def start : WatchClient where
  afterRevision := 0
  known := fun _ => none
  unread := []
  pages := []

def learn (commandId : CommandId) (status : Option CommandStatus) : WatchClient :=
  { client with
    known := fun other => if other = commandId then status else client.known other }

def learnAll (statuses : List CommandStatus) : WatchClient :=
  statuses.foldl (fun client status => client.learn status.commandId (some status)) client

/-- The answer of a poll. `commandIds` are the commands that a reset has it read. -/
def takePage (page : CommandChangePage) (commandIds : List CommandId) : WatchClient :=
  { client.learnAll page.changes with
    afterRevision := page.nextRevision
    unread := if page.resetRequired then commandIds else []
    pages := client.pages ++ [page] }

def read (commandId : CommandId) (status : Option CommandStatus) : WatchClient :=
  { client.learn commandId status with
    unread := client.unread.filter fun other => other ≠ commandId }

end WatchClient

structure WatchedWorld where
  world : MailboxWorld
  client : WatchClient

/-- A poll is answered with one read; the wait that may come before it writes nothing. -/
inductive WatchStep where
  | mailbox (label : MailboxStep)
  | poll
  | read (commandId : CommandId)

namespace WatchedWorld

variable (watched : WatchedWorld)

def page : CommandChangePage :=
  watched.world.mailbox.watch watched.client.afterRevision

def step [MailboxHost] : WatchStep → Option WatchedWorld
  | .mailbox label => (watched.world.step label).map fun world => { watched with world }
  | .poll =>
    if watched.client.unread = [] then
      some { watched with
        client := watched.client.takePage watched.page watched.world.mailbox.commandIds }
    else none
  | .read commandId =>
    some { watched with
      client := watched.client.read commandId (watched.world.mailbox.status commandId) }

end WatchedWorld

def watchSystem [MailboxHost] : TransitionSystem WatchedWorld WatchStep where
  init := { world := MailboxWorld.init, client := .start }
  step := fun watched label => watched.step label

def CommandStatus.view (status : CommandStatus) : CloudCommandState × Bool × Option String :=
  (status.state, status.everLeased, status.blockedUntil)

namespace Mailbox

variable {mailbox after : Mailbox} {operation : MailboxOperation}

def shown (mailbox : Mailbox) (commandId : CommandId) :
    Option (CloudCommandState × Bool × Option String) :=
  (mailbox.status commandId).map (·.view)

theorem shown_eq (commandId : CommandId) :
    mailbox.shown commandId = (mailbox.command commandId).map (·.view) := by
  rw [shown, status, Option.map_map]
  rfl

variable {commandId : CommandId}

theorem shown_eq_some (distinct : mailbox.commandIds.Nodup)
    {view : CloudCommandState × Bool × Option String} :
    mailbox.shown commandId = some view ↔
      ∃ row ∈ mailbox.commands, row.commandId = commandId ∧ row.view = view := by
  rw [shown_eq, map_eq_some_iff]
  constructor
  · rintro ⟨row, found, isView⟩
    obtain ⟨stored, sameId⟩ := (command_eq_some distinct).mp found
    exact ⟨row, stored, sameId, isView⟩
  · rintro ⟨row, stored, sameId, isView⟩
    exact ⟨row, (command_eq_some distinct).mpr ⟨stored, sameId⟩, isView⟩

/-- The tables record their changes, and only rows have revisions. -/
structure Feed (mailbox : Mailbox) : Prop where
  feed : ChangeFeed MailboxChange.revision MailboxChange.commandId mailbox.changes
    mailbox.revision mailbox.commandRevisions
  stored : ∀ commandId lastRevision, mailbox.commandRevisions commandId = some lastRevision →
    commandId ∈ mailbox.commandIds

theorem Feed.changed (feed : Feed mailbox)
    (stored : commandId ∈ mailbox.commandIds) : Feed (mailbox.changed commandId) where
  feed := feed.feed.record ⟨mailbox.revision + 1, commandId⟩ rfl (by decide)
  stored := by
    intro other lastRevision isLast
    simp only [Mailbox.changed] at isLast
    split at isLast
    · rename_i same
      exact same ▸ stored
    · exact feed.stored other lastRevision isLast

theorem Feed.changedAll (feed : Feed mailbox) {ids : List CommandId}
    (stored : ∀ commandId ∈ ids, commandId ∈ mailbox.commandIds) :
    Feed (mailbox.changedAll ids) := by
  induction ids generalizing mailbox with
  | nil => exact feed
  | cons head rest ih =>
    exact ih (feed.changed (stored head mem_cons_self)) fun commandId member =>
      stored commandId (mem_cons_of_mem head member)

/-- The revisions that a loop of records gives. -/
structure Recorded (before after : Mailbox) (ids : List CommandId) : Prop where
  revision : before.revision ≤ after.revision
  listed : ∀ commandId ∈ ids, ∃ lastRevision,
    after.commandRevisions commandId = some lastRevision ∧ before.revision < lastRevision
  others : ∀ commandId, commandId ∉ ids →
    after.commandRevisions commandId = before.commandRevisions commandId

theorem recorded_changedAll (ids : List CommandId) (mailbox : Mailbox) :
    Recorded mailbox (mailbox.changedAll ids) ids := by
  induction ids generalizing mailbox with
  | nil => exact ⟨le_refl _, forall_mem_nil _, fun _ _ => rfl⟩
  | cons head rest ih =>
    have later := ih (mailbox.changed head)
    refine ⟨Nat.le_of_succ_le later.revision, ?_, ?_⟩
    · intro commandId member
      by_cases again : commandId ∈ rest
      · obtain ⟨lastRevision, isLast, newer⟩ := later.listed commandId again
        exact ⟨lastRevision, isLast, Nat.lt_of_succ_lt newer⟩
      · have isHead : commandId = head := (mem_cons.mp member).resolve_right again
        refine ⟨mailbox.revision + 1, ?_, Nat.lt_succ_self _⟩
        exact (later.others commandId again).trans (if_pos isHead)
    · intro commandId absent
      obtain ⟨notHead, notRest⟩ := not_or.mp (mt mem_cons.mpr absent)
      exact (later.others commandId notRest).trans (if_neg notHead)

section Edits

variable [MailboxHost]

theorem Edit.feed (edit : Edit operation mailbox after) (feed : Feed mailbox) : Feed after := by
  cases edit with
  | rewrite set ids edits recorded stored =>
    have sameIds := rewrite_commandIds_of_edits edits
    have rewritten : Feed (mailbox.rewrite set) := ⟨feed.feed, sameIds ▸ feed.stored⟩
    refine rewritten.changedAll fun commandId listed => ?_
    rw [sameIds]
    exact mem_map.mpr (stored commandId listed)
  | insert now lane envelope =>
    refine ⟨feed.feed.record ⟨mailbox.revision + 1, envelope.commandId⟩ rfl (by decide), ?_⟩
    intro other lastRevision isLast
    rw [insertReserved_commandIds]
    simp only [insertReserved, Mailbox.changed] at isLast
    split at isLast
    · rename_i same
      exact mem_append_right _ (mem_singleton.mpr same)
    · exact mem_append_left _ (feed.stored other lastRevision isLast)
  | configure same =>
    refine ⟨?_, ?_⟩
    · rw [same.changes, same.revision, same.commandRevisions]
      exact feed.feed
    · rw [same.commandRevisions, commandIds, same.commands]
      exact feed.stored
  | bump => exact ⟨feed.feed.bump, feed.stored⟩
  | identify | generation | incarnation | fence => exact ⟨feed.feed, feed.stored⟩

theorem Edit.revision_le (edit : Edit operation mailbox after) :
    mailbox.revision ≤ after.revision := by
  cases edit with
  | rewrite set ids => exact (recorded_changedAll ids (mailbox.rewrite set)).revision
  | insert | bump => exact Nat.le_succ _
  | configure same => exact le_of_eq same.revision.symm
  | identify | generation | incarnation | fence => exact le_refl _

theorem Edit.recorded (edit : Edit operation mailbox after)
    (distinct : mailbox.commandIds.Nodup) (commandId : CommandId) :
    (after.commandRevisions commandId = mailbox.commandRevisions commandId ∧
        after.shown commandId = mailbox.shown commandId) ∨
      ∃ lastRevision, after.commandRevisions commandId = some lastRevision ∧
        mailbox.revision < lastRevision := by
  have nextDistinct := edit.distinct distinct
  cases edit with
  | rewrite set ids edits recorded stored =>
    have revisions := recorded_changedAll ids (mailbox.rewrite set)
    by_cases listed : commandId ∈ ids
    · exact .inr (revisions.listed commandId listed)
    refine .inl ⟨revisions.others commandId listed, ?_⟩
    ext view
    have kept (row : MailboxCommand) (member : row ∈ mailbox.commands) :
        (set row).commandId = row.commandId ∧
          (row.commandId = commandId → (set row).view = row.view) := by
      constructor
      · rcases edits row member with unchanged | rowEdit
        · exact congrArg MailboxCommand.commandId unchanged
        · exact rowEdit.same.commandId
      · rintro rfl
        by_contra differs
        exact listed (recorded row member differs)
    rw [shown_eq_some nextDistinct, shown_eq_some distinct, changedAll_commands]
    constructor
    · rintro ⟨row, member, sameId, isView⟩
      obtain ⟨before, beforeMember, rfl⟩ := mem_map.mp member
      obtain ⟨keptId, keptView⟩ := kept before beforeMember
      rw [keptId] at sameId
      exact ⟨before, beforeMember, sameId, (keptView sameId).symm.trans isView⟩
    · rintro ⟨row, member, sameId, isView⟩
      obtain ⟨keptId, keptView⟩ := kept row member
      exact ⟨set row, mem_map_of_mem member, keptId.trans sameId, (keptView sameId).trans isView⟩
  | insert now lane envelope =>
    by_cases isNew : commandId = envelope.commandId
    · exact .inr ⟨mailbox.revision + 1, if_pos isNew, Nat.lt_succ_self _⟩
    refine .inl ⟨if_neg isNew, ?_⟩
    rw [shown_eq, shown_eq, command, command]
    simp only [insertReserved, setCommandIdentity, changed_commands, List.find?_append]
    have other : [reservedCommand now lane (mailbox.sequence + 1) envelope].find?
        (·.commandId = commandId) = none := by
      simpa [reservedCommand] using Ne.symm isNew
    rw [other, or_none]
  | configure same =>
    refine .inl ⟨congrFun same.commandRevisions commandId, ?_⟩
    rw [shown_eq, shown_eq, command, command, same.commands]
  | bump | identify | generation | incarnation | fence => exact .inl ⟨rfl, rfl⟩

end Edits

def pageAfter (mailbox : Mailbox) (afterRevision : Nat) : List MailboxChange :=
  (mailbox.changesAfter afterRevision).take watchMaxChanges

theorem watch_cases (feed : Feed mailbox) (afterRevision : Nat) :
    (mailbox.watch afterRevision =
        { changes := [], nextRevision := mailbox.revision, resetRequired := true }) ∨
      (mailbox.changes = [] ∨ ∃ oldest ∈ mailbox.changes, oldest.revision ≤ afterRevision + 1) ∧
        mailbox.watch afterRevision =
          { changes := (mailbox.pageAfter afterRevision).filterMap fun change =>
              mailbox.status change.commandId
            nextRevision := pageEnd MailboxChange.revision mailbox.revision
              (mailbox.pageAfter afterRevision)
            resetRequired := false } := by
  rw [watch]
  split
  · exact .inl rfl
  rename_i near
  refine .inr ⟨?_, rfl⟩
  cases isOldest : (mailbox.changes.map (·.revision)).min? with
  | none =>
    rw [List.min?_eq_none_iff, map_eq_nil_iff] at isOldest
    exact .inl isOldest
  | some oldestRevision =>
    obtain ⟨oldest, member, rfl⟩ := mem_map.mp (List.min?_mem isOldest)
    rw [oldestChange, isOldest] at near
    have positive := feed.feed.positive oldest member
    refine .inr ⟨oldest, member, not_lt.mp fun trimmed => near ⟨positive, trimmed⟩⟩

theorem status_of_change (feed : Feed mailbox) {change : MailboxChange}
    {afterRevision : Nat} (listed : change ∈ mailbox.pageAfter afterRevision) :
    ∃ status, mailbox.status change.commandId = some status ∧
      status.commandId = change.commandId := by
  have member := (mem_latestAfter.mp (mem_of_mem_take listed)).1.1
  obtain ⟨lastRevision, isLast, _⟩ := feed.feed.newest change member
  have isRow := feed.stored change.commandId lastRevision isLast
  cases found : mailbox.command change.commandId with
  | none => exact absurd isRow (command_eq_none.mp found)
  | some row =>
    refine ⟨mailbox.statusOf row, by rw [status, found]; rfl, ?_⟩
    have sameId := List.find?_some found
    exact of_decide_eq_true sameId

end Mailbox

namespace WatchClient

theorem learnAll_known (client : WatchClient) (statuses : List CommandStatus)
    (commandId : CommandId) :
    (∃ status ∈ statuses, status.commandId = commandId ∧
        (client.learnAll statuses).known commandId = some status) ∨
      (∀ status ∈ statuses, status.commandId ≠ commandId) ∧
        (client.learnAll statuses).known commandId = client.known commandId := by
  induction statuses generalizing client with
  | nil => exact .inr ⟨forall_mem_nil _, rfl⟩
  | cons head rest ih =>
    rcases ih (client.learn head.commandId (some head)) with
      ⟨status, member, sameId, isKnown⟩ | ⟨absent, isKnown⟩
    · exact .inl ⟨status, mem_cons_of_mem _ member, sameId, isKnown⟩
    by_cases isHead : commandId = head.commandId
    · exact .inl ⟨head, mem_cons_self, isHead.symm, isKnown.trans (if_pos isHead)⟩
    refine .inr ⟨?_, isKnown.trans (if_neg isHead)⟩
    intro status member
    rcases mem_cons.mp member with rfl | later
    · exact fun same => isHead same.symm
    · exact absent status later

def seen (client : WatchClient) (commandId : CommandId) :
    Option (CloudCommandState × Bool × Option String) :=
  (client.known commandId).map (·.view)

/-- The client is behind the tables, and what it knows is right up to its revision. -/
structure Tracks (mailbox : Mailbox) (client : WatchClient) : Prop where
  distinct : mailbox.commandIds.Nodup
  feed : mailbox.Feed
  behind : client.afterRevision ≤ mailbox.revision
  follows : Follows mailbox.commandRevisions mailbox.shown client.seen
    (· ∈ client.unread) client.afterRevision
  pages : ∀ page ∈ client.pages, page.nextRevision ≤ client.afterRevision

variable {mailbox after : Mailbox} {client : WatchClient}

theorem tracks_start : Tracks Mailbox.empty start where
  distinct := nodup_nil
  feed := ⟨.empty, by rintro _ _ ⟨⟩⟩
  behind := le_refl _
  follows := fun _ _ _ => rfl
  pages := forall_mem_nil _

section

variable (tracks : Tracks mailbox client)
include tracks

theorem Tracks.edit [MailboxHost] {operation : MailboxOperation}
    (edit : Mailbox.Edit operation mailbox after) :
    Tracks after client where
  distinct := edit.distinct tracks.distinct
  feed := edit.feed tracks.feed
  behind := tracks.behind.trans edit.revision_le
  follows := tracks.follows.change tracks.behind (edit.recorded tracks.distinct)
  pages := tracks.pages

theorem Tracks.read (commandId : CommandId) :
    Tracks mailbox (client.read commandId (mailbox.status commandId)) where
  distinct := tracks.distinct
  feed := tracks.feed
  behind := tracks.behind
  follows := by
    apply tracks.follows.read commandId
    · exact congrArg (Option.map _) (if_pos rfl)
    · intro other different
      exact congrArg (Option.map _) (if_neg different)
    · intro other different unread
      exact mem_filter.mpr ⟨unread, decide_eq_true different⟩
  pages := tracks.pages

structure Advances (mailbox : Mailbox) (client : WatchClient) : Prop where
  tracks : Tracks mailbox (client.takePage (mailbox.watch client.afterRevision) mailbox.commandIds)
  monotone : client.afterRevision ≤ (mailbox.watch client.afterRevision).nextRevision
  strict : (mailbox.watch client.afterRevision).changes ≠ [] →
    client.afterRevision < (mailbox.watch client.afterRevision).nextRevision
  upToDate : (mailbox.watch client.afterRevision).changes = [] →
    (mailbox.watch client.afterRevision).nextRevision = mailbox.revision

theorem Tracks.page (allRead : client.unread = [])
    (untrimmed : mailbox.changes = [] ∨
      ∃ oldest ∈ mailbox.changes, oldest.revision ≤ client.afterRevision + 1) :
    Follows mailbox.commandRevisions mailbox.shown
      (client.learnAll ((mailbox.pageAfter client.afterRevision).filterMap fun change =>
        mailbox.status change.commandId)).seen (fun _ => False)
      (pageEnd MailboxChange.revision mailbox.revision
        (mailbox.pageAfter client.afterRevision)) := by
  have follows := tracks.follows
  simp only [allRead, not_mem_nil] at follows
  -- The statuses of a page are those of its changes.
  have origin {status : CommandStatus} (member : status ∈
      (mailbox.pageAfter client.afterRevision).filterMap fun change =>
        mailbox.status change.commandId) :
      ∃ change ∈ mailbox.pageAfter client.afterRevision,
        status.commandId = change.commandId ∧ mailbox.status change.commandId = some status := by
    obtain ⟨change, listed, isStatus⟩ := mem_filterMap.mp member
    obtain ⟨known, isKnown, sameId⟩ := mailbox.status_of_change tracks.feed listed
    rw [isStatus] at isKnown
    cases isKnown
    exact ⟨change, listed, sameId, isStatus⟩
  refine follows.page tracks.feed.feed untrimmed (by decide) ?_ ?_
  · intro change listed
    obtain ⟨status, isStatus, sameId⟩ := mailbox.status_of_change tracks.feed listed
    rcases client.learnAll_known _ change.commandId with
      ⟨learnt, member, learntId, isKnown⟩ | ⟨absent, _⟩
    · obtain ⟨source, _, sourceId, isSource⟩ := origin member
      rw [seen, isKnown, Mailbox.shown, ← learntId, sourceId, isSource]
    · exact absurd sameId (absent status (mem_filterMap.mpr ⟨change, listed, isStatus⟩))
  intro other absent
  rcases client.learnAll_known _ other with
    ⟨learnt, member, learntId, _⟩ | ⟨_, isKnown⟩
  · obtain ⟨source, listed, sourceId, _⟩ := origin member
    exact absurd (sourceId.symm.trans learntId) (absent source listed)
  · exact congrArg (Option.map _) isKnown

theorem Tracks.advances (allRead : client.unread = []) : Advances mailbox client := by
  have extended {nextRevision : Nat} (later : client.afterRevision ≤ nextRevision)
      {page : CommandChangePage} (isNext : page.nextRevision = nextRevision) :
      ∀ known ∈ client.pages ++ [page], known.nextRevision ≤ nextRevision := by
    intro known member
    rcases mem_concat.mp member with old | rfl
    · exact (tracks.pages known old).trans later
    · exact le_of_eq isNext
  rcases mailbox.watch_cases tracks.feed client.afterRevision with
    isReset | ⟨untrimmed, isPage⟩
  · refine ⟨?_, ?_, ?_, ?_⟩
    · rw [isReset]
      refine ⟨tracks.distinct, tracks.feed, le_refl _, ?_, extended tracks.behind rfl⟩
      apply Follows.reset
      intro commandId absent
      have noRevision (lastRevision : Nat) :
          mailbox.commandRevisions commandId = some lastRevision →
            lastRevision ≤ client.afterRevision := fun isLast =>
        absurd (tracks.feed.stored commandId lastRevision isLast) absent
      exact tracks.follows commandId (allRead ▸ not_mem_nil) noRevision
    · rw [isReset]
      exact tracks.behind
    · rw [isReset]
      exact absurd rfl
    · rw [isReset]
      exact fun _ => rfl
  · have pageFollows := tracks.page allRead untrimmed
    have listed : mailbox.pageAfter client.afterRevision ≠ [] →
        client.afterRevision < pageEnd revision mailbox.revision
          (mailbox.pageAfter client.afterRevision) :=
      lt_pageEnd
    have nothing (isEmpty : mailbox.pageAfter client.afterRevision = []) :
        pageEnd revision mailbox.revision
          (mailbox.pageAfter client.afterRevision) = mailbox.revision := by
      rw [isEmpty]
      rfl
    have later : client.afterRevision ≤ pageEnd revision mailbox.revision
        (mailbox.pageAfter client.afterRevision) := by
      by_cases isEmpty : mailbox.pageAfter client.afterRevision = []
      · rw [nothing isEmpty]
        exact tracks.behind
      · exact le_of_lt (listed isEmpty)
    have bounded : pageEnd revision mailbox.revision
        (mailbox.pageAfter client.afterRevision) ≤ mailbox.revision := by
      by_cases isEmpty : mailbox.pageAfter client.afterRevision = []
      · exact le_of_eq (nothing isEmpty)
      · obtain ⟨final, member, isEnd⟩ :=
          pageEnd_mem revision mailbox.revision isEmpty
        rw [isEnd]
        exact tracks.feed.feed.bounded final (mem_latestAfter.mp (mem_of_mem_take member)).1.1
    refine ⟨?_, ?_, ?_, ?_⟩
    · rw [isPage]
      refine ⟨tracks.distinct, tracks.feed, bounded, ?_, extended later rfl⟩
      intro commandId _ seen
      exact pageFollows commandId not_false seen
    · rw [isPage]
      exact later
    · rw [isPage]
      intro nonempty
      refine listed fun isEmpty => nonempty ?_
      rw [isEmpty]
      rfl
    · rw [isPage]
      intro noStatus
      apply nothing
      by_contra nonempty
      obtain ⟨change, member⟩ := exists_mem_of_ne_nil _ nonempty
      obtain ⟨status, isStatus, _⟩ := mailbox.status_of_change tracks.feed member
      have given : status ∈ (mailbox.pageAfter client.afterRevision).filterMap fun change =>
          mailbox.status change.commandId :=
        mem_filterMap.mpr ⟨change, member, isStatus⟩
      dsimp only at noStatus
      rw [noStatus] at given
      cases given

end

end WatchClient

namespace WatchedWorld

variable {watched after : WatchedWorld}

theorem tracks_of_reachable [MailboxHost] (reachable : watchSystem.Reachable watched) :
    watched.client.Tracks watched.world.mailbox := by
  induction reachable with
  | init => exact WatchClient.tracks_start
  | @step watched next label reached stepped tracks =>
    cases label with
    | mailbox label =>
      obtain ⟨world, moved, rfl⟩ := map_eq_some_iff.mp stepped
      obtain ⟨call, performs, isBefore, isAfter, _⟩ := MailboxWorld.step_call moved
      have edits := performs.edits (isBefore.symm ▸ tracks.distinct)
      rw [isBefore, isAfter] at edits
      exact edits.preserves (fun mailbox => watched.client.Tracks mailbox)
        (fun _ _ before edit => before.edit edit) tracks
    | poll =>
      simp only [watchSystem, step] at stepped
      split at stepped
      · rename_i allRead
        cases stepped
        exact (tracks.advances allRead).tracks
      · cases stepped
    | read commandId =>
      cases stepped
      exact tracks.read commandId

/-- The answer of a poll, and what the client knows after it. -/
structure MissesNothing (watched after : WatchedWorld) : Prop where
  answered : after.client.pages = watched.client.pages ++ [watched.page] ∧
    after.client.afterRevision = watched.page.nextRevision
  current : watched.page.changes = [] → watched.page.resetRequired = false →
    ∀ row ∈ after.world.mailbox.commands, ∃ status,
      after.client.known row.commandId = some status ∧ status.state = row.state ∧
        status.everLeased = row.everLeased ∧ status.blockedUntil = row.blockedUntil
  monotone : ∀ earlier ∈ watched.client.pages, earlier.nextRevision ≤ watched.page.nextRevision
  strict : watched.page.changes ≠ [] →
    watched.client.afterRevision < watched.page.nextRevision ∧
      ∀ earlier ∈ watched.client.pages, earlier.nextRevision < watched.page.nextRevision

theorem missesNothing_of_reachable [MailboxHost] (reachable : watchSystem.Reachable watched)
    (polled : watchSystem.step watched .poll = some after) :
    watched.MissesNothing after := by
  have tracks := tracks_of_reachable reachable
  simp only [watchSystem, step] at polled
  split at polled
  · rename_i allRead
    cases polled
    have advances := tracks.advances allRead
    refine ⟨⟨rfl, rfl⟩, ?_, ?_, ?_⟩
    · intro nothing noReset row member
      have atEnd := advances.upToDate nothing
      have isSeen := advances.tracks.follows row.commandId ?_ ?_
      · rw [(Mailbox.shown_eq_some tracks.distinct).mpr ⟨row, member, rfl, rfl⟩] at isSeen
        obtain ⟨status, isKnown, isView⟩ := map_eq_some_iff.mp isSeen
        simp only [CommandStatus.view, MailboxCommand.view, Prod.mk.injEq] at isView
        exact ⟨status, isKnown, isView⟩
      · rw [page] at noReset
        simp [WatchClient.takePage, noReset]
      · intro lastRevision isLast
        change lastRevision ≤ watched.page.nextRevision
        rw [page, atEnd]
        exact tracks.feed.feed.reached row.commandId lastRevision isLast
    · intro earlier member
      exact (tracks.pages earlier member).trans advances.monotone
    · intro nonempty
      have later := advances.strict nonempty
      exact ⟨later, fun earlier member => lt_of_le_of_lt (tracks.pages earlier member) later⟩
  · cases polled

def watchedCommand : List WatchStep :=
  let request (instant : Millis) (request : MailboxRequest) : WatchStep :=
    .mailbox (.request (.at instant) request)
  [.poll, request 1 (.reserve (plainEnvelope "first" 0)), .poll,
    request 2 (.commit "first" none (some plainDelivery)), .read "first", .poll,
    .mailbox (.alarm (.at 3)), .mailbox (.wakeSettled (.at 4) ⟨1, 2⟩ true)]

theorem missesNothing_of_watchedCommand :
    ∃ watched after, (@watchSystem plainHost).run watchedCommand = some watched ∧
      (@watchSystem plainHost).step watched .poll = some after ∧
      watched.page.changes = [] ∧ watched.page.resetRequired = false ∧
      watched.client.pages.map (·.nextRevision) = [0, 1, 2] ∧
      watched.page.nextRevision = 3 ∧ watched.MissesNothing after := by
  have ran : ((@watchSystem plainHost).run watchedCommand).map (fun watched =>
      Decidable.decide (watched.page = ⟨[], 3, false⟩) &&
        Decidable.decide (watched.client.pages.map (·.nextRevision) = [0, 1, 2]) &&
          Decidable.decide (watched.client.unread = [])) = some true := by
    decide +kernel
  obtain ⟨watched, reached, observed⟩ := map_eq_some_iff.mp ran
  obtain ⟨observed, unread⟩ := Bool.and_eq_true_iff.mp observed
  obtain ⟨page, revisions⟩ := Bool.and_eq_true_iff.mp observed
  have isPage := of_decide_eq_true page
  have polled : (@watchSystem plainHost).step watched .poll = some { watched with
      client := watched.client.takePage watched.page watched.world.mailbox.commandIds } :=
    if_pos (of_decide_eq_true unread)
  exact ⟨watched, _, reached, polled, by rw [isPage], by rw [isPage],
    of_decide_eq_true revisions, by rw [isPage],
    @missesNothing_of_reachable _ _ plainHost (TransitionSystem.run_reachable reached) polled⟩

end WatchedWorld

end Zuse.Cloud
