import Zuse.CloudAuth.AuthorityConduct

namespace Zuse.CloudAuth

open Data (Script Rights)

def AuthCall.Plain : AuthCall → Prop
  | .completeCloudAuthAuthorityProvisioning _ => False
  | .handOut _ => False
  | .saveCloudAuthStatus .. => False
  | _ => True

def AuthCall.Unsaving : AuthCall → Prop
  | .saveCloudAuthStatus .. => False
  | _ => True

variable {request : AuthCall}

theorem AuthCall.Plain.unsaving (plain : request.Plain) : request.Unsaving := by
  cases request <;> trivial

/-- What the owner of a claim may do once: complete it, and hand out what it completed. -/
inductive AuthorityRight where
  | complete (leaseOwner : String)
  | handOut (leaseOwner : String)
  deriving DecidableEq

def authorityRights : Rights AuthCall AuthCall.Reply AuthorityRight where
  needs
    | .completeCloudAuthAuthorityProvisioning input => some (.complete input.leaseOwner)
    | .handOut leaseOwner => some (.handOut leaseOwner)
    | _ => none
  grants
    | .randomUUID, text => some (.complete text)
    | .completeCloudAuthAuthorityProvisioning input, some _ => some (.handOut input.leaseOwner)
    | _, _ => none

theorem AuthCall.Plain.needless (plain : request.Plain) : authorityRights.needs request = none := by
  cases request
  case completeCloudAuthAuthorityProvisioning => exact plain.elim
  case handOut => exact plain.elim
  all_goals rfl

namespace AuthTask

variable {α β : Type}

def onValue {γ : Type} (post : α → γ → Prop) : Except String α → γ → Prop
  | .ok value, state => post value state
  | .error _, _ => True

section Makes

variable {allowed : AuthCall → Prop}

def Makes (allowed : AuthCall → Prop) (task : AuthTask α) : Prop :=
  Script.Makes allowed task.run

theorem makes_pure (value : α) : (pure value : AuthTask α).Makes allowed := trivial

theorem makes_throw (code : String) : (throw code : AuthTask α).Makes allowed := trivial

theorem makes_ask (allows : allowed request) :
    (ask request).Makes allowed := ⟨allows, fun _ => trivial⟩

variable {task : AuthTask α}

theorem Makes.bind {next : α → AuthTask β}
    (first : task.Makes allowed) (after : ∀ value, (next value).Makes allowed) :
    (task >>= next).Makes allowed := by
  refine Script.Makes.bind first ?_
  intro result
  cases result with
  | ok value => exact after value
  | error code => trivial

theorem makes_tryCatch {handler : String → AuthTask α}
    (first : task.Makes allowed) (after : ∀ code, (handler code).Makes allowed) :
    (tryCatch task handler).Makes allowed := by
  refine Script.Makes.bind first ?_
  intro result
  cases result with
  | ok value => trivial
  | error code => exact after code

theorem Makes.unsaving (makes : task.Makes AuthCall.Plain) : task.Makes AuthCall.Unsaving :=
  Script.Makes.mono (fun _ plain => plain.unsaving) makes

theorem makes_provided (code : String) (result : ProviderResult α) :
    (provided code result).Makes allowed := by
  cases result with
  | none | some value => trivial

theorem makes_succeeded (code : String) (success : Bool) :
    (succeeded code success).Makes allowed := by
  cases success with
  | false | true => trivial

theorem makes_call {next : request.Reply → AuthTask β}
    (allows : allowed request) (after : ∀ reply, (next reply).Makes allowed) :
    (ask request >>= next).Makes allowed :=
  .bind (makes_ask allows) after

theorem makes_retried {attempt : AuthTask Bool} (code : String)
    (makes : attempt.Makes AuthCall.Plain) (retries : Nat) :
    (retried code attempt retries).Makes AuthCall.Plain := by
  induction retries with
  | zero => exact .bind makes (makes_succeeded code)
  | succ retries ih =>
    refine .bind makes fun success => ?_
    cases success with
    | true => exact makes_pure ()
    | false => exact makes_call trivial fun _ => ih

end Makes

section Rules

variable {store : AuthorityStore} {operation : AuthorityOperation} {task : AuthTask α}
  {next : α → AuthTask β} {world : AuthorityWorld} {held : List AuthorityRight}

def Keeps (store : AuthorityStore) (operation : AuthorityOperation) (task : AuthTask α)
    (post : α → AuthorityWorld → Prop) (world : AuthorityWorld) : Prop :=
  Script.Keeps (authorityService store) ((authorityRegime store).conduct operation)
    task.run (onValue post) world

variable {post : β → AuthorityWorld → Prop}

theorem Keeps.bind
    (keeps : task.Keeps store operation
      (fun value world => (next value).Keeps store operation post world) world) :
    (task >>= next).Keeps store operation post world := by
  refine Script.Keeps.bind (Script.Keeps.mono ?_ keeps)
  intro result world holds
  cases result with
  | ok value => exact holds
  | error code => trivial

theorem unsaving_keeps (unsaving : request.Unsaving)
    (world : AuthorityWorld) (answer : Answer) (sound : AuthoritySound world)
    (admits : AuthorityAdmits store world request answer) :
    RowFollows world.row (authorityService store request answer world).2.row ∧
      AuthoritySound (authorityService store request answer world).2 := by
  cases request with
  | claimCloudAuthAuthority input => exact claim_keeps sound input
  | completeCloudAuthAuthorityProvisioning input => exact complete_keeps sound admits
  | advanceCloudAuthEpoch providerSandboxId nowMs =>
    exact advance_keeps sound providerSandboxId nowMs
  | saveCloudAuthStatus => exact unsaving.elim
  | randomUUID | handOut leaseOwner => exact ⟨.refl _, sound.of_row rfl rfl rfl⟩
  | _ => exact ⟨.refl _, sound⟩

theorem Makes.keeps (makes : task.Makes AuthCall.Unsaving) (world : AuthorityWorld) :
    task.Keeps store operation (fun _ later => RowFollows world.row later.row) world := by
  refine Script.Keeps.mono ?_ (Script.Makes.keeps (fun world => RowFollows.refl world.row)
    (fun before after => RowFollows.trans before after)
    (fun request unsaving world answer sound admits =>
      unsaving_keeps unsaving world answer sound admits) makes world)
  intro result later follows
  cases result with
  | ok value => exact follows
  | error code => trivial

theorem Makes.keepsThen (makes : task.Makes AuthCall.Unsaving)
    (after : ∀ value later, RowFollows world.row later.row →
      (next value).Keeps store operation post later) :
    (task >>= next).Keeps store operation post world :=
  .bind (Script.Keeps.mono (fun result later holds => by
    cases result with
    | ok value => exact after value later holds
    | error code => trivial) (makes.keeps world))

def Spends (task : AuthTask α) (post : α → List AuthorityRight → Prop)
    (held : List AuthorityRight) : Prop :=
  Script.Spends authorityRights task.run (onValue post) held

variable {post : β → List AuthorityRight → Prop}

theorem Spends.bind (spends : task.Spends (fun value held => (next value).Spends post held) held) :
    (task >>= next).Spends post held := by
  refine Script.Spends.bind (Script.Spends.mono ?_ spends)
  intro result held holds
  cases result with
  | ok value => exact holds
  | error code => trivial

theorem Makes.spendsThen (makes : task.Makes AuthCall.Plain)
    (after : ∀ value later, held ⊆ later → (next value).Spends post later) :
    (task >>= next).Spends post held :=
  .bind (Script.Spends.mono (fun result later holds => by
    cases result with
    | ok value => exact after value later holds
    | error code => trivial)
    (Script.Makes.spends (fun _ plain => plain.needless) makes held))

theorem spends_plain {next : request.Reply → AuthTask β} (plain : request.Plain)
    (after : ∀ reply later, held ⊆ later → (next reply).Spends post later) :
    (ask request >>= next).Spends post held :=
  Makes.spendsThen (makes_ask plain) after

theorem spends_randomUUID {next : String → AuthTask β}
    (after : ∀ text later, held ⊆ later → .complete text ∈ later → (next text).Spends post later) :
    (ask .randomUUID >>= next).Spends post held := by
  refine ⟨fun _ needed => (by cases needed), fun text => after text _ ?_ ?_⟩
  · intro right member
    exact authorityRights.mem_after.mpr (.inr ⟨member, fun needed => by cases needed⟩)
  · exact authorityRights.mem_after.mpr (.inl rfl)

theorem spends_complete {input : CompletionInput}
    {next : Option CloudAuthAuthorityRecord → AuthTask β}
    (owns : .complete input.leaseOwner ∈ held) (refused : ∀ later, (next none).Spends post later)
    (taken : ∀ record later, .handOut input.leaseOwner ∈ later →
      (next (some record)).Spends post later) :
    (ask (.completeCloudAuthAuthorityProvisioning input) >>= next).Spends post held := by
  constructor
  · intro right needed
    cases needed
    exact owns
  · intro record
    cases record with
    | none => exact refused _
    | some record => exact taken record _ (authorityRights.mem_after.mpr (.inl rfl))

theorem spends_handOut {leaseOwner : String} {next : Unit → AuthTask β}
    (may : .handOut leaseOwner ∈ held) (after : ∀ later, (next ()).Spends post later) :
    (ask (.handOut leaseOwner) >>= next).Spends post held := by
  constructor
  · intro right needed
    cases needed
    exact may
  · intro reply
    exact after _

end Rules

end AuthTask

end Zuse.CloudAuth
