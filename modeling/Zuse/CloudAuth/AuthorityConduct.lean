import Zuse.CloudAuth.AuthoritySystem

namespace Zuse.CloudAuth

open AuthorityRow AuthorityWorld

open Data (Script Service Operations Conduct Regime)

/-- What a row may become: its epoch never falls, whatever changes it raises its revision,
and a ready record stays where it is until its epoch grows. -/
structure Follows (before after : CloudAuthAuthorityRecord) : Prop where
  epoch : before.authEpoch ≤ after.authEpoch
  revision : after = before ∨ before.revision < after.revision
  place : before.state = .ready →
    (after.state = .ready ∧ after.providerSandboxId = before.providerSandboxId ∧
      after.storageIncarnationId = before.storageIncarnationId) ∨
    before.authEpoch < after.authEpoch

def RowFollows (before after : AuthorityRow) : Prop :=
  ∀ record, before = some record → ∃ later, after = some later ∧ Follows record later

theorem Follows.refl (record : CloudAuthAuthorityRecord) : Follows record record where
  epoch := Nat.le_refl _
  revision := .inl rfl
  place := fun ready => .inl ⟨ready, rfl, rfl⟩

theorem Follows.trans {first second third : CloudAuthAuthorityRecord}
    (before : Follows first second) (after : Follows second third) :
    Follows first third where
  epoch := Nat.le_trans before.epoch after.epoch
  revision := by
    rcases after.revision with rfl | above
    · exact before.revision
    · rcases before.revision with rfl | below
      · exact .inr above
      · exact .inr (Nat.lt_trans below above)
  place := by
    intro ready
    rcases before.place ready with ⟨still, sandbox, storage⟩ | above
    · rcases after.place still with ⟨last, sameSandbox, sameStorage⟩ | above
      · exact .inl ⟨last, sameSandbox.trans sandbox, sameStorage.trans storage⟩
      · exact .inr (Nat.lt_of_le_of_lt before.epoch above)
    · exact .inr (Nat.lt_of_lt_of_le above after.epoch)

theorem RowFollows.refl (row : AuthorityRow) : RowFollows row row :=
  fun record found => ⟨record, found, .refl record⟩

theorem RowFollows.trans {first second third : AuthorityRow}
    (before : RowFollows first second) (after : RowFollows second third) :
    RowFollows first third := by
  intro record found
  obtain ⟨middle, second, follows⟩ := before record found
  obtain ⟨last, third, further⟩ := after middle second
  exact ⟨last, third, follows.trans further⟩

structure RecordSound (world : AuthorityWorld) (record : CloudAuthAuthorityRecord) :
    Prop where
  ready : record.state = .ready →
    record.providerSandboxId.isSome ∧ record.provisioningLeaseOwner = none
  placed : record.state ≠ .ready → record.providerSandboxId = none
  leased : ∀ owner, record.provisioningLeaseOwner = some owner → world.latestClaim = some owner
  status : record.status.isSome → ∃ place, world.statusSource = some place ∧
    record.providerSandboxId = some place.sandboxId ∧
    record.storageIncarnationId = place.storageIncarnationId

def AuthoritySound (world : AuthorityWorld) : Prop :=
  ∀ record, world.row = some record → RecordSound world record

theorem AuthoritySound.of_row {world other : AuthorityWorld} (sound : AuthoritySound world)
    (row : other.row = world.row) (claim : other.latestClaim = world.latestClaim)
    (source : other.statusSource = world.statusSource) : AuthoritySound other := by
  intro record found
  have holds := sound record (row.symm.trans found)
  exact
    { ready := holds.ready
      placed := holds.placed
      leased := fun owner has => claim.trans (holds.leased owner has)
      status := fun has => source.symm ▸ holds.status has }

def authorityRegime (store : AuthorityStore) :
    Regime AuthorityWorld AuthCall Answer AuthorityOperation where
  sound := AuthoritySound
  change := fun before after => RowFollows before.row after.row
  admits := fun _ => AuthorityAdmits store

section Operations

variable {store : AuthorityStore} {world : AuthorityWorld}

structure Claimed (row : AuthorityRow) (input : ClaimInput)
    (record : CloudAuthAuthorityRecord) : Prop where
  state : record.state = .provisioning
  status : record.status = none
  owner : record.provisioningLeaseOwner = some input.leaseOwner
  follows : ∀ existing, row = some existing → existing.revision < record.revision ∧
    existing.authEpoch ≤ record.authEpoch ∧
      (existing.state = .ready → existing.authEpoch < record.authEpoch)
  place : (∀ existing, row = some existing → existing.state ≠ .ready →
    existing.providerSandboxId = none) → record.providerSandboxId = none

theorem claimed_first (input : ClaimInput) : Claimed none input input.firstRecord where
  state := rfl
  status := rfl
  owner := rfl
  follows := fun _ found => by cases found
  place := fun _ => rfl

theorem claimedPg_claimed {existing : CloudAuthAuthorityRecord} {input : ClaimInput}
    (allowed : input.replaceReady = true ∨ existing.state ≠ .ready) :
    Claimed (some existing) input (claimedPg existing input) where
  state := rfl
  status := rfl
  owner := rfl
  follows := by
    intro other found
    cases found
    refine ⟨Nat.lt_succ_self _, ?_, ?_⟩
    · unfold claimedPg
      split
      · exact Nat.le_succ _
      · exact Nat.le_refl _
    · intro ready
      rcases allowed with replaces | unready
      · simp [claimedPg, replaces]
      · exact absurd ready unready
  place := by
    intro placed
    unfold claimedPg
    split
    · rfl
    · rename_i keeps
      rcases allowed with replaces | unready
      · exact absurd replaces keeps
      · exact placed existing rfl unready

theorem claim_cases (store : AuthorityStore) (row : AuthorityRow) (input : ClaimInput) :
    ((claimCloudAuthAuthority store row input).2 = row ∧
      (claimCloudAuthAuthority store row input).1.acquired = false) ∨
    ∃ record, (claimCloudAuthAuthority store row input).2 = some record ∧
      (claimCloudAuthAuthority store row input).1.acquired = true ∧
        Claimed row input record := by
  cases store with
  | memory =>
    unfold claimCloudAuthAuthority claimInMemory
    cases row with
    | none => exact .inr ⟨_, rfl, rfl, claimed_first input⟩
    | some existing =>
      dsimp only
      split
      · exact .inl ⟨rfl, rfl⟩
      rename_i allowed
      refine .inr ⟨_, rfl, rfl, ?_⟩
      exact
        { state := rfl
          status := rfl
          owner := rfl
          follows := by
            intro other found
            cases found
            refine ⟨Nat.lt_succ_self _, ?_, ?_⟩
            · split
              · exact Nat.le_succ _
              · exact Nat.le_refl _
            intro ready
            have replaces : input.replaceReady = true := by
              by_contra keeps
              exact allowed (.inl ⟨ready, Bool.eq_false_iff.mpr keeps⟩)
            simp [ready, replaces]
          place := fun _ => rfl }
  | postgres =>
    unfold claimCloudAuthAuthority claimPg
    cases row with
    | none => exact .inr ⟨_, rfl, by simp [ClaimInput.firstRecord], claimed_first input⟩
    | some existing =>
      dsimp only
      split
      · rename_i allowed
        exact .inr ⟨_, rfl, by simp [claimedPg], claimedPg_claimed allowed.1⟩
      rename_i refused
      refine .inl ⟨rfl, ?_⟩
      rw [Bool.and_eq_false_iff, decide_eq_false_iff_not, decide_eq_false_iff_not]
      by_cases provisioning : existing.state = .provisioning
      · right
        intro owner
        refine refused ⟨.inr (by simp [provisioning]), ?_⟩
        simp [CloudAuthAuthorityRecord.leasedToAnother, owner]
      · exact .inl provisioning

variable (sound : AuthoritySound world)
include sound

theorem AuthoritySound.placed :
    ∀ existing, world.row = some existing → existing.state ≠ .ready →
      existing.providerSandboxId = none :=
  fun existing found => (sound existing found).placed

theorem claim_keeps (input : ClaimInput) :
    RowFollows world.row (world.claim store input).2.row ∧
      AuthoritySound (world.claim store input).2 := by
  rcases claim_cases store world.row input with ⟨same, refused⟩ |
    ⟨record, becomes, acquired, claimed⟩
  · unfold claim
    simp only [same, refused, Bool.false_eq_true, if_false]
    exact ⟨.refl _, sound.of_row rfl rfl rfl⟩
  unfold claim
  simp only [becomes, acquired, if_true]
  constructor
  · intro existing found
    obtain ⟨above, epoch, beyond⟩ := claimed.follows existing found
    exact ⟨record, rfl, epoch, .inr above, fun ready => .inr (beyond ready)⟩
  intro other found
  cases found
  exact
    { ready := fun ready => by
        rw [claimed.state] at ready
        cases ready
      placed := fun _ => claimed.place sound.placed
      leased := fun owner has => claimed.owner.symm.trans has
      status := fun has => by
        rw [claimed.status] at has
        cases has }

theorem complete_keeps {input : CompletionInput} (timely : Timely store world.row input) :
    RowFollows world.row (world.complete store input).2.row ∧
      AuthoritySound (world.complete store input).2 := by
  cases found : world.row with
  | none =>
    refine ⟨fun _ absent => (by cases absent), ?_⟩
    intro record present
    simp [complete, completeCloudAuthAuthorityProvisioning, found] at present
  | some existing =>
    have holds := sound existing found
    have place := timely existing found
    simp only [complete, completeCloudAuthAuthorityProvisioning, found]
    split
    · rename_i taken
      have same : existing.state = .ready →
          existing.providerSandboxId = some input.providerSandboxId ∧
            existing.storageIncarnationId = input.storageIncarnationId := by
        intro ready
        obtain ⟨memory, storage⟩ := place ready
        have sandbox : existing.providerSandboxId = some input.providerSandboxId := by
          cases store with
          | memory => exact memory rfl
          | postgres =>
            simp only [accepts, (holds.ready ready).2, Bool.or_eq_true,
              Bool.and_eq_true, decide_eq_true_eq] at taken
            rcases taken with owned | ⟨_, sandbox⟩
            · cases owned
            · exact sandbox
        exact ⟨sandbox, storage sandbox⟩
      constructor
      · intro other isOther
        cases isOther
        refine ⟨_, rfl, Nat.le_refl _, .inr (Nat.lt_succ_self _), ?_⟩
        intro ready
        obtain ⟨sandbox, storage⟩ := same ready
        exact .inl ⟨rfl, sandbox.symm, storage.symm⟩
      · intro other isOther
        cases isOther
        exact
          { ready := fun _ => ⟨rfl, rfl⟩
            placed := fun unready => absurd rfl unready
            leased := fun _ owned => by cases owned
            status := by
              intro saved
              obtain ⟨source, read, sandbox, storage⟩ := holds.status saved
              have ready : existing.state = .ready := by
                by_contra unready
                rw [holds.placed unready] at sandbox
                cases sandbox
              obtain ⟨sameSandbox, sameStorage⟩ := same ready
              exact ⟨source, read, sameSandbox.symm.trans sandbox, sameStorage.symm.trans storage⟩ }
    · exact ⟨.refl _, sound.of_row found.symm rfl rfl⟩

theorem advance_keeps (providerSandboxId : String) (nowMs : Int) :
    RowFollows world.row (world.advanceEpoch providerSandboxId nowMs).2.row ∧
      AuthoritySound (world.advanceEpoch providerSandboxId nowMs).2 := by
  cases found : world.row with
  | none =>
    refine ⟨fun _ absent => (by cases absent), ?_⟩
    intro record present
    simp [advanceEpoch, advanceCloudAuthEpoch, found] at present
  | some existing =>
    have holds := sound existing found
    simp only [advanceEpoch, advanceCloudAuthEpoch, found]
    split
    · constructor
      · intro other isOther
        cases isOther
        exact ⟨_, rfl, Nat.le_succ _, .inr (Nat.lt_succ_self _), fun _ => .inr (Nat.lt_succ_self _)⟩
      · intro other isOther
        cases isOther
        exact
          { ready := holds.ready
            placed := holds.placed
            leased := holds.leased
            status := holds.status }
    · exact ⟨.refl _, sound.of_row found.symm rfl rfl⟩

theorem saveStatus_keeps {observed : CloudAuthAuthorityRecord} {readFrom : AuthorityPlace}
    (status : CloudAuthStatus) (since : RowFollows (some observed) world.row)
    (sandbox : observed.providerSandboxId = some readFrom.sandboxId)
    (storage : observed.storageIncarnationId = readFrom.storageIncarnationId) :
    RowFollows world.row (world.saveStatus observed.revision status readFrom).row ∧
      AuthoritySound (world.saveStatus observed.revision status readFrom) := by
  obtain ⟨existing, found, follows⟩ := since observed rfl
  have holds := sound existing found
  by_cases same : existing.revision = observed.revision
  · have unchanged : existing = observed := by
      rcases follows.revision with same | above
      · exact same
      · omega
    simp only [saveStatus, saveCloudAuthStatus, found,
      Option.map_some, same, if_true, Option.any_some, decide_true]
    constructor
    · intro other isOther
      cases isOther
      exact ⟨_, rfl, Nat.le_refl _, .inr (by simp [same]), fun ready => .inl ⟨ready, rfl, rfl⟩⟩
    · intro other isOther
      cases isOther
      exact
        { ready := holds.ready
          placed := holds.placed
          leased := holds.leased
          status := fun _ => ⟨readFrom, rfl, unchanged ▸ sandbox, unchanged ▸ storage⟩ }
  · simp only [saveStatus, saveCloudAuthStatus, found,
      Option.map_some, same, if_false, Option.any_some, decide_false, Bool.false_eq_true]
    exact ⟨.refl _, sound.of_row found.symm rfl rfl⟩

end Operations

end Zuse.CloudAuth
