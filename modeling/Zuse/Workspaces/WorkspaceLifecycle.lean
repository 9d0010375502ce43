import Zuse.Workspaces.WorkspaceRecord

namespace Zuse.Workspaces

/-! Lifecycle requests of a workspace, and the fence that its mailbox is told. -/

def destructionFenceFromUnknown (value : Option Nat) : Option Nat :=
  value.filter fun fence => (fence : Int) ≤ maxSafeInteger

namespace CloudWorkspaceRecord

variable (workspace : CloudWorkspaceRecord)

def pendingMailboxLifecycle : Option CloudMailboxLifecycleFence :=
  workspace.requestConfig.cloudMailboxLifecyclePending.filter fun lifecycle =>
    (destructionFenceFromUnknown (some lifecycle.destructionFence)).isSome

def deliveredMailboxLifecycle : Option CloudMailboxLifecycleFence :=
  workspace.requestConfig.cloudMailboxLifecycleDelivered.filter fun lifecycle =>
    (destructionFenceFromUnknown (some lifecycle.destructionFence)).isSome

/-- Delete metadata is irreversible even if a stale writer regressed row state. -/
def workspaceDeletionRequested : Bool :=
  workspace.state = .deleted || workspace.state = .deleting || workspace.desiredState = .deleted ||
    workspace.pendingMailboxLifecycle.any (·.action = .delete) ||
    workspace.deliveredMailboxLifecycle.any (·.action = .delete)

def destructiveMailboxLifecycle : Option CloudMailboxLifecycleAction :=
  if workspace.workspaceDeletionRequested then some .delete
  else if workspace.state = .archived ∨ workspace.state = .archiving ∨
      workspace.desiredState = .archived then
    some .archive
  else none

end CloudWorkspaceRecord

end Zuse.Workspaces
