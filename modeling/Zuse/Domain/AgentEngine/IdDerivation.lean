import Zuse.Data.Naming
import Zuse.Domain.AgentEngine.Jobs

namespace Zuse.Domain

open Zuse.Data List

theorem scopeProviderThreadId_eq (sessionId threadId : String) :
    ∃ rest, (scopeProviderThreadId sessionId threadId).toList =
      (encodeURIComponent "provider-thread").toList ++ ':' ::
        ((encodeURIComponent "session").toList ++ ':' ::
          ((encodeURIComponent sessionId).toList ++ ':' :: rest)) := by
  have scope : (joinId ["provider-thread", "session", sessionId] ++ ":").toList =
      (encodeURIComponent "provider-thread").toList ++ ':' ::
        ((encodeURIComponent "session").toList ++ ':' ::
          ((encodeURIComponent sessionId).toList ++ [':'])) := by
    rw [String.toList_append, toList_joinId_cons, toList_joinId_cons, joinId_singleton]
    simp
  have split (rest : List Char) :
      (joinId ["provider-thread", "session", sessionId] ++ ":").toList ++ rest =
      (encodeURIComponent "provider-thread").toList ++ ':' ::
        ((encodeURIComponent "session").toList ++ ':' ::
          ((encodeURIComponent sessionId).toList ++ ':' :: rest)) := by
    rw [scope]
    simp
  rw [scopeProviderThreadId]
  split
  · rename_i isScoped
    obtain ⟨rest, same⟩ := isPrefixOf_iff_prefix.mp isScoped
    exact ⟨rest, same ▸ split rest⟩
  · refine ⟨(encodeURIComponent threadId).toList, ?_⟩
    rw [String.toList_append]
    exact split _

theorem scopeProviderThreadId_session {leftSession rightSession left right : String}
    (equal : scopeProviderThreadId leftSession left =
      scopeProviderThreadId rightSession right) : leftSession = rightSession := by
  obtain ⟨leftRest, isLeft⟩ := scopeProviderThreadId_eq leftSession left
  obtain ⟨rightRest, isRight⟩ := scopeProviderThreadId_eq rightSession right
  have lists := isLeft.symm.trans ((congrArg String.toList equal).trans isRight)
  have inKind := (cons.inj (append_cancel_left lists)).2
  have inSession := (cons.inj (append_cancel_left inKind)).2
  have session := (split_at_separator (colon_not_mem_encodeURIComponent leftSession)
    (colon_not_mem_encodeURIComponent rightSession) inSession).1
  exact encodeURIComponent_injective (String.toList_injective session)

theorem nativeThread_unscoped (sessionId provider nativeThreadId : String) :
    ¬ (joinId ["provider-thread", "session", sessionId] ++ ":").toList.isPrefixOf
      (joinId ["provider-thread", "provider", provider, "native-thread",
        nativeThreadId]).toList = true := by
  intro isScoped
  obtain ⟨rest, same⟩ := isPrefixOf_iff_prefix.mp isScoped
  rw [String.toList_append, toList_joinId_cons, toList_joinId_cons, toList_joinId_cons,
    toList_joinId_cons] at same
  simp only [append_assoc, cons_append] at same
  have inKind := (cons.inj (append_cancel_left same)).2
  have kind := (split_at_separator (colon_not_mem_encodeURIComponent "session")
    (colon_not_mem_encodeURIComponent "provider") inKind).1
  have names := encodeURIComponent_injective (String.toList_injective kind)
  exact absurd names (by decide)

theorem providerThreadIdFor_injective {leftSession rightSession leftProvider rightProvider
    left right : String}
    (equal : providerThreadIdFor leftSession leftProvider left =
      providerThreadIdFor rightSession rightProvider right) :
    leftSession = rightSession ∧ leftProvider = rightProvider ∧ left = right := by
  rw [providerThreadIdFor, providerThreadIdFor] at equal
  obtain rfl := scopeProviderThreadId_session equal
  rw [scopeProviderThreadId, scopeProviderThreadId] at equal
  rw [if_neg (nativeThread_unscoped leftSession leftProvider left),
    if_neg (nativeThread_unscoped leftSession rightProvider right)] at equal
  have handles := encodeURIComponent_injective (append_left_injective equal)
  have parts := joinId_injective_of_ne_nil (cons_ne_nil _ _) (cons_ne_nil _ _) handles
  simp only [cons.injEq, true_and, and_true] at parts
  exact ⟨rfl, parts⟩

/-- No two entities of one kind have the same derived id. -/
theorem derivedIds_injective :
    (∀ left right : List String, left ≠ [] → right ≠ [] → joinId left = joinId right →
      left = right) ∧
    (∀ sessionId threadId,
      scopeProviderThreadId sessionId (scopeProviderThreadId sessionId threadId) =
        scopeProviderThreadId sessionId threadId) ∧
    (∀ leftSession rightSession left right,
      scopeProviderThreadId leftSession left = scopeProviderThreadId rightSession right →
        leftSession = rightSession) ∧
    (∀ leftSession rightSession leftProvider rightProvider left right,
      providerThreadIdFor leftSession leftProvider left =
          providerThreadIdFor rightSession rightProvider right →
        leftSession = rightSession ∧ leftProvider = rightProvider ∧ left = right) ∧
    (∀ leftTurn rightTurn left right,
      attemptIdFor leftTurn left = attemptIdFor rightTurn right →
        leftTurn = rightTurn ∧ left = right) ∧
    ∀ leftEvent rightEvent left right,
      jobIdForEvent leftEvent left = jobIdForEvent rightEvent right →
        leftEvent = rightEvent ∧ left = right :=
  ⟨fun _ _ leftParts rightParts equal =>
      joinId_injective_of_ne_nil leftParts rightParts equal,
    scopeProviderThreadId_scoped,
    fun _ _ _ _ equal => scopeProviderThreadId_session equal,
    fun _ _ _ _ _ _ equal => providerThreadIdFor_injective equal,
    fun _ _ _ _ equal => attemptIdFor_injective equal,
    fun _ _ _ _ equal => jobIdForEvent_injective equal⟩

end Zuse.Domain
