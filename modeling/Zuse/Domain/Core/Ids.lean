import Zuse.Data.PercentEncoding

namespace Zuse.Domain

open Zuse.Data

/-! Ids are irreducible: proofs rest on injectivity, never on their text. -/

/-- Scope a provider handle to its owning session, unless it already is. -/
@[irreducible] def scopeProviderThreadId (sessionId threadId : String) : String :=
  let scope := joinId ["provider-thread", "session", sessionId] ++ ":"
  if scope.toList.isPrefixOf threadId.toList then threadId
  else scope ++ encodeURIComponent threadId

@[irreducible] def providerThreadIdFor (sessionId provider nativeThreadId : String) : String :=
  scopeProviderThreadId sessionId
    (joinId ["provider-thread", "provider", provider, "native-thread", nativeThreadId])

@[irreducible] def attemptIdFor (turnId : String) (ordinal : Nat) : String :=
  joinId ["attempt", "turn", turnId, "ordinal", toString ordinal]

variable {leftTurn rightTurn : String}

theorem attemptIdFor_injective {left right : Nat}
    (equal : attemptIdFor leftTurn left = attemptIdFor rightTurn right) :
    leftTurn = rightTurn ∧ left = right := by
  rw [attemptIdFor, attemptIdFor] at equal
  have parts := joinId_injective (by rfl) equal
  simp only [List.cons.injEq, true_and, and_true] at parts
  exact ⟨parts.1, repr_injective parts.2⟩

@[simp] theorem attemptIdFor_inj {left right : Nat} :
    attemptIdFor leftTurn left = attemptIdFor rightTurn right ↔
      leftTurn = rightTurn ∧ left = right :=
  ⟨attemptIdFor_injective, fun both => by rw [both.1, both.2]⟩

@[simp] theorem scopeProviderThreadId_scoped (sessionId threadId : String) :
    scopeProviderThreadId sessionId (scopeProviderThreadId sessionId threadId) =
      scopeProviderThreadId sessionId threadId := by
  have isScoped : (joinId ["provider-thread", "session", sessionId] ++ ":").toList.isPrefixOf
      (scopeProviderThreadId sessionId threadId).toList = true := by
    unfold scopeProviderThreadId
    simp only
    split
    · assumption
    · simp [List.isPrefixOf_iff_prefix]
  rw [scopeProviderThreadId, if_pos isScoped]

@[simp] theorem scopeProviderThreadId_for (sessionId provider nativeThreadId : String) :
    scopeProviderThreadId sessionId (providerThreadIdFor sessionId provider nativeThreadId) =
      providerThreadIdFor sessionId provider nativeThreadId := by
  rw [providerThreadIdFor]
  exact scopeProviderThreadId_scoped sessionId _

end Zuse.Domain
