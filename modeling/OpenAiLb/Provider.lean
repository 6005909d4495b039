import Mathlib.Data.Int.Init
import Mathlib.Data.Option.Basic
import Mathlib.Data.List.Basic

/-!
# Provider rows and pending provider updates

The row of `providers`, the write-behind entry that the balancer keeps for a
provider between two maintenance runs, and the rule by which a later observation
is merged into that entry.
-/

namespace OpenAiLb

/-- The values of `providers.status`. The column is text; these four are the only
values that a statement of the code writes. -/
inductive ProviderStatus where
  | active
  | cooldown
  | authError
  | disabled
  deriving DecidableEq

/-- The text stored in the column. -/
def ProviderStatus.text : ProviderStatus → String
  | .active => "active"
  | .cooldown => "cooldown"
  | .authError => "auth_error"
  | .disabled => "disabled"

/-- A row of `providers`. `manualDisabled` is the 0/1 flag of the table. -/
structure Provider where
  id : String
  name : String
  accountId : String
  accessToken : String
  refreshToken : String
  expiresAt : Option Int
  status : ProviderStatus
  manualDisabled : Bool
  cooldownUntil : Option Int
  rateLimitJson : Option String
  lastError : Option String
  lastUsedAt : Option Int
  createdAt : Int
  updatedAt : Int
  ownerId : Option String
  deriving DecidableEq

/-- `provider_is_available`. -/
def providerIsAvailable (provider : Provider) (now : Int) : Bool :=
  !provider.manualDisabled &&
    (provider.status = .active ||
      (provider.status = .cooldown && provider.cooldownUntil.any (· ≤ now)))

/-- A provider is available if it is enabled, and active or in a cooldown that is over. -/
theorem providerIsAvailable_iff {provider : Provider} {now : Int} :
    providerIsAvailable provider now = true ↔
      provider.manualDisabled = false ∧
        (provider.status = .active ∨
          (provider.status = .cooldown ∧ ∃ until_, provider.cooldownUntil = some until_ ∧
            until_ ≤ now)) := by
  cases h : provider.cooldownUntil <;> simp [providerIsAvailable, h]

/-- `CircuitOpen`: the circuit event that a usage-limit response opens. -/
structure CircuitOpen where
  id : String
  cause : String
  rateLimitJson : String
  openedAt : Int
  cooldownUntil : Int
  deriving DecidableEq

/-- `balancer::ProviderUpdate`: what is still to be written for one provider. -/
structure ProviderUpdate where
  status : Option ProviderStatus
  cooldownUntil : Option Int
  rateLimitJson : String
  lastError : Option String
  lastUsedAt : Option Int
  updatedAt : Int
  circuit : Option CircuitOpen
  deriving DecidableEq

/-- `ProviderUpdate::merge`: only a later update that carries a status replaces the status,
the deadline, the error and the circuit. -/
def ProviderUpdate.merge (self next : ProviderUpdate) : ProviderUpdate where
  status := if next.status.isSome then next.status else self.status
  cooldownUntil := if next.status.isSome then next.cooldownUntil else self.cooldownUntil
  lastError := if next.status.isSome then next.lastError else self.lastError
  circuit := if next.status.isSome then next.circuit else self.circuit
  rateLimitJson := next.rateLimitJson
  lastUsedAt := next.lastUsedAt.or self.lastUsedAt
  updatedAt := max self.updatedAt next.updatedAt

@[simp] theorem ProviderUpdate.merge_rateLimitJson (u next : ProviderUpdate) :
    (u.merge next).rateLimitJson = next.rateLimitJson := rfl

@[simp] theorem ProviderUpdate.merge_lastUsedAt (u next : ProviderUpdate) :
    (u.merge next).lastUsedAt = next.lastUsedAt.or u.lastUsedAt := rfl

/-- Merging an update without a status keeps everything that belongs to the status. -/
theorem ProviderUpdate.merge_of_status_none {u next : ProviderUpdate} (h : next.status = none) :
    (u.merge next).status = u.status ∧ (u.merge next).cooldownUntil = u.cooldownUntil ∧
      (u.merge next).lastError = u.lastError ∧ (u.merge next).circuit = u.circuit := by
  simp [merge, h]

/-- Merging an update with a status takes everything that belongs to the status from it. -/
theorem ProviderUpdate.merge_of_status_some {u next : ProviderUpdate} {st : ProviderStatus}
    (h : next.status = some st) :
    (u.merge next).status = some st ∧ (u.merge next).cooldownUntil = next.cooldownUntil ∧
      (u.merge next).lastError = next.lastError ∧ (u.merge next).circuit = next.circuit := by
  simp [merge, h]

end OpenAiLb
