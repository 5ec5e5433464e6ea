import InterProcessCourier.Basic

/-!
# Duplicate registrations

What a registration call does when the request name is already taken. Client and server share the
switch over the strategy and bring their own `registerFunction`.
-/

namespace InterProcessCourier

/-- `DuplicateRequestResponsePairRegistrationStrategy`. -/
inductive DuplicateRequestResponsePairRegistrationStrategy
  | silentOverride
  | silentIgnore
  | indicateIgnore
  | throw
  deriving DecidableEq

/-- What `registerDuplicateRequestResponsePair` throws under `Throw`. -/
def duplicateRegistration (requestName responseName : Bytes) : Exception :=
  .invalidArgument (str "Duplicate request/response pair registration attempted for: " ++
    requestName ++ str ":" ++ responseName)

/-- `_detail::registerDuplicateRequestResponsePair`. -/
def registerDuplicateRequestResponsePair {σ : Type}
    (strategy : DuplicateRequestResponsePairRegistrationStrategy)
    (registerFunction : Bytes → Bytes → σ → σ) (requestName responseName : Bytes) :
    Method σ Bool := fun object =>
  match strategy with
  | .silentOverride => (.ok true, registerFunction requestName responseName object)
  | .silentIgnore => (.ok true, object)
  | .indicateIgnore => (.ok false, object)
  | .throw => (.error (duplicateRegistration requestName responseName), object)

namespace DuplicateRequestResponsePairRegistrationStrategy

/-- Whether a duplicate replaces what it duplicates. -/
def overrides : DuplicateRequestResponsePairRegistrationStrategy → Bool
  | silentOverride => true
  | silentIgnore => false
  | indicateIgnore => false
  | throw => false

/-- What a duplicate registration gives back. -/
def onDuplicate (strategy : DuplicateRequestResponsePairRegistrationStrategy)
    (requestName responseName : Bytes) : Except Exception Bool :=
  match strategy with
  | silentOverride => .ok true
  | silentIgnore => .ok true
  | indicateIgnore => .ok false
  | throw => .error (duplicateRegistration requestName responseName)

theorem overrides_eq_false_iff {strategy : DuplicateRequestResponsePairRegistrationStrategy} :
    strategy.overrides = false ↔ strategy ≠ silentOverride := by
  cases strategy <;> simp [overrides]

end DuplicateRequestResponsePairRegistrationStrategy

theorem registerDuplicateRequestResponsePair_eq {σ : Type}
    (strategy : DuplicateRequestResponsePairRegistrationStrategy)
    (registerFunction : Bytes → Bytes → σ → σ) (requestName responseName : Bytes) (object : σ) :
    registerDuplicateRequestResponsePair strategy registerFunction requestName responseName object
      = (strategy.onDuplicate requestName responseName,
        if strategy.overrides then registerFunction requestName responseName object
        else object) := by
  cases strategy <;> rfl

end InterProcessCourier
