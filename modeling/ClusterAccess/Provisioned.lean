/-
What became of a request.
-/
namespace ClusterAccess

/-- The result of a grant that succeeded. -/
inductive GrantResult where
  /-- Something was written. -/
  | applied
  /-- The principal held the entitlement already. -/
  | alreadySatisfied
  deriving DecidableEq, Repr

/-- The result of a revoke that succeeded. -/
inductive RevokeResult where
  /-- Something was written. -/
  | applied
  /-- The principal did not hold the entitlement. -/
  | alreadyRevoked
  deriving DecidableEq, Repr

end ClusterAccess
