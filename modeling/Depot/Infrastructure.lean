import Depot.Path

/-!
# Shared infrastructure

What all repositories of one factory have in common: the means of transport, the finder of local
resources and the index of downloaded ones. A repository holds handles to them; two bundles share
their parts when the handles are the same.
-/

namespace Depot

/-- Tells one shared part from another. -/
abbrev Handle := Nat

/-- The handles that a repository is bound to. -/
structure Infrastructure where
  transport : Handle
  finder : Handle
  index : Handle
  deriving DecidableEq, Repr, Inhabited

namespace Infrastructure

/-- A bundle of parts of its own, told apart by a number. -/
def numbered (n : Nat) : Infrastructure := ⟨n, n, n⟩

/-- Whether two bundles hold the very same parts. -/
def shares (a b : Infrastructure) : Bool :=
  a.transport == b.transport && a.finder == b.finder && a.index == b.index

@[simp] theorem shares_self (a : Infrastructure) : a.shares a = true := by
  simp [shares]

/-- Whether the means of transport reach URLs with a scheme. -/
def supports (scheme : String) : Bool :=
  scheme ∈ ["http", "https", "file"]

/-- The files that may hold an artifact on this machine; the finder knows of none. -/
def candidates (_ : String) : List Path :=
  []

end Infrastructure

end Depot
