import TenantStore.StoreError

/-!
# Operation contexts

Every operation on a store is given a context: a token by which the caller cancels it, and a
deadline.  Both are looked at before each step on a database and not while the step runs, so a step
that has begun is completed, and an operation of several steps can be stopped between two of them.

A `Context` is what one look sees.  An operation that is given a `Context` sees the same at all its
looks; the puts, deletes and repairs of a message store, whose steps may lie in two databases, are
also described for `Looks` that differ.
-/

namespace TenantStore

/-- What a cancellation token shows. -/
inductive Token where
  | waiting
  | fired
  deriving DecidableEq, Repr

/-- What a deadline shows. -/
inductive Deadline where
  | ahead
  | passed
  deriving DecidableEq, Repr

/-- What a look at the token and at the deadline sees, where the operation has them. -/
structure Context where
  token : Option Token := none
  deadline : Option Deadline := none
  deriving DecidableEq, Repr

/-- What an operation sees at the places where it looks at its context, counted in their order.  A
token that has fired and a deadline that has passed stay so, but nothing here depends on that. -/
abbrev Looks := Nat → Context

namespace Context

/-- The context that never stops an operation. -/
def background : Context := {}

/-- Refuse the operation if the token has fired, else if the deadline has passed. -/
def check (context : Context) : Except StoreError Unit :=
  if context.token = some .fired then .error .canceled
  else if context.deadline = some .passed then .error .deadlineExceeded
  else .ok ()

/-- Whether operations may start. -/
def isLive (context : Context) : Bool :=
  context.token ≠ some .fired && context.deadline ≠ some .passed

/-- A context that does not change while an operation runs. -/
abbrev steady (context : Context) : Looks := fun _ => context

theorem check_eq_ok_iff (context : Context) : context.check = .ok () ↔ context.isLive = true := by
  unfold check isLive
  by_cases fired : context.token = some .fired <;>
    by_cases passed : context.deadline = some .passed <;> simp [fired, passed]

end Context

end TenantStore
