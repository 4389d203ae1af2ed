import Mathlib

/-! # Computations that leave a trace

A computation that may fail and that calls on a system, with the list of its calls in order. What
stands after a failure calls nothing. -/

universe u

/-- The calls that a computation has made, and how it has ended. -/
@[ext]
structure Traced (κ ε : Type*) (α : Type u) where
  calls : List κ
  result : Except ε α

namespace Traced

variable {κ ε : Type*} {α β : Type u}

/-- A computation that makes no call. -/
def lift (result : Except ε α) : Traced κ ε α := ⟨[], result⟩

/-- Make a call and take its answer. -/
def ask (call : κ) (answer : α) : Traced κ ε α := ⟨[call], .ok answer⟩

/-- Go on with the value of a computation, unless it has failed. -/
def bind (first : Traced κ ε α) (next : α → Traced κ ε β) : Traced κ ε β :=
  match first.result with
  | .error error => ⟨first.calls, .error error⟩
  | .ok value => ⟨first.calls ++ (next value).calls, (next value).result⟩

instance : Monad (Traced κ ε) where
  pure value := lift (.ok value)
  bind := bind

@[simp] theorem result_lift (result : Except ε α) :
    (lift result : Traced κ ε α).result = result := rfl

/-- Nothing is called after a failure. -/
@[simp] theorem lift_error_bind (error : ε) (next : α → Traced κ ε β) :
    (lift (.error error) >>= next) = lift (.error error) := rfl

@[simp] theorem lift_ok_bind (value : α) (next : α → Traced κ ε β) :
    (lift (.ok value) >>= next) = next value := rfl

@[simp] theorem calls_ask_bind (call : κ) (answer : α) (next : α → Traced κ ε β) :
    (ask call answer >>= next).calls = call :: (next answer).calls := rfl

@[simp] theorem result_ask_bind (call : κ) (answer : α) (next : α → Traced κ ε β) :
    (ask call answer >>= next).result = (next answer).result := rfl

/-- The result of a computation is that of the computation without its trace. -/
theorem result_bind (first : Traced κ ε α) (next : α → Traced κ ε β) :
    (first >>= next).result = first.result >>= fun value => (next value).result := by
  change (bind first next).result = _
  unfold bind
  cases first.result <;> rfl

end Traced
