import Mathlib.Data.List.Basic

/-!
# Computations that send requests and may raise

An `Exchange` has sent some requests and ended with a value or an exception.
Catching the exception keeps the requests: what was sent stays sent.
-/

namespace Exchanges

structure Exchange (Request Exception Value : Type) where
  sent : List Request
  outcome : Except Exception Value

namespace Exchange

variable {Request Exception Value Result : Type}

def bind (first : Exchange Request Exception Value)
    (next : Value → Exchange Request Exception Result) :
    Exchange Request Exception Result :=
  match first.outcome with
  | .error exception => ⟨first.sent, .error exception⟩
  | .ok value =>
      ⟨first.sent ++ (next value).sent, (next value).outcome⟩

instance : Monad (Exchange Request Exception) where
  pure := fun value => ⟨[], .ok value⟩
  bind := bind

def silent (outcome : Except Exception Value) :
    Exchange Request Exception Value :=
  ⟨[], outcome⟩

/-- The call of a function that catches its own exceptions. -/
def returned (call : List Request × Value) :
    Exchange Request Exception Value :=
  ⟨call.1, .ok call.2⟩

/-- `try: ... except Exception as e: ...` around the whole computation. -/
def catching (handler : Exception → Value)
    (exchange : Exchange Request Exception Value) : List Request × Value :=
  match exchange.outcome with
  | .error exception => (exchange.sent, handler exception)
  | .ok value => (exchange.sent, value)

theorem bind_of_ok {first : Exchange Request Exception Value} {value : Value}
    (hfirst : first.outcome = .ok value)
    (next : Value → Exchange Request Exception Result) :
    first >>= next =
      ⟨first.sent ++ (next value).sent, (next value).outcome⟩ := by
  change bind first next = _
  rw [bind, hfirst]

theorem bind_of_error {first : Exchange Request Exception Value}
    {exception : Exception} (hfirst : first.outcome = .error exception)
    (next : Value → Exchange Request Exception Result) :
    first >>= next = ⟨first.sent, .error exception⟩ := by
  change bind first next = _
  rw [bind, hfirst]

@[simp] theorem returned_bind (call : List Request × Value)
    (next : Value → Exchange Request Exception Result) :
    returned call >>= next =
      ⟨call.1 ++ (next call.2).sent, (next call.2).outcome⟩ :=
  rfl

@[simp] theorem silent_ok_bind (value : Value)
    (next : Value → Exchange Request Exception Result) :
    silent (.ok value) >>= next = next value :=
  rfl

@[simp] theorem catching_sent (handler : Exception → Value)
    (exchange : Exchange Request Exception Value) :
    (catching handler exchange).1 = exchange.sent := by
  unfold catching
  cases exchange.outcome with
  | error exception => rfl
  | ok value => rfl

theorem forall_sent_silent {P : Request → Prop}
    (outcome : Except Exception Value) :
    ∀ request ∈ (silent outcome : Exchange Request Exception Value).sent,
      P request := by
  intro request hrequest
  exact absurd hrequest List.not_mem_nil

/-- The requests of a sequence satisfy what both of its parts guarantee. -/
theorem forall_sent_bind {P : Request → Prop}
    {first : Exchange Request Exception Value}
    {next : Value → Exchange Request Exception Result}
    (hfirst : ∀ request ∈ first.sent, P request)
    (hnext : ∀ value, first.outcome = .ok value →
      ∀ request ∈ (next value).sent, P request) :
    ∀ request ∈ (first >>= next).sent, P request := by
  intro request hrequest
  cases houtcome : first.outcome with
  | error exception =>
      rw [bind_of_error houtcome] at hrequest
      exact hfirst request hrequest
  | ok value =>
      rw [bind_of_ok houtcome] at hrequest
      cases List.mem_append.mp hrequest with
      | inl hmem => exact hfirst request hmem
      | inr hmem => exact hnext value houtcome request hmem

end Exchange

end Exchanges
