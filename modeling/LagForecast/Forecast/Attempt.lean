/-!
Work that may break off.  It does where it asks for a list of more bytes than can be addressed, and
then comes to neither a value nor an error.  How much memory there is does not count.
-/

set_option autoImplicit false

namespace LagForecast

/-- What work comes to.  There is nothing to report where it has `stopped`. -/
inductive Attempt (ε α : Type) where
  | ok (a : α)
  | error (e : ε)
  | stopped

namespace Attempt

variable {ε ε' α β : Type}

instance : Monad (Attempt ε) where
  pure := .ok
  bind
    | .ok a, next => next a
    | .error e, _ => .error e
    | .stopped, _ => .stopped

def ofExcept : Except ε α → Attempt ε α
  | .ok a => .ok a
  | .error e => .error e

instance : MonadLift (Except ε) (Attempt ε) := ⟨ofExcept⟩

def mapError (f : ε → ε') : Attempt ε α → Attempt ε' α
  | .ok a => .ok a
  | .error e => .error (f e)
  | .stopped => .stopped

def result? : Attempt ε α → Option (Except ε α)
  | .ok a => some (.ok a)
  | .error e => some (.error e)
  | .stopped => none

def toOption : Attempt ε α → Option α
  | .ok a => some a
  | .error _ | .stopped => none

/-- Whether the bytes of `n` numbers can be addressed.  A number has eight of them, and addresses end
at `2 ^ 63 - 1`. -/
def fits (n : Nat) : Bool := 8 * n ≤ 0x7FFFFFFFFFFFFFFF

/-- Ask for a list of `n` numbers of eight bytes. -/
def reserve (n : Nat) : Attempt ε Unit := if fits n then .ok () else .stopped

@[simp] theorem ok_bind (a : α) (next : α → Attempt ε β) : (ok a >>= next) = next a := rfl

@[simp] theorem error_bind (e : ε) (next : α → Attempt ε β) : (error e >>= next) = error e := rfl

@[simp] theorem stopped_bind (next : α → Attempt ε β) : (stopped >>= next) = stopped := rfl

theorem bind_eq_ok {x : Attempt ε α} {next : α → Attempt ε β} {b : β} :
    (x >>= next) = .ok b ↔ ∃ a, x = .ok a ∧ next a = .ok b := by
  cases x <;> simp

theorem bind_eq_error {x : Attempt ε α} {next : α → Attempt ε β} {e : ε} :
    (x >>= next) = .error e ↔ x = .error e ∨ ∃ a, x = .ok a ∧ next a = .error e := by
  cases x <;> simp

theorem bind_eq_stopped {x : Attempt ε α} {next : α → Attempt ε β} :
    (x >>= next) = .stopped ↔ x = .stopped ∨ ∃ a, x = .ok a ∧ next a = .stopped := by
  cases x <;> simp

theorem ofExcept_eq_ok {x : Except ε α} {a : α} : ofExcept x = .ok a ↔ x = .ok a := by
  cases x <;> simp [ofExcept]

theorem ofExcept_eq_error {x : Except ε α} {e : ε} : ofExcept x = .error e ↔ x = .error e := by
  cases x <;> simp [ofExcept]

theorem ofExcept_ne_stopped {x : Except ε α} : ofExcept x ≠ .stopped := by
  cases x <;> simp [ofExcept]

theorem mapError_eq_ok {x : Attempt ε α} {f : ε → ε'} {a : α} :
    x.mapError f = .ok a ↔ x = .ok a := by
  cases x <;> simp [mapError]

theorem mapError_eq_error {x : Attempt ε α} {f : ε → ε'} {e' : ε'} :
    x.mapError f = .error e' ↔ ∃ e, x = .error e ∧ f e = e' := by
  cases x <;> simp [mapError]

theorem mapError_eq_stopped {x : Attempt ε α} {f : ε → ε'} :
    x.mapError f = .stopped ↔ x = .stopped := by
  cases x <;> simp [mapError]

theorem result?_eq_some {x : Attempt ε α} {r : Except ε α} :
    x.result? = some r ↔ x = ofExcept r := by
  cases x <;> cases r <;> simp [result?, ofExcept]

theorem result?_eq_none {x : Attempt ε α} : x.result? = none ↔ x = .stopped := by
  cases x <;> simp [result?]

theorem toOption_eq_some {x : Attempt ε α} {a : α} : x.toOption = some a ↔ x = .ok a := by
  cases x <;> simp [toOption]

theorem toOption_bind (x : Attempt ε α) (f : α → Attempt ε β) :
    (x >>= f).toOption = x.toOption.bind fun a => (f a).toOption := by
  cases x <;> rfl

theorem toOption_mapError (x : Attempt ε α) (f : ε → ε') :
    (x.mapError f).toOption = x.toOption := by
  cases x <;> rfl

theorem toOption_liftM (x : Except ε α) : (liftM x : Attempt ε α).toOption = x.toOption := by
  cases x <;> rfl

end Attempt

end LagForecast
