import KeyValueServer.Fault

/-!
# Sequencing of checked computations

How `>>=` of `Checked` computations goes on after a result and stops at a fault.
-/

namespace KeyValueServer.Checked

variable {α β : Type}

/-- `>>=` goes on with a result. -/
@[simp] theorem ok_bind (a : α) (f : α → Checked β) :
    ((Except.ok a : Checked α) >>= f) = f a := rfl

/-- `>>=` stops at a fault. -/
@[simp] theorem error_bind (fault : Fault) (f : α → Checked β) :
    ((Except.error fault : Checked α) >>= f) = Except.error fault := rfl

/-- `>>=` has a result exactly when both of its parts have one. -/
theorem bind_eq_ok_iff {x : Checked α} {f : α → Checked β} {b : β} :
    (x >>= f) = Except.ok b ↔ ∃ a, x = Except.ok a ∧ f a = Except.ok b := by
  cases x with
  | error fault => simp
  | ok a => simp

end KeyValueServer.Checked
