import MessageBroker.Session.Basic

/-!
# Runs of operations

What an operation leaves when it is run on a session and its queues, step by step.  An operation
that fails leaves what it did before the fault, so a relation between states that holds along
every step of an operation holds between the state it is run on and the state it leaves, whether
it fails or not.
-/

namespace MessageBroker.Operation

variable {α β : Type}

/-! ### Results -/

@[simp]
theorem run_get (s : Serving) :
  (get : Operation Serving) s = .ok s s
  := rfl

@[simp]
theorem run_modify (change : Serving → Serving) (s : Serving) :
  (modify change : Operation Unit) s = .ok () (change s)
  := rfl

@[simp]
theorem run_onSession (change : Session → Session) (s : Serving) :
  onSession change s = .ok () (s.onSession change)
  := rfl

/-- A sequence of operations stops at the first fault. -/
theorem run_bind (op : Operation α) (next : α → Operation β) (s : Serving) :
  (op >>= next) s
    = match op s with
      | .ok a s => next a s
      | .error fault s => .error fault s
  := by
  change EStateM.bind op next s = _
  rw [EStateM.bind]
  cases op s <;> rfl

theorem run_bind_of_ok {op : Operation α} {a : α} {s s' : Serving} (h : op s = .ok a s')
    (next : α → Operation β) :
  (op >>= next) s = next a s'
  := by
  rw [run_bind, h]

theorem run_bind_of_error {op : Operation α} {fault : Fault} {s s' : Serving}
    (h : op s = .error fault s') (next : α → Operation β) :
  (op >>= next) s = .error fault s'
  := by
  rw [run_bind, h]

@[simp]
theorem run_get_bind (next : Serving → Operation β) (s : Serving) :
  (get >>= next) s = next s s
  := rfl

@[simp]
theorem run_onSession_bind (change : Session → Session) (next : Unit → Operation β)
    (s : Serving) :
  (onSession change >>= next) s = next () (s.onSession change)
  := rfl

@[simp]
theorem run_modify_bind (change : Serving → Serving) (next : Unit → Operation β) (s : Serving) :
  (modify change >>= next) s = next () (change s)
  := rfl

/-! ### What is left -/

/-- The state in a result. -/
def leaving : EStateM.Result Fault Serving α → Serving
  | .ok _ s => s
  | .error _ s => s

/-- The state that an operation leaves, whether it fails or not. -/
def after (op : Operation α) (s : Serving) : Serving :=
  leaving (op s)

theorem after_of_ok {op : Operation α} {a : α} {s s' : Serving} (h : op s = .ok a s') :
  op.after s = s'
  := by
  rw [after, h]
  rfl

theorem after_of_error {op : Operation α} {fault : Fault} {s s' : Serving}
    (h : op s = .error fault s') :
  op.after s = s'
  := by
  rw [after, h]
  rfl

@[simp]
theorem after_onSession (change : Session → Session) (s : Serving) :
  (onSession change).after s = s.onSession change
  := rfl

@[simp]
theorem after_modify (change : Serving → Serving) (s : Serving) :
  (modify change : Operation Unit).after s = change s
  := rfl

@[simp]
theorem after_get_bind (next : Serving → Operation β) (s : Serving) :
  (get >>= next).after s = (next s).after s
  := rfl

@[simp]
theorem after_onSession_bind (change : Session → Session) (next : Unit → Operation β)
    (s : Serving) :
  (onSession change >>= next).after s = (next ()).after (s.onSession change)
  := rfl

@[simp]
theorem after_onStore_bind (change : QueueStore → QueueStore) (next : Unit → Operation β)
    (s : Serving) :
  (onStore change >>= next).after s = (next ()).after (s.onStore change)
  := rfl

@[simp]
theorem after_modify_bind (change : Serving → Serving) (next : Unit → Operation β)
    (s : Serving) :
  (modify change >>= next).after s = (next ()).after (change s)
  := rfl

/-- What holds of the state that an operation leaves, and goes on to hold if there was no fault,
holds of the state that a sequence leaves. -/
theorem after_bind {motive : Serving → Prop} {op : Operation α} {next : α → Operation β}
    {s : Serving} (first : motive (op.after s))
    (rest : ∀ a, op s = .ok a (op.after s) → motive ((next a).after (op.after s))) :
  motive ((op >>= next).after s)
  := by
  cases h : op s with
  | ok a s' =>
      rw [after_of_ok h] at rest
      rw [after, run_bind_of_ok h]
      exact rest a h
  | error fault s' =>
      rw [after_of_error h] at first
      rw [after, run_bind_of_error h]
      exact first

/-! ### Changes that operations commute with -/

/-- A result with its state changed. -/
def mapState (change : Serving → Serving) :
    EStateM.Result Fault Serving α → EStateM.Result Fault Serving α
  | .ok a s => .ok a (change s)
  | .error fault s => .error fault (change s)

/-- It is all the same whether a state is changed before an operation or after it. -/
def Commutes (change : Serving → Serving) (op : Operation α) (s : Serving) : Prop :=
  op (change s) = mapState change (op s)

variable {change : Serving → Serving}

theorem Commutes.after {op : Operation α} {s : Serving} (h : op.Commutes change s) :
  op.after (change s) = change (op.after s)
  := by
  rw [Operation.after, h, Operation.after]
  cases op s <;> rfl

/-- An operation that looks at a state sees no change that makes no difference to what follows. -/
theorem commutes_get_bind {next : Serving → Operation β} {s : Serving}
    (same : next (change s) = next s) (h : (next s).Commutes change s) :
  (get >>= next).Commutes change s
  := by
  rw [Commutes, run_get_bind, run_get_bind, same]
  exact h

theorem commutes_bind {op : Operation α} {next : α → Operation β} {s : Serving}
    (first : op.Commutes change s)
    (rest : ∀ a, op s = .ok a (op.after s) → (next a).Commutes change (op.after s)) :
  (op >>= next).Commutes change s
  := by
  rw [Commutes] at first
  rw [Commutes, run_bind, first, run_bind]
  cases h : op s with
  | ok a s' =>
      rw [after_of_ok h] at rest
      exact rest a h
  | error fault s' => rfl

end MessageBroker.Operation
