import MessageBroker.Proofs.Lists
import MessageBroker.Proofs.Session.Ending
import MessageBroker.Proofs.Session.Prepending
import MessageBroker.Proofs.World.Custody

/-!
# Open transactions in a world

While a transaction is open, its work lies by: whatever happens in the world happens as if nothing
had been recorded, and the work stays in front of what is recorded later.  The messages that it is
to take out are held all the while, as if by someone outside the world.  A transaction is open
until the peer has it discharged or its session ends.
-/

namespace MessageBroker

open Session

/-! ### What is done with one session -/

/-- Something is done with a session that neither ends a transaction nor declares one of its
name. -/
def Session.Act.Spares (id : Bytes) (session : Session) : Session.Act → Prop
  | .handle p payload =>
    ∀ control, session.control? p payload = some control →
      control.Spares id session.transactions
  | .finish => False
  | _ => True

/-- What is done with a session takes no notice of the work of a transaction that it spares. -/
theorem Session.Act.run_prepend {id : Bytes} {act : Session.Act} {s : Serving}
    (spares : act.Spares id s.session) (work : List Work) :
  act.run (s.prepend id work) = ((act.run s).1, (act.run s).2.prepend id work)
  := by
  cases act with
  | handle p payload =>
      exact congrArg (Prod.mk [])
        (Operation.Commutes.after (Operation.commutes_handle p payload spares))
  | pumpAll => exact congrArg (Prod.mk []) (Serving.pumpAll_onLedger _ s)
  | recover => exact congrArg (Prod.mk []) (Serving.recover_onLedger _ s)
  | finish => exact spares.elim
  | takeOutput => rfl

namespace Member

/-- A session of a world with its transactions changed. -/
def onLedger (change : Ledger → Ledger) (member : Member) : Member :=
  { member with session := member.session.onLedger change }

theorem run_prepend {member : Member} {store : QueueStore} {act : Session.Act} {id : Bytes}
    (spares : act.Spares id member.session) (work : List Work) :
  (member.onLedger (Ledger.prepend id work)).run store act
    = ((member.run store act).1.onLedger (Ledger.prepend id work), (member.run store act).2)
  := by
  have hrun := Session.Act.run_prepend (s := ⟨member.session, store⟩) spares work
  change act.run ⟨member.session.onLedger _, store⟩ = _ at hrun
  rw [run, run, onLedger, hrun]
  rfl

end Member

namespace World

/-- A world with the transactions of one session changed. -/
def onLedger (index : Nat) (change : Ledger → Ledger) (world : World) : World :=
  { world with members := world.members.modify index (·.onLedger change) }

/-- What happens in a world neither ends a transaction of a session nor declares one of its
name. -/
def Action.Spares (world : World) (index : Nat) (id : Bytes) : Action → Prop
  | .serve other act =>
    other = index → ∀ member, world.members[index]? = some member → act.Spares id member.session
  | _ => True

/-- What happens in a world takes no notice of the work of a transaction that it spares. -/
theorem step_prepend {world : World} {index : Nat} {id : Bytes} {action : Action}
    (spares : action.Spares world index id) (work : List Work) :
  (world.onLedger index (Ledger.prepend id work)).step action
    = (world.step action).onLedger index (Ledger.prepend id work)
  := by
  have hget (other : Nat) : (world.onLedger index (Ledger.prepend id work)).members[other]?
      = world.members[other]?.map fun member =>
          if index = other then member.onLedger (Ledger.prepend id work) else member := by
    rw [onLedger, List.getElem?_modify]
    rfl
  cases action with
  | serve other act =>
      rw [step, step]
      cases hmember : world.members[other]? with
      | none =>
          rw [serve_of_none hmember, serve_of_none]
          rw [hget, hmember]
          rfl
      | some member =>
          rw [serve_of_getElem? hmember, serve_of_getElem? (by rw [hget, hmember]; rfl)]
          rw [onLedger, onLedger]
          dsimp only
          rw [← modify_set]
          split
          · next heq =>
              subst heq
              rw [Member.run_prepend (spares rfl member hmember) work]
          · rfl
  | begin terms limits =>
      rw [step, step, onLedger, onLedger]
      dsimp only
      rw [modify_append_singleton]
      rfl
  | consume other act =>
      rw [step, step, consume, consume]
      cases hconsumer : world.consumers[other]? <;> simp only [onLedger, hconsumer]
  | close other =>
      rw [step, step, close, close]
      cases hconsumer : world.consumers[other]? <;> simp only [onLedger, hconsumer]
  | _ => rfl

/-! ### Open transactions -/

/-- The open transaction of a session with a name. -/
def transaction? (world : World) (index : Nat) (id : Bytes) : Option Transaction :=
  world.members[index]?.bind fun member => member.session.transactions.find? id

theorem transaction?_eq_some_iff {world : World} {index : Nat} {id : Bytes}
    {transaction : Transaction} :
  world.transaction? index id = some transaction
    ↔ ∃ member, world.members[index]? = some member
        ∧ member.session.transactions.find? id = some transaction
  := Option.bind_eq_some_iff

/-- Work that is put in front is the first work of its transaction. -/
theorem transaction?_prepend (world : World) (index : Nat) (id : Bytes) (work : List Work) :
  (world.onLedger index (Ledger.prepend id work)).transaction? index id
    = (world.transaction? index id).map fun transaction =>
        { transaction with work := work ++ transaction.work }
  := by
  rw [transaction?, transaction?, onLedger, List.getElem?_modify]
  simp only [if_true]
  cases world.members[index]? with
  | none => rfl
  | some member =>
      change (member.session.transactions.onWork id (work ++ ·)).find? id = _
      rw [Ledger.find?_onWork]
      simp

/-- What was done with the session at an index: something or nothing. -/
theorem member_step {world : World} {index : Nat} {member : Member}
    (h : world.members[index]? = some member) (action : Action) :
  (∃ act, action = .serve index act
      ∧ (world.step action).members[index]? = some (member.run world.store act).1
      ∧ (world.step action).store = (member.run world.store act).2)
    ∨ (∀ act, action ≠ .serve index act) ∧ (world.step action).members[index]? = some member
  := by
  obtain ⟨hlt, -⟩ := List.getElem?_eq_some_iff.mp h
  cases action with
  | serve other act =>
      by_cases heq : other = index
      · subst heq
        exact .inl ⟨act, rfl, member_serve h act, store_serve h act⟩
      · refine .inr ⟨?_, ?_⟩
        · rintro other' h'
          exact heq (Action.serve.inj h').1
        · rw [step]
          cases hother : world.members[other]? with
          | none => rw [serve_of_none hother, h]
          | some served =>
              rw [serve_of_getElem? hother, List.getElem?_set_ne heq, h]
  | begin terms limits =>
      refine .inr ⟨fun act => by simp, ?_⟩
      rw [step, List.getElem?_append_left hlt, h]
  | consume other act =>
      refine .inr ⟨fun act => by simp, ?_⟩
      rw [step, consume]
      split <;> exact h
  | close other =>
      refine .inr ⟨fun act => by simp, ?_⟩
      rw [step, close]
      split <;> exact h
  | _ => exact .inr ⟨fun act => by simp, h⟩

section Open

variable {outside : Multiset Place} {world : World} {action : Action} {index : Nat} {id : Bytes}

/-- The peer has a transaction discharged, or its session ends. -/
def Action.Ends (world : World) (index : Nat) (id : Bytes) (action : Action) : Prop :=
  action = .serve index .finish
    ∨ ∃ p payload fail member, action = .serve index (.handle p payload)
        ∧ world.members[index]? = some member
        ∧ member.session.control? p payload = some (.discharge id fail)

/-- A session declared fewer transactions than there are names. -/
def NamesLast (world : World) (index : Nat) : Prop :=
  ∀ member, world.members[index]? = some member → member.declared < 4294967296

/-- The names last before an action if they last after it. -/
theorem NamesLast.of_step (names : (world.step action).NamesLast index) :
  world.NamesLast index
  := by
  intro member hget
  rcases member_step hget action with ⟨act, -, hmember, -⟩ | ⟨-, hmember⟩
  · have hle := (member.advances_run world.store act).declared
    exact Nat.lt_of_le_of_lt hle (names _ hmember)
  · exact names _ hmember

theorem NamesLast.of_run {world : World} {actions : List Action}
    (names : (world.run actions).NamesLast index) :
  world.NamesLast index
  := by
  induction actions generalizing world with
  | nil => exact names
  | cons action actions ih => exact (ih names).of_step

/-- No transaction that is declared has the name of one that is open, as long as the names
last. -/
theorem find?_of_declare {member : Member} {store : QueueStore} (accounted : member.Accounted)
    {p : Performative} {payload : Bytes} {globalId : Option Value}
    (hcontrol : member.session.control? p payload = some (.declare globalId))
    (bounded : (member.run store (.handle p payload)).1.declared < 4294967296) :
  member.session.transactions.find? member.session.transactions.declare.1 = none
  := by
  obtain ⟨htransactions, -⟩ := Operation.handle_of_declare (s := ⟨member.session, store⟩) hcontrol
  have hnext : (member.run store (.handle p payload)).1.declared = member.declared + 1 := by
    change member.declared + ite (_ = _) 0 1 = _
    rw [if_neg]
    change ((Operation.handle p payload).after ⟨member.session, store⟩
      ).session.transactions.lastId ≠ member.session.transactions.lastId
    rw [htransactions]
    intro hsame
    have hnat := congrArg UInt32.toNat hsame
    change (member.session.transactions.lastId + 1).toNat = _ at hnat
    rw [UInt32.toNat_add] at hnat
    have hlt := member.session.transactions.lastId.toNat_lt
    simp at hnat
    omega
  rw [hnext] at bounded
  exact (accounted.numbered (by omega)).find?_declare_fst bounded

/-- What does not end an open transaction spares it, as long as the names last. -/
theorem Orderly.spares (orderly : Orderly outside world)
    (names : (world.step action).NamesLast index) {transaction : Transaction}
    (opened : world.transaction? index id = some transaction)
    (lasts : ¬ action.Ends world index id) :
  action.Spares world index id
  := by
  obtain ⟨member, hget, hfind⟩ := transaction?_eq_some_iff.mp opened
  cases action with
  | serve other act =>
      rintro rfl member' hget'
      obtain rfl := Option.some.inj (hget.symm.trans hget')
      cases act with
      | handle p payload =>
          intro control hcontrol
          cases control with
          | discharge other' fail =>
              rintro rfl
              exact lasts (.inr ⟨p, payload, fail, member, rfl, hget, hcontrol⟩)
          | declare globalId =>
              rintro rfl
              have accounted := orderly.accounted member (List.mem_of_getElem? hget)
              rw [find?_of_declare accounted hcontrol (names _ (member_serve hget _))] at hfind
              contradiction
      | finish => exact absurd (.inl rfl) lasts
      | _ => trivial
  | _ => trivial

end Open

end World

end MessageBroker
