import MessageBroker.Proofs.Session.Drawing
import MessageBroker.Proofs.Session.Settling

/-!
# Dispositions of deliveries sent

A disposition gives outcomes to the unsettled deliveries that it speaks of, unless its state is no
outcome.  As long as the transactions are open in which messages are to be taken, all outcomes are
carried out, and what waits is sent; otherwise the link of the first delivery whose transaction is
not open is detached.
-/

namespace MessageBroker

open Session

namespace Session

variable {session : Session} {disposition : Disposition}

/-! ### Deliveries that are given outcomes -/

/-- The unsettled deliveries that a disposition speaks of. -/
def covered (session : Session) (disposition : Disposition) : Table UInt32 OutgoingDelivery :=
  session.outgoingUnsettled.filter fun row => covers disposition row.1

/-- The unsettled deliveries that a disposition speaks of, each with the same outcome. -/
def alike (session : Session) (disposition : Disposition) (state : DeliveryState) : List Verdict :=
  (session.covered disposition).map fun row => (row.1, row.2, state)

theorem takenIn?_of_alike {state : DeliveryState} {verdict : Verdict}
    (h : verdict ∈ session.alike disposition state) :
  verdict.takenIn? = state.takenIn?
  := by
  obtain ⟨row, -, rfl⟩ := List.mem_map.mp h
  rfl

/-- The deliveries that a disposition gives an outcome. -/
def verdicts (session : Session) (disposition : Disposition) : List Verdict :=
  session.decided disposition

/-- Every delivery is given an outcome that is told. -/
theorem verdicts_of_outcome {state : DeliveryState} (h : disposition.state = some state)
    (terminal : state.isTerminal = true) :
  session.verdicts disposition = session.alike disposition state
  := by
  rw [verdicts, alike, decided, covered, ← List.filterMap_eq_map]
  apply List.filterMap_congr
  rintro ⟨number, delivery⟩ _
  change (session.outcome? disposition delivery).map _ = _
  rw [outcome?, h]
  dsimp only
  rw [if_pos terminal]
  rfl

/-- No delivery is given an outcome by a state that is none. -/
theorem verdicts_of_informal {state : DeliveryState} (h : disposition.state = some state)
    (informal : state.isTerminal = false) :
  session.verdicts disposition = []
  := by
  rw [verdicts, decided]
  apply List.filterMap_eq_nil_iff.mpr
  rintro ⟨number, delivery⟩ _
  change (session.outcome? disposition delivery).map _ = none
  rw [outcome?, h]
  dsimp only
  rw [if_neg (by simp [informal])]
  rfl

/-- The outcome of deliveries with a handle that the peer settles without telling one: the default of
the link that has the handle, and accepted if none has. -/
def defaultAt (session : Session) (handle : UInt32) : DeliveryState :=
  ((session.endpoints.get? handle).map Endpoint.defaultOutcome).getD .accepted

/-- Every delivery is given the default of the link that has its handle, if it is settled and no
outcome is told. -/
theorem verdicts_of_default (untold : disposition.state = none)
    (settled : disposition.settled = true) :
  session.verdicts disposition
    = (session.covered disposition).map fun row => (row.1, row.2, session.defaultAt row.2.handle)
  := by
  rw [verdicts, decided, covered, ← List.filterMap_eq_map]
  apply List.filterMap_congr
  rintro ⟨number, delivery⟩ _
  change (session.outcome? disposition delivery).map _ = _
  rw [outcome?, untold]
  dsimp only
  rw [if_pos settled]
  rfl

/-- Every delivery is given an outcome if it is settled, unless a state is told that is none. -/
theorem deliveries_verdicts (settled : disposition.settled = true)
    (terminal : ∀ state, disposition.state = some state → state.isTerminal = true) :
  (session.verdicts disposition).map Verdict.row = session.covered disposition
  := by
  cases hstate : disposition.state with
  | some state =>
      rw [verdicts_of_outcome hstate (terminal state hstate), alike, List.map_map]
      exact List.map_id _
  | none =>
      rw [verdicts_of_default hstate settled, List.map_map]
      exact List.map_id _

/-- No delivery is spoken of if the last is before the first. -/
theorem covered_of_reversed (session : Session) {disposition : Disposition}
    (reversed : disposition.lastId < disposition.first) :
  session.covered disposition = []
  := by
  apply List.filter_eq_nil_iff.mpr
  intro row _ hcovers
  have hrange := of_decide_eq_true hcovers
  exact absurd (UInt32.le_trans hrange.1 hrange.2) (UInt32.not_le.mpr reversed)

/-- Confirms a disposition that has not settled the deliveries, if it gave any an outcome. -/
def confirm (session : Session) (disposition : Disposition) (verdicts : List Verdict) : Session :=
  if !verdicts.isEmpty && !disposition.settled then
    session.emit (.disposition disposition.confirmation) none
  else session

theorem quiet_confirm (session : Session) (disposition : Disposition) (verdicts : List Verdict) :
  session.Quiet (session.confirm disposition verdicts)
  := by
  rw [confirm]
  split
  · exact session.quiet_emit rfl
  · exact .refl session

/-- What is to be sent besides what was to be sent before. -/
theorem pending_confirm (session : Session) (disposition : Disposition)
    (verdicts : List Verdict) :
  (session.confirm disposition verdicts).pending
    = session.pending ++ if disposition.settled || verdicts.isEmpty then []
        else [⟨.disposition disposition.confirmation, none⟩]
  := by
  rw [confirm]
  cases disposition.settled with
  | true =>
      rw [Bool.not_true, Bool.and_false, Bool.true_or, if_pos rfl, List.append_nil]
      rfl
  | false =>
      cases verdicts with
      | nil => exact (List.append_nil _).symm
      | cons verdict verdicts => exact session.pending_emit _ _

end Session

/-! ### What is done on a disposition -/

/-- What deliveries come to is not changed quietly. -/
theorem Serving.Concludes.of_quiet {verdicts : List Verdict} {s s' s'' : Serving}
    (concludes : s.Concludes verdicts s') (quiet : s'.Quiet s'') :
  s.Concludes verdicts s''
  := by
  constructor
  · rw [quiet.session.outgoingUnsettled, concludes.settled]
  · rw [quiet.store]
    exact concludes.queues
  · rw [quiet.session.transactions]
    exact concludes.recorded
  · rw [quiet.store]
    exact concludes.done
  · rw [quiet.store]
    exact concludes.waits

namespace Operation

variable {s : Serving} {disposition : Disposition}

/-- All outcomes are carried out if the transactions are open in which messages are to be taken,
and what waits is sent. -/
theorem handle_of_known (payload : Bytes) (role : disposition.role = .receiver)
    (nonempty : ¬ disposition.lastId < disposition.first) {verdicts : List Verdict}
    (told : s.session.verdicts disposition = verdicts)
    (known : ∀ verdict ∈ verdicts, verdict.Known s.session.transactions) :
  handle (.disposition disposition) payload s
    = .ok () ((s.concludeAll verdicts).onSession (·.confirm disposition verdicts)).pumpAll
  := by
  have hcarry : carryOutEach verdicts s = .ok () (s.concludeAll verdicts) := by
    have happend := carryOutEach_append_of_known known []
    rw [List.append_nil] at happend
    exact happend
  have hdispatch : dispatch (.disposition disposition) payload s
      = .ok () ((s.concludeAll verdicts).onSession (·.confirm disposition verdicts)).pumpAll := by
    rw [dispatch, onDisposition, role]
    dsimp only
    rw [onReceiverDisposition, if_neg nonempty, run_get_bind]
    dsimp only
    rw [← Session.verdicts, told, run_bind_of_ok hcarry]
    by_cases hconfirm : (!verdicts.isEmpty && !disposition.settled) = true
    · rw [if_pos hconfirm, run_onSession_bind, run_modify]
      simp only [Session.confirm, hconfirm, if_true]
    · rw [if_neg hconfirm, run_modify]
      simp only [Session.confirm, hconfirm]
      rfl
  rw [handle, hdispatch]

/-- A disposition that settles deliveries is not confirmed. -/
theorem handle_of_settling (payload : Bytes) (role : disposition.role = .receiver)
    (nonempty : ¬ disposition.lastId < disposition.first)
    (settles : disposition.settled = true)
    (known : ∀ verdict ∈ s.session.verdicts disposition, verdict.Known s.session.transactions) :
  handle (.disposition disposition) payload s
    = .ok () (s.concludeAll (s.session.verdicts disposition)).pumpAll
  := by
  have hconfirm (session : Session) :
      session.confirm disposition (s.session.verdicts disposition) = session := by
    rw [confirm, settles, Bool.not_true, Bool.and_false]
    rfl
  rw [handle_of_known payload role nonempty rfl known, Serving.onSession, hconfirm]

/-- Nothing is done if the last delivery is before the first. -/
theorem handle_of_reversed (payload : Bytes) (role : disposition.role = .receiver)
    (reversed : disposition.lastId < disposition.first) :
  handle (.disposition disposition) payload s = .ok () s
  := by
  have hdispatch : dispatch (.disposition disposition) payload s = .ok () s := by
    rw [dispatch, onDisposition, role]
    dsimp only
    rw [onReceiverDisposition, if_pos reversed]
    rfl
  rw [handle, hdispatch]

/-- Messages that are to be taken in an open transaction are recorded there, and nothing is done to
the queues but that what waits is sent. -/
theorem handle_of_opened (payload : Bytes) (role : disposition.role = .receiver)
    {state : DeliveryState} (hstate : disposition.state = some state) {id : Bytes}
    (taken : state.takenIn? = some id) (opened : s.session.transactions.contains id = true) :
  ∃ s', handle (.disposition disposition) payload s = .ok () s'
    ∧ (s.store.Sound → s.store.Draws s'.store)
    ∧ s'.session.transactions = s.session.transactions.onWork id
        (· ++ (s.session.covered disposition).map (·.2.taking))
  := by
  by_cases reversed : disposition.lastId < disposition.first
  · refine ⟨s, handle_of_reversed payload role reversed, .refl, ?_⟩
    rw [covered_of_reversed _ reversed]
    simp only [List.map_nil, List.append_nil]
    exact (Ledger.onWork_id id _).symm
  · have hledger := handle_of_taken payload role reversed hstate taken opened
    have htaken : ∀ verdict ∈ s.session.verdicts disposition, verdict.takenIn? = some id := by
      rw [verdicts_of_outcome hstate (DeliveryState.isTerminal_of_takenIn? taken)]
      intro verdict hverdict
      exact (takenIn?_of_alike hverdict).trans taken
    have hhandle := handle_of_known payload role reversed rfl (s := s) (by
      intro verdict hverdict other hother
      rw [htaken verdict hverdict] at hother
      rw [← Option.some.inj hother]
      exact opened)
    rw [after_of_ok hhandle] at hledger
    refine ⟨_, hhandle, ?_, hledger⟩
    obtain ⟨sent, draws⟩ := Serving.draws_pumpAll
      ((s.concludeAll (s.session.verdicts disposition)).onSession
        (·.confirm disposition (s.session.verdicts disposition)))
    have hstore := draws.store
    change (s.concludeAll _).store.Sound → (s.concludeAll _).store.Draws _ at hstore
    rw [Serving.store_concludeAll_of_taken htaken] at hstore
    exact hstore

/-- Outcomes that are carried out at once do not depend on what transactions are open. -/
theorem handle_of_plain (payload : Bytes) (role : disposition.role = .receiver)
    (nonempty : ¬ disposition.lastId < disposition.first) {state : DeliveryState}
    (hstate : disposition.state = some state) (terminal : state.isTerminal = true)
    (plain : state.takenIn? = none) :
  handle (.disposition disposition) payload s
    = .ok () ((s.concludeAll (s.session.alike disposition state)).onSession
        (·.confirm disposition (s.session.alike disposition state))).pumpAll
  := by
  apply handle_of_known payload role nonempty (verdicts_of_outcome hstate terminal)
  intro verdict hverdict id hid
  rw [takenIn?_of_alike hverdict, plain] at hid
  contradiction

/-- If a message is to be taken in a transaction that is not open, outcomes are carried out up to
this one, and the link of its delivery is detached. -/
theorem handle_of_unknown_taken (payload : Bytes) (role : disposition.role = .receiver)
    (nonempty : ¬ disposition.lastId < disposition.first) {verdicts others : List Verdict}
    {verdict : Verdict}
    (told : s.session.verdicts disposition = verdicts ++ verdict :: others)
    (known : ∀ verdict ∈ verdicts, verdict.Known s.session.transactions) {id : Bytes}
    (taken : verdict.takenIn? = some id)
    (unknown : s.session.transactions.contains id = false) :
  handle (.disposition disposition) payload s
    = detachWith verdict.2.1.handle (Ledger.unknown id)
        (s.concludeAll (verdicts ++ [verdict.released]))
  := by
  have hunknown : (s.concludeAll verdicts).session.transactions.contains id = false := by
    rw [← unknown, Ledger.contains, Ledger.contains, Serving.concludeAll, Ledger.find?_note,
      Option.isSome_map]
  have hcarry : carryOutEach (verdicts ++ verdict :: others) s
      = .error (.link verdict.2.1.handle (Ledger.unknown id))
          (s.concludeAll (verdicts ++ [verdict.released])) := by
    rw [carryOutEach_append_of_known known, carryOutEach_cons_of_unknown taken hunknown,
      Serving.concludeAll_append]
  have hdispatch : dispatch (.disposition disposition) payload s
      = .error (.link verdict.2.1.handle (Ledger.unknown id))
          (s.concludeAll (verdicts ++ [verdict.released])) := by
    rw [dispatch, onDisposition, role]
    dsimp only
    rw [onReceiverDisposition, if_neg nonempty, run_get_bind]
    dsimp only
    rw [← Session.verdicts, told, run_bind_of_error hcarry]
  rw [handle, hdispatch]

end Operation

/-! ### Faults of links -/

/-- What comes of a fault of a link, with its report.  The link is detached, unless this end has
detached it before; if the link is no more, the fault is that of the session. -/
def Serving.Blames (handle : UInt32) (report : ErrorReport) (s : Serving)
    (result : EStateM.Result Fault Serving Unit) : Prop :=
  match s.session.endpoints.get? handle with
  | none => result = .error (.session report) s
  | some endpoint =>
    if endpoint.link.detachSent then result = .ok () s
    else ∃ s', result = .ok () s' ∧ s.Quiet s'
      ∧ s'.session.pending = s.session.pending ++ [outgoingDetach handle report]

namespace Operation

theorem blames_detachWith {known : QueueId → Prop} {s : Serving}
    (attached : s.session.Attached known) (handle : UInt32) (report : ErrorReport) :
  s.Blames handle report (detachWith handle report s)
  := by
  rw [Serving.Blames]
  cases hget : s.session.endpoints.get? handle with
  | none =>
      dsimp only
      rw [detachWith, run_get_bind, hget]
      rfl
  | some endpoint =>
      dsimp only
      cases hsent : endpoint.link.detachSent with
      | true =>
          rw [if_pos rfl, detachWith, run_get_bind, hget]
          dsimp only
          rw [if_pos hsent]
          rfl
      | false =>
          rw [if_neg (by simp)]
          have hquiet := quiet_detachWith handle report s
          have hrun := detachWith_of_get? hget hsent report
          rw [after_of_ok hrun] at hquiet
          refine ⟨_, hrun, hquiet, ?_⟩
          change ((ite _ _ _ : Session).emit _ none).pending = _
          rw [pending_emit, (attached handle endpoint hget).handle]
          congr 1
          split <;> rfl

end Operation

end MessageBroker
