import MessageBroker.Proofs.Session.Speaking

/-!
# What sessions have to send

A session has nothing to send but performatives of its own: links, windows and deliveries.  It is
the connection that begins it, ends it, and opens and closes itself.
-/

namespace MessageBroker

namespace Session

/-- A session has nothing to send but performatives of its own. -/
def Proper (session : Session) : Prop :=
  ∀ output ∈ session.outbox, output.performative.isOfSession = true

variable {session session' : Session}

theorem proper_ofBegin (terms : Begin) (limits : SessionLimits) :
  (ofBegin terms limits).Proper
  := by
  intro output hmem
  contradiction

theorem Proper.of_outbox (proper : session.Proper) (h : session'.outbox = session.outbox) :
  session'.Proper
  := by
  intro output hmem
  rw [h] at hmem
  apply proper output hmem

theorem Alike.proper (alike : session.Alike session') (proper : session.Proper) :
  session'.Proper
  := by
  intro output hmem
  apply (alike.kinds output hmem).elim (proper output) And.left

theorem Proper.emit (proper : session.Proper) {p : Performative} (kind : p.isOfSession = true)
    (payload : Option Bytes) :
  (session.emit p payload).Proper
  := by
  intro output hmem
  rcases List.mem_append.mp hmem with hbefore | hlast
  · apply session.alike_flush.proper proper output hbefore
  · rw [List.mem_singleton.mp hlast]
    exact kind

theorem Proper.sendPieces (proper : session.Proper) (transfer : Transfer) (pieces : List Bytes) :
  (session.sendPieces transfer pieces).Proper
  := by
  induction pieces generalizing session transfer with
  | nil => exact proper
  | cons piece pieces ih =>
      have sent (transfer : Transfer) : (session.sendTransfer transfer piece).Proper := by
        rw [sendTransfer]
        apply Proper.emit _ rfl
        apply proper.of_outbox rfl
      cases pieces with
      | nil => apply sent
      | cons next others => apply ih (sent _)

/-- Whatever a session tells, it tells by performatives of its own. -/
theorem Speaks.proper {act : Session.Act} (speaks : session.Speaks act session')
    (proper : session.Proper) :
  session'.Proper
  := by
  induction speaks with
  | alike alike => apply alike.proper proper
  | trans _ _ first second => apply second (first proper)
  | flow => apply proper.emit rfl
  | attach => apply (proper.emit rfl none).of_outbox rfl
  | detach =>
      apply Proper.emit _ rfl
      apply proper.of_outbox
      split <;> rfl
  | drop | finish | credit => apply proper.of_outbox rfl
  | answer | giveBack => apply Proper.emit (proper.of_outbox rfl) rfl
  | deliver =>
      rw [sendDelivery]
      apply Proper.sendPieces
      apply proper.of_outbox rfl

/-- Whatever is done with a session, it has nothing to send but performatives of its own. -/
theorem Act.proper_run (act : Session.Act) {s : Serving} (proper : s.session.Proper) :
  (act.run s).2.session.Proper
  := by
  by_cases taking : act = .takeOutput
  · rw [taking]
    intro output hmem
    contradiction
  · apply (act.speaks_run taking s).proper
    apply proper.of_outbox
    rw [informed.eq_def]
    split <;> rfl

theorem Proper.takeOutput (proper : session.Proper) {output : Outgoing}
    (hmem : output ∈ session.takeOutput.1) :
  output.performative.isOfSession = true
  := session.alike_flush.proper proper output hmem

end Session

end MessageBroker
