import MessageBroker.Proofs.Session.Browsing
import MessageBroker.Proofs.Session.Origins

/-!
# Links that are tended

The peer of a session attaches and detaches links, gives them credit and tells what became of
deliveries, and the session sends what waits and takes deliveries back.  Where the session only
browses, none of this changes the queues, no delivery is ever unsettled, and what is sent on a link
from a browser are copies of the messages that it shows.
-/

namespace MessageBroker

open Session

/-! ### What tends links -/

/-- The credit of the link with a handle once a flow of the peer has come: a flow that names the
link gives it anew. -/
def Flow.creditOn (handle : UInt32) (flow : Flow) (credit : LinkCredit) : LinkCredit :=
  if flow.handle = some handle then
    credit.onFlow flow.deliveryCount (flow.linkCredit.getD 0) flow.drain
  else credit

namespace Session.Act

/-- By an act a link is attached or detached, credit is given, it is told what became of deliveries
that were sent, or what waits or is unsettled is sent, or what is to be sent is taken. -/
def Tends : Session.Act → Prop
  | .handle (.attach _) _ | .handle (.flow _) _ | .handle (.detach _) _ => True
  | .handle (.disposition disposition) _ => disposition.role = .receiver
  | .pumpAll | .recover | .takeOutput => True
  | _ => False

/-- By an act what waits is sent on a link. -/
def Pumps (handle : UInt32) : Session.Act → Prop
  | .handle (.flow flow) _ => flow.handle = none ∨ flow.handle = some handle
  | .handle (.disposition disposition) _ =>
    disposition.role = .receiver ∧ disposition.first ≤ disposition.lastId
  | .pumpAll | .recover => True
  | _ => False

/-- The credit of the link with a handle when what waits is sent on it by an act. -/
def creditOn (handle : UInt32) (credit : LinkCredit) : Session.Act → LinkCredit
  | .handle (.flow flow) _ => flow.creditOn handle credit
  | _ => credit

end Session.Act

variable {s : Serving} {handle key : UInt32}

/-! ### Links that come and go -/

namespace Operation

theorem omits_detachWith (other : key ≠ handle) (report : ErrorReport) (s : Serving) :
  s.Omits handle ((detachWith key report).after s)
  := by
  obtain ⟨same, -⟩ | ⟨endpoint, -, -, parted⟩ := detachWith_cases key report s
  · rw [same]
    exact .refl handle s
  · rw [parted]
    split
    · exact (Serving.Omits.erase other s).trans (.emit rfl _)
    · exact (Serving.Omits.put other s endpoint.givenUp).trans (.emit rfl _)

theorem omits_onAttach {attach : Attach} (other : attach.handle ≠ handle) (s : Serving) :
  s.Omits handle ((onAttach attach).after s)
  := by
  have opened (kind : EndpointKind) (source : Option Source) (target : Option Target) :
      s.Omits handle (s.onSession (·.openLink attach kind source target)) :=
    (Serving.Omits.emit rfl s).trans (.put other _ _)
  obtain ⟨-, same⟩ | ⟨-, ⟨kind, -, accepted⟩ | ⟨report, source, target, -, refused⟩⟩ :=
    onAttach_cases attach s
  · rw [same]
    exact .refl handle s
  · rw [accepted]
    split
    · exact (opened _ _ _).trans (.emitLinkFlow _ _ _)
    · exact opened _ _ _
  · rw [refused]
    exact (opened _ _ _).trans (omits_detachWith other report _)

theorem omits_onDetach {detach : Detach} (other : detach.handle ≠ handle) (s : Serving) :
  s.Omits handle ((onDetach detach).after s)
  := by
  obtain ⟨-, same⟩ | ⟨endpoint, -, parted⟩ := onDetach_cases detach s
  · rw [same]
    exact .refl handle s
  · rw [parted]
    have gone : s.Omits handle (s.onSession (·.unlink detach.handle)) :=
      ⟨rfl, rfl, rfl, (Serving.Omits.erase other s).there, rfl⟩
    split
    · exact gone
    · exact gone.trans (.emit rfl _)

/-- A link is left alone when the peer attaches another one, or the same one again. -/
theorem omits_handle_attach {endpoint : Endpoint}
    (there : s.session.endpoints.get? handle = some endpoint) (attach : Attach) (payload : Bytes) :
  s.Omits handle ((Operation.handle (.attach attach) payload).after s)
  := by
  cases hget : s.session.endpoints.get? attach.handle with
  | some used =>
      rw [after_handle_attach_of_used hget]
      exact .refl handle s
  | none =>
      rw [after_handle_attach hget]
      apply omits_onAttach
      rintro rfl
      rw [there] at hget
      contradiction

/-! ### Flows -/

theorem omits_tellWindows (flow : Flow) (s : Serving) :
  s.Omits handle (s.onSession (tellWindows flow))
  := ⟨rfl, rfl, rfl, rfl, rfl⟩

end Operation

namespace Serving

theorem omits_echo (s : Serving) (flow : Flow) (key : UInt32) :
  s.Omits handle (s.echo flow key)
  := by
  rw [echo]
  split
  · exact .emitLinkFlow s s.store key
  · exact .refl handle s

/-- An answer to a flow changes nothing about what is shown. -/
theorem Shows.echo {copies : List Copy} {s' : Serving} (h : s.Shows handle copies s') (flow : Flow)
    (key : UInt32) :
  s.Shows handle copies (s'.echo flow key)
  := by
  have told := h.trans (s'.omits_echo flow key).shows
  rwa [List.append_nil] at told

theorem Stops.echo {credit : UInt32} {sent : Nat} (h : s.Stops handle credit sent) (flow : Flow)
    (key : UInt32) :
  (s.echo flow key).Stops handle credit sent
  := by
  apply h.of_shows (s.omits_echo flow key).shows
  intro closed
  rw [Serving.echo]
  split
  · exact (emitLinkFlow_same s.session s.store key).2.trans closed
  · exact closed

/-- A flow that names a link gives it credit, and the browser goes on as before. -/
theorem shows_credited (flow : Flow) {endpoint : Endpoint}
    (there : s.session.endpoints.get? handle = some endpoint) :
  s.Shows handle [] (s.onSession (·.putEndpoint handle (endpoint.credited flow)))
  := by
  refine ⟨rfl, rfl, rfl, (List.append_nil _).symm, ?_⟩
  intro before browser credit hbefore
  obtain rfl := Option.some.inj (there.symm.trans hbefore)
  exact ⟨browser, _, .done browser, Table.get?_put_self _ _ _⟩

section Credited

variable (only : s.session.OnlyBrowses) (flow : Flow) {endpoint : Endpoint}

include only

/-- On a link that a flow gives credit copies are sent. -/
theorem shows_pump_credited (there : s.session.endpoints.get? handle = some endpoint) :
  ∃ copies,
    s.Shows handle copies ((s.onSession (·.putEndpoint handle (endpoint.credited flow))).pump handle)
      ∧ ∀ before browser credit, endpoint = Endpoint.browsing before browser credit →
          before.link.isAttached = true →
          ((s.onSession (·.putEndpoint handle (endpoint.credited flow))).pump handle).Stops handle
            (credit.onFlow flow.deliveryCount (flow.linkCredit.getD 0) flow.drain).credit
            copies.length
  := by
  have only' : (s.session.putEndpoint handle (endpoint.credited flow)).OnlyBrowses :=
    only.of_sources (sources_put there rfl)
  obtain ⟨copies, shown, stops⟩ :=
    @shows_pump (s.onSession (·.putEndpoint handle (endpoint.credited flow))) only' handle
  refine ⟨[] ++ copies, (shows_credited flow there).trans shown, ?_⟩
  rintro before browser credit rfl attached
  exact stops before browser _ (Table.get?_put_self _ _ _) attached

/-- On the other links nothing is sent. -/
theorem omits_pump_credited (there : s.session.endpoints.get? key = some endpoint)
    (other : key ≠ handle) :
  s.Omits handle ((s.onSession (·.putEndpoint key (endpoint.credited flow))).pump key)
  := by
  have only' : (s.session.putEndpoint key (endpoint.credited flow)).OnlyBrowses :=
    only.of_sources (sources_put there rfl)
  exact (Omits.put other s (endpoint.credited flow)).trans
    (@omits_pump (s.onSession (·.putEndpoint key (endpoint.credited flow))) _ _ only' other)

end Credited

end Serving

namespace Operation

section Flows

variable (only : s.session.OnlyBrowses) {flow : Flow}

include only

/-- A flow that names no link has copies sent on all of them. -/
theorem shows_onFlow_of_none (names : flow.handle = none) (handle : UInt32) :
  ∃ copies, s.Shows handle copies ((onFlow flow).after s)
    ∧ ∀ endpoint browser credit,
        s.session.endpoints.get? handle = some (Endpoint.browsing endpoint browser credit) →
        endpoint.link.isAttached = true →
        ((onFlow flow).after s).Stops handle credit.credit copies.length
  := by
  have windows : s.Omits handle (s.onSession (tellWindows flow)) := omits_tellWindows flow s
  rw [after_of_ok (onFlow_of_none names s)]
  obtain ⟨t, ht, told, only'⟩ : ∃ t, (if flow.echo then
        (s.onSession (tellWindows flow)).onSession (·.emitSessionFlow)
      else s.onSession (tellWindows flow)) = t
      ∧ (s.onSession (tellWindows flow)).Omits handle t ∧ t.session.OnlyBrowses := by
    split
    · exact ⟨_, rfl, .emit rfl _, only⟩
    · exact ⟨_, rfl, .refl handle _, only⟩
  rw [ht]
  obtain ⟨copies, shown, stops⟩ := Serving.shows_pumpAll only' handle
  refine ⟨[] ++ copies, (windows.trans told).shows.trans shown, ?_⟩
  intro endpoint browser credit there attached
  exact stops endpoint browser credit ((windows.trans told).there.trans there) attached

/-- A flow that names a link has copies sent on it, if messages go to the peer. -/
theorem shows_onFlow_of_get? (names : flow.handle = some handle) {endpoint : Endpoint}
    (there : s.session.endpoints.get? handle = some endpoint) :
  ∃ copies, s.Shows handle copies ((onFlow flow).after s)
    ∧ ∀ before browser credit, endpoint = Endpoint.browsing before browser credit →
        before.link.isAttached = true →
        ((onFlow flow).after s).Stops handle
          (credit.onFlow flow.deliveryCount (flow.linkCredit.getD 0) flow.drain).credit
          copies.length
  := by
  have windows : s.Omits handle (s.onSession (tellWindows flow)) := omits_tellWindows flow s
  rw [after_of_ok (onFlow_of_get? names there)]
  split
  · obtain ⟨copies, shown, stops⟩ :=
      @Serving.shows_pump_credited (s.onSession (tellWindows flow)) handle only flow _ there
    refine ⟨[] ++ copies, (windows.shows.trans shown).echo flow handle, ?_⟩
    intro before browser credit same attached
    exact (stops before browser credit same attached).echo flow handle
  · next receives =>
      refine ⟨[], windows.shows.echo flow handle, ?_⟩
      rintro before browser credit rfl _
      exact absurd rfl receives

/-- A flow that names another link has nothing sent on a link. -/
theorem omits_onFlow (names : flow.handle = some key) (other : key ≠ handle) :
  s.Omits handle ((onFlow flow).after s)
  := by
  have windows : s.Omits handle (s.onSession (tellWindows flow)) := omits_tellWindows flow s
  cases hget : s.session.endpoints.get? key with
  | none =>
      rw [after_of_error (onFlow_of_unattached names hget)]
      exact windows
  | some endpoint =>
      rw [after_of_ok (onFlow_of_get? names hget)]
      apply Serving.Omits.trans _ (Serving.omits_echo _ flow key)
      split
      · exact windows.trans (@Serving.omits_pump_credited (s.onSession (tellWindows flow)) _ _ only
          flow _ hget other)
      · exact windows

/-- A flow of the peer changes neither the queues nor the unsettled deliveries. -/
theorem kept_onFlow (flow : Flow) :
  ((onFlow flow).after s).store = s.store
    ∧ ((onFlow flow).after s).session.outgoingUnsettled = s.session.outgoingUnsettled
  := by
  cases hflow : flow.handle with
  | none =>
      obtain ⟨_, shown, -⟩ := shows_onFlow_of_none only hflow 0
      exact ⟨shown.store, shown.unsettled⟩
  | some key =>
      cases hget : s.session.endpoints.get? key with
      | none =>
          rw [after_of_error (onFlow_of_unattached hflow hget)]
          exact ⟨rfl, rfl⟩
      | some endpoint =>
          obtain ⟨_, shown, -⟩ := shows_onFlow_of_get? only hflow hget
          exact ⟨shown.store, shown.unsettled⟩

/-- A flow of the peer has copies sent on a link, if it names the link or none. -/
theorem shows_onFlow (flow : Flow) {endpoint : Endpoint} {browser : Browser} {credit : LinkCredit}
    (there : s.session.endpoints.get? handle = some (endpoint.browsing browser credit))
    (attached : endpoint.link.isAttached = true) :
  ∃ copies, s.Shows handle copies ((onFlow flow).after s)
    ∧ (flow.handle = none ∨ flow.handle = some handle →
      ((onFlow flow).after s).Stops handle (flow.creditOn handle credit).credit copies.length)
  := by
  rw [Flow.creditOn]
  cases hflow : flow.handle with
  | none =>
      obtain ⟨copies, shown, stops⟩ := shows_onFlow_of_none only hflow handle
      exact ⟨copies, shown, fun _ => stops endpoint browser credit there attached⟩
  | some key =>
      by_cases own : key = handle
      · subst own
        obtain ⟨copies, shown, stops⟩ := shows_onFlow_of_get? only hflow there
        rw [if_pos rfl]
        exact ⟨copies, shown, fun _ => stops endpoint browser credit rfl attached⟩
      · refine ⟨[], (omits_onFlow only hflow own).shows, fun names => ?_⟩
        exact absurd (Option.some.inj (names.resolve_left (by simp))) own

end Flows

end Operation

/-! ### Where no delivery is unsettled -/

section Settled

variable (settled : s.session.outgoingUnsettled = [])

include settled

/-- Taking the deliveries back that are unsettled only sends what waits. -/
theorem Serving.recover_of_settled :
  s.recover.2 = s.pumpAll
  := by
  have same : { s.session with outgoingUnsettled := [] } = s.session := by rw [← settled]
  rw [recover, settled, same]
  rfl

/-- What the peer tells about deliveries that were sent only has what waits sent. -/
theorem Operation.handle_disposition_of_settled {disposition : Disposition}
    (receives : disposition.role = .receiver) (payload : Bytes) :
  Operation.handle (.disposition disposition) payload s
    = .ok () (if disposition.lastId < disposition.first then s else s.pumpAll)
  := by
  have none : s.session.decided disposition = [] := by
    rw [decided, settled]
    rfl
  have handled : onReceiverDisposition disposition s
      = .ok () (if disposition.lastId < disposition.first then s else s.pumpAll) := by
    rw [onReceiverDisposition]
    split
    · rfl
    · rw [run_get_bind, none]
      rfl
  rw [handle, dispatch, onDisposition, receives]
  dsimp only
  rw [handled]

end Settled

/-! ### Everything that is done with a session -/

namespace Session.Act

variable {act : Session.Act} (only : s.session.OnlyBrowses)
  (settled : s.session.outgoingUnsettled = [])

include only settled

/-- Whatever is done with a session that only browses, no delivery is unsettled. -/
theorem settled_run (act : Session.Act) :
  (act.run s).2.session.outgoingUnsettled = []
  := by
  have pumped : s.pumpAll.session.outgoingUnsettled = [] := by
    obtain ⟨_, shown, -⟩ := Serving.shows_pumpAll only 0
    exact shown.unsettled.trans settled
  cases act with
  | handle p payload =>
      change ((Operation.handle p payload).after s).session.outgoingUnsettled = []
      cases p with
      | flow flow =>
          rw [Operation.after_handle_flow]
          exact (Operation.kept_onFlow only flow).2.trans settled
      | disposition disposition =>
          cases hrole : disposition.role with
          | receiver =>
              rw [Operation.after_of_ok
                (Operation.handle_disposition_of_settled settled hrole payload)]
              split
              · exact settled
              · exact pumped
          | sender =>
              have alone : (Operation.dispatch (.disposition disposition) payload).after s
                  = s.onSession (·.onSenderDisposition disposition) := by
                rw [Operation.dispatch, Operation.onDisposition, hrole]
                rfl
              rw [Operation.outgoingUnsettled_handle, alone]
              exact (s.session.quiet_onSenderDisposition disposition).outgoingUnsettled.trans settled
      | attach attach =>
          rw [Operation.outgoingUnsettled_handle]
          exact (Operation.quiet_onAttach attach s).session.outgoingUnsettled.trans settled
      | detach detach =>
          rw [Operation.outgoingUnsettled_handle]
          exact (Operation.quiet_onDetach detach s).session.outgoingUnsettled.trans settled
      | transfer transfer =>
          rw [Operation.outgoingUnsettled_handle]
          exact (Operation.outgoingUnsettled_onTransfer transfer payload s).trans settled
      | _ => exact settled
  | pumpAll => exact pumped
  | recover =>
      change s.recover.2.session.outgoingUnsettled = []
      rw [Serving.recover_of_settled settled]
      exact pumped
  | finish => rfl
  | takeOutput => exact settled

/-- When links of a session that only browses are tended, the queues stay as they are. -/
theorem store_run (tends : act.Tends) :
  (act.run s).2.store = s.store
  := by
  have pumped : s.pumpAll.store = s.store := by
    obtain ⟨_, shown, -⟩ := Serving.shows_pumpAll only 0
    exact shown.store
  cases act with
  | handle p payload =>
      change ((Operation.handle p payload).after s).store = s.store
      cases p with
      | attach attach =>
          cases hget : s.session.endpoints.get? attach.handle with
          | some used => rw [Operation.after_handle_attach_of_used hget]
          | none =>
              rw [Operation.after_handle_attach hget]
              exact (Operation.quiet_onAttach attach s).store
      | detach detach =>
          rw [Operation.after_handle_detach]
          exact (Operation.quiet_onDetach detach s).store
      | flow flow =>
          rw [Operation.after_handle_flow]
          exact (Operation.kept_onFlow only flow).1
      | disposition disposition =>
          rw [Operation.after_of_ok (Operation.handle_disposition_of_settled settled tends payload)]
          split
          · rfl
          · exact pumped
      | _ => contradiction
  | pumpAll => exact pumped
  | recover =>
      change s.recover.2.store = s.store
      rw [Serving.recover_of_settled settled]
      exact pumped
  | finish => contradiction
  | takeOutput => rfl

/-- When links of a session that only browses are tended, copies are sent on a link from a browser
of the messages that it shows, and where what waits is sent it goes on until it stops. -/
theorem shows_run (tends : act.Tends) (taking : act ≠ .takeOutput) (lasts : ¬ act.Parts handle)
    {endpoint : Endpoint} {browser : Browser} {credit : LinkCredit}
    (there : s.session.endpoints.get? handle = some (endpoint.browsing browser credit))
    (attached : endpoint.link.isAttached = true) :
  ∃ copies, s.Shows handle copies (act.run s).2
    ∧ (act.Pumps handle →
      (act.run s).2.Stops handle (act.creditOn handle credit).credit copies.length)
  := by
  have pumped : ∃ copies, s.Shows handle copies s.pumpAll
      ∧ s.pumpAll.Stops handle credit.credit copies.length := by
    obtain ⟨copies, shown, stops⟩ := Serving.shows_pumpAll only handle
    exact ⟨copies, shown, stops endpoint browser credit there attached⟩
  cases act with
  | handle p payload =>
      change ∃ copies : List Copy, s.Shows handle copies ((Operation.handle p payload).after s)
        ∧ (_ → ((Operation.handle p payload).after s).Stops handle _ copies.length)
      cases p with
      | attach attach =>
          exact ⟨[], (Operation.omits_handle_attach there attach payload).shows, False.elim⟩
      | detach detach =>
          rw [Operation.after_handle_detach]
          have other : detach.handle ≠ handle := fun own => lasts (.inl own)
          exact ⟨[], (Operation.omits_onDetach other s).shows, False.elim⟩
      | flow flow =>
          rw [Operation.after_handle_flow]
          exact Operation.shows_onFlow only flow there attached
      | disposition disposition =>
          rw [Operation.after_of_ok (Operation.handle_disposition_of_settled settled tends payload)]
          split
          · next wraps =>
              refine ⟨[], .refl handle s, fun pumps => ?_⟩
              exact absurd pumps.2 (UInt32.not_le.mpr wraps)
          · obtain ⟨copies, shown, stops⟩ := pumped
            exact ⟨copies, shown, fun _ => stops⟩
      | _ => contradiction
  | pumpAll =>
      obtain ⟨copies, shown, stops⟩ := pumped
      exact ⟨copies, shown, fun _ => stops⟩
  | recover =>
      change ∃ copies : List Copy, s.Shows handle copies s.recover.2
        ∧ (_ → s.recover.2.Stops handle _ copies.length)
      rw [Serving.recover_of_settled settled]
      obtain ⟨copies, shown, stops⟩ := pumped
      exact ⟨copies, shown, fun _ => stops⟩
  | finish => contradiction
  | takeOutput => contradiction

end Session.Act

end MessageBroker
