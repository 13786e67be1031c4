import MessageBroker.Proofs.Session.Refusals

/-!
# Refusals are told

What comes of the transfers of a delivery that is checked: until there is a reason to refuse the
delivery they are gathered, with the one that gives a reason the peer is told, and what comes after
it is dropped.  Nothing else changes but the link.
-/

namespace MessageBroker

open Session Parcel

namespace Operation

/-! ### Transfers of deliveries that are checked -/

section Handled

variable {known : QueueId → Prop} {s : Serving} {transfer : Transfer}
  {endpoint endpoint' : Endpoint} {queue : QueueId} {link : Link} {id : UInt32}
  {mode : ReceiverSettleMode} {tag : Bytes} {parcels : List Parcel} {taken : Assembly}
  {report : ErrorReport}

variable (window : s.session.incomingWindow ≠ 0)
  (there : s.session.endpoints.get? transfer.handle = some endpoint)
  (serves : endpoint.Serves queue link) (attached : endpoint.link.detachSent = false)
  (takes : endpoint.TakesNext link id mode tag parcels transfer taken endpoint')

include window there serves attached takes

/-- A transfer is gathered, or dropped, and only flows are told. -/
theorem handle_of_kept (aborted : transfer.aborted = false) (payload : Bytes)
    (within : (!link.exceedsMaxMessageSize (contents parcels).length
      && link.exceedsMaxMessageSize (contents (parcels ++ [(transfer, payload)])).length) = false)
    (goes : transfer.more = true
      ∨ link.exceedsMaxMessageSize (contents parcels).length = true) :
  ∃ s' other, handle (.transfer transfer) payload s = .ok () s' ∧ s.Quiet s'
    ∧ s.session.Flows s'.session ∧ s'.session.endpoints.get? transfer.handle = some other
    ∧ endpoint.Remains other ∧ other.link.unsettled = endpoint'.link.unsettled
    ∧ other.assembly = if transfer.more then some (taken.push payload) else none
  := by
  have receives : endpoint.kind.isReceiving = true := by rw [serves.kind]; rfl
  rw [← oversize_of_takesNext takes serves] at within
  rw [← takes.dropped, ← (Assembly.push_other taken payload).2.2.2.2] at goes
  have received := receiveOn_of_kept takes.take aborted within goes (s.onSession (·.count))
  have handled := handle_of_concluded window there receives attached received
  obtain ⟨quiet, flows, credit, left⟩ := concluded_spec (get?_takenOff transfer endpoint' s)
    takes.idle (taken.push payload)
  refine ⟨_, _, handled, (quiet_takenOff transfer endpoint' s).trans quiet,
    Flows.trans (.of_same rfl) flows, left, ?_, rfl, rfl⟩
  exact takes.remains.trans ⟨rfl, credit, _, rfl⟩

/-- A delivery that is aborted is settled, and only flows are told. -/
theorem handle_of_aborted (aborted : transfer.aborted = true) (payload : Bytes) :
  ∃ s' other, handle (.transfer transfer) payload s = .ok () s' ∧ s.Quiet s'
    ∧ s.session.Flows s'.session ∧ s'.session.endpoints.get? transfer.handle = some other
    ∧ endpoint.Remains other ∧ endpoint'.link.unsettled.Fades other.link.unsettled
  := by
  have receives : endpoint.kind.isReceiving = true := by rw [serves.kind]; rfl
  have handled : handle (.transfer transfer) payload s = .ok () (replenishWindow
      ((takenOff transfer endpoint' s).onSession (·.settle transfer.handle taken.id))) := by
    rw [handle, dispatch_transfer window there receives attached,
      receiveOn_of_aborted takes.take aborted]
    rfl
  refine ⟨_, endpoint'.settle taken.id, handled, ?_, ?_, ?_, ?_, ?_⟩
  · apply (quiet_takenOff transfer endpoint' s).trans
    exact Serving.Quiet.trans (.onSession (quiet_settle _ _ _)) (quiet_replenishWindow _)
  · exact Flows.trans (.of_same rfl) (flows_replenishWindow _)
  · rw [endpoints_replenishWindow]
    change ((takenOff transfer endpoint' s).session.endpoints.update transfer.handle
      (·.settle taken.id)).get? transfer.handle = _
    rw [Table.get?_update, if_pos rfl, get?_takenOff]
    rfl
  · exact takes.remains.trans (Endpoint.remains_settle endpoint' taken.id)
  · exact Unsettled.fades_settle _ _

variable (under : endpoint.Under known transfer.handle)
  (aborted : transfer.aborted = false)
  {payload : Bytes}
  (refusal : Refusal s.session.limits s.session.transactions link parcels (transfer, payload) report)

include under aborted refusal

/-- A delivery that is refused and may be rejected is rejected: the peer is told so, its tag is free
and what is left of it is dropped. -/
theorem handle_of_rejected (rejects : link.Rejects (parcels ++ [(transfer, payload)])) :
  ∃ s' other, handle (.transfer transfer) payload s = .ok () s' ∧ s.Quiet s'
    ∧ (∃ flows, s'.session.pending
      = (s.session.tell ⟨id, true, .rejected (some report)⟩).pending ++ outgoingFlows flows)
    ∧ s'.session.endpoints.get? transfer.handle = some other
    ∧ endpoint.Remains other ∧ other.link.unsettled.hasTag tag = false
    ∧ other.assembly = if transfer.more then some (taken.push payload).discard else none
  := by
  obtain ⟨supports, unsettled⟩ := rejects
  have receives : endpoint.kind.isReceiving = true := by rw [serves.kind]; rfl
  have held := takes.gathers payload
  obtain ⟨names', source', -⟩ := takes.remains.terms
  have supports' : endpoint'.link.supportsRejected = true :=
    (Link.supportsRejected_of_eq (source'.trans serves.source)).trans supports
  obtain ⟨told, htold⟩ : ∃ told, told = (takenOff transfer endpoint' s).onSession fun session =>
      (session.settle transfer.handle id).tell ⟨id, true, .rejected (some report)⟩ := ⟨_, rfl⟩
  have refused : refuse endpoint' (taken.push payload) report (takenOff transfer endpoint' s)
      = .ok () told := by
    rw [refuse_of_rejects supports' (held.settled.trans unsettled), names', under.handle, held.id, htold]
  have received : receiveOn endpoint transfer payload (s.onSession (·.count))
      = (if transfer.more then modify (putAssembly transfer.handle (taken.push payload).discard)
          else replenishCredit transfer.handle : Operation Unit) told := by
    rw [receiveOn_of_refusal takes serves aborted refusal]
    exact run_bind_of_ok refused _
  have there' : told.session.endpoints.get? transfer.handle = some (endpoint'.settle id) := by
    rw [htold]
    change ((takenOff transfer endpoint' s).session.endpoints.update transfer.handle
      (·.settle id)).get? transfer.handle = _
    rw [Table.get?_update, if_pos rfl, get?_takenOff]
    rfl
  have taking : s.Quiet told := by
    rw [htold]
    apply (quiet_takenOff transfer endpoint' s).trans
    exact .onSession ((quiet_settle _ _ _).trans (quiet_tell _ _))
  have handled := handle_of_concluded window there receives attached received
  obtain ⟨quiet, ⟨flows, hflows⟩, credit, left⟩ :=
    concluded_spec there' takes.idle (taken.push payload).discard
  refine ⟨_, _, handled, taking.trans quiet, ⟨flows, ?_⟩, left, ?_, ?_, rfl⟩
  · rw [hflows, htold]
    rfl
  · apply takes.remains.trans
    exact (Endpoint.remains_settle endpoint' id).trans ⟨rfl, credit, _, rfl⟩
  · have reserves := takes.reserves
    rw [takes.dropped, refusal.before, ← (Assembly.push_other taken payload).2.2.1, held.settled,
      unsettled] at reserves
    exact reserves.settle

/-- A delivery that is refused and may not be rejected has its link detached. -/
theorem handle_of_not_rejected (unfit : ¬ link.Rejects (parcels ++ [(transfer, payload)])) :
  ∃ s', handle (.transfer transfer) payload s = .ok () s' ∧ s.Quiet s'
    ∧ (∃ flows, s'.session.pending
      = s.session.pending ++ outgoingFlows flows ++ [outgoingDetach transfer.handle report])
    ∧ s'.session.endpoints.get? transfer.handle = some endpoint'.givenUp
  := by
  have receives : endpoint.kind.isReceiving = true := by rw [serves.kind]; rfl
  have held := takes.gathers payload
  obtain ⟨names', source', -, attached', -⟩ := takes.remains.terms
  have unfit' : ¬ (endpoint'.link.supportsRejected = true
      ∧ (taken.push payload).settled = false) := by
    rw [Link.supportsRejected_of_eq (source'.trans serves.source), held.settled]
    exact unfit
  have faulted : dispatch (.transfer transfer) payload s
      = .error (.link transfer.handle report) (replenishWindow (takenOff transfer endpoint' s)) := by
    rw [dispatch_transfer window there receives attached,
      receiveOn_of_refusal takes serves aborted refusal,
      run_bind_of_error (refuse_of_not_rejects unfit' report _), names', under.handle]
    rfl
  have there' : (replenishWindow (takenOff transfer endpoint' s)).session.endpoints.get?
      transfer.handle = some endpoint' := by
    rw [endpoints_replenishWindow, get?_takenOff]
  have under' := under.takeAssembly transfer
  rw [takes.take] at under'
  obtain ⟨s', handled⟩ : ∃ s', handle (.transfer transfer) payload s = .ok () s' := by
    rw [handle, faulted]
    exact ⟨_, detachWith_of_get? there' (attached'.trans attached) report⟩
  obtain ⟨-, gone, told⟩ := parts_of_fault faulted there' under' (attached'.trans attached)
  have detached := quiet_detachWith transfer.handle report
    (replenishWindow (takenOff transfer endpoint' s))
  obtain ⟨flows, hflows⟩ := flows_replenishWindow (takenOff transfer endpoint' s)
  rw [after_of_ok handled] at gone told
  refine ⟨s', handled, ?_, ⟨flows, ?_⟩, gone⟩
  · have quiet := (quiet_takenOff transfer endpoint' s).trans (quiet_replenishWindow _)
    have same : (detachWith transfer.handle report).after
        (replenishWindow (takenOff transfer endpoint' s)) = s' := by
      rw [handle, faulted] at handled
      exact after_of_ok handled
    rw [← same]
    exact quiet.trans detached
  · rw [told, hflows]
    rfl

end Handled

/-! ### Transfers that are not the last -/

section More

variable {known : QueueId → Prop} {s : Serving} {transfer : Transfer} {endpoint other : Endpoint}
  {queue : QueueId} {link : Link} {id : UInt32} {mode : ReceiverSettleMode} {tag : Bytes}
  {parcels : List Parcel}

/-- A delivery is checked where it is put back. -/
theorem checks_of_put (serves : endpoint.Serves queue link) (remains : endpoint.Remains other)
    {assembly : Assembly} (arriving : other.assembly = some assembly)
    (gathers : assembly.Gathers link id mode parcels)
    (dropped : assembly.discarding = link.exceedsMaxMessageSize (contents parcels).length)
    (reserves : other.link.unsettled.Reserves assembly.discarding assembly.settled id tag) :
  other.Checks queue link id mode tag parcels
  := ⟨serves.of_remains remains, fun _ => ⟨assembly, arriving, gathers, dropped, reserves⟩⟩

theorem checks_of_detached (serves : endpoint.Serves queue link)
    (sent : endpoint.link.detachSent = true) :
  endpoint.Checks queue link id mode tag parcels
  := by
  refine ⟨serves, fun attached => ?_⟩
  rw [sent] at attached
  contradiction

/-- A delivery goes on to be checked with a transfer that neither completes nor aborts it. -/
theorem checks_of_more (knows : s.session.Attached known) (window : s.session.incomingWindow ≠ 0)
    (there : s.session.endpoints.get? transfer.handle = some endpoint)
    (serves : endpoint.Serves queue link)
    (takes : endpoint.link.detachSent = false → ∃ taken endpoint',
      endpoint.TakesNext link id mode tag parcels transfer taken endpoint')
    (more : transfer.more = true) (aborted : transfer.aborted = false) (payload : Bytes) :
  ∃ other, ((handle (.transfer transfer) payload).after s).session.endpoints.get? transfer.handle
      = some other
    ∧ other.Checks queue link id mode tag (parcels ++ [(transfer, payload)])
  := by
  cases attached : endpoint.link.detachSent with
  | true =>
      rw [after_of_ok (handle_of_detached window there attached payload), endpoints_replenishWindow]
      exact ⟨endpoint, there, checks_of_detached serves attached⟩
  | false =>
      obtain ⟨taken, endpoint', takes⟩ := takes attached
      have gathers := takes.gathers payload
      cases surpasses : !link.exceedsMaxMessageSize (contents parcels).length
          && link.exceedsMaxMessageSize (contents (parcels ++ [(transfer, payload)])).length with
      | false =>
          -- The delivery is gathered, or was refused and is dropped.
          obtain ⟨s', other, handled, -, -, there', remains, unsettled, arriving⟩ :=
            handle_of_kept window there serves attached takes aborted payload surpasses (.inl more)
          obtain ⟨-, -, settled, -, dropped⟩ := Assembly.push_other taken payload
          rw [more, if_pos rfl] at arriving
          rw [after_of_ok handled]
          refine ⟨other, there', checks_of_put serves remains arriving gathers ?_ ?_⟩
          · rw [dropped, takes.dropped]
            cases before : link.exceedsMaxMessageSize (contents parcels).length with
            | true => exact (Link.exceedsMaxMessageSize_append before _).symm
            | false =>
                rw [before] at surpasses
                exact surpasses.symm
          · rw [unsettled, dropped, settled]
            exact takes.reserves
      | true =>
          obtain ⟨before, exceeds⟩ := (Bool.and_eq_true _ _).mp surpasses
          have refusal : Refusal s.session.limits s.session.transactions link parcels
              (transfer, payload) _ := .oversize (by simpa using before) exceeds
          by_cases rejects : link.Rejects (parcels ++ [(transfer, payload)])
          · obtain ⟨s', other, handled, -, -, there', remains, free, arriving⟩ :=
              handle_of_rejected window there serves attached takes (knows _ _ there) aborted refusal
                rejects
            rw [more, if_pos rfl] at arriving
            rw [after_of_ok handled]
            refine ⟨other, there', checks_of_put serves remains arriving (gathers.discard exceeds)
              exceeds.symm ⟨fun kept => by contradiction, fun _ => free⟩⟩
          · obtain ⟨s', handled, -, -, gone⟩ :=
              handle_of_not_rejected window there serves attached takes (knows _ _ there) aborted
                refusal rejects
            rw [after_of_ok handled]
            refine ⟨_, gone, checks_of_detached ?_ endpoint'.detachSent_givenUp⟩
            exact (serves.of_remains takes.remains).of_continues endpoint'.continues_givenUp

end More

end Operation

/-! ### What is refused once -/

/-- A transfer has a delivery refused: the broker has not detached the link, the transfer does not
abort the delivery, and there is a reason. -/
structure Endpoint.Refuses (session : Session) (link : Link) (parcels : List Parcel)
    (parcel : Parcel) (report : ErrorReport) (endpoint : Endpoint) : Prop where
  /-- The broker has not detached the link. -/
  attached : endpoint.link.detachSent = false
  /-- The delivery is not aborted. -/
  unaborted : parcel.1.aborted = false
  /-- There is a reason. -/
  refusal : Refusal session.limits session.transactions link parcels parcel report

/-- The link of a delivery that was refused goes on once a transfer of the delivery was handled. -/
structure Endpoint.Spared (tag : Bytes) (transfer : Transfer) (endpoint endpoint' : Endpoint) :
    Prop where
  /-- The link is attached as before. -/
  remains : endpoint.Remains endpoint'
  /-- The tag of the delivery is free. -/
  free : endpoint'.link.unsettled.hasTag tag = false
  /-- After the last transfer another delivery may begin, also with the tag. -/
  usable : transfer.aborted = false → transfer.more = false →
    ∀ next number mode, next.deliveryId = some number → next.deliveryTag = some tag →
      endpoint'.link.settleMode next.rcvSettleMode = .ok mode → endpoint'.Starts next number mode

/-- A delivery is refused once: what comes of a transfer of the delivery, after the given ones.  The
changes are quiet, so that queues and transactions stay as they are. -/
structure RefusesOnce (link : Link) (id : UInt32) (tag : Bytes) (parcels : List Parcel)
    (parcel : Parcel) (endpoint : Endpoint) (s s' : Serving) : Prop where
  /-- Until the delivery is refused, or has come to its end, only flows are told. -/
  untold : endpoint.link.detachSent = false → parcel.1.aborted = false → parcel.1.more = true →
    link.exceedsMaxMessageSize (contents (parcels ++ [parcel])).length = false →
    s.Quiet s' ∧ s.session.Flows s'.session
  /-- A delivery that may be rejected is settled as rejected, and its link is spared. -/
  rejected : ∀ report, endpoint.Refuses s.session link parcels parcel report →
    link.Rejects (parcels ++ [parcel]) →
    s.Quiet s'
      ∧ (∃ flows, s'.session.pending
        = (s.session.tell ⟨id, true, .rejected (some report)⟩).pending ++ outgoingFlows flows)
      ∧ ∃ endpoint', s'.session.endpoints.get? parcel.1.handle = some endpoint'
        ∧ endpoint.Spared tag parcel.1 endpoint'
  /-- Otherwise the link is detached. -/
  detached : ∀ report, endpoint.Refuses s.session link parcels parcel report →
    ¬ link.Rejects (parcels ++ [parcel]) →
    s.Quiet s'
      ∧ (∃ flows, s'.session.pending
        = s.session.pending ++ outgoingFlows flows ++ [outgoingDetach parcel.1.handle report])
      ∧ s'.session.Parted parcel.1.handle
  /-- What comes after that is dropped, and only flows are told. -/
  dropped : endpoint.link.detachSent = true
      ∨ link.exceedsMaxMessageSize (contents parcels).length = true →
    s.Quiet s' ∧ s.session.Flows s'.session
      ∧ (endpoint.link.detachSent = false →
        ∃ endpoint', s'.session.endpoints.get? parcel.1.handle = some endpoint'
          ∧ endpoint.Spared tag parcel.1 endpoint')

namespace Operation

section Once

variable {known : QueueId → Prop} {s s' : Serving} {transfer : Transfer}
  {endpoint other : Endpoint} {queue : QueueId} {link : Link} {id : UInt32}
  {mode : ReceiverSettleMode} {tag : Bytes} {parcels : List Parcel} {payload : Bytes}

variable (knows : s.session.Attached known) (window : s.session.incomingWindow ≠ 0)
  (positive : s.session.limits.linkCredit ≠ 0)
  (issued : ∀ purse ∈ s.session.purse? transfer.handle,
    purse.credit.issued = s.session.limits.linkCredit)
  (there : s.session.endpoints.get? transfer.handle = some endpoint)
  (serves : endpoint.Serves queue link)

include knows window positive issued there serves

/-- A link on which a delivery comes to its end is spared if the tag of the delivery is free. -/
theorem spared_of_handled (attached : endpoint.link.detachSent = false)
    (handled : handle (.transfer transfer) payload s = .ok () s')
    (there' : s'.session.endpoints.get? transfer.handle = some other)
    (remains : endpoint.Remains other) (free : other.link.unsettled.hasTag tag = false)
    (idle : transfer.aborted = false → transfer.more = false → other.assembly = none) :
  endpoint.Spared tag transfer other
  := by
  refine ⟨remains, free, fun unaborted last next number mode hid htag hmode => ?_⟩
  have receives : endpoint.kind.isReceiving = true := by rw [serves.kind]; rfl
  have attached' : other.link.detachSent = false := remains.terms.2.2.2.1.trans attached
  have purse : s.session.purse? transfer.handle
      = some ⟨endpoint.link.credit, endpoint.assembly.isSome⟩ := by
    rw [purse?_of_get? there]
    exact Endpoint.purse_eq_some_iff.mpr ⟨receives, attached, rfl⟩
  have ends := (ends_handle_transfer (fun endpoint hget => (knows _ _ hget).handle) window purse
    (issued _ purse) positive handled there' attached').2
  have half := (ends.last unaborted last).half_lt positive
  refine ⟨idle unaborted last, hid, ⟨tag, htag, fun _ => free⟩, ?_, hmode⟩
  rw [LinkCredit.maySend, decide_eq_true_eq]
  intro dry
  rw [dry] at half
  exact UInt32.not_lt_zero half

/-- What is left of a delivery that was refused is dropped. -/
theorem spared_of_dropped {taken : Assembly} {endpoint' : Endpoint}
    (attached : endpoint.link.detachSent = false)
    (takes : endpoint.TakesNext link id mode tag parcels transfer taken endpoint')
    (exceeds : link.exceedsMaxMessageSize (contents parcels).length = true) (payload : Bytes) :
  ∃ s' other, handle (.transfer transfer) payload s = .ok () s' ∧ s.Quiet s'
    ∧ s.session.Flows s'.session ∧ s'.session.endpoints.get? transfer.handle = some other
    ∧ endpoint.Spared tag transfer other
  := by
  have free := takes.reserves.free (takes.dropped.trans exceeds)
  cases aborted : transfer.aborted with
  | true =>
      obtain ⟨s', other, handled, quiet, flows, there', remains, fades⟩ :=
        handle_of_aborted window there serves attached takes aborted payload
      refine ⟨s', other, handled, quiet, flows, there', spared_of_handled knows window positive
        issued there serves attached handled there' remains ?_ fun unaborted => ?_⟩
      · exact (takes.reserves.of_fades fades).free (takes.dropped.trans exceeds)
      · rw [aborted] at unaborted
        contradiction
  | false =>
      obtain ⟨s', other, handled, quiet, flows, there', remains, unsettled, arriving⟩ :=
        handle_of_kept window there serves attached takes aborted payload
          (by rw [exceeds]; rfl) (.inr exceeds)
      refine ⟨s', other, handled, quiet, flows, there', spared_of_handled knows window positive
        issued there serves attached handled there' remains ?_ fun _ last => ?_⟩
      · rw [unsettled]
        exact free
      · rw [arriving, last]
        rfl

/-- A delivery is refused once, with whichever of its transfers there is a reason for it. -/
theorem refusesOnce_handle
    (takes : endpoint.link.detachSent = false → ∃ taken endpoint',
      endpoint.TakesNext link id mode tag parcels transfer taken endpoint') (payload : Bytes) :
  RefusesOnce link id tag parcels (transfer, payload) endpoint s
    ((handle (.transfer transfer) payload).after s)
  := by
  constructor
  · intro attached aborted more within
    obtain ⟨taken, endpoint', takes⟩ := takes attached
    obtain ⟨s', other, handled, quiet, flows, -⟩ :=
      handle_of_kept window there serves attached takes aborted payload
        (by rw [within, Bool.and_false]) (.inl more)
    rw [after_of_ok handled]
    exact ⟨quiet, flows⟩
  · intro report refuses rejects
    obtain ⟨taken, endpoint', takes⟩ := takes refuses.attached
    obtain ⟨s', other, handled, quiet, told, there', remains, free, arriving⟩ :=
      handle_of_rejected window there serves refuses.attached takes (knows _ _ there)
        refuses.unaborted refuses.refusal rejects
    rw [after_of_ok handled]
    refine ⟨quiet, told, other, there', spared_of_handled knows window positive issued there serves
      refuses.attached handled there' remains free fun _ last => ?_⟩
    rw [arriving, last]
    rfl
  · intro report refuses unfit
    obtain ⟨taken, endpoint', takes⟩ := takes refuses.attached
    obtain ⟨s', handled, quiet, told, gone⟩ :=
      handle_of_not_rejected window there serves refuses.attached takes (knows _ _ there)
        refuses.unaborted refuses.refusal unfit
    rw [after_of_ok handled]
    refine ⟨quiet, told, fun other there' => ?_⟩
    obtain rfl := Option.some.inj (gone.symm.trans there')
    exact endpoint'.detachSent_givenUp
  · intro refused
    cases attached : endpoint.link.detachSent with
    | true =>
        rw [after_of_ok (handle_of_detached window there attached payload)]
        exact ⟨(quiet_count s).trans (quiet_replenishWindow _),
          Flows.trans (.of_same rfl) (flows_replenishWindow _), fun h => by contradiction⟩
    | false =>
        have exceeds := refused.resolve_left (by simp [attached])
        obtain ⟨taken, endpoint', takes⟩ := takes attached
        obtain ⟨s', other, handled, quiet, flows, there', spared⟩ :=
          spared_of_dropped knows window positive issued there serves attached takes exceeds payload
        rw [after_of_ok handled]
        exact ⟨quiet, flows, fun _ => ⟨other, there', spared⟩⟩

end Once

end Operation

end MessageBroker
