import MessageBroker.Proofs.Session.Tagging

/-!
# Deliveries that the peer is to settle

A delivery of the peer is answered so that the peer is to settle it, and then the peer does so, or
its link or the session comes to an end.  Whatever is done with a session, its accounts stay in
order.
-/

namespace MessageBroker

open Session

/-! ### The last of what is told -/

/-- Whether an output is a flow. -/
def Outgoing.isFlow (output : Outgoing) : Bool :=
  match output.performative with
  | .flow _ => true
  | _ => false

namespace Session

/-- The last of outputs, flows apart. -/
def lastTold (outputs : List Outgoing) : Option Performative :=
  ((outputs.filter fun output => !output.isFlow).getLast?).map (·.performative)

theorem lastTold_flows (outputs : List Outgoing) (flows : List Flow) :
  lastTold (outputs ++ outgoingFlows flows) = lastTold outputs
  := by
  have none : (outgoingFlows flows).filter (fun output => !output.isFlow) = [] := by
    apply List.filter_eq_nil_iff.mpr
    intro output hmem
    obtain ⟨flow, -, rfl⟩ := List.mem_map.mp hmem
    simp [Outgoing.isFlow]
  rw [lastTold, List.filter_append, none, List.append_nil, lastTold]

theorem lastTold_detach (outputs : List Outgoing) (handle : UInt32) (report : ErrorReport) :
  lastTold (outputs ++ [outgoingDetach handle report]) = some (.detach ⟨handle, true, some report⟩)
  := by
  rw [lastTold, List.filter_append]
  change Option.map _ ((_ ++ [outgoingDetach handle report]).getLast?) = _
  rw [List.getLast?_concat]
  rfl

/-- When the peer is told about a delivery, the last disposition settles it or not, as it was
told. -/
theorem lastTold_tell (session : Session) (settlement : Settlement) :
  ∃ disposition, lastTold (session.tell settlement).pending = some (.disposition disposition)
    ∧ disposition.settled = settlement.settled
  := by
  obtain ⟨told, htold, hsettled⟩ :=
    Settlement.exists_getLast?_coalesce .receiver session.settlements settlement
  refine ⟨told, ?_, hsettled⟩
  have kept (dispositions : List Disposition) :
      (dispositions.map fun disposition => (⟨.disposition disposition, none⟩ : Outgoing)).filter
        (fun output => !output.isFlow)
      = dispositions.map fun disposition => ⟨.disposition disposition, none⟩ := by
    apply List.filter_eq_self.mpr
    intro output hmem
    obtain ⟨disposition, -, rfl⟩ := List.mem_map.mp hmem
    rfl
  rw [lastTold, pending, flush, tell]
  dsimp only
  rw [List.filter_append, kept, List.getLast?_append, List.getLast?_map, htold]
  rfl

end Session

/-! ### What the peer is to settle -/

namespace Session.Act

/-- By an act the peer settles a delivery that it sent. -/
def Settles (id : UInt32) : Session.Act → Prop
  | .handle (.disposition disposition) _ =>
    disposition.role = .sender ∧ disposition.settled = true ∧ covers disposition id = true
  | _ => False

/-- By an act a delivery that the peer has not settled is completed in a mode in which the receiver
settles second, and the peer is told an outcome by a disposition that does not settle it. -/
def Answers (s : Serving) (handle id : UInt32) (tag : Bytes) : Session.Act → Prop
  | .handle (.transfer transfer) payload =>
    ∃ endpoint assembly outcome flows,
      s.session.completed? (.transfer transfer) payload = some (endpoint, assembly)
        ∧ transfer.handle = handle ∧ assembly.id = id ∧ assembly.tag = tag
        ∧ assembly.settled = false ∧ assembly.settleMode = .second
        ∧ ((Operation.handle (.transfer transfer) payload).after s).session.pending
          = (s.session.tell ⟨id, false, outcome⟩).pending ++ outgoingFlows flows
  | _ => False

/-- After an act the peer is not to settle a delivery any more: it has done so, or the link or the
session has come to its end. -/
def Releases (handle id : UInt32) (act : Session.Act) : Prop :=
  act.Settles id ∨ act.Detaches handle ∨ act = .finish

end Session.Act

/-- What the peer is to settle after an act. -/
def Awaited.after (awaited : Awaited) (s : Serving) (act : Session.Act) : Awaited :=
  fun handle id tag =>
    awaited handle id tag ∧ ¬ act.Releases handle id ∨ act.Answers s handle id tag

namespace Operation

variable {awaited : Awaited} {begun : List UInt32} {s : Serving} {known : QueueId → Prop}

/-- The accounts are in order after a performative of the peer, if they are once the link that is
at fault has been detached. -/
theorem keeps_handle {p : Performative} {payload : Bytes}
    (kept : Kept awaited begun (dispatch p payload s))
    (attached : ((dispatch p payload).after s).session.Attached known) :
  ((handle p payload).after s).session.Keeps awaited begun
  := by
  rw [after, handle]
  cases h : dispatch p payload s with
  | ok _ s' =>
      rw [h] at kept
      exact kept
  | error fault s' =>
      rw [after_of_error h] at attached
      rw [h] at kept
      cases fault with
      | link handle report =>
          apply keeps_detachWith kept
          exact fun endpoint hget => (attached handle endpoint hget).detachReceived
      | _ => exact kept

/-! ### Transfers -/

/-- A transfer that completes no delivery does not answer any. -/
theorem not_answers_of_none {transfer : Transfer} {payload : Bytes}
    (incomplete : s.session.completed? (.transfer transfer) payload = none)
    (handle id : UInt32) (tag : Bytes) :
  ¬ Session.Act.Answers s handle id tag (.handle (.transfer transfer) payload)
  := by
  rintro ⟨endpoint, assembly, outcome, flows, completed, -⟩
  rw [incomplete] at completed
  contradiction

/-- What is left of a complete delivery is kept account of once credit and window are topped up. -/
theorem kept_onTransfer_of_completed {transfer : Transfer} {payload : Bytes} {endpoint : Endpoint}
    {assembly : Assembly}
    (completed : s.session.completed? (.transfer transfer) payload = some (endpoint, assembly))
    (kept : Kept awaited begun (complete endpoint assembly
      (s.onSession fun session => session.count.putEndpoint transfer.handle endpoint))) :
  Kept awaited begun (onTransfer transfer payload s)
  := by
  rw [onTransfer_of_completed completed]
  generalize complete endpoint assembly _ = result at kept
  cases result with
  | ok _ s' =>
      have credited : Kept awaited begun (.ok () ((replenishCredit transfer.handle).after s')) :=
        Keeps.of_leaves kept (leaves_replenishCredit transfer.handle s')
      exact credited.replenishWindow
  | error fault s' => exact kept.replenishWindow

/-- What an answer to a complete delivery shows. -/
theorem answers_iff {transfer : Transfer} {payload : Bytes} {endpoint : Endpoint}
    {assembly : Assembly}
    (completed : s.session.completed? (.transfer transfer) payload = some (endpoint, assembly))
    {key id : UInt32} {tag : Bytes} :
  Session.Act.Answers s key id tag (.handle (.transfer transfer) payload)
    ↔ (assembly.settled = false ∧ assembly.settleMode = .second
        ∧ ∃ outcome flows, ((handle (.transfer transfer) payload).after s).session.pending
          = (s.session.tell ⟨assembly.id, false, outcome⟩).pending ++ outgoingFlows flows)
      ∧ key = transfer.handle ∧ id = assembly.id ∧ tag = assembly.tag
  := by
  constructor
  · rintro ⟨endpoint', assembly', outcome, flows, completed', rfl, rfl, rfl, settled, mode, told⟩
    rw [completed] at completed'
    cases completed'
    exact ⟨⟨settled, mode, outcome, flows, told⟩, rfl, rfl, rfl⟩
  · rintro ⟨⟨settled, mode, outcome, flows, told⟩, rfl, rfl, rfl⟩
    exact ⟨endpoint, assembly, outcome, flows, completed, rfl, rfl, rfl, settled, mode, told⟩

/-- The last that the peer is told, flows apart, when a complete delivery is answered so that the
peer is to settle it, is a disposition that does not settle it. -/
theorem lastTold_of_answers {transfer : Transfer} {payload : Bytes} {key id : UInt32} {tag : Bytes}
    (answers : Session.Act.Answers s key id tag (.handle (.transfer transfer) payload)) :
  ∃ disposition, lastTold ((handle (.transfer transfer) payload).after s).session.pending
      = some (.disposition disposition) ∧ disposition.settled = false
  := by
  obtain ⟨-, -, outcome, flows, -, -, -, -, -, -, told⟩ := answers
  rw [told, lastTold_flows]
  exact lastTold_tell s.session ⟨id, false, outcome⟩

section NotAnswered

variable {transfer : Transfer} {payload : Bytes} {outputs : List Outgoing} {endpoint : Endpoint}
  {assembly : Assembly}

/-- A delivery whose link is detached for it is not answered. -/
theorem not_answers_of_detach {key : UInt32} {report : ErrorReport}
    (told : ((handle (.transfer transfer) payload).after s).session.pending
      = outputs ++ [outgoingDetach key report]) (handle id : UInt32) (tag : Bytes) :
  ¬ Session.Act.Answers s handle id tag (.handle (.transfer transfer) payload)
  := by
  intro answers
  obtain ⟨disposition, last, -⟩ := lastTold_of_answers answers
  rw [told, lastTold_detach] at last
  cases last

/-- A delivery that is settled to the peer does not await the peer. -/
theorem not_answers_of_tell {session : Session} {settlement : Settlement} {flows : List Flow}
    (settled : settlement.settled = true)
    (told : ((handle (.transfer transfer) payload).after s).session.pending
      = (session.tell settlement).pending ++ outgoingFlows flows)
    (handle id : UInt32) (tag : Bytes) :
  ¬ Session.Act.Answers s handle id tag (.handle (.transfer transfer) payload)
  := by
  intro answers
  obtain ⟨disposition, last, unsettled⟩ := lastTold_of_answers answers
  obtain ⟨disposition', last', settled'⟩ := lastTold_tell session settlement
  rw [told, lastTold_flows, last'] at last
  cases last
  rw [unsettled, settled] at settled'
  contradiction

/-- A delivery that the peer has settled is not answered. -/
theorem not_answers_of_settled
    (completed : s.session.completed? (.transfer transfer) payload = some (endpoint, assembly))
    (settled : assembly.settled = true) (handle id : UInt32) (tag : Bytes) :
  ¬ Session.Act.Answers s handle id tag (.handle (.transfer transfer) payload)
  := by
  intro answers
  rw [((answers_iff completed).mp answers).1.1] at settled
  contradiction

/-- A delivery that is not answered is nothing that the peer is to settle. -/
theorem keeps_of_not_answers (attached : s.session.Attached known)
    (no : ∀ handle id tag,
      ¬ Session.Act.Answers s handle id tag (.handle (.transfer transfer) payload))
    (kept : Kept awaited begun (onTransfer transfer payload s)) :
  ((handle (.transfer transfer) payload).after s).session.Keeps
    (fun handle id tag => awaited handle id tag
      ∨ Session.Act.Answers s handle id tag (.handle (.transfer transfer) payload)) begun
  := by
  simp only [no, or_false]
  exact keeps_handle kept (attached.of_continues (continues_onTransfer known transfer payload s))

end NotAnswered

theorem keeps_transfer (keeps : s.session.Keeps awaited begun)
    (attached : s.session.Attached known) {transfer : Transfer} {payload : Bytes}
    (new : ∀ id ∈ s.session.begun? (.handle (.transfer transfer) payload), id ∉ begun) :
  ((handle (.transfer transfer) payload).after s).session.Keeps
    (fun handle id tag => awaited handle id tag
      ∨ Session.Act.Answers s handle id tag (.handle (.transfer transfer) payload))
    (begun ++ (s.session.begun? (.handle (.transfer transfer) payload)).toList)
  := by
  cases hcompleted : s.session.completed? (.transfer transfer) payload with
  | none =>
      apply keeps_of_not_answers attached (not_answers_of_none hcompleted)
      exact kept_onTransfer keeps attached new hcompleted
  | some completed =>
      obtain ⟨endpoint, assembly⟩ := completed
      have inHand := inHand_of_completed keeps attached new hcompleted
      generalize begun ++ (s.session.begun? (.handle (.transfer transfer) payload)).toList = begun'
        at inHand ⊢
      -- What is left of the delivery is accounted for where the transfer has been counted.
      have kept {awaited' : Awaited} (h : Kept awaited' begun' (complete endpoint assembly _)) :=
        kept_onTransfer_of_completed hcompleted h
      generalize hcounted : (s.onSession fun session =>
        session.count.putEndpoint transfer.handle endpoint) = counted at kept
      have counted' : s.session.count.putEndpoint transfer.handle endpoint = counted.session := by
        rw [← hcounted]
        rfl
      rw [counted'] at inHand
      have completes := completes_complete endpoint assembly counted inHand.receives
      generalize hresult : complete endpoint assembly counted = result at completes kept
      rw [← hcounted] at hresult
      cases completes with
      | @fault report apart =>
          have hget : counted.session.endpoints.get? endpoint.link.handle = some endpoint := by
            rw [← counted', inHand.names]
            exact Table.get?_put_self _ _ _
          obtain ⟨flows, told⟩ := detaches_of_completed hcompleted hresult hget inHand.attached
          apply keeps_of_not_answers attached (not_answers_of_detach told)
          exact kept (inHand.kept_fault report)
      | settled transactions store settled =>
          apply keeps_of_not_answers attached (not_answers_of_settled hcompleted settled)
          exact kept (inHand.kept_settled (.of_same rfl rfl rfl rfl))
      | told transactions store state =>
          obtain ⟨flows, told⟩ := flows_of_completed hcompleted hresult
          apply keeps_of_not_answers attached (not_answers_of_tell rfl told)
          exact kept (inHand.kept_settled (.of_same rfl rfl rfl rfl))
      | awaited transactions store state unsettled mode =>
          obtain ⟨flows, answered⟩ := flows_of_completed hcompleted hresult
          have answers (key id : UInt32) (tag : Bytes) :
              Session.Act.Answers s key id tag (.handle (.transfer transfer) payload)
                ↔ key = transfer.handle ∧ id = assembly.id ∧ tag = assembly.tag := by
            rw [answers_iff hcompleted]
            apply and_iff_right
            refine ⟨unsettled, mode, state, flows, ?_⟩
            rw [answered, ← hcounted]
            rfl
          simp only [answers]
          exact keeps_handle (kept (inHand.kept_awaited unsettled transactions store _))
            (attached.of_continues (continues_onTransfer known transfer payload s))

/-! ### Links come and go -/

theorem keeps_onAttach (keeps : s.session.Keeps awaited begun) (attach : Attach) :
  ((onAttach attach).after s).session.Keeps awaited begun
  := by
  obtain ⟨-, same⟩ | ⟨unused, h⟩ := onAttach_cases attach s
  · rw [same]
    exact keeps
  · have free : s.session.account? attach.handle = none := by rw [account?, unused]; rfl
    have opened (kind : EndpointKind) (source : Option Source) (target : Option Target) :
        (s.session.openLink attach kind source target).Keeps awaited begun := by
      have told (reply : Attach) : (s.session.emit (.attach reply) none).Keeps awaited begun :=
        keeps.of_leaves (leaves_emit _ _ _)
      exact (told _).attach free rfl rfl
    obtain ⟨kind, -, accepted⟩ | ⟨report, source, target, -, refused⟩ := h
    · rw [accepted]
      dsimp only [Serving.onSession]
      split
      · exact (opened _ _ _).of_leaves (leaves_emitLinkFlow _ _ _)
      · exact opened _ _ _
    · rw [refused]
      apply keeps_detachWith (.none (opened _ _ _))
      intro endpoint hget
      obtain rfl := Option.some.inj ((s.session.get?_openLink _ _ _ _).symm.trans hget)
      rfl

theorem keeps_onDetach (keeps : s.session.Keeps awaited begun) (detach : Detach) :
  ((onDetach detach).after s).session.Keeps
    (fun handle id tag => awaited handle id tag ∧ handle ≠ detach.handle) begun
  := by
  obtain ⟨hget, same⟩ | ⟨endpoint, -, parted⟩ := onDetach_cases detach s
  · have unawaited : (fun handle id tag => awaited handle id tag ∧ handle ≠ detach.handle)
        = awaited := by
      funext handle id tag
      apply propext
      apply and_iff_left_of_imp
      rintro awaits rfl
      have there := keeps.there _ _ _ awaits
      rw [account?, hget] at there
      contradiction
    rw [same, unawaited]
    exact keeps
  · rw [parted]
    have gone := keeps.detach detach.handle
    dsimp only [Serving.onSession]
    split
    · exact gone
    · exact gone.of_leaves (leaves_emit _ _ _)

end Operation

/-! ### Everything that is done with a session -/

namespace Session.Act

variable {awaited : Awaited} {begun : List UInt32} {s : Serving} {known : QueueId → Prop}
  {act : Session.Act}

/-- Acts that neither begin nor answer a delivery of the peer. -/
theorem keeps_of_released (awaited' : Awaited) {session : Session}
    (keeps : session.Keeps awaited' begun) (begins : s.session.begun? act = none)
    (answers : ∀ handle id tag, ¬ act.Answers s handle id tag)
    (same : ∀ handle id tag,
      awaited' handle id tag ↔ awaited handle id tag ∧ ¬ act.Releases handle id) :
  session.Keeps (awaited.after s act) (begun ++ (s.session.begun? act).toList)
  := by
  have after : awaited.after s act = awaited' := by
    funext handle id tag
    apply propext
    rw [Awaited.after, same]
    simp [answers]
  rw [after, begins, Option.toList_none, List.append_nil]
  exact keeps

/-- What the peer sends but for transfers neither begins nor answers a delivery. -/
theorem keeps_handle_of_released (awaited' : Awaited) {p : Performative} {payload : Bytes}
    (attached : s.session.Attached known)
    (keeps : ((Operation.dispatch p payload).after s).session.Keeps awaited' begun)
    (continues : ∀ handle, s.session.Continues known (¬ Concerns handle (.handle p payload)) handle
      ((Operation.dispatch p payload).after s).session)
    (begins : s.session.begun? (.handle p payload) = none)
    (answers : ∀ handle id tag, ¬ Answers s handle id tag (.handle p payload))
    (same : ∀ handle id tag, awaited' handle id tag
      ↔ awaited handle id tag ∧ ¬ Releases handle id (.handle p payload)) :
  ((Operation.handle p payload).after s).session.Keeps (awaited.after s (.handle p payload))
    (begun ++ (s.session.begun? (.handle p payload)).toList)
  := by
  refine keeps_of_released awaited' ?_ begins answers same
  exact Operation.keeps_handle (Operation.kept_of_after keeps) (attached.of_continues continues)

/-- By a disposition the peer settles the deliveries that it sent, if it does so at all. -/
theorem keeps_disposition (keeps : s.session.Keeps awaited begun)
    (attached : s.session.Attached known) (disposition : Disposition) (payload : Bytes) :
  ((Operation.handle (.disposition disposition) payload).after s).session.Keeps
    (awaited.after s (.handle (.disposition disposition) payload))
    (begun ++ (s.session.begun? (.handle (.disposition disposition) payload)).toList)
  := by
  have continues := Operation.continues_onDisposition known
  cases hrole : disposition.role with
  | receiver =>
      have kept : ((Operation.onDisposition disposition).after s).session.Keeps awaited begun := by
        rw [Operation.onDisposition, hrole]
        exact keeps.of_leaves (Operation.leaves_onReceiverDisposition disposition s)
      apply keeps_handle_of_released awaited attached kept
        (fun handle => continues _ handle disposition s) rfl (fun _ _ _ => id)
      simp [Releases, Settles, Detaches, hrole]
  | sender =>
      have kept : ((Operation.onDisposition disposition).after s).session.Keeps
          (fun handle id tag => awaited handle id tag
            ∧ ¬ (disposition.settled = true ∧ covers disposition id = true)) begun := by
        rw [Operation.onDisposition, hrole]
        exact keeps.onSenderDisposition disposition
      apply keeps_handle_of_released _ attached kept
        (fun handle => continues _ handle disposition s) rfl (fun _ _ _ => id)
      simp [Releases, Settles, Detaches, hrole]

/-- The accounts of deliveries from the peer stay in order, whatever is done with a session, as long
as it begins no delivery with a number that was used. -/
theorem keeps_run (keeps : s.session.Keeps awaited begun)
    (attached : s.session.Attached s.store.Has) (new : ∀ id ∈ s.session.begun? act, id ∉ begun) :
  (act.run s).2.session.Keeps (awaited.after s act) (begun ++ (s.session.begun? act).toList)
  := by
  cases act with
  | handle p payload =>
      cases p with
      | transfer transfer =>
          have same : awaited.after s (.handle (.transfer transfer) payload)
              = fun handle id tag => awaited handle id tag
                ∨ Answers s handle id tag (.handle (.transfer transfer) payload) := by
            funext handle id tag
            simp [Awaited.after, Releases, Settles, Detaches]
          rw [same]
          exact Operation.keeps_transfer keeps attached new
      | attach attach =>
          apply keeps_handle_of_released awaited attached (Operation.keeps_onAttach keeps attach)
            (fun handle => Operation.continues_onAttach _ _ _ attach fun _ h => h) rfl
            (fun _ _ _ => id)
          simp [Releases, Settles, Detaches]
      | flow flow =>
          have kept : ((Operation.onFlow flow).after s).session.Keeps awaited begun :=
            keeps.of_leaves (Operation.leaves_onFlow flow s)
          apply keeps_handle_of_released awaited attached kept
            (fun handle => Operation.continues_onFlow _ _ _ flow s) rfl (fun _ _ _ => id)
          simp [Releases, Settles, Detaches]
      | detach detach =>
          apply keeps_handle_of_released _ attached (Operation.keeps_onDetach keeps detach)
            (fun handle => Operation.continues_onDetach _ detach s handle) rfl (fun _ _ _ => id)
          simp [Releases, Settles, Detaches, eq_comm]
      | disposition disposition => exact keeps_disposition keeps attached disposition payload
      | _ =>
          apply keeps_handle_of_released awaited attached keeps
            (fun handle => .refl _ _ _ _) rfl (fun _ _ _ => id)
          simp [Releases, Settles, Detaches]
  | pumpAll =>
      apply keeps_of_released awaited (keeps.of_leaves s.leaves_pumpAll) rfl (fun _ _ _ => id)
      simp [Releases, Settles, Detaches]
  | recover =>
      apply keeps_of_released awaited (keeps.of_leaves s.leaves_recover) rfl (fun _ _ _ => id)
      simp [Releases, Settles, Detaches]
  | finish =>
      have finished : s.finish.session.Keeps (fun _ _ _ => False) begun :=
        keeps.finish rfl rfl rfl rfl
      apply keeps_of_released _ finished rfl (fun _ _ _ => id)
      simp [Releases]
  | takeOutput =>
      have taken : s.session.takeOutput.2.Keeps awaited begun :=
        keeps.of_leaves (.of_same rfl rfl rfl rfl)
      apply keeps_of_released awaited taken rfl (fun _ _ _ => id)
      simp [Releases, Settles, Detaches]

end Session.Act

end MessageBroker
