import MessageBroker.Proofs.Session.Crediting

/-!
# Deliveries are begun within the credit

Only a flow that names a link gives it credit.  Until one arrives no more deliveries are begun on
the link than it has credit, whatever is done with the session, and as long as the link is there
its delivery count goes on by the deliveries that are begun.
-/

namespace MessageBroker

open Session

/-! ### Deliveries within the credit -/

namespace Standing

/-- How many deliveries may be begun on a link. -/
def budget (x : Standing) : Nat :=
  (x.meter.map (·.credit.credit.toNat)).getD 0

/-- So many deliveries are begun on a link, within its credit, and if the link lasts its delivery
count goes on by them.  A link that comes in place of another, or of none, has no credit. -/
structure Passes (lasting : Prop) (sent : Nat) (x y : Standing) : Prop where
  /-- So many deliveries are begun. -/
  begun : y.begun = x.begun + sent
  /-- They are within the credit, and the credit that is left is less by as many. -/
  budget : sent + y.budget ≤ x.budget
  /-- The link goes on. -/
  goes : lasting → ∀ meter, x.meter = some meter → meter.detachReceived = false →
    ∃ attached credit, y.meter = some { meter with attached, credit }
      ∧ meter.credit.Spends sent credit

namespace Passes

variable {lasting : Prop} {sent more : Nat} {x y z : Standing}

theorem of_sends (h : x.Sends sent y) :
  x.Passes lasting sent y
  := by
  cases h with
  | idle =>
      exact ⟨rfl, Nat.le_of_eq (Nat.zero_add _), fun _ meter hmeter _ => ⟨_, _, hmeter, .refl _⟩⟩
  | sends attached spends =>
      refine ⟨rfl, spends.budget, ?_⟩
      intro _ meter hmeter _
      obtain rfl := Option.some.inj hmeter
      exact ⟨_, _, rfl, spends⟩

theorem of_eq (h : y = x) :
  x.Passes lasting 0 y
  := of_sends (.of_eq h)

theorem trans (h : x.Passes lasting sent y) (h' : y.Passes lasting more z) :
  x.Passes lasting (sent + more) z
  := by
  constructor
  · rw [h'.begun, h.begun, Nat.add_assoc]
  · have := h.budget
    have := h'.budget
    omega
  · intro hlasting meter hmeter hreceived
    obtain ⟨attached, credit, hmid, hspends⟩ := h.goes hlasting meter hmeter hreceived
    obtain ⟨attached', credit', hend, hspends'⟩ := h'.goes hlasting _ hmid hreceived
    exact ⟨attached', credit', hend, hspends.trans hspends'⟩

/-- What begins no delivery may come first. -/
theorem after (h : x.Passes lasting 0 y) (h' : y.Passes lasting sent z) :
  x.Passes lasting sent z
  := by
  have htrans := h.trans h'
  rw [Nat.zero_add] at htrans
  exact htrans

theorem mono {lasting' : Prop} (h : x.Passes lasting sent y) (weaker : lasting' → lasting) :
  x.Passes lasting' sent y
  := ⟨h.begun, h.budget, fun hlasting => h.goes (weaker hlasting)⟩

end Passes

end Standing

/-! ### Links that come and go -/

/-- The credit of a link is told if a flow wants an answer. -/
def Serving.echo (s : Serving) (flow : Flow) (key : UInt32) : Serving :=
  if flow.echo then s.onSession fun session => session.emitLinkFlow s.store key else s

namespace Operation

variable (lasting : Prop) (handle : UInt32)

theorem meter_givenUp (endpoint : Endpoint) :
  endpoint.givenUp.meter = { endpoint.meter with attached := false }
  := by
  have hdetaching (link : Link) : ({ link with detachSent := true } : Link).isAttached = false := by
    rw [Link.isAttached, Link.state]
    cases link.detachReceived with
    | false => rfl
    | true => rfl
  rw [Endpoint.givenUp, Endpoint.meter, Endpoint.meter]
  cases endpoint.assembly with
  | none => exact congrArg (Meter.mk _ · _ _) (hdetaching _)
  | some assembly => exact congrArg (Meter.mk _ · _ _) (hdetaching _)

/-- A link that the broker detaches is no more attached, and goes on otherwise. -/
theorem passes_detachWith (key : UInt32) (report : ErrorReport) (s : Serving) :
  (s.session.standing handle).Passes lasting 0
    (((detachWith key report).after s).session.standing handle)
  := by
  obtain ⟨same, -⟩ | ⟨endpoint, hget, -, parted⟩ := detachWith_cases key report s
  · rw [same]
    exact .of_eq rfl
  · rw [parted]
    change Standing.Passes lasting 0 _ ((emit _ _ _).standing handle)
    rw [standing_emit _ handle rfl]
    split
    · next hgone =>
        rw [standing, standing]
        dsimp only
        rw [Table.get?_erase]
        split
        · next hkey =>
            rw [hkey, hget]
            refine ⟨rfl, Nat.zero_le _, ?_⟩
            intro _ meter hmeter hreceived
            obtain rfl := Option.some.inj hmeter
            exact absurd (hgone.symm.trans hreceived) (by simp)
        · exact .of_eq rfl
    · rw [standing_putEndpoint]
      split
      · next hkey =>
          rw [meter_givenUp, standing, hkey, hget]
          refine ⟨rfl, Nat.le_of_eq (Nat.zero_add _), ?_⟩
          intro _ meter hmeter _
          obtain rfl := Option.some.inj hmeter
          exact ⟨_, _, rfl, .refl _⟩
      · exact .of_eq rfl

/-- A link that the peer detaches is no more. -/
theorem passes_onDetach (detach : Detach) (s : Serving) :
  (s.session.standing handle).Passes (detach.handle ≠ handle) 0
    (((onDetach detach).after s).session.standing handle)
  := by
  obtain ⟨-, same⟩ | ⟨endpoint, -, parted⟩ := onDetach_cases detach s
  · rw [same]
    exact .of_eq rfl
  · rw [parted]
    have gone : (s.session.standing handle).Passes (detach.handle ≠ handle) 0
        ((s.session.unlink detach.handle).standing handle) := by
      change Standing.Passes _ 0 _ ⟨s.session.begunOn handle,
        ((s.session.endpoints.erase detach.handle).get? handle).map Endpoint.meter⟩
      rw [Table.get?_erase]
      split
      · next hkey => exact ⟨rfl, Nat.zero_le _, fun hne => absurd hkey.symm hne⟩
      · exact .of_eq rfl
    dsimp only [Serving.onSession]
    split
    · exact gone
    · rw [standing_emit _ handle rfl]
      exact gone

/-- A link that is put under a handle that is not in use has no credit. -/
theorem passes_putEndpoint {session : Session} {key : UInt32} {endpoint : Endpoint}
    (free : session.endpoints.get? key = none) (start : endpoint.meter.credit.credit = 0) :
  (session.standing handle).Passes lasting 0 ((session.putEndpoint key endpoint).standing handle)
  := by
  rw [standing_putEndpoint]
  split
  · next hkey =>
      refine ⟨rfl, ?_, ?_⟩
      · rw [Nat.zero_add]
        change endpoint.meter.credit.credit.toNat ≤ _
        rw [start]
        exact Nat.zero_le _
      · intro _ meter hmeter _
        rw [standing, hkey, free] at hmeter
        contradiction
  · exact .of_eq rfl

/-- Credit for the peer is no credit of a link that messages go to the peer on. -/
theorem credit_meter_opened (attach : Attach) (limits : SessionLimits) (kind : EndpointKind)
    (source : Option Source) (target : Option Target) :
  (Endpoint.opened attach limits kind source target).meter.credit.credit = 0
  := by
  cases kind <;> rfl

theorem passes_onAttach (attach : Attach) (s : Serving) :
  (s.session.standing handle).Passes lasting 0
    (((onAttach attach).after s).session.standing handle)
  := by
  obtain ⟨-, same⟩ | ⟨free, h⟩ := onAttach_cases attach s
  · rw [same]
    exact .of_eq rfl
  · have opened (kind : EndpointKind) (source : Option Source) (target : Option Target) :
        (s.session.standing handle).Passes lasting 0
          ((s.session.openLink attach kind source target).standing handle) := by
      have told (reply : Attach) : (s.session.emit (.attach reply) none).standing handle
          = s.session.standing handle := s.session.standing_emit handle rfl
      rw [openLink, ← told]
      exact passes_putEndpoint lasting handle free (credit_meter_opened _ _ _ _ _)
    obtain ⟨kind, -, accepted⟩ | ⟨report, source, target, -, refused⟩ := h
    · rw [accepted]
      dsimp only [Serving.onSession]
      split
      · rw [standing_emitLinkFlow]
        exact opened _ _ _
      · exact opened _ _ _
    · rw [refused]
      apply Standing.Passes.after _ (passes_detachWith lasting handle _ report _)
      exact opened .refused source target

/-! ### Flows and outcomes -/

/-- The windows that a flow tells. -/
def tellWindows (flow : Flow) (session : Session) : Session :=
  { session with
    remoteOutgoingWindow := flow.outgoingWindow
    remoteIncomingWindow := windowAfter flow session.nextOutgoingId }

/-- A flow that names no link lets messages be sent on all of them. -/
theorem onFlow_of_none {flow : Flow} (h : flow.handle = none) (s : Serving) :
  onFlow flow s
    = .ok () (if flow.echo then (s.onSession (tellWindows flow)).onSession (·.emitSessionFlow)
        else s.onSession (tellWindows flow)).pumpAll
  := by
  rw [onFlow, run_onSession_bind, h]
  dsimp only
  split
  · rfl
  · rfl

/-- A flow that names a link gives it credit if messages go to the peer, lets them be sent, and is
answered if it wants that. -/
theorem onFlow_of_get? {flow : Flow} {key : UInt32} (h : flow.handle = some key) {s : Serving}
    {endpoint : Endpoint} (hget : s.session.endpoints.get? key = some endpoint) :
  onFlow flow s
    = .ok () ((if endpoint.kind.isSending then
        ((s.onSession (tellWindows flow)).onSession
          (·.putEndpoint key (endpoint.credited flow))).pump key
      else s.onSession (tellWindows flow)).echo flow key)
  := by
  have hecho (s : Serving) :
      (if flow.echo then
        modify fun s => s.onSession fun session => session.emitLinkFlow s.store key
      else pure () : Operation Unit) s = .ok () (s.echo flow key) := by
    rw [Serving.echo]
    split
    · rfl
    · rfl
  have hget' : (s.onSession (tellWindows flow)).session.endpoints.get? key = some endpoint := hget
  rw [onFlow, h]
  change (onSession (tellWindows flow) >>= _) s = _
  rw [run_onSession_bind]
  dsimp only
  rw [run_get_bind, hget']
  dsimp only
  split
  · rw [run_onSession_bind, run_modify_bind]
    exact hecho _
  · exact hecho _

/-- An answer to a flow leaves all links as they stand. -/
theorem onFlow_of_some {flow : Flow} {key : UInt32} (h : flow.handle = some key) {s : Serving}
    {endpoint : Endpoint} (hget : s.session.endpoints.get? key = some endpoint) :
  ∃ s', onFlow flow s = .ok () s'
    ∧ s'.session.standing
      = (if endpoint.kind.isSending then
          ((s.onSession (tellWindows flow)).onSession
            (·.putEndpoint key (endpoint.credited flow))).pump key
        else s.onSession (tellWindows flow)).session.standing
  := by
  have hecho (s : Serving) : (s.echo flow key).session.standing = s.session.standing := by
    rw [Serving.echo]
    split
    · exact funext fun handle => s.session.standing_emitLinkFlow handle s.store key
    · rfl
  exact ⟨_, onFlow_of_get? h hget, hecho _⟩

theorem onFlow_of_unattached {flow : Flow} {key : UInt32} (h : flow.handle = some key)
    {s : Serving} (hget : s.session.endpoints.get? key = none) :
  onFlow flow s
    = .error (.onSession .unattachedHandle s!"flow on unattached handle {key}")
        (s.onSession (tellWindows flow))
  := by
  have hget' : (s.onSession (tellWindows flow)).session.endpoints.get? key = none := hget
  rw [onFlow, h]
  change (onSession (tellWindows flow) >>= _) s = _
  rw [run_onSession_bind]
  dsimp only
  rw [run_get_bind, hget']
  rfl

/-- An operation lets deliveries be begun on a link, and does not fail, or it begins none. -/
def Proceeds (lasting : Prop) (handle : UInt32) (op : Operation Unit) (s : Serving) : Prop :=
  (∃ s' sent, op s = .ok () s'
      ∧ (s.session.standing handle).Sends sent (s'.session.standing handle))
    ∨ (s.session.standing handle).Passes lasting 0 ((op.after s).session.standing handle)

/-- A flow that does not name a link lets deliveries be begun on it. -/
theorem proceeds_onFlow {flow : Flow} (h : flow.handle ≠ some handle) (s : Serving) :
  Proceeds lasting handle (onFlow flow) s
  := by
  have hpumpAll (t : Serving) (hsame : t.session.standing handle = s.session.standing handle) :
      ∃ sent, (s.session.standing handle).Sends sent (t.pumpAll.session.standing handle) := by
    rw [← hsame]
    exact t.sends_pumpAll handle
  have hpump (key : UInt32) (t : Serving)
      (hsame : t.session.standing handle = s.session.standing handle) :
      ∃ sent, (s.session.standing handle).Sends sent ((t.pump key).session.standing handle) := by
    rw [← hsame]
    exact t.sends_pump handle key
  cases hflow : flow.handle with
  | none =>
      left
      have hok := onFlow_of_none hflow s
      split at hok
      · obtain ⟨sent, hsends⟩ := hpumpAll
          ((s.onSession (tellWindows flow)).onSession (·.emitSessionFlow))
          (standing_emitSessionFlow (tellWindows flow s.session) handle)
        exact ⟨_, sent, hok, hsends⟩
      · obtain ⟨sent, hsends⟩ := hpumpAll (s.onSession (tellWindows flow)) rfl
        exact ⟨_, sent, hok, hsends⟩
  | some key =>
      have hkey : handle ≠ key := by
        rintro rfl
        exact h hflow
      cases hget : s.session.endpoints.get? key with
      | none =>
          right
          rw [after_of_error (onFlow_of_unattached hflow hget)]
          exact .of_eq rfl
      | some endpoint =>
          left
          obtain ⟨s', hok, hsame⟩ := onFlow_of_some hflow hget
          have hsame := congrFun hsame handle
          split at hsame
          · have hput := (tellWindows flow s.session).standing_putEndpoint handle key
              (endpoint.credited flow)
            rw [if_neg hkey] at hput
            obtain ⟨sent, hsends⟩ := hpump key ((s.onSession (tellWindows flow)).onSession
              (·.putEndpoint key (endpoint.credited flow))) hput
            exact ⟨s', sent, hok, by rwa [hsame]⟩
          · exact ⟨s', 0, hok, .of_eq hsame⟩

/-- Outcomes let deliveries be begun, once all are carried out. -/
theorem proceeds_onReceiverDisposition (disposition : Disposition) (s : Serving) :
  Proceeds lasting handle (onReceiverDisposition disposition) s
  := by
  have hdone := standing_carryOutEach handle (s.session.decided disposition) s
  rw [Proceeds, after, onReceiverDisposition]
  split
  · exact .inr (.of_eq rfl)
  · rw [run_get_bind]
    dsimp only
    cases hcarry : carryOutEach (s.session.decided disposition) s with
    | error fault s' =>
        rw [after_of_error hcarry] at hdone
        right
        rw [run_bind_of_error hcarry]
        exact .of_eq hdone
    | ok _ s' =>
        rw [after_of_ok hcarry] at hdone
        left
        rw [run_bind_of_ok hcarry, ← hdone]
        split
        · obtain ⟨sent, hsends⟩ := Serving.sends_pumpAll handle
            (s'.onSession (·.emit (.disposition disposition.confirmation) none))
          rw [Serving.onSession, standing_emit _ handle rfl] at hsends
          exact ⟨_, sent, rfl, hsends⟩
        · obtain ⟨sent, hsends⟩ := s'.sends_pumpAll handle
          exact ⟨_, sent, rfl, hsends⟩

end Operation

/-! ### Everything that is done with a session -/

namespace Session.Act

/-- What is done with a session may give credit to the link with a handle: the peer sends a flow
that names it. -/
def Credits (handle : UInt32) : Session.Act → Prop
  | .handle (.flow flow) _ => flow.handle = some handle
  | _ => False

/-- What is done with a session drops the link with a handle: the peer detaches it, or the session
ends. -/
def Drops (handle : UInt32) : Session.Act → Prop
  | .handle (.detach detach) _ => detach.handle = handle
  | .finish => True
  | _ => False

/-- An act that may give credit to a link is a flow of the peer that names it. -/
theorem flow_of_credits {handle : UInt32} {act : Session.Act} (h : act.Credits handle) :
  ∃ flow payload, flow.handle = some handle ∧ act = .handle (.flow flow) payload
  := by
  cases act with
  | handle p payload =>
      cases p with
      | flow flow => exact ⟨flow, payload, h, rfl⟩
      | _ => contradiction
  | _ => contradiction

end Session.Act

namespace Operation

variable {handle : UInt32} {p : Performative} {payload : Bytes}

theorem proceeds_dispatch (h : ¬ Act.Credits handle (.handle p payload)) (s : Serving) :
  Proceeds (¬ Act.Drops handle (.handle p payload)) handle (dispatch p payload) s
  := by
  cases p with
  | attach attach => exact .inr (passes_onAttach _ handle attach s)
  | flow flow => exact proceeds_onFlow _ handle h s
  | transfer transfer => exact .inr (.of_eq (standing_onTransfer handle transfer payload s))
  | disposition disposition =>
      cases hrole : disposition.role with
      | receiver =>
          rw [dispatch, onDisposition, hrole]
          exact proceeds_onReceiverDisposition _ handle disposition s
      | sender =>
          rw [dispatch, onDisposition, hrole]
          exact .inr (.of_eq (s.session.standing_onSenderDisposition handle disposition))
  | detach detach => exact .inr (passes_onDetach handle detach s)
  | _ => exact .inr (.of_eq rfl)

/-- Whatever the peer sends, but for a flow that names the link, deliveries are begun on the link
on its credit, or none is. -/
theorem sends_or_passes_handle (h : ¬ Act.Credits handle (.handle p payload)) (s : Serving) :
  (∃ sent, (s.session.standing handle).Sends sent
      (((Operation.handle p payload).after s).session.standing handle))
    ∨ (s.session.standing handle).Passes (¬ Act.Drops handle (.handle p payload)) 0
        (((Operation.handle p payload).after s).session.standing handle)
  := by
  rcases proceeds_dispatch h s with ⟨s', sent, hok, hsends⟩ | hpasses
  · left
    have hhandle : Operation.handle p payload s = .ok () s' := by
      rw [Operation.handle, hok]
    rw [after_of_ok hhandle]
    exact ⟨sent, hsends⟩
  · right
    rw [Operation.after, Operation.handle]
    split
    · next herror =>
        rw [after_of_error herror] at hpasses
        exact hpasses.after (passes_detachWith _ handle _ _ _)
    · exact hpasses

theorem handle_of_onFlow {flow : Flow} {s s' : Serving} (h : onFlow flow s = .ok () s')
    (payload : Bytes) :
  Operation.handle (.flow flow) payload s = .ok () s'
  := by
  rw [Operation.handle, dispatch, h]

/-- A flow that names a link that messages go on gives it credit, and they are sent on it; if the
peer wants that, the rest is given back. -/
theorem sends_handle_flow {flow : Flow} (h : flow.handle = some handle) {s : Serving}
    {meter : Meter} (hmeter : (s.session.standing handle).meter = some meter)
    (sending : meter.sending = true) (payload : Bytes) :
  ∃ sent, Standing.Sends sent ⟨s.session.begunOn handle, some (meter.credited flow)⟩
      (((Operation.handle (.flow flow) payload).after s).session.standing handle)
    ∧ (flow.drain = true →
        (((Operation.handle (.flow flow) payload).after s).session.standing handle).budget = 0)
  := by
  obtain ⟨endpoint, hget, rfl⟩ := Option.map_eq_some_iff.mp hmeter
  replace sending : endpoint.kind.isSending = true := sending
  obtain ⟨s', hok, hsame⟩ := onFlow_of_some h hget
  rw [after_of_ok (handle_of_onFlow hok payload), hsame, if_pos sending]
  generalize ht : (s.onSession (tellWindows flow)).onSession _ = t
  have hput := (tellWindows flow s.session).standing_putEndpoint handle handle
    (endpoint.credited flow)
  rw [if_pos rfl, Endpoint.meter_credited sending flow] at hput
  have hstands : t.session.standing handle
      = ⟨s.session.begunOn handle, some (endpoint.meter.credited flow)⟩ := by
    rw [← ht]
    exact hput
  obtain ⟨sent, hsends⟩ := t.sends_pump handle handle
  rw [hstands] at hsends
  refine ⟨sent, hsends, ?_⟩
  intro hdrain
  obtain ⟨meter', hmeter', hsame⟩ := hsends.meter
  rw [Standing.budget, hmeter', Option.map_some, Serving.drained_pump hmeter' (hsame.trans hdrain)]
  rfl

/-- A flow does nothing for a link that no messages go on. -/
theorem standing_handle_flow {flow : Flow} (h : flow.handle = some handle) {s : Serving}
    (receives : ∀ meter, (s.session.standing handle).meter = some meter → meter.sending = false)
    (payload : Bytes) :
  ((Operation.handle (.flow flow) payload).after s).session.standing handle
    = s.session.standing handle
  := by
  cases hget : s.session.endpoints.get? handle with
  | none =>
      have herror : Operation.handle (.flow flow) payload s
          = .error (.onSession .unattachedHandle s!"flow on unattached handle {handle}")
            (s.onSession (tellWindows flow)) := by
        rw [Operation.handle, dispatch, onFlow_of_unattached h hget]
        rfl
      rw [after_of_error herror]
      rfl
  | some endpoint =>
      obtain ⟨s', hok, hsame⟩ := onFlow_of_some h hget
      have hkind : endpoint.kind.isSending = false := by
        apply receives endpoint.meter
        rw [standing, hget]
        rfl
      rw [after_of_ok (handle_of_onFlow hok payload), hsame, hkind]
      rfl

end Operation

end MessageBroker
