import MessageBroker.Proofs.Session.Sources

/-!
# Deliveries that are arriving

A delivery is arriving on a link from its first transfer until its last.  Every transfer on the link
is taken for the next one of the delivery, whatever number and tag it carries, and the delivery
keeps the number and the tag of its first transfer.  Nothing else that is done with the session
changes what has arrived.
-/

namespace MessageBroker

open Session Parcel

/-- A transfer with another number and tag of a delivery, or without. -/
def Transfer.labelled (transfer : Transfer) (id : Option UInt32) (tag : Option Bytes) : Transfer :=
  { transfer with deliveryId := id, deliveryTag := tag }

namespace Endpoint

/-- The delivery that is arriving on the end of a link on which messages come, unless the broker has
detached the link. -/
def arriving? (endpoint : Endpoint) : Option Assembly :=
  if endpoint.kind.isReceiving && !endpoint.link.detachSent then endpoint.assembly else none

variable {endpoint endpoint' : Endpoint} {assembly taken : Assembly} {transfer : Transfer}

theorem arriving?_eq_some_iff :
  endpoint.arriving? = some assembly
    ↔ endpoint.kind.isReceiving = true ∧ endpoint.link.detachSent = false
        ∧ endpoint.assembly = some assembly
  := by
  rw [arriving?]
  cases endpoint.kind.isReceiving with
  | false => simp
  | true => cases endpoint.link.detachSent <;> simp

theorem purse_of_arriving? (h : endpoint.arriving? = some assembly) :
  endpoint.purse = some ⟨endpoint.link.credit, true⟩
  := by
  obtain ⟨receives, attached, arriving⟩ := arriving?_eq_some_iff.mp h
  rw [purse_eq_some_iff, arriving]
  exact ⟨receives, attached, rfl⟩

/-- A delivery begins with the number and the tag of its first transfer. -/
theorem start_of_takeAssembly (idle : endpoint.assembly = none)
    (htake : endpoint.takeAssembly transfer = (.ok taken, endpoint')) :
  ∃ id tag mode, transfer.deliveryId = some id ∧ transfer.deliveryTag = some tag
    ∧ taken = .start id tag (transfer.settled.getD false) mode transfer.state
  := by
  rw [takeAssembly, idle] at htake
  dsimp only at htake
  rw [startDelivery] at htake
  split at htake
  · next id tag hid htag =>
      split at htake
      · cases htake
      · dsimp only at htake
        split at htake
        · cases htake
        · next mode _ =>
            refine ⟨id, tag, mode, hid, htag, ?_⟩
            split at htake
            · cases htake
              rfl
            · split at htake
              · cases htake
              · cases htake
                rfl
  · cases htake

/-- A delivery that is arriving goes on with a transfer whatever number and tag that carries. -/
theorem takeAssembly_labelled (arriving : endpoint.assembly = some assembly) (transfer : Transfer)
    (id : Option UInt32) (tag : Option Bytes) :
  endpoint.takeAssembly (transfer.labelled id tag) = endpoint.takeAssembly transfer
  := by
  rw [takeAssembly, takeAssembly, arriving]
  rfl

end Endpoint

namespace Operation

variable {s : Serving} {transfer : Transfer} {payload : Bytes} {endpoint endpoint' : Endpoint}
  {assembly : Assembly}

/-- What is done on a transfer of a delivery that is arriving does not depend on the number and the
tag that the transfer carries. -/
theorem handle_labelled (hget : s.session.endpoints.get? transfer.handle = some endpoint)
    (arriving : endpoint.assembly = some assembly) (id : Option UInt32) (tag : Option Bytes)
    (payload : Bytes) :
  Operation.handle (.transfer (transfer.labelled id tag)) payload s
    = Operation.handle (.transfer transfer) payload s
  := by
  have received : receiveOn endpoint (transfer.labelled id tag) payload
      = receiveOn endpoint transfer payload := by
    rw [receiveOn, receiveOn, endpoint.takeAssembly_labelled arriving]
    rfl
  have dispatched : onTransfer (transfer.labelled id tag) payload s
      = onTransfer transfer payload s := by
    by_cases window : s.session.incomingWindow = 0
    · rw [onTransfer, onTransfer, if_pos window, if_pos window]
    · rw [onTransfer_of_admitted window, onTransfer_of_admitted window,
        receive_of_some (by exact hget), receive_of_some (by exact hget), received]
      rfl
  rw [Operation.handle, Operation.handle, dispatch, dispatch, dispatched]

/-- A delivery is arriving after a transfer that is received on its link only if the transfer
neither aborts it nor is its last. -/
theorem Uses.more_of_arriving {purse : Purse} {result : EStateM.Result Fault Serving Unit}
    (uses : Uses transfer purse s result) (there : s.session.purse? transfer.handle = some purse)
    {credit : LinkCredit}
    (arriving : (detaching (mapState replenishWindow result)).session.purse? transfer.handle
      = some ⟨credit, true⟩) :
  transfer.more = true ∧ transfer.aborted = false ∧ ∃ s', result = .ok () s'
  := by
  cases result with
  | ok _ s' =>
      change (replenishWindow s').session.purse? transfer.handle = _ at arriving
      rw [purse?_replenishWindow, (uses.next rfl).2, if_pos rfl, Purse.next] at arriving
      cases haborted : transfer.aborted with
      | true => simp [haborted] at arriving
      | false =>
          cases hmore : transfer.more with
          | true => exact ⟨rfl, rfl, s', rfl⟩
          | false => simp [haborted, hmore] at arriving
  | error fault s' =>
      cases uses with
      | @fault report _ others =>
          change ((detachWith transfer.handle report).after (replenishWindow s')).session.purse?
            transfer.handle = _ at arriving
          rw [purse?_detachWith, if_pos rfl] at arriving
          contradiction
      | apart unlinked idle same =>
          rw [mapState, detaching_of_unlinked unlinked, purse?_replenishWindow, same, there]
            at arriving
          cases arriving
          contradiction

end Operation

/-! ### Transfers of a delivery that is arriving -/

/-- What is left of an assembly on a link: all of it, or nothing of what was gathered if the link
does not accept the size. -/
def Assembly.LeftOn (link : Link) (assembly left : Assembly) : Prop :=
  left = assembly ∨ left = assembly.discard ∧ link.exceedsMaxMessageSize assembly.size = true

/-- A transfer on a link is taken as one of the given delivery, which is arriving there afterwards:
the transfer neither aborts the delivery nor is its last. -/
structure Endpoint.Gains (transfer : Transfer) (payload : Bytes) (assembly : Assembly)
    (endpoint : Endpoint) : Prop where
  /-- Messages come on the link. -/
  receives : endpoint.kind.isReceiving = true
  /-- The broker has not detached the link. -/
  attached : endpoint.link.detachSent = false
  /-- The transfer is not the last of the delivery. -/
  more : transfer.more = true
  /-- The transfer does not abort the delivery. -/
  unaborted : transfer.aborted = false
  /-- What the transfer carries comes after what has arrived. -/
  gained : ∃ taken, (endpoint.takeAssembly transfer).1 = .ok taken
    ∧ (taken.push payload).LeftOn endpoint.link assembly

/-- The transfer that an act brings on the link with a handle. -/
def Session.Act.parcelOn? (handle : UInt32) : Session.Act → Option Parcel
  | .handle (.transfer transfer) payload =>
    if transfer.handle = handle then some (transfer, payload) else none
  | _ => none

/-- Where a delivery is arriving the peer had a purse before. -/
theorem Purse.Becomes.of_arriving {limit handle : UInt32} {act : Session.Act}
    {purse : Option Purse} {credit : LinkCredit}
    (becomes : Becomes limit act handle purse (some ⟨credit, true⟩)) :
  ∃ before, purse = some before
  := by
  generalize h : (some ⟨credit, true⟩ : Option Purse) = after at becomes
  cases becomes with
  | same => exact ⟨_, h.symm⟩
  | gone => contradiction
  | attached => cases h
  | @taken purse => exact ⟨purse, rfl⟩

namespace Assembly

variable {link link' : Link} {id : UInt32} {mode : ReceiverSettleMode} {parcels : List Parcel}
  {assembly : Assembly}

theorem tag_push (assembly : Assembly) (payload : Bytes) :
  (assembly.push payload).tag = assembly.tag
  := by
  rw [push]
  split <;> rfl

/-- Of a link it matters only how large messages may be. -/
theorem Gathers.of_limit (gathers : assembly.Gathers link id mode parcels)
    (limit : link'.maxMessageSize = link.maxMessageSize) :
  assembly.Gathers link' id mode parcels
  := by
  refine ⟨gathers.id, gathers.settleMode, gathers.settled, gathers.state, fun dropped => ?_,
    gathers.kept⟩
  rw [Link.exceedsMaxMessageSize_of_eq limit]
  exact gathers.dropped dropped

end Assembly

namespace Endpoint.Gains

variable {transfer : Transfer} {payload : Bytes} {endpoint : Endpoint}
  {assembly before : Assembly} {parcels : List Parcel}

/-- The delivery that is arriving has the number and the tag of the one that the transfer was taken
for, and it gathers the same transfers. -/
theorem gathers_of_taken (taken : Assembly)
    (gained : (taken.push payload).LeftOn endpoint.link assembly)
    (gathers : (taken.push payload).Gathers endpoint.link taken.id taken.settleMode parcels) :
  assembly.id = taken.id ∧ assembly.tag = taken.tag
    ∧ assembly.Gathers endpoint.link assembly.id assembly.settleMode parcels
  := by
  obtain ⟨id, mode, -⟩ := taken.push_other payload
  rw [← id, ← mode] at gathers
  rw [← id, ← taken.tag_push payload]
  obtain rfl | ⟨rfl, exceeds⟩ := gained
  · exact ⟨rfl, rfl, gathers⟩
  · exact ⟨rfl, rfl, gathers.discard (gathers.exceeds rfl exceeds)⟩

/-- A delivery of which nothing had arrived has the number and the tag of the transfer. -/
theorem starts (gains : endpoint.Gains transfer payload assembly)
    (idle : endpoint.assembly = none) :
  transfer.deliveryId = some assembly.id ∧ transfer.deliveryTag = some assembly.tag
    ∧ assembly.Gathers endpoint.link assembly.id assembly.settleMode [(transfer, payload)]
  := by
  obtain ⟨taken, htaken, gained⟩ := gains.gained
  obtain ⟨id, tag, mode, hid, htag, rfl⟩ := start_of_takeAssembly idle (Prod.ext htaken rfl)
  obtain ⟨sameId, sameTag, gathers⟩ := gathers_of_taken _ gained
    (Assembly.gathers_start endpoint.link id tag mode transfer payload)
  rw [sameId, sameTag] at *
  exact ⟨hid, htag, gathers⟩

/-- A delivery that was arriving keeps its number and its tag. -/
theorem resumes (gains : endpoint.Gains transfer payload assembly)
    (arriving : endpoint.assembly = some before)
    (gathers : before.Gathers endpoint.link before.id before.settleMode parcels) :
  assembly.id = before.id ∧ assembly.tag = before.tag
    ∧ assembly.Gathers endpoint.link assembly.id assembly.settleMode
      (parcels ++ [(transfer, payload)])
  := by
  obtain ⟨taken, htaken, gained⟩ := gains.gained
  rw [takeAssembly, arriving] at htaken
  cases htaken
  exact gathers_of_taken (before.resume transfer) gained (gathers.next transfer payload)

end Endpoint.Gains

namespace Operation

variable {s : Serving} {transfer : Transfer} {payload : Bytes} {endpoint endpoint' : Endpoint}
  {assembly : Assembly}

/-- What is gathered once a transfer has been received that neither aborts its delivery nor is its
last. -/
theorem gathered_receiveOn {taken : Assembly} {s' : Serving}
    (undetached : endpoint.link.detachReceived = false)
    (htake : (endpoint.takeAssembly transfer).1 = .ok taken) (more : transfer.more = true)
    (unaborted : transfer.aborted = false)
    (received : receiveOn endpoint transfer payload s = .ok () s')
    (there' : s'.session.endpoints.get? transfer.handle = some endpoint')
    (gathered : endpoint'.assembly = some assembly) :
  (taken.push payload).LeftOn endpoint.link assembly
    ∧ endpoint'.link.maxMessageSize = endpoint.link.maxMessageSize
  := by
  obtain ⟨credit, unsettled, idle, hsnd⟩ := endpoint.takeAssembly_snd transfer
  obtain ⟨taker, htaker⟩ : ∃ taker, (endpoint.takeAssembly transfer).2 = taker := ⟨_, rfl⟩
  have limit : taker.link.maxMessageSize = endpoint.link.maxMessageSize := by
    rw [← htaker, hsnd]
  have undetached' : taker.link.detachReceived = false := by
    rw [← htaker, hsnd]
    exact undetached
  rw [receiveOn_of_taken (Prod.ext htake htaker) unaborted, more] at received
  have put : (s.onSession (·.putEndpoint transfer.handle taker)).session.endpoints.get?
      transfer.handle = some taker := Table.get?_put_self _ _ _
  generalize s.onSession (·.putEndpoint transfer.handle taker) = held at received put
  cases hlimit : limitSize taker (taken.push payload) held with
  | error fault s₁ =>
      rw [run_bind_of_error hlimit] at received
      contradiction
  | ok assembly' s₁ =>
      rw [run_bind_of_ok hlimit, if_pos rfl, run_modify] at received
      cases received
      have continues := continues_limitSize (fun _ => True) True transfer.handle taker
        (taken.push payload) held
      rw [after_of_ok hlimit] at continues
      obtain ⟨other, hother, goes⟩ := continues.goes trivial taker put undetached'
      change (s₁.session.endpoints.update transfer.handle
        ({ · with assembly := some assembly' })).get? transfer.handle = _ at there'
      rw [Table.get?_update, if_pos rfl, hother] at there'
      cases there'
      cases gathered
      refine ⟨?_, goes.maxMessageSize.trans limit⟩
      rcases limitSize_eq_ok hlimit with ⟨same, -⟩ | ⟨dropped, exceeds, -⟩
      · exact .inl same
      · refine .inr ⟨dropped, ?_⟩
        rw [← Link.exceedsMaxMessageSize_of_eq limit, exceeds]

/-- A transfer after which a delivery is arriving on its link has been taken as one of it. -/
theorem gains_handle_transfer (rest : s.session.AtRest) (window : s.session.incomingWindow ≠ 0)
    (there' : ((handle (.transfer transfer) payload).after s).session.endpoints.get?
      transfer.handle = some endpoint')
    (arriving' : endpoint'.arriving? = some assembly) :
  ∃ endpoint, s.session.endpoints.get? transfer.handle = some endpoint
    ∧ endpoint.Gains transfer payload assembly
    ∧ endpoint'.link.maxMessageSize = endpoint.link.maxMessageSize
  := by
  have names (endpoint : Endpoint)
      (hget : s.session.endpoints.get? transfer.handle = some endpoint) :
      endpoint.link.handle = transfer.handle := (rest _ _ hget).handle
  have purse' := (purse?_of_get? there').trans (Endpoint.purse_of_arriving? arriving')
  have becomes := becomes_handle_transfer names payload transfer.handle
  rw [purse'] at becomes
  obtain ⟨purse, hpurse⟩ := becomes.of_arriving
  obtain ⟨endpoint, hget, hendpoint⟩ := Option.bind_eq_some_iff.mp hpurse
  obtain ⟨receives, attached, -⟩ := Endpoint.purse_eq_some_iff.mp hendpoint
  have counted : (s.onSession (·.count)).session.endpoints.get? transfer.handle
      = some endpoint := hget
  have uses := uses_receiveOn counted (names endpoint hget) hendpoint payload
  have dispatched := dispatch_transfer window hget receives attached payload
  rw [after_handle, dispatched] at purse'
  obtain ⟨more, unaborted, s₁, received⟩ := uses.more_of_arriving hpurse purse'
  cases htake : (endpoint.takeAssembly transfer).1 with
  | error fault =>
      rw [receiveOn_of_error (Prod.ext htake rfl)] at received
      contradiction
  | ok taken =>
      rw [after_handle, dispatched, received] at there'
      change (replenishWindow s₁).session.endpoints.get? transfer.handle = _ at there'
      rw [endpoints_replenishWindow] at there'
      obtain ⟨gained, limit⟩ := gathered_receiveOn (rest _ _ hget).detachReceived htake more
        unaborted received there' (Endpoint.arriving?_eq_some_iff.mp arriving').2.2
      exact ⟨endpoint, hget, ⟨receives, attached, more, unaborted, taken, htake, gained⟩, limit⟩

end Operation

/-! ### Transfers that go on with a delivery -/

/-- What comes of a transfer on a link on which a delivery is arriving, with the transfers that have
arrived before: it is one of that delivery, whatever number and tag it carries. -/
structure Endpoint.Joins (transfer : Transfer) (payload : Bytes) (parcels : List Parcel)
    (assembly : Assembly) (endpoint : Endpoint) (s : Serving) : Prop where
  /-- The number and the tag that the transfer carries make no difference. -/
  unlabelled : ∀ id tag, Operation.handle (.transfer (transfer.labelled id tag)) payload s
    = Operation.handle (.transfer transfer) payload s
  /-- The last transfer completes the delivery, with what all of them carried, unless it aborts the
  delivery or the link does not accept the size. -/
  completed : ∃ endpoint' built,
    built.Gathers endpoint.link assembly.id assembly.settleMode parcels
    ∧ s.session.completed? (.transfer transfer) payload
      = if transfer.aborted || transfer.more
          || endpoint.link.exceedsMaxMessageSize (contents parcels).length
        then none else some (endpoint', built)
  /-- The message is put into the queue of the link if it is to be put there at once, and the peer is
  told that the delivery is accepted. -/
  deposited : ∀ queue, endpoint.kind = .receiving queue →
    endpoint.Deposits s.session.limits endpoint.link transfer parcels →
      ((Operation.handle (.transfer transfer) payload).after s).store
          = (s.store.enqueue queue (contents parcels)).2
        ∧ s.session.Accepts assembly.id (settled parcels) assembly.settleMode
          ((Operation.handle (.transfer transfer) payload).after s).session
  /-- Otherwise no queue changes. -/
  otherwise : ∀ queue, endpoint.kind = .receiving queue →
    ¬ endpoint.Deposits s.session.limits endpoint.link transfer parcels →
      ((Operation.handle (.transfer transfer) payload).after s).store = s.store
  /-- Before the last transfer the delivery goes on under the same number and tag, and the peer is
  told nothing but flows. -/
  goes : transfer.more = true → transfer.aborted = false →
    endpoint.link.exceedsMaxMessageSize (contents parcels).length = false →
      ∃ s' endpoint' grown, Operation.handle (.transfer transfer) payload s = .ok () s'
        ∧ s'.session.endpoints.get? transfer.handle = some endpoint'
        ∧ endpoint'.arriving? = some grown
        ∧ grown.id = assembly.id ∧ grown.tag = assembly.tag
        ∧ grown.Gathers endpoint.link assembly.id assembly.settleMode parcels
        ∧ s.session.Flows s'.session

namespace Operation

variable {s : Serving} {transfer : Transfer} {endpoint : Endpoint} {assembly : Assembly}
  {parcels : List Parcel}

/-- A transfer that is within the size that its link accepts, and neither aborts its delivery nor is
its last, is gathered with the others. -/
theorem goes_handle_transfer (window : s.session.incomingWindow ≠ 0)
    (hget : s.session.endpoints.get? transfer.handle = some endpoint)
    (arriving : endpoint.arriving? = some assembly)
    (gathers : assembly.Gathers endpoint.link assembly.id assembly.settleMode parcels)
    (payload : Bytes) (more : transfer.more = true) (unaborted : transfer.aborted = false)
    (within : endpoint.link.exceedsMaxMessageSize
      (contents (parcels ++ [(transfer, payload)])).length = false) :
  ∃ s' endpoint' grown, handle (.transfer transfer) payload s = .ok () s'
    ∧ s'.session.endpoints.get? transfer.handle = some endpoint'
    ∧ endpoint'.arriving? = some grown
    ∧ grown.id = assembly.id ∧ grown.tag = assembly.tag
    ∧ grown.Gathers endpoint.link assembly.id assembly.settleMode
      (parcels ++ [(transfer, payload)])
    ∧ s.session.Flows s'.session
  := by
  obtain ⟨receives, attached, hassembly⟩ := Endpoint.arriving?_eq_some_iff.mp arriving
  have next := gathers.next transfer payload
  obtain ⟨idle, htake, link, kind⟩ : ∃ idle,
      endpoint.takeAssembly transfer = (.ok (assembly.resume transfer), idle)
        ∧ idle.link = endpoint.link ∧ idle.kind = endpoint.kind := by
    refine ⟨{ endpoint with assembly := none }, ?_, rfl, rfl⟩
    rw [Endpoint.takeAssembly, hassembly]
  have fits : (!((assembly.resume transfer).push payload).discarding
      && idle.link.exceedsMaxMessageSize ((assembly.resume transfer).push payload).size)
        = false := by
    have exceeds := next.exceeds_iff
    rw [within, Bool.or_eq_false_iff] at exceeds
    rw [link, exceeds.2, Bool.and_false]
  rcases handle_of_more window hget receives attached htake more unaborted payload rfl with
    ⟨grown, s', hlimit, hhandle⟩ | ⟨report, hlimit, -⟩
  · rw [limitSize_of_within fits] at hlimit
    cases hlimit
    refine ⟨_, { idle with assembly := some ((assembly.resume transfer).push payload) }, _,
      hhandle, ?_, ?_, next.id, Assembly.tag_push _ payload, next,
      Flows.trans (.of_same rfl) (flows_replenishWindow _)⟩
    · rw [endpoints_replenishWindow]
      change ((s.session.endpoints.put transfer.handle idle).update transfer.handle
        ({ · with assembly := some _ })).get? transfer.handle = _
      rw [Table.get?_update, if_pos rfl, Table.get?_put_self]
      rfl
    · rw [Endpoint.arriving?_eq_some_iff, link, kind]
      exact ⟨receives, attached, rfl⟩
  · rw [limitSize_of_within fits] at hlimit
    contradiction

/-- A transfer on a link on which a delivery is arriving is one of that delivery. -/
theorem joins_handle_transfer (window : s.session.incomingWindow ≠ 0)
    (hget : s.session.endpoints.get? transfer.handle = some endpoint)
    (arriving : endpoint.arriving? = some assembly)
    (gathers : assembly.Gathers endpoint.link assembly.id assembly.settleMode parcels)
    (payload : Bytes) :
  endpoint.Joins transfer payload (parcels ++ [(transfer, payload)]) assembly s
  := by
  obtain ⟨receives, attached, hassembly⟩ := Endpoint.arriving?_eq_some_iff.mp arriving
  have takes : endpoint.Takes endpoint.link assembly.id assembly.settleMode parcels transfer :=
    Endpoint.takes_of_gathers hassembly gathers
  constructor
  case unlabelled => exact fun id tag => handle_labelled hget hassembly id tag payload
  case completed =>
    obtain ⟨endpoint', built, -, gathered, hcompleted⟩ :=
      completed?_of_takes window hget receives attached rfl takes payload
    exact ⟨endpoint', built, gathered, hcompleted⟩
  case deposited =>
    exact fun queue kind => (handle_of_takes window hget kind rfl (fun _ => takes) payload).1
  case otherwise =>
    exact fun queue kind => (handle_of_takes window hget kind rfl (fun _ => takes) payload).2
  case goes => exact goes_handle_transfer window hget arriving gathers payload

end Operation

/-! ### Everything else that is done with a session -/

namespace Session.Act

variable {s : Serving} {act : Session.Act} {handle : UInt32} {endpoint' : Endpoint}
  {assembly : Assembly}

theorem Concerns.parts (concerns : act.Concerns handle) (silent : act.parcelOn? handle = none) :
  act.Parts handle
  := by
  rcases concerns_iff.mp concerns with parts | ⟨transfer, payload, rfl, names⟩
  · exact parts
  · rw [parcelOn?, if_pos names] at silent
    contradiction

/-- A delivery that is arriving on a link after an act that brings no transfer on the link was
arriving before, as it is now. -/
theorem arriving_run (rest : s.session.AtRest) (silent : act.parcelOn? handle = none)
    (there' : (act.run s).2.session.endpoints.get? handle = some endpoint')
    (arriving' : endpoint'.arriving? = some assembly) :
  ¬ act.Parts handle ∧ ∃ endpoint, s.session.endpoints.get? handle = some endpoint
    ∧ endpoint.arriving? = some assembly
    ∧ endpoint'.link.maxMessageSize = endpoint.link.maxMessageSize
  := by
  have lasts : ¬ act.Parts handle := by
    intro parts
    rw [parts.get?_run] at there'
    contradiction
  refine ⟨lasts, ?_⟩
  have becomes := act.becomes_run rest handle
  rw [purse?_of_get? there', Endpoint.purse_of_arriving? arriving'] at becomes
  obtain ⟨purse, hpurse⟩ := becomes.of_arriving
  obtain ⟨endpoint, hget, hendpoint⟩ := Option.bind_eq_some_iff.mp hpurse
  obtain ⟨receives, attached, -⟩ := Endpoint.purse_eq_some_iff.mp hendpoint
  have continues := act.continues_run (s := s) (fun _ h => h) handle
  obtain ⟨other, hother, goes⟩ := continues.goes (fun concerns => lasts (concerns.parts silent))
    endpoint hget (rest _ _ hget).detachReceived
  obtain rfl := Option.some.inj (there'.symm.trans hother)
  obtain ⟨-, attached', hassembly⟩ := Endpoint.arriving?_eq_some_iff.mp arriving'
  refine ⟨endpoint, hget, ?_, goes.maxMessageSize⟩
  rw [Endpoint.arriving?_eq_some_iff, ← goes.assembly attached']
  exact ⟨receives, attached, hassembly⟩

end Session.Act

end MessageBroker
