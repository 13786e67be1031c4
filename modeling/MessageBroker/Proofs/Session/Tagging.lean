import MessageBroker.Proofs.Session.Fates
import MessageBroker.Proofs.Session.Tags

/-!
# Tags of deliveries from the peer

What a transfer does to the accounts of deliveries from the peer: it may begin a delivery, and it
may bring one to its end, which is then settled, given to the peer to settle, or lost with its link.
Whatever else is done with a session keeps the accounts in order too.
-/

namespace MessageBroker

open Session

/-! ### Links at fault -/

namespace Session.Keeps

variable {awaited : Awaited} {begun : List UInt32} {session : Session} {handle : UInt32}
  {endpoint : Endpoint} {assembly : Assembly}

/-- The broker gives a link up. -/
theorem givenUp (keeps : session.Keeps awaited begun)
    (there : session.endpoints.get? handle = some endpoint) :
  (session.putEndpoint handle endpoint.givenUp).Keeps awaited begun
  := by
  have before := account?_of_get? there
  have sound := keeps.sound handle endpoint.account before
  apply keeps.replace_kept before (session.account?_putEndpoint handle endpoint.givenUp) rfl rfl rfl
  · rw [Endpoint.account, Endpoint.givenUp]
    cases hassembly : endpoint.assembly with
    | none =>
        dsimp only
        rw [hassembly]
        exact sound.part
    | some assembly => exact sound.settle hassembly (by simp) true fun _ => rfl
  · intro assembly' h
    rw [Endpoint.account, Endpoint.givenUp] at h
    cases hassembly : endpoint.assembly with
    | none => simp [hassembly] at h
    | some assembly => simp [hassembly] at h

/-- The broker gives the link of the delivery in hand up. -/
theorem givenUp_held (keeps : (session.holding handle assembly).Keeps awaited begun)
    (there : session.endpoints.get? handle = some endpoint) (taken : endpoint.assembly = none) :
  (session.putEndpoint handle endpoint.givenUp).Keeps awaited begun
  := by
  have before := account?_of_get? there
  have gone : endpoint.givenUp.account = ⟨true, endpoint.link.unsettled, none⟩ := by
    rw [Endpoint.account, Endpoint.givenUp, taken]
    dsimp only
    rw [taken]
  apply keeps.replace_held before (session.account?_putEndpoint handle endpoint.givenUp) rfl rfl rfl
  · rw [gone]
    exact (keeps.held before).part
  · intro assembly' h
    rw [gone] at h
    contradiction

end Session.Keeps

namespace Operation

/-- The accounts are in order in the state that is left, once the link that is at fault, if there
is one, has been detached. -/
def Kept (awaited : Awaited) (begun : List UInt32) : EStateM.Result Fault Serving Unit → Prop
  | .ok () s => s.session.Keeps awaited begun
  | .error (.link handle _) s => s.session.Keeping awaited begun handle
  | .error _ s => s.session.Keeps awaited begun

variable {awaited : Awaited} {begun : List UInt32} {s : Serving}

/-- A link that is at fault is detached. -/
theorem keeps_detachWith {handle : UInt32} (keeping : s.session.Keeping awaited begun handle)
    (unparted : ∀ endpoint, s.session.endpoints.get? handle = some endpoint →
      endpoint.link.detachReceived = false) (report : ErrorReport) :
  ((detachWith handle report).after s).session.Keeps awaited begun
  := by
  obtain ⟨same, detached⟩ | ⟨endpoint, hget, -, parted⟩ := detachWith_cases handle report s
  · rw [same]
    cases keeping with
    | none keeps => exact keeps
    | some there attached =>
        -- Only a link that is attached has a delivery that is being dealt with.
        obtain ⟨endpoint, hget, rfl⟩ := Option.map_eq_some_iff.mp there
        rw [Endpoint.account, detached endpoint hget] at attached
        contradiction
  · have before := account?_of_get? hget
    rw [parted, unparted endpoint hget]
    refine Keeps.of_leaves ?_ (leaves_emit _ _ _)
    rw [if_neg Bool.false_ne_true]
    cases keeping with
    | none keeps => exact keeps.givenUp hget
    | some there attached taken keeps =>
        rw [before] at there
        cases there
        exact keeps.givenUp_held hget taken

/-- A delivery that is taken off its link, and not completed, is kept account of. -/
theorem Receives.kept {endpoint : Endpoint} {transfer : Transfer} {assembly : Assembly}
    {result : EStateM.Result Fault Serving Unit} {account : Account}
    (receives : Receives endpoint transfer assembly s result)
    (names : endpoint.link.handle = transfer.handle)
    (there : s.session.account? transfer.handle = some account)
    (attached : account.detached = false) (taken : account.assembly = none)
    (keeps : (s.session.holding transfer.handle assembly).Keeps awaited begun) :
  Kept awaited begun result
  := by
  cases receives with
  | aborted => exact keeps.settle_held there taken
  | fault =>
      rw [names]
      exact .some there attached taken keeps
  | more => exact keeps
  | refused =>
      rw [names]
      exact Keeps.of_leaves (keeps.discard_held there) (.of_same rfl rfl rfl rfl)
  | refusedLast =>
      rw [names]
      refine Keeps.of_leaves ?_ (leaves_replenishCredit transfer.handle _)
      exact Keeps.of_leaves (keeps.settle_held there taken) (.of_same rfl rfl rfl rfl)
  | dropped discarding =>
      exact Keeps.of_leaves (keeps.drop_held there taken discarding)
        (leaves_replenishCredit transfer.handle _)

end Operation

/-! ### Deliveries begin -/

namespace Endpoint

/-- The number of the delivery that a transfer begins on an endpoint, if it does. -/
def begun? (endpoint : Endpoint) (transfer : Transfer) : Option UInt32 :=
  match endpoint.assembly with
  | some _ => none
  | none => (startDelivery endpoint.link transfer).1.toOption.map Assembly.id

variable {endpoint endpoint' : Endpoint} {transfer : Transfer} {taken : Assembly}

/-- A delivery that begins without a fault is unsettled under its tag, unless it is settled. -/
theorem startDelivery_eq_ok {link link' : Link} {assembly : Assembly}
    (h : startDelivery link transfer = (.ok assembly, link')) :
  assembly.discarding = false ∧ link'.detachSent = link.detachSent
    ∧ (assembly.settled = true ∧ link'.unsettled = link.unsettled
      ∨ link.unsettled.insert assembly.tag assembly.id = .ok link'.unsettled)
  := by
  rw [startDelivery] at h
  split at h
  · split at h
    · cases h
    · dsimp only at h
      split at h
      · cases h
      · split at h
        · next settled =>
            cases h
            exact ⟨rfl, rfl, .inl ⟨settled, rfl⟩⟩
        · split at h
          · cases h
          · next hinsert =>
              cases h
              exact ⟨rfl, rfl, .inr hinsert⟩
  · cases h

/-- A delivery that does not begin changes nothing that is kept account of. -/
theorem startDelivery_eq_error {link link' : Link} {fault : Fault}
    (h : startDelivery link transfer = (.error fault, link')) :
  link'.unsettled = link.unsettled ∧ link'.detachSent = link.detachSent
  := by
  rw [startDelivery] at h
  split at h
  · split at h
    · cases h
      exact ⟨rfl, rfl⟩
    · dsimp only at h
      split at h
      · cases h
        exact ⟨rfl, rfl⟩
      · split at h
        · cases h
        · split at h
          · cases h
            exact ⟨rfl, rfl⟩
          · cases h
  · cases h
    exact ⟨rfl, rfl⟩

/-- What comes of the assembly that a transfer belongs to: the delivery that arrives goes on, or a
delivery begins, or it is at fault and none does. -/
inductive Belongs (endpoint : Endpoint) (transfer : Transfer) :
    Except Fault Assembly × Endpoint → Prop where
  /-- The delivery that arrives goes on. -/
  | resume {assembly : Assembly} (arriving : endpoint.assembly = some assembly)
      (nothing : endpoint.begun? transfer = none) :
    Belongs endpoint transfer (.ok (assembly.resume transfer), { endpoint with assembly := none })
  /-- A delivery begins. -/
  | start {taken : Assembly} {link : Link} (idle : endpoint.assembly = none)
      (started : startDelivery endpoint.link transfer = (.ok taken, link))
      (begins : endpoint.begun? transfer = some taken.id) :
    Belongs endpoint transfer (.ok taken, { endpoint with link })
  /-- None begins. -/
  | fault {fault : Fault} {link : Link} (idle : endpoint.assembly = none)
      (failed : startDelivery endpoint.link transfer = (.error fault, link))
      (nothing : endpoint.begun? transfer = none) :
    Belongs endpoint transfer (.error fault, { endpoint with link })

theorem belongs_takeAssembly (endpoint : Endpoint) (transfer : Transfer) :
  endpoint.Belongs transfer (endpoint.takeAssembly transfer)
  := by
  rw [takeAssembly]
  split
  · next assembly arriving =>
      apply Belongs.resume arriving
      rw [begun?, arriving]
  · next idle =>
      rcases hstart : startDelivery endpoint.link transfer with ⟨result, link⟩
      have begins : endpoint.begun? transfer = result.toOption.map Assembly.id := by
        rw [begun?, idle, hstart]
      cases result with
      | ok taken => exact .start idle hstart begins
      | error fault => exact .fault idle hstart begins

theorem account_of_error {fault : Fault}
    (h : endpoint.takeAssembly transfer = (.error fault, endpoint')) :
  endpoint'.account = endpoint.account ∧ endpoint.begun? transfer = none
  := by
  have belongs := endpoint.belongs_takeAssembly transfer
  rw [h] at belongs
  cases belongs with
  | fault idle failed nothing =>
      obtain ⟨unsettled, detached⟩ := startDelivery_eq_error failed
      refine ⟨?_, nothing⟩
      rw [account, account, unsettled, detached]

theorem account_of_taken (h : endpoint.takeAssembly transfer = (.ok taken, endpoint')) :
  endpoint'.account.detached = endpoint.account.detached ∧ endpoint'.account.assembly = none
  := by
  have belongs := endpoint.belongs_takeAssembly transfer
  rw [h] at belongs
  cases belongs with
  | resume => exact ⟨rfl, rfl⟩
  | start idle started => exact ⟨(startDelivery_eq_ok started).2.1, idle⟩

end Endpoint

namespace Session

/-- The number of the delivery that an act begins, if it does. -/
def begun? (session : Session) : Session.Act → Option UInt32
  | .handle (.transfer transfer) _ =>
    if session.incomingWindow = 0 then none
    else
      match session.endpoints.get? transfer.handle with
      | some endpoint =>
        if endpoint.link.detachSent || !endpoint.kind.isReceiving then none
        else endpoint.begun? transfer
      | none => none
  | _ => none

/-- No tag is in use for a number under which no delivery was begun. -/
theorem Keeps.unused {awaited : Awaited} {begun : List UInt32} {session : Session}
    {handle id : UInt32} {account : Account} (keeps : session.Keeps awaited begun)
    (there : session.account? handle = some account) (attached : account.detached = false)
    (idle : account.assembly = none) (fresh : id ∉ begun) :
  account.unsettled.byId.get? id = none
  := by
  apply Option.eq_none_iff_forall_ne_some.mpr
  intro tag h
  rcases (keeps.sound handle account there).owed attached id tag h with h | ⟨assembly, arriving, -⟩
  · exact fresh (keeps.begun handle id tag h)
  · rw [idle] at arriving
    contradiction

/-- The delivery that a transfer belongs to is kept account of when it is taken off its link. -/
theorem Keeps.take {awaited : Awaited} {begun : List UInt32} {session : Session}
    {endpoint endpoint' : Endpoint} {transfer : Transfer} {taken : Assembly}
    (keeps : session.Keeps awaited begun)
    (there : session.endpoints.get? transfer.handle = some endpoint)
    (attached : endpoint.link.detachSent = false)
    (htake : endpoint.takeAssembly transfer = (.ok taken, endpoint'))
    (new : ∀ id ∈ endpoint.begun? transfer, id ∉ begun) (payload : Bytes) :
  ((session.putEndpoint transfer.handle endpoint').holding transfer.handle (taken.push payload)
    ).Keeps awaited (begun ++ (endpoint.begun? transfer).toList)
  := by
  obtain ⟨number, -, settled, -, dropped⟩ := Assembly.push_other taken payload
  have tag : (taken.push payload).tag = taken.tag := by
    rw [Assembly.push]
    split <;> rfl
  have before := account?_of_get? there
  have sound := keeps.sound _ _ before
  have replaced (other : UInt32) :
      ((session.putEndpoint transfer.handle endpoint').holding transfer.handle
        (taken.push payload)).account? other
      = if other = transfer.handle
        then some ⟨endpoint'.link.detachSent, endpoint'.link.unsettled, some (taken.push payload)⟩
        else session.account? other := by
    rw [account?_holding, account?_putEndpoint]
    split <;> rfl
  have belongs := endpoint.belongs_takeAssembly transfer
  rw [htake] at belongs
  cases belongs with
  | @resume assembly arriving nothing =>
      rw [nothing, Option.toList_none, List.append_nil]
      apply keeps.replace_kept before replaced rfl rfl rfl
      · apply sound.resume arriving number tag dropped
        intro unsettled
        rw [settled] at unsettled
        exact (Bool.or_eq_false_iff.mp unsettled).1
      · rintro _ ⟨⟩
        exact ⟨assembly, arriving, number.symm⟩
  | start idle started begins =>
      rw [begins] at new ⊢
      obtain ⟨kept, detached, inserted⟩ := Endpoint.startDelivery_eq_ok started
      have fresh : taken.id ∉ begun := new taken.id rfl
      have untold (handle : UInt32) (tag : Bytes) : ¬ awaited handle taken.id tag :=
        fun h => fresh (keeps.begun handle taken.id tag h)
      have more : begun ⊆ begun ++ [taken.id] := List.subset_append_left _ _
      apply (keeps.mono more).replace replaced rfl rfl rfl
      · rw [← tag, ← settled] at inserted
        rw [detached]
        exact sound.start idle (keeps.unused before attached idle fresh) untold number
          (dropped.trans kept) inserted
      · rintro _ ⟨⟩ other account assembly hother arriving same
        have gathers := (keeps.sound other account hother).gathers assembly arriving
        rw [number] at same
        exact absurd (same ▸ gathers.begun) fresh

/-! ### Windows -/

variable {awaited : Awaited} {begun : List UInt32} {session session' : Session} {handle : UInt32}

theorem Keeps.count (keeps : session.Keeps awaited begun)
    (admitted : session.incomingWindow ≠ 0) :
  session.count.Keeps awaited begun
  := keeps.of_window rfl (fun closed => absurd (keeps.shut closed) admitted) rfl fun _ => rfl

/-- A window that is topped up, while a delivery is in hand or none is. -/
theorem Keeping.of_window (keeping : session.Keeping awaited begun handle)
    (limits : session'.limits = session.limits)
    (window : session'.incomingWindow = session.incomingWindow
      ∨ session'.incomingWindow = session.limits.incomingWindow)
    (incoming : session'.incomingUnsettled = session.incomingUnsettled)
    (account : ∀ handle, session'.account? handle = session.account? handle) :
  session'.Keeping awaited begun handle
  := by
  have closed (shut : session.limits.incomingWindow = 0 → session.incomingWindow = 0)
      (h : session.limits.incomingWindow = 0) : session'.incomingWindow = 0 := by
    rcases window with same | full
    · exact same.trans (shut h)
    · exact full.trans h
  cases keeping with
  | none keeps => exact .none (keeps.of_window limits (closed keeps.shut) incoming account)
  | @some _ assembly there attached taken keeps =>
      have held : (session'.holding handle assembly).Keeps awaited begun := by
        refine keeps.of_window limits (closed keeps.shut) incoming fun other => ?_
        rw [account?_holding, account?_holding, account]
      exact .some ((account handle).trans there) attached taken held

end Session

namespace Operation

variable {awaited : Awaited} {begun : List UInt32} {s : Serving}

theorem kept_error (keeps : s.session.Keeps awaited begun) (fault : Fault) :
  Kept awaited begun (.error fault s)
  := by
  cases fault with
  | link handle report => exact .none keeps
  | _ => exact keeps

theorem kept_of_after {op : Operation Unit} (keeps : (op.after s).session.Keeps awaited begun) :
  Kept awaited begun (op s)
  := by
  cases h : op s with
  | ok _ s' =>
      rw [after_of_ok h] at keeps
      exact keeps
  | error fault s' =>
      rw [after_of_error h] at keeps
      exact kept_error keeps fault

theorem Kept.replenishWindow {result : EStateM.Result Fault Serving Unit}
    (kept : Kept awaited begun result) :
  Kept awaited begun (mapState replenishWindow result)
  := by
  have topped (s : Serving) :
      (Operation.replenishWindow s).session.limits = s.session.limits
        ∧ ((Operation.replenishWindow s).session.incomingWindow = s.session.incomingWindow
          ∨ (Operation.replenishWindow s).session.incomingWindow = s.session.limits.incomingWindow)
        ∧ (Operation.replenishWindow s).session.incomingUnsettled = s.session.incomingUnsettled
        ∧ (Operation.replenishWindow s).session.endpoints = s.session.endpoints := by
    rw [Operation.replenishWindow, Serving.onSession]
    dsimp only
    split
    · exact ⟨rfl, .inl rfl, rfl, rfl⟩
    · exact ⟨rfl, .inr rfl, rfl, rfl⟩
  have keeping {s : Serving} {handle : UInt32} (h : s.session.Keeping awaited begun handle) :
      (Operation.replenishWindow s).session.Keeping awaited begun handle := by
    obtain ⟨limits, window, incoming, endpoints⟩ := topped s
    apply h.of_window limits window incoming
    intro other
    rw [account?, account?, endpoints]
  have keeps {s : Serving} (h : s.session.Keeps awaited begun) :
      (Operation.replenishWindow s).session.Keeps awaited begun := by
    obtain ⟨limits, window, incoming, endpoints⟩ := topped s
    apply h.of_window limits _ incoming
    · intro other
      rw [account?, account?, endpoints]
    · intro closed
      rcases window with same | full
      · exact same.trans (h.shut closed)
      · exact full.trans closed
  cases result with
  | ok _ s => exact keeps kept
  | error fault s =>
      cases fault with
      | link handle report => exact keeping kept
      | _ => exact keeps kept

/-! ### Transfers -/

variable {transfer : Transfer} {payload : Bytes}

theorem onTransfer_of_admitted (admitted : s.session.incomingWindow ≠ 0) :
  onTransfer transfer payload s
    = mapState replenishWindow (receive transfer payload (s.onSession (·.count)))
  := by
  rw [onTransfer_of_counted admitted]
  cases receive transfer payload (s.onSession (·.count)) <;> rfl

/-- A transfer that completes no delivery is kept account of, when it is received on a link. -/
theorem kept_receiveOn {endpoint : Endpoint} (keeps : s.session.Keeps awaited begun)
    (there : s.session.endpoints.get? transfer.handle = some endpoint)
    (names : endpoint.link.handle = transfer.handle)
    (attached : endpoint.link.detachSent = false)
    (new : ∀ id ∈ endpoint.begun? transfer, id ∉ begun)
    (incomplete : endpoint.completed? transfer payload = none) :
  Kept awaited (begun ++ (endpoint.begun? transfer).toList)
    (receiveOn endpoint transfer payload s)
  := by
  rcases htake : endpoint.takeAssembly transfer with ⟨result, endpoint'⟩
  cases result with
  | error fault =>
      obtain ⟨same, nothing⟩ := Endpoint.account_of_error htake
      rw [receiveOn_of_error htake, nothing, Option.toList_none, List.append_nil]
      apply kept_error
      exact keeps.of_leaves (leaves_putEndpoint there same)
  | ok taken =>
      obtain ⟨detached, idle⟩ := Endpoint.account_of_taken htake
      obtain ⟨credit, unsettled, assembly, hsnd⟩ := endpoint.takeAssembly_snd transfer
      rw [htake] at hsnd
      have names' : endpoint'.link.handle = transfer.handle := by
        rw [show endpoint' = _ from hsnd]
        exact names
      have there' : (s.onSession (·.putEndpoint transfer.handle endpoint')).session.account?
          transfer.handle = some endpoint'.account := by
        apply account?_of_get?
        exact Table.get?_put_self _ _ _
      have receives := receives_receiveOn incomplete htake s
      apply receives.kept names' there' (detached.trans attached) idle
      exact keeps.take there attached htake new payload

/-- A transfer that completes no delivery is kept account of. -/
theorem kept_onTransfer {known : QueueId → Prop} (keeps : s.session.Keeps awaited begun)
    (attached : s.session.Attached known)
    (new : ∀ id ∈ s.session.begun? (.handle (.transfer transfer) payload), id ∉ begun)
    (incomplete : s.session.completed? (.transfer transfer) payload = none) :
  Kept awaited (begun ++ (s.session.begun? (.handle (.transfer transfer) payload)).toList)
    (onTransfer transfer payload s)
  := by
  rw [Session.begun?] at new ⊢
  rw [Session.completed?] at incomplete
  split
  · next closed =>
      rw [onTransfer, if_pos closed, Option.toList_none, List.append_nil]
      exact kept_error keeps _
  · next admitted =>
      rw [if_neg admitted] at new incomplete
      rw [onTransfer_of_admitted admitted]
      apply Kept.replenishWindow
      have counted : (s.onSession (·.count)).session.Keeps awaited begun := keeps.count admitted
      split at new
      · next endpoint hget =>
          rw [receive_of_some (by exact hget)]
          rw [hget] at incomplete
          dsimp only at incomplete
          cases hsent : endpoint.link.detachSent with
          | true =>
              rw [if_pos rfl, Bool.true_or, if_pos rfl, Option.toList_none, List.append_nil]
              exact counted
          | false =>
              rw [if_neg Bool.false_ne_true, Bool.false_or]
              cases hreceives : endpoint.kind.isReceiving with
              | false =>
                  rw [Bool.not_false, if_pos rfl, if_neg Bool.false_ne_true, Option.toList_none,
                    List.append_nil]
                  exact kept_error counted _
              | true =>
                  simp only [hsent, hreceives, Bool.not_true, Bool.or_self, Bool.false_eq_true,
                    if_false] at new incomplete
                  rw [Bool.not_true, if_neg Bool.false_ne_true, if_pos rfl]
                  exact kept_receiveOn counted hget (attached _ _ hget).handle hsent new incomplete
      · next hget =>
          rw [receive_of_none (by exact hget), Option.toList_none, List.append_nil]
          exact kept_error counted _

/-! ### Complete deliveries in hand -/

/-- A delivery is complete, and in hand. -/
structure InHand (awaited : Awaited) (begun : List UInt32) (handle : UInt32)
    (endpoint : Endpoint) (assembly : Assembly) (session : Session) : Prop where
  /-- The accounts are in order once it is put back. -/
  keeps : (session.holding handle assembly).Keeps awaited begun
  /-- Its link is there. -/
  there : session.account? handle = some endpoint.account
  /-- The link has the handle as its number. -/
  names : endpoint.link.handle = handle
  /-- Messages come from the peer on the link. -/
  receives : endpoint.kind.isReceiving = true
  /-- The broker has not detached the link. -/
  attached : endpoint.account.detached = false
  /-- The delivery is taken off the link. -/
  taken : endpoint.account.assembly = none
  /-- The delivery was not refused. -/
  kept : assembly.discarding = false
  /-- Transfers are admitted. -/
  admits : session.limits.incomingWindow ≠ 0

/-- A delivery that a transfer completes is in hand when the transfer has been counted. -/
theorem inHand_of_completed {known : QueueId → Prop} (keeps : s.session.Keeps awaited begun)
    (attached : s.session.Attached known)
    (new : ∀ id ∈ s.session.begun? (.handle (.transfer transfer) payload), id ∉ begun)
    {endpoint : Endpoint} {assembly : Assembly}
    (completed : s.session.completed? (.transfer transfer) payload = some (endpoint, assembly)) :
  InHand awaited (begun ++ (s.session.begun? (.handle (.transfer transfer) payload)).toList)
    transfer.handle endpoint assembly (s.session.count.putEndpoint transfer.handle endpoint)
  := by
  obtain ⟨admitted, before, hget, hsent, hreceives, hcompleted⟩ :=
    completed?_transfer_eq_some completed
  obtain ⟨taken, htake, rfl, -, -, kept, -⟩ := Endpoint.completed?_eq_some_iff.mp hcompleted
  obtain ⟨detached, idle⟩ := Endpoint.account_of_taken htake
  obtain ⟨credit, unsettled, gathered, hsnd⟩ := before.takeAssembly_snd transfer
  rw [htake] at hsnd
  have begins : s.session.begun? (.handle (.transfer transfer) payload)
      = before.begun? transfer := by
    rw [Session.begun?, if_neg admitted, hget]
    dsimp only
    rw [hsent, hreceives]
    rfl
  rw [begins] at new ⊢
  have counted := keeps.count admitted
  constructor
  · exact counted.take hget hsent htake new payload
  · apply account?_of_get?
    exact Table.get?_put_self _ _ _
  · rw [show endpoint = _ from hsnd]
    exact (attached _ _ hget).handle
  · rw [show endpoint = _ from hsnd]
    exact hreceives
  · exact detached.trans hsent
  · exact idle
  · exact kept
  · exact fun closed => admitted (keeps.shut closed)

namespace InHand

variable {handle : UInt32} {endpoint : Endpoint} {assembly : Assembly}

/-- A complete delivery that is settled is kept account of, whatever the peer is told. -/
theorem kept_settled (inHand : InHand awaited begun handle endpoint assembly s.session)
    {s' : Serving}
    (leaves : (s.session.settle endpoint.link.handle assembly.id).Leaves s'.session) :
  Kept awaited begun (.ok () s')
  := by
  rw [inHand.names] at leaves
  exact Keeps.of_leaves (inHand.keeps.settle_held inHand.there inHand.taken) leaves

theorem kept_fault (inHand : InHand awaited begun handle endpoint assembly s.session)
    (report : ErrorReport) :
  Kept awaited begun (.error (.link endpoint.link.handle report) s)
  := by
  rw [inHand.names]
  exact .some inHand.there inHand.attached inHand.taken inHand.keeps

theorem kept_awaited (inHand : InHand awaited begun handle endpoint assembly s.session)
    (unsettled : assembly.settled = false) (transactions : Ledger) (store : QueueStore)
    (settlement : Settlement) :
  Kept (fun key id tag => awaited key id tag
      ∨ key = handle ∧ id = assembly.id ∧ tag = assembly.tag) begun
    (.ok () ⟨Session.tell { s.session with
        transactions
        incomingUnsettled := s.session.incomingUnsettled.put assembly.id endpoint.link.handle }
      settlement, store⟩)
  := by
  rw [inHand.names]
  exact Keeps.of_leaves
    (inHand.keeps.await_held inHand.there inHand.taken inHand.admits inHand.kept unsettled)
    (.of_same rfl rfl rfl rfl)

end InHand

end Operation

end MessageBroker
