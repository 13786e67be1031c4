import MessageBroker.Proofs.Queue.Store
import MessageBroker.Proofs.Session.Completion
import MessageBroker.Proofs.Session.Links
import MessageBroker.Proofs.World.Basic

/-!
# Links last

Whatever the peer sends, and whatever else is done with a session, its links go on: each but those
that the peer sends a transfer or a detach on, and all until the session ends.
-/

namespace MessageBroker

open Session Serving

namespace Endpoint

theorem continues_givenUp (endpoint : Endpoint) :
  endpoint.Continues endpoint.givenUp
  := by
  rw [givenUp]
  cases endpoint.assembly with
  | none =>
      exact ⟨rfl, rfl, rfl, rfl, rfl, fun _ => rfl, fun _ => rfl, .refl _, fun h => by contradiction⟩
  | some assembly =>
      exact ⟨rfl, rfl, rfl, rfl, rfl, fun _ => rfl, fun _ => rfl, Unsettled.fades_settle _ _,
        fun h => by contradiction⟩

end Endpoint

namespace Operation

section Alone

variable (known : QueueId → Prop) (alone : Prop) (handle : UInt32)

/-! ### Outcomes -/

theorem continues_carryOutEach (decided : List (UInt32 × OutgoingDelivery × DeliveryState))
    (s : Serving) :
  s.session.Continues known alone handle ((carryOutEach decided).after s).session
  := by
  obtain ⟨_, _, hcarried⟩ := session_carryOutEach decided s
  rw [hcarried]
  exact .of_same rfl rfl rfl

theorem continues_onReceiverDisposition (disposition : Disposition) (s : Serving) :
  s.session.Continues known alone handle ((onReceiverDisposition disposition).after s).session
  := by
  apply related_onReceiverDisposition
    (motive := fun s s' => s.session.Continues known alone handle s'.session)
  · exact fun s => .refl known alone handle s.session
  · exact .trans
  · exact continues_carryOutEach known alone handle _ s
  · exact fun s => continues_emit known alone handle s.session _ _
  · exact continues_pumpAll known alone handle

theorem continues_onDisposition (disposition : Disposition) (s : Serving) :
  s.session.Continues known alone handle ((onDisposition disposition).after s).session
  := by
  rw [onDisposition]
  split
  · exact continues_onReceiverDisposition known alone handle disposition s
  · exact continues_onSenderDisposition known alone handle s.session disposition

/-! ### Complete deliveries -/

/-- Links go on where deliveries from the peer are accounted for. -/
theorem reckons_continues :
  Serving.Reckons fun s s' => s.session.Continues known alone handle s'.session
  where
  refl s := .refl known alone handle s.session
  trans := .trans
  settles s := continues_settle known alone handle s.session
  tells _ _ := .of_same rfl rfl rfl
  awaits _ _ := .of_same rfl rfl rfl

theorem continues_limitSize (endpoint : Endpoint) (assembly : Assembly) (s : Serving) :
  s.session.Continues known alone handle ((limitSize endpoint assembly).after s).session
  := related_limitSize (reckons_continues known alone handle) endpoint assembly s

theorem continues_complete (endpoint : Endpoint) (assembly : Assembly) (s : Serving) :
  s.session.Continues known alone handle ((complete endpoint assembly).after s).session
  := by
  refine related_complete (reckons_continues known alone handle) ?_ ?_ ?_ endpoint assembly s
  · exact fun _ _ => .of_same rfl rfl rfl
  · exact fun s _ _ => .refl known alone handle s.session
  · exact fun _ _ _ _ _ _ _ => .of_same rfl rfl rfl

/-! ### Transfers -/

theorem continues_replenishCredit (key : UInt32) (s : Serving) :
  s.session.Continues known alone handle ((replenishCredit key).after s).session
  := by
  rw [replenishCredit, after_modify]
  split
  · exact .refl known alone handle s.session
  · next endpoint hget =>
      split
      · exact .refl known alone handle s.session
      · have hput : s.session.Continues known alone handle (s.session.putEndpoint key
            (endpoint.onLink fun link =>
              { link with credit := link.credit.grant s.session.limits.linkCredit })) :=
          .put_of_continues hget (Endpoint.continues_onLink ⟨_, rfl⟩)
        exact hput.trans (continues_emitLinkFlow _ _ _ _ _ _)

/-- The window is topped up before it is used up. -/
theorem continues_replenishWindow {s s' : Serving}
    (h : (s.onSession (·.count)).session.Continues known alone handle s'.session) :
  s.session.Continues known alone handle (replenishWindow s').session
  := by
  rw [replenishWindow]
  change s.session.Continues known alone handle (ite _ _ _)
  have hlimits : s'.session.limits = s.session.limits := h.limits
  constructor
  · split
    · exact hlimits
    · exact hlimits
  · intro hlimit _
    rw [← hlimits] at hlimit
    split
    · next hleft =>
        intro hzero
        rw [hzero] at hleft
        exact absurd hleft (by simp)
    · exact hlimit
  · split
    · exact h.goes
    · exact h.goes
  · split
    · exact h.under
    · exact h.under

end Alone

section Apart

variable (known : QueueId → Prop)

/-- A transfer is received on its own link. -/
theorem continues_receiveOn {endpoint : Endpoint} {transfer : Transfer} {s : Serving}
    (hget : s.session.endpoints.get? transfer.handle = some endpoint) (payload : Bytes)
    (handle : UInt32) :
  s.session.Continues known (transfer.handle ≠ handle) handle
    ((receiveOn endpoint transfer payload).after s).session
  := by
  have hput : s.session.Continues known (transfer.handle ≠ handle) handle
      (s.session.putEndpoint transfer.handle (endpoint.takeAssembly transfer).2) := by
    apply Continues.put
    · exact fun hne _ _ _ heq => absurd heq hne
    · exact fun hunder => (hunder endpoint hget).takeAssembly transfer
  have hupdate (session : Session) (assembly : Assembly) :
      session.Continues known (transfer.handle ≠ handle) handle { session with
        endpoints := session.endpoints.update transfer.handle
          ({ · with assembly := some assembly }) } :=
    .update (fun hne heq => absurd heq hne) fun _ under =>
      ⟨under.handle, under.detachReceived, under.known⟩
  have received := related_receiveOn
    (reckons_continues known (transfer.handle ≠ handle) handle) endpoint transfer payload
    (fun endpoint' htake => by
      rw [← htake]
      exact hput)
    (fun s => hupdate s.session)
    (fun s endpoint' assembly _ => continues_complete _ _ _ endpoint' assembly s)
  obtain continues | ⟨s', continues, last⟩ := received
  · exact continues
  · rw [last]
    exact continues.trans (continues_replenishCredit _ _ _ _ _)

theorem continues_onTransfer (transfer : Transfer) (payload : Bytes) (s : Serving)
    (handle : UInt32) :
  s.session.Continues known (transfer.handle ≠ handle) handle
    ((onTransfer transfer payload).after s).session
  := by
  obtain same | counted | ⟨-, endpoint, hget, -, -, received⟩ := onTransfer_cases transfer payload s
  · rw [same]
    exact .refl _ _ _ _
  · rw [counted]
    exact continues_replenishWindow _ _ _ (.refl _ _ _ _)
  · rw [received]
    apply continues_replenishWindow
    exact continues_receiveOn known (s := s.onSession (·.count)) hget payload handle

end Apart

/-! ### Detaching -/

/-- A link that the broker detaches stays until the peer has detached it too. -/
theorem continues_detachWith (known : QueueId → Prop) (alone : Prop) (handle key : UInt32)
    (report : ErrorReport) (s : Serving) :
  s.session.Continues known alone handle ((detachWith key report).after s).session
  := by
  obtain ⟨same, -⟩ | ⟨endpoint, hget, -, parted⟩ := detachWith_cases key report s
  · rw [same]
    exact .refl known alone handle s.session
  · rw [parted]
    apply Continues.trans _ (continues_emit known alone handle _ _ _)
    split
    · next hgone =>
        apply Continues.erase
        intro _ _ other hother
        obtain rfl := Option.some.inj (hget.symm.trans hother)
        exact hgone
    · exact .put_of_continues hget endpoint.continues_givenUp

theorem continues_onDetach (known : QueueId → Prop) (detach : Detach) (s : Serving)
    (handle : UInt32) :
  s.session.Continues known (detach.handle ≠ handle) handle ((onDetach detach).after s).session
  := by
  obtain ⟨-, same⟩ | ⟨endpoint, -, parted⟩ := onDetach_cases detach s
  · rw [same]
    exact .refl _ _ _ _
  · rw [parted]
    have gone : s.session.Continues known (detach.handle ≠ handle) handle
        (s.session.unlink detach.handle) :=
      Continues.trans (.erase fun other same => absurd same other) (.of_same rfl rfl rfl)
    dsimp only [Serving.onSession]
    split
    · exact gone
    · exact gone.trans (continues_emit _ _ _ _ _ _)

/-! ### Attaching -/

section Attach

variable (known : QueueId → Prop) (alone : Prop) (handle : UInt32)

/-- A link is put under a handle that is not in use. -/
theorem continues_putEndpoint {session : Session} {key : UInt32} {endpoint : Endpoint}
    (free : session.endpoints.get? key = none) (under : endpoint.Under known key) :
  session.Continues known alone handle (session.putEndpoint key endpoint)
  := by
  apply Continues.put
  · intro _ other hother _ _
    rw [free] at hother
    contradiction
  · exact fun _ => under

/-- The queue that an attach asks messages to be put into is in the store. -/
theorem get?_of_ofAttach {store : QueueStore} {attach : Attach} {queue : QueueId}
    (h : EndpointKind.ofAttach store attach = .ok (.receiving queue)) :
  store.Has queue
  := by
  have hqueueAt {address : Option String}
      (hat : EndpointKind.queueAt store address = .ok queue) :
      store.Has queue := by
    cases address with
    | none => contradiction
    | some name =>
        rw [EndpointKind.queueAt] at hat
        split at hat
        · next found hfind =>
            obtain rfl := Except.ok.inj hat
            exact QueueStore.get?_of_find? hfind
        · contradiction
  rw [EndpointKind.ofAttach] at h
  split at h
  · split at h
    · simp at h
    · next node _ =>
        cases hat : EndpointKind.queueAt store node.address with
        | ok found =>
            rw [hat] at h
            obtain rfl := EndpointKind.receiving.inj (Except.ok.inj h)
            exact hqueueAt hat
        | error report =>
            rw [hat] at h
            contradiction
    · contradiction
  · cases hat : EndpointKind.queueAt store (attach.source.bind (·.address)) with
    | ok found =>
        rw [hat] at h
        change ite _ _ _ = _ at h
        split at h
        · simp [pure, Except.pure] at h
        · simp [pure, Except.pure] at h
    | error report =>
        rw [hat] at h
        contradiction

theorem continues_onAttach (attach : Attach) {s : Serving}
    (hknown : ∀ queue, s.store.Has queue → known queue) :
  s.session.Continues known alone handle ((onAttach attach).after s).session
  := by
  obtain ⟨-, same⟩ | ⟨free, h⟩ := onAttach_cases attach s
  · rw [same]
    exact .refl known alone handle s.session
  · have opened (kind : EndpointKind) (source : Option Source) (target : Option Target)
        (there : ∀ queue, kind = .receiving queue → known queue) :
        s.session.Continues known alone handle (s.session.openLink attach kind source target) := by
      apply (continues_emit known alone handle s.session _ none).trans
      exact continues_putEndpoint known alone handle free ⟨rfl, rfl, there⟩
    obtain ⟨kind, hkind, accepted⟩ | ⟨report, source, target, -, refused⟩ := h
    · rw [accepted]
      have attached := opened kind attach.source attach.target (by
        rintro queue rfl
        exact hknown queue (get?_of_ofAttach hkind))
      dsimp only [Serving.onSession]
      split
      · exact attached.trans (continues_emitLinkFlow known alone handle _ _ _)
      · exact attached
    · rw [refused]
      apply Continues.trans _ (continues_detachWith known alone handle _ report _)
      exact opened .refused source target (by simp)

/-! ### Flows -/

theorem continues_onFlow (flow : Flow) (s : Serving) :
  s.session.Continues known alone handle ((onFlow flow).after s).session
  := by
  revert s
  apply related_onFlow (motive := fun s s' => s.session.Continues known alone handle s'.session)
  · exact fun s => .refl known alone handle s.session
  · exact .trans
  · exact fun _ => .of_same rfl rfl rfl
  · exact fun _ _ _ credit there =>
      .put_of_continues there (Endpoint.continues_onLink ⟨credit, rfl⟩)
  · exact fun s => continues_emit known alone handle s.session _ _
  · exact fun s key => continues_emitLinkFlow known alone handle s.session s.store key
  · exact continues_pump known alone handle
  · exact continues_pumpAll known alone handle

end Attach

end Operation

/-! ### Everything that is done with a session -/

namespace Session.Act

/-- What is done with a session concerns the delivery that arrives on the link with a handle. -/
def Concerns (handle : UInt32) : Session.Act → Prop
  | .handle (.transfer transfer) _ => transfer.handle = handle
  | .handle (.detach detach) _ => detach.handle = handle
  | .finish => True
  | _ => False

/-- A link goes on, whatever is done that does not concern it. -/
theorem continues_run (act : Session.Act) {s : Serving} {known : QueueId → Prop}
    (hknown : ∀ queue, s.store.Has queue → known queue)
    (handle : UInt32) :
  s.session.Continues known (¬ act.Concerns handle) handle (act.run s).2.session
  := by
  cases act with
  | handle p payload =>
      have hdispatch : s.session.Continues known (¬ Concerns handle (.handle p payload)) handle
          ((Operation.dispatch p payload).after s).session := by
        cases p with
        | attach attach => exact Operation.continues_onAttach _ _ _ attach hknown
        | flow flow => exact Operation.continues_onFlow _ _ _ flow s
        | transfer transfer => exact Operation.continues_onTransfer known transfer payload s handle
        | disposition disposition => exact Operation.continues_onDisposition _ _ _ disposition s
        | detach detach => exact Operation.continues_onDetach known detach s handle
        | _ => exact .refl _ _ _ _
      rw [run, Operation.after, Operation.handle]
      split
      · next h =>
          rw [Operation.after_of_error h] at hdispatch
          exact hdispatch.trans (Operation.continues_detachWith _ _ _ _ _ _)
      · exact hdispatch
  | pumpAll => exact s.continues_pumpAll _ _ handle
  | recover => exact s.continues_recover _ _ handle
  | finish =>
      have hfinish := s.continues_finish known handle
      exact ⟨hfinish.limits, hfinish.window, fun h => absurd trivial h, hfinish.under⟩
  | takeOutput => exact .of_same rfl rfl rfl

end Session.Act

end MessageBroker
