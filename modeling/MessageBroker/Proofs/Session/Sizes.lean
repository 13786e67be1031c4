import MessageBroker.Proofs.Performative.Sizes
import MessageBroker.Proofs.Session.Outbox

/-!
# Sizes of what sessions send

A delivery is cut into transfers that are no larger than the peer accepts.  Nothing else that a
session sends has a payload, and nothing else is cut.
-/

namespace MessageBroker

/-! ### Frames -/

namespace Outgoing

/-- What is sent is a transfer that is no larger than a limit, or something else without payload. -/
inductive Sized (limit : UInt32) : Outgoing → Prop where
  /-- A transfer is no larger than the limit. -/
  | transfer {transfer : Transfer} {payload : Option Bytes}
      (within : size ⟨.transfer transfer, payload⟩ ≤ limit.toNat) :
      Sized limit ⟨.transfer transfer, payload⟩
  /-- Anything else has no payload. -/
  | bare {p : Performative} (other : ∀ transfer, p ≠ .transfer transfer) : Sized limit ⟨p, none⟩

variable {limit : UInt32} {output : Outgoing}

theorem Sized.transfer_le (sized : output.Sized limit) {transfer : Transfer}
    (h : output.performative = .transfer transfer) :
  output.size ≤ limit.toNat
  := by
  cases sized with
  | transfer within => exact within
  | bare other => exact absurd h (other transfer)

/-- What is sent is no larger than the limit, unless it has large fields that are written whole. -/
theorem Sized.size_le (sized : output.Sized limit) :
  output.size ≤ max limit.toNat (64 + output.performative.wholeSize)
  := by
  cases sized with
  | transfer within => exact within.trans (Nat.le_max_left _ _)
  | @bare p _ => exact p.frameSize_le.trans (Nat.le_max_right _ _)

/-- What is sent is larger than each field that is written whole. -/
theorem length_encode_lt_size {field : Value} (there : field ∈ output.performative.whole)
    (present : field.isNull = false) :
  field.encode.length < output.size
  := (Performative.length_encode_lt_frameSize there present).trans_le (Nat.le_add_right _ _)

end Outgoing

/-! ### Sessions -/

namespace Session

/-- A session keeps to a limit of the size of frames. -/
structure Sized (limit : UInt32) (session : Session) : Prop where
  /-- The limit leaves room for the fields of a transfer. -/
  large : 512 ≤ limit
  /-- It cuts deliveries by the limit. -/
  cuts : session.limits.maxFrameSize = limit
  /-- What it has to send keeps to the limit. -/
  outbox : ∀ output ∈ session.outbox, output.Sized limit

variable {limit : UInt32} {session session' : Session}

theorem sized_ofBegin (terms : Begin) (limits : SessionLimits)
    (large : 512 ≤ limits.maxFrameSize) :
  (ofBegin terms limits).Sized limits.maxFrameSize
  := by
  refine ⟨large, rfl, fun output hmem => ?_⟩
  contradiction

theorem limits_sendPieces (session : Session) (transfer : Transfer) (pieces : List Bytes) :
  (session.sendPieces transfer pieces).limits = session.limits
  := by
  apply related_sendPieces (motive := fun session session' => session'.limits = session.limits)
  · exact fun _ => rfl
  · exact fun before after => after.trans before
  · exact fun _ _ _ => rfl

namespace Sized

/-- A session that says more keeps to the limit if what it says does. -/
theorem append (sized : session.Sized limit) {told : List Outgoing}
    (limits : session'.limits = session.limits) (outbox : session'.outbox = session.outbox ++ told)
    (small : ∀ output ∈ told, output.Sized limit) :
  session'.Sized limit
  := by
  refine ⟨sized.large, limits ▸ sized.cuts, fun output hmem => ?_⟩
  rw [outbox] at hmem
  exact (List.mem_append.mp hmem).elim (sized.outbox output) (small output)

theorem of_outbox (sized : session.Sized limit) (limits : session'.limits = session.limits)
    (outbox : session'.outbox = session.outbox) :
  session'.Sized limit
  := sized.append limits (outbox.trans (List.append_nil _).symm) (by simp)

theorem flush (sized : session.Sized limit) :
  session.flush.Sized limit
  := by
  refine sized.append rfl rfl ?_
  intro output hmem
  obtain ⟨disposition, -, rfl⟩ := List.mem_map.mp hmem
  apply Outgoing.Sized.bare
  simp

theorem emit (sized : session.Sized limit) {p : Performative}
    (other : ∀ transfer, p ≠ .transfer transfer) :
  (session.emit p none).Sized limit
  := by
  refine sized.flush.append rfl rfl ?_
  intro output hmem
  rw [List.mem_singleton.mp hmem]
  apply Outgoing.Sized.bare other

/-- A delivery is cut by the limit, which leaves room for the fields of every transfer. -/
theorem sendDelivery (sized : session.Sized limit) (handle id : UInt32) (settled : Bool)
    (payload : Bytes) :
  (session.sendDelivery handle id settled payload).Sized limit
  := by
  have cut := cut_cutDelivery sized.large handle id settled payload
  have limits : (session.sendDelivery handle id settled payload).limits = session.limits :=
    limits_sendPieces _ _ _
  have outbox := session.outbox_sendDelivery handle id settled payload
  rw [sized.cuts] at outbox
  refine sized.flush.append limits outbox ?_
  intro output hmem
  obtain ⟨parcel, hparcel, rfl⟩ := List.mem_map.mp hmem
  apply Outgoing.Sized.transfer
  have within := cut.within parcel hparcel 0
  rwa [Emission.length_octets] at within

end Sized

theorem Alike.sized (alike : session.Alike session') (sized : session.Sized limit) :
  session'.Sized limit
  := by
  obtain ⟨told, outbox, unnamed⟩ := alike.outbox
  apply sized.append alike.limits outbox
  intro output hmem
  have there : output ∈ session'.outbox := by
    rw [outbox]
    apply List.mem_append_right _ hmem
  rcases alike.kinds output there with hbefore | ⟨-, bare⟩
  · apply sized.outbox output hbefore
  · obtain ⟨p, payload⟩ := output
    obtain rfl : payload = none := bare
    apply Outgoing.Sized.bare
    rintro transfer rfl
    have named := unnamed _ hmem
    contradiction

/-- Whatever a session tells keeps to the limit. -/
theorem Speaks.sized {act : Session.Act} (speaks : session.Speaks act session')
    (sized : session.Sized limit) :
  session'.Sized limit
  := by
  induction speaks with
  | alike alike => apply alike.sized sized
  | trans _ _ first second => apply second (first sized)
  | flow =>
      apply sized.emit
      simp
  | @attach _ _ _ attach =>
      have emitted : (Session.emit _ (.attach attach) none).Sized limit := sized.emit (by simp)
      exact emitted.of_outbox rfl rfl
  | detach =>
      apply Sized.emit
      · apply sized.of_outbox
        · split <;> rfl
        · split <;> rfl
      · simp
  | drop | finish | credit => exact sized.of_outbox rfl rfl
  | answer | giveBack =>
      apply Sized.emit
      · exact sized.of_outbox rfl rfl
      · simp
  | deliver =>
      apply Sized.sendDelivery
      exact sized.of_outbox rfl rfl

/-- Whatever is done with a session, it keeps to the limit. -/
theorem Act.sized_run (act : Session.Act) {s : Serving} (sized : s.session.Sized limit) :
  (act.run s).2.session.Sized limit
  := by
  by_cases taking : act = .takeOutput
  · rw [taking]
    refine ⟨sized.large, sized.cuts, fun output hmem => ?_⟩
    contradiction
  · apply (act.speaks_run taking s).sized
    apply sized.of_outbox
    · rw [informed.eq_def]
      split <;> rfl
    · rw [informed.eq_def]
      split <;> rfl

theorem Sized.takeOutput (sized : session.Sized limit) {output : Outgoing}
    (hmem : output ∈ session.takeOutput.1) :
  output.Sized limit
  := sized.flush.outbox output hmem

end Session

end MessageBroker
