import MessageBroker.Proofs.Session.Speaking

/-!
# Transfers within the window

A delivery is begun only while the window of the peer is open, and every transfer takes one of the
window.  Once a delivery has begun all of its transfers are sent, even if the window does not last
for them.
-/

namespace MessageBroker

open Session

/-- The transfer in an output. -/
def Outgoing.transfer? (output : Outgoing) : Option Transfer :=
  match output.performative with
  | .transfer transfer => some transfer
  | _ => none

/-! ### Transfers of deliveries -/

/-- The transfers of a delivery in pieces, of which the first is given. -/
def Transfer.frames (transfer : Transfer) : List Bytes → List Transfer
  | [] => []
  | [_] => [{ transfer with more := false }]
  | _ :: pieces => { transfer with more := true } :: (continuation transfer.handle).frames pieces

/-- Transfers are those of deliveries, each of which begins while there is room for a transfer. -/
structure Fits (room : Nat) (sent : List Transfer) : Prop where
  /-- Where a delivery begins there is room. -/
  opening : ∀ i, ∀ transfer ∈ sent[i]?, transfer.deliveryId.isSome → i < room
  /-- A transfer that begins none goes on with the delivery of the transfer before it. -/
  going : ∀ i, ∀ transfer ∈ sent[i]?, transfer.deliveryId = none →
    ∃ j, i = j + 1 ∧ ∃ before ∈ sent[j]?, before.more = true ∧ before.handle = transfer.handle

namespace Fits

variable {room : Nat} {sent others : List Transfer}

theorem nil (room : Nat) :
  Fits room []
  := ⟨by simp, by simp⟩

theorem append (h : Fits room sent) (h' : Fits (room - sent.length) others) :
  Fits room (sent ++ others)
  := by
  have hsplit (i : Nat) (transfer : Transfer) (hmem : transfer ∈ (sent ++ others)[i]?) :
      transfer ∈ sent[i]? ∨ ∃ k, i = sent.length + k ∧ transfer ∈ others[k]? := by
    rcases Nat.lt_or_ge i sent.length with hlt | hge
    · rw [List.getElem?_append_left hlt] at hmem
      exact .inl hmem
    · rw [List.getElem?_append_right hge] at hmem
      exact .inr ⟨i - sent.length, by omega, hmem⟩
  constructor
  · intro i transfer hmem hbegins
    rcases hsplit i transfer hmem with hfirst | ⟨k, rfl, hsecond⟩
    · exact h.opening i transfer hfirst hbegins
    · have := h'.opening k transfer hsecond hbegins
      omega
  · intro i transfer hmem hgoes
    rcases hsplit i transfer hmem with hfirst | ⟨k, rfl, hsecond⟩
    · obtain ⟨j, rfl, before, hbefore, hmore⟩ := h.going i transfer hfirst hgoes
      refine ⟨j, rfl, before, ?_, hmore⟩
      have hlt : j < sent.length := (List.getElem?_eq_some_iff.mp hbefore).choose
      rw [List.getElem?_append_left hlt]
      exact hbefore
    · obtain ⟨j, rfl, before, hbefore, hmore⟩ := h'.going k transfer hsecond hgoes
      refine ⟨sent.length + j, rfl, before, ?_, hmore⟩
      rw [List.getElem?_append_right (Nat.le_add_right _ _), Nat.add_sub_cancel_left]
      exact hbefore

end Fits

namespace Transfer

theorem frames_cons_cons (transfer : Transfer) (piece next : Bytes) (others : List Bytes) :
  transfer.frames (piece :: next :: others)
    = { transfer with more := true } :: (continuation transfer.handle).frames (next :: others)
  := rfl

theorem length_frames (transfer : Transfer) (pieces : List Bytes) :
  (transfer.frames pieces).length = pieces.length
  := by
  induction pieces generalizing transfer with
  | nil => rfl
  | cons piece pieces ih =>
      cases pieces with
      | nil => rfl
      | cons next others => exact congrArg Nat.succ (ih _)

/-- All transfers of a delivery name its link, and only the last lets it end. -/
theorem frames_going (transfer : Transfer) (pieces : List Bytes) :
  (∀ first ∈ (transfer.frames pieces)[0]?,
      first.deliveryId = transfer.deliveryId ∧ first.handle = transfer.handle)
    ∧ ∀ i, ∀ later ∈ (transfer.frames pieces)[i + 1]?, later.deliveryId = none
      ∧ ∃ before ∈ (transfer.frames pieces)[i]?, before.more = true ∧ before.handle = later.handle
  := by
  induction pieces generalizing transfer with
  | nil => simp [frames]
  | cons piece pieces ih =>
      cases pieces with
      | nil => simp [frames]
      | cons next others =>
          obtain ⟨hfirst, hlater⟩ := ih (continuation transfer.handle)
          refine ⟨by simp [frames], ?_⟩
          intro i later hmem
          rw [frames_cons_cons, List.getElem?_cons_succ] at hmem
          cases i with
          | zero =>
              obtain ⟨hid, hhandle⟩ := hfirst later hmem
              exact ⟨hid, _, rfl, rfl, hhandle.symm⟩
          | succ i => exact hlater i later hmem

/-- The transfers of a delivery fit if there is room for one. -/
theorem fits_frames {room : Nat} (h : room ≠ 0) {transfer : Transfer}
    (begins : transfer.deliveryId.isSome) (pieces : List Bytes) :
  Fits room (transfer.frames pieces)
  := by
  obtain ⟨hfirst, hlater⟩ := transfer.frames_going pieces
  constructor
  · intro i other hmem hbegins
    cases i with
    | zero => exact Nat.pos_of_ne_zero h
    | succ i =>
        rw [(hlater i other hmem).1] at hbegins
        contradiction
  · intro i other hmem hgoes
    cases i with
    | zero =>
        rw [← (hfirst other hmem).1, hgoes] at begins
        contradiction
    | succ i => exact ⟨i, rfl, (hlater i other hmem).2⟩

end Transfer

/-! ### Courses -/

/-- The transfers that were sent, the number of the next one, and how many more the peer accepts. -/
structure Course where
  /-- The transfers. -/
  transfers : List Transfer
  /-- The number of the next one. -/
  next : UInt32
  /-- How many more the peer accepts. -/
  window : UInt32

/-- The transfers that a session has still to send, and where it stands then. -/
def Session.course (session : Session) : Course where
  transfers := session.outbox.filterMap Outgoing.transfer?
  next := session.nextOutgoingId
  window := session.remoteIncomingWindow

namespace Course

/-- Transfers are sent, of deliveries that begin within the window, and each is numbered and takes
one of the window as long as there is one. -/
structure Transmits (sent : List Transfer) (x y : Course) : Prop where
  /-- They are sent after the others. -/
  transfers : y.transfers = x.transfers ++ sent
  /-- Every transfer has a number. -/
  next : y.next = x.next + .ofNat sent.length
  /-- Every transfer takes one of the window. -/
  window : y.window.toNat = x.window.toNat - sent.length
  /-- Deliveries begin within the window. -/
  fits : Fits x.window.toNat sent

variable {sent more : List Transfer} {x y z : Course}

theorem Transmits.of_eq (h : y = x) :
  x.Transmits [] y
  := by
  rw [h]
  exact ⟨(List.append_nil _).symm, (UInt32.add_zero _).symm, rfl, .nil _⟩

theorem Transmits.trans (h : x.Transmits sent y) (h' : y.Transmits more z) :
  x.Transmits (sent ++ more) z
  := by
  constructor
  · rw [h'.transfers, h.transfers, List.append_assoc]
  · rw [h'.next, h.next, List.length_append, UInt32.ofNat_add, UInt32.add_assoc]
  · rw [h'.window, h.window, List.length_append, Nat.sub_sub]
  · apply h.fits.append
    rw [← h.window]
    exact h'.fits

end Course

/-! ### What a session sends -/

namespace Session

open Course

variable {act : Session.Act} {session session' : Session}

theorem course_flush (session : Session) :
  session.flush.course = session.course
  := by
  have hnone (dispositions : List Disposition) :
      (dispositions.map fun disposition => ⟨.disposition disposition, none⟩).filterMap
        Outgoing.transfer? = [] := by
    induction dispositions with
    | nil => rfl
    | cons disposition dispositions ih => exact ih
  rw [course, flush, List.filterMap_append, hnone, List.append_nil]
  rfl

/-- Only transfers count. -/
theorem course_emit (session : Session) (p : Performative) (payload : Option Bytes) :
  (session.emit p payload).course =
    { session.course with
      transfers := session.course.transfers ++ (Outgoing.transfer? ⟨p, payload⟩).toList }
  := by
  have hflush : session.flush.outbox.filterMap Outgoing.transfer? = session.course.transfers :=
    congrArg Course.transfers session.course_flush
  rw [course, emit]
  dsimp only
  rw [List.filterMap_append, hflush]
  cases htransfer : Outgoing.transfer? ⟨p, payload⟩ with
  | none => simp [htransfer, course, flush]
  | some transfer => simp [htransfer, course, flush]

theorem course_emit_of_none {p : Performative} (h : Outgoing.transfer? ⟨p, none⟩ = none)
    (session : Session) :
  (session.emit p none).course = session.course
  := by
  rw [course_emit, h, Option.toList_none, List.append_nil]

theorem course_sendTransfer (session : Session) (transfer : Transfer) (payload : Bytes) :
  (session.sendTransfer transfer payload).course =
    ⟨session.course.transfers ++ [transfer], session.course.next + 1,
      if session.course.window = 0 then 0 else session.course.window - 1⟩
  := course_emit _ (.transfer transfer) (some payload)

theorem sendPieces_cons_cons (session : Session) (transfer : Transfer) (piece next : Bytes)
    (others : List Bytes) :
  session.sendPieces transfer (piece :: next :: others)
    = (session.sendTransfer { transfer with more := true } piece).sendPieces
        (.continuation transfer.handle) (next :: others)
  := rfl

/-- All transfers of a delivery are sent, whether the window lasts for them or not. -/
theorem course_sendPieces (session : Session) (transfer : Transfer) (pieces : List Bytes) :
  (session.sendPieces transfer pieces).course.transfers
      = session.course.transfers ++ transfer.frames pieces
    ∧ (session.sendPieces transfer pieces).course.next
      = session.course.next + .ofNat pieces.length
    ∧ (session.sendPieces transfer pieces).course.window.toNat
      = session.course.window.toNat - pieces.length
  := by
  have hwindow (window : UInt32) :
      (if window = 0 then 0 else window - 1).toNat = window.toNat - 1 := by
    split
    · next hzero =>
        rw [hzero]
        rfl
    · next hpos =>
        have hone : (1 : UInt32) ≤ window := by
          rw [UInt32.le_iff_toNat_le, UInt32.toNat_one]
          exact Nat.pos_of_ne_zero fun h => hpos (UInt32.toNat_inj.mp h)
        exact UInt32.toNat_sub_of_le _ _ hone
  induction pieces generalizing session transfer with
  | nil => exact ⟨(List.append_nil _).symm, (UInt32.add_zero _).symm, rfl⟩
  | cons piece pieces ih =>
      cases pieces with
      | nil =>
          rw [sendPieces, course_sendTransfer]
          exact ⟨rfl, rfl, hwindow _⟩
      | cons next others =>
          obtain ⟨htransfers, hnext, hleft⟩ :=
            ih (session.sendTransfer { transfer with more := true } piece)
              (.continuation transfer.handle)
          rw [course_sendTransfer] at htransfers hnext hleft
          rw [sendPieces_cons_cons, htransfers, hnext, hleft, hwindow]
          refine ⟨?_, ?_, ?_⟩
          · rw [List.append_assoc, Transfer.frames_cons_cons]
            rfl
          · change _ = session.course.next + .ofNat ((next :: others).length + 1)
            rw [Nat.add_comm _ 1, UInt32.ofNat_add, UInt32.add_assoc]
            rfl
          · change _ = session.course.window.toNat - ((next :: others).length + 1)
            omega

theorem Alike.course (h : session.Alike session') :
  session'.course = session.course
  := by
  obtain ⟨told, htold, hnone⟩ := h.outbox
  have htransfers : told.filterMap Outgoing.transfer? = [] := by
    apply List.filterMap_eq_nil_iff.mpr
    intro output hmem
    have hlink := hnone output hmem
    rw [Outgoing.link?] at hlink
    rw [Outgoing.transfer?]
    split
    · next heq =>
        rw [heq] at hlink
        contradiction
    · rfl
  rw [Session.course, htold, List.filterMap_append, htransfers, List.append_nil,
    h.nextOutgoingId, h.remoteIncomingWindow]
  rfl

/-- Whatever is told, deliveries begin within the window. -/
theorem Speaks.transmits (h : session.Speaks act session') :
  ∃ sent, session.course.Transmits sent session'.course
  := by
  induction h with
  | alike alike => exact ⟨[], .of_eq alike.course⟩
  | trans _ _ ih ih' =>
      obtain ⟨sent, hfirst⟩ := ih
      obtain ⟨more, hsecond⟩ := ih'
      exact ⟨sent ++ more, hfirst.trans hsecond⟩
  | flow | attach | answer | giveBack => exact ⟨[], .of_eq (course_emit_of_none rfl _)⟩
  | detach =>
      refine ⟨[], .of_eq ((course_emit_of_none rfl _).trans ?_)⟩
      split <;> rfl
  | drop | finish | credit => exact ⟨[], .of_eq rfl⟩
  | @deliver session key id _ endpoint' settled payload window =>
      obtain ⟨htransfers, hnext, hleft⟩ := course_sendPieces (session.putEndpoint key endpoint')
        (.opening key id settled)
        (slices (chunkSize session.limits.maxFrameSize (.opening key id settled)) payload)
      have room : session.remoteIncomingWindow.toNat ≠ 0 := by
        intro hzero
        exact window (UInt32.toNat_inj.mp hzero)
      refine ⟨_, htransfers, ?_, ?_, Transfer.fits_frames room rfl _⟩
      · rw [Transfer.length_frames]
        exact hnext
      · rw [Transfer.length_frames]
        exact hleft

end Session

end MessageBroker
