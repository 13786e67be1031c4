import MessageBroker.Proofs.Session.Windows
import MessageBroker.Proofs.World.Crediting

/-!
# Deliveries begin within the window of the peer

The peer tells a window with the begin of a session, and anew with every flow.  A session begins a
delivery only inside the window that was told last.  A delivery that has begun is not split: its
remaining transfers follow at once, even where the window is used up by then, and before anything
else begins.
-/

namespace MessageBroker

open Session

/-- A transfer with this number is inside the window that is told with the number of the next
transfer that the peer expects. -/
def Inside (expected window number : UInt32) : Prop :=
  1 ≤ expected + window - number ∧ expected + window - number ≤ window

/-- What is sent after the transfers `before` is within a window.  A transfer that begins a delivery
is inside the window, and so are those sent before it.  A transfer that begins none goes on with the
delivery of the transfer just before it. -/
def Within (expected window : UInt32) (before after : List Transfer) : Prop :=
  ∃ sent, after = before ++ sent ∧ ∀ i, ∀ transfer ∈ sent[i]?,
    (transfer.deliveryId.isSome →
      ∀ earlier ≤ i, Inside expected window (.ofNat (before.length + earlier)))
    ∧ (transfer.deliveryId = none →
      ∃ j, i = j + 1 ∧ ∃ previous ∈ sent[j]?,
        previous.more = true ∧ previous.handle = transfer.handle)

namespace Course

variable {sent : List Transfer} {x y : Course}

/-- A course after other transfers. -/
def beyond (x : Course) (before : List Transfer) : Course :=
  { x with transfers := before ++ x.transfers }

theorem Transmits.beyond (h : x.Transmits sent y) (before : List Transfer) :
  (x.beyond before).Transmits sent (y.beyond before)
  := by
  refine ⟨?_, h.next, h.window, h.fits⟩
  rw [Course.beyond, h.transfers, ← List.append_assoc]
  rfl

/-- Every transfer has the number of the transfers before it. -/
def Numbered (x : Course) : Prop :=
  x.next = .ofNat x.transfers.length

theorem Transmits.numbered (h : x.Transmits sent y) (numbered : x.Numbered) :
  y.Numbered
  := by
  rw [Numbered, h.next, numbered, h.transfers, List.length_append, UInt32.ofNat_add]

/-- What is sent while a window is what is left of one that was told is within that window. -/
theorem Transmits.within (h : x.Transmits sent y) (numbered : x.Numbered) {expected window : UInt32}
    (told : x.window = LinkCredit.remaining expected window x.next) :
  Within expected window x.transfers y.transfers
  := by
  refine ⟨sent, h.transfers, ?_⟩
  intro i transfer hmem
  refine ⟨?_, h.fits.going i transfer hmem⟩
  intro hbegins earlier hle
  have hroom := h.fits.opening i transfer hmem hbegins
  rw [told] at hroom
  rw [UInt32.ofNat_add, ← numbered]
  exact LinkCredit.allowed_of_lt (Nat.lt_of_le_of_lt hle hroom)

end Course

/-! ### Sessions of a world -/

namespace Member

/-- The transfers that a session has sent. -/
def transfers (member : Member) : List Transfer :=
  (member.taken ++ member.session.outbox).filterMap Outgoing.transfer?

/-- The transfers that a session has sent, and where it stands then. -/
def course (member : Member) : Course where
  transfers := member.transfers
  next := member.session.nextOutgoingId
  window := member.session.remoteIncomingWindow

/-- A session after a flow of the peer has told the windows, if the peer sends one. -/
def informed (member : Member) (act : Session.Act) : Member :=
  { member with session := act.informed member.session }

theorem course_eq (member : Member) :
  member.course = member.session.course.beyond (member.taken.filterMap Outgoing.transfer?)
  := by
  rw [course, transfers, List.filterMap_append]
  rfl

/-- Only what there is to be sent can be taken. -/
theorem taken_run {act : Session.Act} (taking : act ≠ .takeOutput) (member : Member)
    (store : QueueStore) :
  (member.run store act).1.taken = member.taken
  := by
  cases act with
  | takeOutput => contradiction
  | _ => exact List.append_nil _

/-- A flow tells nothing about the transfers that were sent. -/
theorem numbered_informed (act : Session.Act) (member : Member) :
  (member.informed act).course.Numbered ↔ member.course.Numbered
  := by
  cases act with
  | handle p payload =>
      cases p with
      | _ => exact Iff.rfl
  | _ => exact Iff.rfl

theorem transmits_run (act : Session.Act) (member : Member) (store : QueueStore) :
  ∃ sent, (member.informed act).course.Transmits sent (member.run store act).1.course
  := by
  by_cases taking : act = .takeOutput
  · subst taking
    have hflush : member.session.flush.outbox.filterMap Outgoing.transfer?
        = member.session.outbox.filterMap Outgoing.transfer? :=
      congrArg Course.transfers member.session.course_flush
    refine ⟨[], .of_eq ?_⟩
    rw [course_eq, course_eq, Course.beyond, Course.beyond]
    change Course.mk ((member.taken ++ member.session.flush.outbox).filterMap _ ++ []) _ _ = _
    rw [List.filterMap_append, hflush, List.append_nil]
    rfl
  · obtain ⟨sent, hsent⟩ := (act.speaks_run taking ⟨member.session, store⟩).transmits
    refine ⟨sent, ?_⟩
    rw [course_eq, course_eq, taken_run taking]
    exact hsent.beyond _

end Member

namespace World

/-- The peer of a session tells the windows. -/
def Action.Informs (index : Nat) (action : Action) : Prop :=
  ∃ flow payload, action = .flow index flow payload

variable {world : World} {index : Nat} {member later : Member}

theorem informed_of_not_informs {act : Session.Act}
    (h : ¬ Action.Informs index (.serve index act)) (member : Member) :
  member.informed act = member
  := by
  cases act with
  | handle p payload =>
      cases p with
      | flow flow => exact absurd ⟨flow, payload, rfl⟩ h
      | _ => rfl
  | _ => rfl

theorem Reaches.now (kind : Action → Prop) (h : world.members[index]? = some later) :
  world.Reaches index kind later
  := ⟨[], fun _ hmem => absurd hmem List.not_mem_nil, h⟩

/-- Until the peer tells the windows anew, deliveries are begun within what is left of the window,
whatever happens. -/
theorem transmits_run (hget : world.members[index]? = some member) {actions : List Action}
    (uninformed : ∀ action ∈ actions, ¬ action.Informs index) :
  ∃ later sent, (world.run actions).members[index]? = some later
    ∧ member.course.Transmits sent later.course
  := by
  induction actions generalizing world member with
  | nil => exact ⟨member, [], hget, .of_eq rfl⟩
  | cons action actions ih =>
      obtain ⟨hfirst, hothers⟩ := List.forall_mem_cons.mp uninformed
      rcases member_step hget action with ⟨act, rfl, hmember, -⟩ | ⟨-, hmember⟩
      · obtain ⟨sent, hsent⟩ := member.transmits_run act world.store
        rw [informed_of_not_informs hfirst] at hsent
        obtain ⟨later, more, hlater, hmore⟩ := ih hmember hothers
        exact ⟨later, sent ++ more, hlater, hsent.trans hmore⟩
      · exact ih hmember hothers

/-- In every world that comes about, transfers are numbered one after another. -/
theorem Reachable.numbered (reachable : world.Reachable) :
  ∀ member ∈ world.members, member.course.Numbered
  := by
  refine reachable.forall_members (P := fun member => member.course.Numbered) ?_ ?_
  · intro terms limits
    rfl
  · intro member store act numbered
    obtain ⟨sent, hsent⟩ := member.transmits_run act store
    exact hsent.numbered ((member.numbered_informed act).mpr numbered)

theorem within_begin (terms : Begin) (limits : SessionLimits)
    (hlater : (world.step (.begin terms limits)).Reaches world.members.length
      (Action.Informs world.members.length) later) :
  Within 0 terms.incomingWindow [] later.transfers
  := by
  obtain ⟨actions, uninformed, hlater⟩ := hlater
  have hget : (world.step (.begin terms limits)).members[world.members.length]?
      = some ⟨.ofBegin terms limits, [], 0⟩ := by
    simp [step]
  obtain ⟨later', sent, hlater', hsent⟩ := transmits_run hget uninformed
  obtain rfl := Option.some.inj (hlater'.symm.trans hlater)
  apply hsent.within rfl
  change terms.incomingWindow = LinkCredit.remaining 0 terms.incomingWindow 0
  rw [LinkCredit.remaining, UInt32.zero_add, UInt32.sub_zero, if_neg (UInt32.lt_irrefl _)]

theorem within_flow_window (reachable : world.Reachable) (hget : world.members[index]? = some member)
    (flow : Flow) (payload : Bytes)
    (hlater : (world.step (.flow index flow payload)).Reaches index (Action.Informs index) later) :
  Within (flow.nextIncomingId.getD 0) flow.incomingWindow member.transfers later.transfers
  := by
  obtain ⟨actions, uninformed, hlater⟩ := hlater
  obtain ⟨sent, hsent⟩ := member.transmits_run (.handle (.flow flow) payload) world.store
  obtain ⟨later', more, hlater', hmore⟩ := transmits_run (member_serve hget _) uninformed
  obtain rfl := Option.some.inj (hlater'.symm.trans hlater)
  apply (hsent.trans hmore).within
  · exact reachable.numbered member (List.mem_of_getElem? hget)
  · rfl

/-- Every delivery of a session begins inside the window that its peer told last, with the begin of
the session or with a flow, and no transfer that is sent between two deliveries that begin inside
one window is outside it.  Only the transfers that go on with the last delivery can be outside.
Every transfer has the number of the transfers before it. -/
theorem deliveries_begin_within_window (reachable : world.Reachable) :
  (∀ terms limits later,
    (world.step (.begin terms limits)).Reaches world.members.length
        (Action.Informs world.members.length) later →
      Within 0 terms.incomingWindow [] later.transfers)
  ∧ ∀ index member, world.members[index]? = some member →
      member.session.nextOutgoingId = .ofNat member.transfers.length
      ∧ ∀ flow payload later,
        (world.step (.flow index flow payload)).Reaches index (Action.Informs index) later →
          Within (flow.nextIncomingId.getD 0) flow.incomingWindow member.transfers later.transfers
  := by
  refine ⟨fun terms limits later hlater => within_begin terms limits hlater, ?_⟩
  intro index member hget
  refine ⟨reachable.numbered member (List.mem_of_getElem? hget), ?_⟩
  intro flow payload later hlater
  exact within_flow_window reachable hget flow payload hlater

/-- A message that takes two transfers waits for a link to get credit. -/
def waiting : World :=
  empty.run [.addQueue "q" .unlimited true, .enqueue 0 (List.replicate 600 0),
    .begin ⟨none, 0, 9, 9, none⟩ ⟨9, 9, 0, true, 512⟩,
    .serve 0 (.handle (.attach
      ⟨"b", 0, .receiver, .mixed, .first,
        some ⟨some "q", none, none, none, false, none, .null, none, none, none⟩, none, none,
        none⟩) [])]

/-- A delivery of two transfers begins inside a window for one. -/
theorem deliveries_begin_within_window_of_two_transfers :
  ∃ member later : Member, waiting.members[0]? = some member
    ∧ (waiting.step (.flow 0 ⟨some 0, 1, 0, 9, some 0, some 0, some 9, none, false, false⟩
        [])).Reaches 0 (Action.Informs 0) later
    ∧ later.transfers.map (·.more) = [true, false]
    ∧ Within 0 1 member.transfers later.transfers
  := by
  have hget : waiting.members[0]? = some _ := rfl
  have hlater := Reaches.now (Action.Informs 0) (member_serve hget
    (.handle (.flow ⟨some 0, 1, 0, 9, some 0, some 0, some 9, none, false, false⟩) []))
  have reachable : waiting.Reachable := ⟨_, rfl⟩
  have hwithin := ((deliveries_begin_within_window reachable).2 0 _ hget).2 _ [] _ hlater
  exact ⟨_, _, hget, hlater, by decide +kernel, hwithin⟩

/-- Not every transfer is inside the window: a delivery is not split, even where the window is for
the first of its transfers only. -/
theorem continuation_is_not_inside :
  ¬ ∀ (world : World) (index : Nat) (member later : Member) (flow : Flow) (payload : Bytes),
      world.Reachable → world.members[index]? = some member →
      (world.step (.flow index flow payload)).Reaches index (Action.Informs index) later →
      ∀ number, member.transfers.length ≤ number → number < later.transfers.length →
        Inside (flow.nextIncomingId.getD 0) flow.incomingWindow (.ofNat number)
  := by
  intro claim
  have hget : waiting.members[0]? = some _ := rfl
  have hlater := Reaches.now (Action.Informs 0) (member_serve hget
    (.handle (.flow ⟨some 0, 1, 0, 9, some 0, some 0, some 9, none, false, false⟩) []))
  have hinside := claim waiting 0 _ _ _ [] ⟨_, rfl⟩ hget hlater 1 (by decide +kernel)
    (by decide +kernel)
  exact absurd hinside.1 (by decide)

end World

end MessageBroker
