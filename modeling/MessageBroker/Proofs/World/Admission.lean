import MessageBroker.Proofs.Session.Admission
import MessageBroker.Proofs.World.Intake
import MessageBroker.Proofs.World.Windows

/-!
# Windows that stay open

The window of a session is more than half open between any two acts, so that a transfer of the peer
never finds it closed.  It is used by transfers alone, and whenever it is opened anew the peer is
told so once, with the number of the next transfer, which is that of the begin and all transfers
since, whatever came of them.
-/

namespace MessageBroker

open Session

/-! ### Admission -/

namespace Admission

/-- What the peer may send, after more was told about it. -/
def beyond (x : Admission) (before : List (UInt32 × Option UInt32)) : Admission :=
  { x with told := before ++ x.told }

theorem beyond_tell (x : Admission) (before : List (UInt32 × Option UInt32)) :
  (x.beyond before).tell = x.tell.beyond before
  := by
  rw [tell, beyond, beyond, tell, List.append_assoc]

theorem beyond_replenish (x : Admission) (before : List (UInt32 × Option UInt32)) :
  (x.beyond before).replenish = x.replenish.beyond before
  := by
  rw [replenish, replenish, apply_ite (beyond · before)]
  exact congrArg (ite _ _) (beyond_tell { x with window := x.limit } before)

theorem beyond_after (x : Admission) (before : List (UInt32 × Option UInt32)) (act : Session.Act) :
  (x.beyond before).after act = (x.after act).beyond before
  := by
  rw [after, after]
  split
  · exact beyond_replenish x.count before
  · split
    · exact beyond_tell x before
    · rfl

/-- More than half of the window is left, and so many transfers were counted since the first one. -/
structure Open (most first : UInt32) (count : Nat) (x : Admission) : Prop where
  /-- The limit. -/
  limit : x.limit = most
  /-- More than half of the window is left. -/
  above : most / 2 < x.window
  /-- No more than the limit is left. -/
  below : x.window ≤ most
  /-- Every transfer has a number. -/
  next : x.next = first + .ofNat count

namespace Open

variable {most first : UInt32} {count : Nat} {x : Admission}

theorem window_ne_zero (opened : x.Open most first count) :
  x.window ≠ 0
  := by
  intro closed
  have above := opened.above
  rw [closed] at above
  exact UInt32.not_lt_zero above

theorem count_le (opened : x.Open most first count) :
  x.count.window ≤ most
  := by
  -- More than half is left, so the subtraction does not wrap around.
  have one : 1 ≤ x.window := by
    rw [UInt32.le_iff_toNat_le, UInt32.toNat_one]
    exact Nat.pos_of_ne_zero fun h => opened.window_ne_zero (UInt32.toNat_inj.mp h)
  apply UInt32.le_trans _ opened.below
  rw [UInt32.le_iff_toNat_le, Admission.count, UInt32.toNat_sub_of_le _ _ one]
  exact Nat.sub_le _ _

theorem replenish (opened : x.Open most first count) :
  x.count.replenish.Open most first (count + 1)
  := by
  have next : x.next + 1 = first + .ofNat (count + 1) := by
    rw [opened.next, UInt32.ofNat_add, UInt32.add_assoc]
    rfl
  have limit : x.count.limit = most := opened.limit
  rw [Admission.replenish, limit]
  split
  · next half => exact ⟨limit, half, opened.count_le, next⟩
  · exact ⟨rfl, UInt32.lt_of_lt_of_le opened.above opened.below, UInt32.le_refl most, next⟩

theorem after (opened : x.Open most first count) (act : Session.Act) :
  (x.after act).Open most first (count + act.transfers.toNat)
  := by
  rw [Admission.after]
  cases act.transfers with
  | true => exact opened.replenish
  | false =>
      rw [if_neg Bool.false_ne_true]
      split
      · exact ⟨opened.limit, opened.above, opened.below, opened.next⟩
      · exact opened

end Open

end Admission

/-! ### Sessions of a world -/

namespace Member

/-- What was told in flows that name no link about what the peer may send. -/
def windowsTold (member : Member) : List (UInt32 × Option UInt32) :=
  (member.taken ++ member.session.outbox).filterMap Outgoing.windows?

/-- What the peer may send, and all that was told about it. -/
def admission (member : Member) : Admission :=
  { member.session.admission with told := member.windowsTold }

theorem admission_eq (member : Member) :
  member.admission = member.session.admission.beyond (member.taken.filterMap Outgoing.windows?)
  := by
  rw [admission, windowsTold, List.filterMap_append]
  rfl

/-- What the peer may send after an act is determined by what it might before, and by the act. -/
theorem admission_run {member : Member} (window : member.session.incomingWindow ≠ 0)
    (store : QueueStore) (act : Session.Act) :
  (member.run store act).1.admission = member.admission.after act
  := by
  by_cases taking : act = .takeOutput
  · subst taking
    -- What is put last into the output when it is taken are dispositions, which tell no window.
    have told : (member.run store .takeOutput).1.windowsTold = member.windowsTold := by
      change ((member.taken ++ member.session.flush.outbox) ++ []).filterMap _ = _
      rw [List.append_nil, List.filterMap_append, filterMap_flush_windows?, windowsTold,
        List.filterMap_append]
    rw [admission, told]
    rfl
  · rw [admission_eq, admission_eq, taken_run taking, Admission.beyond_after]
    congr 1
    exact act.admission_run taking (s := ⟨member.session, store⟩) window

/-- What an act does to the window of a session, of which at most so many transfers are left: a
transfer uses one, and if it leaves half or less the window is opened anew and told once; nothing
else changes it, and otherwise it is told only when the peer asks. -/
structure Admits (most : UInt32) (act : Session.Act) (before after : Member) : Prop where
  /-- A transfer uses one of the window. -/
  used : act.transfers = true → most / 2 < before.session.incomingWindow - 1 →
    after.session.incomingWindow = before.session.incomingWindow - 1
      ∧ after.windowsTold = before.windowsTold
  /-- A transfer that leaves half of the window or less opens it anew, which is told. -/
  opened : act.transfers = true → before.session.incomingWindow - 1 ≤ most / 2 →
    after.session.incomingWindow = most
      ∧ after.windowsTold = before.windowsTold ++ [(most, some after.session.nextIncomingId)]
  /-- Every transfer is counted. -/
  counted : act.transfers = true →
    after.session.nextIncomingId = before.session.nextIncomingId + 1
  /-- Anything else leaves the window as it is. -/
  idle : act.transfers = false →
    after.session.incomingWindow = before.session.incomingWindow
      ∧ after.session.nextIncomingId = before.session.nextIncomingId
      ∧ after.windowsTold = before.windowsTold
        ++ if act.asks then [(before.session.incomingWindow, some before.session.nextIncomingId)]
          else []

theorem admits_run {most first : UInt32} {count : Nat} {member : Member}
    (opened : member.admission.Open most first count) (store : QueueStore) (act : Session.Act) :
  Admits most act member (member.run store act).1
  := by
  have run := admission_run opened.window_ne_zero store act
  rw [Admission.after] at run
  cases transfers : act.transfers with
  | true =>
      have limit : member.admission.count.limit = most := opened.limit
      rw [transfers, if_pos rfl, Admission.replenish, limit] at run
      have next : (member.run store act).1.session.nextIncomingId
          = member.session.nextIncomingId + 1 := by
        have next := congrArg Admission.next run
        rwa [apply_ite Admission.next, Admission.tell, ite_self] at next
      refine ⟨fun _ half => ?_, fun _ half => ?_, fun _ => next, fun idle => ?_⟩
      · rw [if_pos (show member.admission.count.window > most / 2 from half)] at run
        exact ⟨congrArg Admission.window run, congrArg Admission.told run⟩
      · rw [if_neg (show ¬ member.admission.count.window > most / 2 from UInt32.not_lt.mpr half)]
          at run
        rw [next]
        exact ⟨congrArg Admission.window run, congrArg Admission.told run⟩
      · rw [transfers] at idle
        contradiction
  | false =>
      rw [transfers, if_neg Bool.false_ne_true] at run
      have busy {conclusion : Prop} (h : act.transfers = true) : conclusion := by
        rw [transfers] at h
        contradiction
      refine ⟨busy, busy, busy, fun _ => ?_⟩
      cases asks : act.asks with
      | true =>
          rw [asks, if_pos rfl] at run
          exact ⟨congrArg Admission.window run, congrArg Admission.next run,
            congrArg Admission.told run⟩
      | false =>
          rw [asks, if_neg Bool.false_ne_true] at run
          refine ⟨congrArg Admission.window run, congrArg Admission.next run, ?_⟩
          rw [if_neg Bool.false_ne_true, List.append_nil]
          exact congrArg Admission.told run

end Member

namespace World

/-- Whether the peer of a session sends a transfer. -/
def Action.transfers (index : Nat) : Action → Bool
  | .serve other act => other = index && act.transfers
  | _ => false

variable {world : World} {index : Nat} {member : Member}

/-- What is done with a session counts its transfers. -/
theorem open_run {most first : UInt32} {count : Nat} (hget : world.members[index]? = some member)
    (opened : member.admission.Open most first count) (actions : List Action) :
  ∃ later, (world.run actions).members[index]? = some later
    ∧ later.admission.Open most first (count + actions.countP (Action.transfers index))
  := by
  induction actions generalizing world member count with
  | nil => exact ⟨member, hget, opened⟩
  | cons action actions ih =>
      rw [List.countP_cons]
      rcases member_step hget action with ⟨act, rfl, hmember, -⟩ | ⟨other, hmember⟩
      · have next := opened.after act
        rw [← Member.admission_run opened.window_ne_zero world.store] at next
        obtain ⟨later, hlater, hopened⟩ := ih hmember next
        refine ⟨later, hlater, ?_⟩
        have same : Action.transfers index (.serve index act) = act.transfers := by
          rw [Action.transfers, decide_eq_true rfl, Bool.true_and]
        rw [same, Nat.add_comm (List.countP _ _), ← Nat.add_assoc]
        cases transfers : act.transfers <;> rwa [transfers] at hopened
      · obtain ⟨later, hlater, hopened⟩ := ih hmember opened
        refine ⟨later, hlater, ?_⟩
        have none : Action.transfers index action = false := by
          cases action with
          | serve served act =>
              rw [Action.transfers, decide_eq_false, Bool.false_and]
              rintro rfl
              exact other act rfl
          | _ => rfl
        rwa [none, if_neg Bool.false_ne_true]

/-- Half of the window that a sound configuration sets is less than all of it. -/
theorem half_lt_of_validate {config : BrokerConfig} (valid : config.validate = .ok ()) :
  config.incomingWindow / 2 < config.incomingWindow
  := by
  rw [UInt32.lt_iff_toNat_lt, UInt32.toNat_div]
  apply Nat.div_lt_self
  · exact Nat.pos_of_ne_zero fun h => incomingWindow_of_validate valid (UInt32.toNat_inj.mp h)
  · decide

/-- Between any two acts a session has more than half of its window left and has counted all transfers
of the peer, so that no fault is about the window; and whenever the window is opened anew the peer is
told once. -/
theorem window_never_closes (world : World) (terms : Begin) {config : BrokerConfig}
    (valid : config.validate = .ok ()) (size : UInt32) (actions : List Action) :
  ∃ member, ((world.step (.begin terms (config.sessionLimits size))).run actions).members[
      world.members.length]? = some member
    ∧ config.incomingWindow / 2 < member.session.incomingWindow
    ∧ member.session.incomingWindow ≤ config.incomingWindow
    ∧ member.session.nextIncomingId = terms.nextOutgoingId
      + .ofNat (actions.countP (Action.transfers world.members.length))
    ∧ (∀ p payload store fault s,
      Operation.dispatch p payload ⟨member.session, store⟩ = .error fault s
        ∨ Operation.handle p payload ⟨member.session, store⟩ = .error fault s → fault.OffWindow)
    ∧ ∀ store act, Member.Admits config.incomingWindow act member (member.run store act).1
  := by
  have begun : (world.step (.begin terms (config.sessionLimits size))).members[
      world.members.length]? = some ⟨.ofBegin terms (config.sessionLimits size), [], 0⟩ := by
    simp [step]
  have opened : (Member.mk (.ofBegin terms (config.sessionLimits size)) [] 0).admission.Open
      config.incomingWindow terms.nextOutgoingId 0 :=
    ⟨rfl, half_lt_of_validate valid, UInt32.le_refl _, (UInt32.add_zero _).symm⟩
  obtain ⟨member, there, now⟩ := open_run begun opened actions
  rw [Nat.zero_add] at now
  refine ⟨member, there, now.above, now.below, now.next, ?_, fun store act => ?_⟩
  · rintro p payload store fault s (raised | raised)
    · exact Operation.offWindow_dispatch now.window_ne_zero raised
    · exact Operation.offWindow_handle now.window_ne_zero raised
  · exact Member.admits_run now store act

/-- A window for one transfer is opened anew by a transfer that ends the session. -/
theorem window_never_closes_of_one :
  let config : BrokerConfig := { BrokerConfig.standard with incomingWindow := 1 }
  let terms : Begin := ⟨none, 4294967295, 9, 9, none⟩
  let transfer : Session.Act := .handle (.transfer (.continuation 7)) []
  config.validate = .ok ()
    ∧ ∃ member, ((empty.step (.begin terms (config.sessionLimits 512))).run
        [.serve 0 transfer]).members[0]? = some member
      ∧ 1 / 2 < member.session.incomingWindow ∧ member.session.nextIncomingId = 0
      ∧ member.windowsTold = [(1, some 0)]
  := by
  intro config terms transfer
  have valid : config.validate = .ok () := rfl
  obtain ⟨first, begun, -, -, -, -, admits⟩ := window_never_closes empty terms valid 512 []
  obtain ⟨member, there, above, -, next, -, -⟩ :=
    window_never_closes empty terms valid 512 [.serve 0 transfer]
  have zero : member.session.nextIncomingId = 0 :=
    next.trans (show (4294967295 : UInt32) + .ofNat 1 = 0 by decide)
  refine ⟨valid, member, there, above, zero, ?_⟩
  obtain rfl := Option.some.inj begun
  obtain rfl := Option.some.inj there
  obtain ⟨-, told⟩ := (admits .empty transfer).opened rfl (by decide)
  exact told.trans (congrArg (fun number => [(1, some number)]) zero)

end World

end MessageBroker
