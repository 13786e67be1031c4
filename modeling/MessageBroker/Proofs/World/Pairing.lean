import MessageBroker.Proofs.Session.Pairing
import MessageBroker.Proofs.World.Defaults
import MessageBroker.Proofs.World.Parting

/-!
# One attach and one detach

A session answers an attach of its peer by one attach, whether the link is accepted or refused.  Until
the peer detaches the link, its handle is in use, and the session tells at most one detach: when the
peer detaches the link, the session has told exactly one by then, and the handle is free.
-/

namespace MessageBroker

open Session Outgoing

namespace Member

variable {member : Member}

/-- Whatever is done with a session, what it tells about a link keeps step with how far it is with
it. -/
theorem paired_run (rest : member.session.AtRest) (store : QueueStore) (act : Session.Act)
    (handle : UInt32) :
  ∃ told, (member.run store act).1.told handle = member.told handle ++ told
    ∧ Paired act handle told (member.session.stage handle)
        ((member.run store act).1.session.stage handle)
  := by
  by_cases taking : act = .takeOutput
  · subst taking
    refine ⟨[], ?_, .still rfl rfl rfl⟩
    rw [told_takeOutput, List.append_nil]
  · obtain ⟨told, htold, hpaired⟩ :=
      Act.paired_run taking rest handle (s := ⟨member.session, store⟩)
    refine ⟨told, ?_, hpaired⟩
    rw [told_eq, told_eq, taken_run taking, List.append_assoc, ← htold]
    rfl

end Member

namespace World

variable {world : World} {index : Nat} {member : Member} {handle : UInt32}

/-- What a session tells about a link keeps step with how far it is with it, until the link comes to
its end. -/
structure Keeps (handle : UInt32) (told : List Outgoing) (member later : Member) : Prop where
  /-- That is told. -/
  tells : later.told handle = member.told handle ++ told
  /-- An attach is told for every link that comes about. -/
  attaches : attachCount told + (member.session.stage handle).held
    = (later.session.stage handle).held
  /-- A detach is owed for every attach, until it is told. -/
  detaches : detachCount told + (later.session.stage handle).due
    = attachCount told + (member.session.stage handle).due

theorem Keeps.trans {told more : List Outgoing} {middle later : Member}
    (h : Keeps handle told member middle) (h' : Keeps handle more middle later) :
  Keeps handle (told ++ more) member later
  := by
  constructor
  · rw [h'.tells, h.tells, List.append_assoc]
  · have := h.attaches
    have := h'.attaches
    rw [attachCount_append]
    omega
  · have := h.detaches
    have := h'.detaches
    rw [attachCount_append, detachCount_append]
    omega

theorem keeps_step (reachable : world.Reachable) (hget : world.members[index]? = some member)
    {action : Action} (lasting : ¬ action.Parts index handle) :
  ∃ later told, (world.step action).members[index]? = some later ∧ Keeps handle told member later
  := by
  have rest := reachable.atRest member (List.mem_of_getElem? hget)
  rcases member_step hget action with ⟨act, rfl, hmember, -⟩ | ⟨-, hmember⟩
  · obtain ⟨told, htold, hpaired⟩ := Member.paired_run rest world.store act handle
    have lasts : ¬ act.Parts handle := fun parts => lasting ⟨act, rfl, parts⟩
    exact ⟨_, told, hmember, htold, hpaired.attaches lasts,
      hpaired.detaches fun ends => lasts (.inr ends)⟩
  · exact ⟨member, [], hmember, (List.append_nil _).symm, by simp, by simp⟩

theorem keeps_run (reachable : world.Reachable) (hget : world.members[index]? = some member)
    {actions : List Action} (lasting : ∀ action ∈ actions, ¬ action.Parts index handle) :
  ∃ later told, (world.run actions).members[index]? = some later ∧ Keeps handle told member later
  := by
  induction actions generalizing world member with
  | nil => exact ⟨member, [], hget, (List.append_nil _).symm, by simp, by simp⟩
  | cons action actions ih =>
      obtain ⟨middle, told, hmiddle, hfirst⟩ :=
        keeps_step reachable hget (lasting action List.mem_cons_self)
      obtain ⟨later, more, hlater, hothers⟩ := ih (reachable.run [action]) hmiddle
        fun other hmem => lasting other (List.mem_cons_of_mem action hmem)
      exact ⟨later, told ++ more, hlater, hfirst.trans hothers⟩

/-- What a session has told about a link since the peer attached it, and what it does when the peer
attaches another link under the handle or detaches this one. -/
structure Open (world : World) (index : Nat) (handle : UInt32) (told : List Outgoing)
    (member : Member) (endpoint : Endpoint) : Prop where
  /-- The end of the link is there. -/
  there : member.session.endpoints.get? handle = some endpoint
  /-- One attach was told. -/
  attached : attachCount told = 1
  /-- One detach was told, or none if the session has not detached the link. -/
  detached : detachCount told = if endpoint.link.detachSent then 1 else 0
  /-- No other link can be attached under the handle, and an attempt leaves everything as it is. -/
  used : ∀ (attach : Attach) payload, attach.handle = handle →
    Operation.handle (.attach attach) payload ⟨member.session, world.store⟩
      = .error (.onSession .handleInUse s!"handle {handle} is already in use")
          ⟨member.session, world.store⟩
  /-- Once the peer has detached the link the handle is free, and one attach and one detach were
  told. -/
  ends : ∀ (detach : Detach) payload, detach.handle = handle →
    ∃ after last,
      (world.step (.detach index detach payload)).members[index]? = some after
      ∧ after.session.endpoints.get? handle = none
      ∧ after.told handle = member.told handle ++ last
      ∧ attachCount (told ++ last) = 1 ∧ detachCount (told ++ last) = 1

theorem open_of_there (reachable : world.Reachable) (hget : world.members[index]? = some member)
    {endpoint : Endpoint} (there : member.session.endpoints.get? handle = some endpoint)
    {told : List Outgoing} (attached : attachCount told = 1)
    (detached : detachCount told + endpoint.stage.due = 1) :
  Open world index handle told member endpoint
  := by
  have due := endpoint.due_stage
  refine ⟨there, attached, ?_, ?_, ?_⟩
  · split at due
    · next sent =>
        rw [if_pos sent]
        omega
    · next unsent =>
        rw [if_neg unsent]
        omega
  · rintro attach payload rfl
    exact Operation.handle_attach_of_used there payload
  · rintro detach payload rfl
    have rest := reachable.atRest member (List.mem_of_getElem? hget)
    have parts : Act.Parts detach.handle (.handle (.detach detach) payload) := .inl rfl
    have freed : (member.run world.store
        (.handle (.detach detach) payload)).1.session.endpoints.get? detach.handle = none :=
      parts.get?_run ⟨member.session, world.store⟩
    obtain ⟨last, hlast, hpaired⟩ := Member.paired_run rest world.store
      (.handle (.detach detach) payload) detach.handle
    have attaches := hpaired.parts parts
    have detaches := hpaired.detaches (by simp)
    rw [stage_of_get? there, stage_of_free freed] at detaches
    change detachCount last + 0 = _ at detaches
    refine ⟨_, last, member_serve hget _, freed, hlast, ?_, ?_⟩
    · rw [attachCount_append]
      omega
    · rw [detachCount_append]
      omega

/-- An attach of the peer under a handle that is free is answered by one attach, and until the link
comes to its end the handle is in use, and at most one detach is told; once the peer has detached the
link one has been, and the handle is free again. -/
theorem one_attach_one_detach (reachable : world.Reachable)
    (hget : world.members[index]? = some member) {attach : Attach}
    (free : member.session.endpoints.get? attach.handle = none) (payload : Bytes) :
  ∃ after told, (world.step (.attach index attach payload)).members[index]? = some after
    ∧ after.told attach.handle = member.told attach.handle ++ told ∧ attachCount told = 1
    ∧ ∀ actions, (∀ action ∈ actions, ¬ action.Parts index attach.handle) →
      ∃ later more endpoint,
        ((world.step (.attach index attach payload)).run actions).members[index]? = some later
        ∧ later.told attach.handle = after.told attach.handle ++ more
        ∧ Open ((world.step (.attach index attach payload)).run actions) index attach.handle
            (told ++ more) later endpoint
  := by
  have lasting : ¬ Action.Parts index attach.handle (.attach index attach payload) := by
    rintro ⟨act, same, parts⟩
    cases same
    have attaches : Act.Attaches attach.handle (.handle (.attach attach) payload) := rfl
    exact Act.not_parts_of_attaches attaches parts
  obtain ⟨endpoint, there⟩ :=
    Operation.get?_handle_attach (s := ⟨member.session, world.store⟩) free payload
  obtain ⟨after, told, hafter, first⟩ := keeps_step reachable hget lasting
  have opens : (after.session.stage attach.handle).held = 1 := by
    rw [← Option.some.inj ((member_serve hget _).symm.trans hafter)]
    exact (congrArg LinkStage.held (stage_of_get? there)).trans endpoint.held_stage
  have free' : member.session.stage attach.handle = .free := stage_of_free free
  have one : attachCount told = 1 := by
    have attaches := first.attaches
    rw [free', opens] at attaches
    exact attaches
  refine ⟨after, told, hafter, first.tells, one, fun actions lasts => ?_⟩
  have reachable' : (world.step (.attach index attach payload)).Reachable :=
    reachable.run [.attach index attach payload]
  obtain ⟨later, more, hlater, others⟩ := keeps_run reachable' hafter lasts
  have attaches := others.attaches
  have most := later.session.held_le_one attach.handle
  obtain ⟨left, hleft⟩ : ∃ left, later.session.endpoints.get? attach.handle = some left :=
    exists_of_held (by omega)
  refine ⟨later, more, left, hlater, others.tells, ?_⟩
  have whole := first.trans others
  have detaches := whole.detaches
  rw [free', stage_of_get? hleft, attachCount_append] at detaches
  change _ = _ + 0 at detaches
  have once : attachCount (told ++ more) = 1 := by
    rw [attachCount_append]
    omega
  exact open_of_there (reachable'.run actions) hlater hleft once (by omega)

/-- A link that is refused is attached and detached at once, and nothing more is told of it when the
peer detaches it. -/
theorem one_attach_one_detach_of_refused :
  ∃ later told endpoint, (idle.step .sourceless).members[0]? = some later
    ∧ Open (idle.step .sourceless) 0 0 told later endpoint
    ∧ (later.told 0).map (·.performative.name) = ["attach", "detach"]
    ∧ (((idle.step .sourceless).step (.detach 0 ⟨0, true, none⟩ [])).members[0]?.map fun member =>
        ((member.told 0).map (·.performative.name), member.session.endpoints.has 0))
      = some (["attach", "detach"], false)
  := by
  have hget : idle.members[0]? = some _ := rfl
  obtain ⟨after, told, hafter, -, -, opens⟩ := @one_attach_one_detach idle 0 _ ⟨_, rfl⟩ hget
    ⟨"b", 0, .receiver, .mixed, .first, none, none, none, none⟩ rfl []
  obtain ⟨later, more, endpoint, hlater, -, opens⟩ := opens [] (by simp)
  refine ⟨later, told ++ more, endpoint, hlater, opens, ?_, by decide +kernel⟩
  rw [← Option.some.inj ((member_serve hget _).symm.trans hlater)]
  decide +kernel

end World

end MessageBroker
