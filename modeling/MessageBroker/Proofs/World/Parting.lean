import MessageBroker.Proofs.Session.Parting
import MessageBroker.Proofs.World.Windows

/-!
# Silence after a detach

Once a session has told its peer that a link is detached, it tells nothing more about the link
until the peer has attached a link anew under its handle, whatever happens, unless the peer asks: a
flow that names the link is answered for as long as the peer has not detached the link too.
-/

namespace MessageBroker

open Session

namespace Member

variable {member : Member}

/-- What a session has told its peer about a link. -/
def told (handle : UInt32) (member : Member) : List Outgoing :=
  (member.taken ++ member.session.outbox).filter fun output => output.link? = some handle

theorem told_eq (handle : UInt32) (member : Member) :
  member.told handle
    = member.taken.filter (fun output => output.link? = some handle) ++ member.session.told handle
  := List.filter_append _ _

/-- What was told about a link is told as it is when it is taken to be sent. -/
theorem told_takeOutput (member : Member) (store : QueueStore) (handle : UInt32) :
  (member.run store .takeOutput).1.told handle = member.told handle
  := by
  have hflush : member.session.flush.told handle = member.session.told handle :=
    member.session.alike_flush.told handle
  rw [told_eq, told_eq]
  change (member.taken ++ member.session.flush.outbox).filter _ ++ [] = _
  rw [List.append_nil, List.filter_append, ← hflush]
  rfl

/-- Whatever is done with a session, no credit is left where the peer wants it given back. -/
theorem rests_run (rest : member.session.AtRest) (store : QueueStore) (act : Session.Act) :
  (member.run store act).1.session.AtRest
  := by
  by_cases taking : act = .takeOutput
  · subst taking
    exact rest
  · exact Act.rests_run taking rest (s := ⟨member.session, store⟩)

/-- Whatever is done with a session, it tells about a link only what is discreet. -/
theorem discreet_run (rest : member.session.AtRest) (store : QueueStore) (act : Session.Act)
    (handle : UInt32) :
  ∃ told, (member.run store act).1.told handle = member.told handle ++ told
    ∧ Discreet act handle told member.session (member.run store act).1.session
  := by
  by_cases taking : act = .takeOutput
  · subst taking
    refine ⟨[], ?_, .quiet fun shut => shut.of_endpoints rfl⟩
    rw [told_takeOutput, List.append_nil]
  · obtain ⟨told, htold, hdiscreet⟩ :=
      Act.discreet_run taking rest handle (s := ⟨member.session, store⟩)
    refine ⟨told, ?_, hdiscreet⟩
    rw [told_eq, told_eq, taken_run taking, List.append_assoc, ← htold]
    rfl

end Member

namespace World

variable {world : World} {index : Nat} {member later : Member} {handle : UInt32}

/-- In every world that comes about, no credit is left where the peer wants it given back. -/
theorem Reachable.atRest (reachable : world.Reachable) :
  ∀ member ∈ world.members, member.session.AtRest
  := by
  refine reachable.forall_members (P := fun member => member.session.AtRest) ?_ ?_
  · intro terms limits key endpoint hget
    contradiction
  · intro member store act rest
    exact Member.rests_run rest store act

/-! ### Until a link is attached anew -/

/-- The peer of a session attaches a link. -/
abbrev Action.attach (index : Nat) (attach : Attach) (payload : Bytes) : Action :=
  .serve index (.handle (.attach attach) payload)

/-- The peer of a session detaches a link. -/
abbrev Action.detach (index : Nat) (detach : Detach) (payload : Bytes) : Action :=
  .serve index (.handle (.detach detach) payload)

/-- An action attaches a link of a session under a handle that is not in use. -/
def Action.Renews (world : World) (index : Nat) (handle : UInt32) (action : Action) : Prop :=
  ∃ act member, action = .serve index act ∧ world.members[index]? = some member
    ∧ act.Attaches handle ∧ member.session.endpoints.get? handle = none

/-- None of the actions attaches a link under a handle that is not in use when it is taken. -/
def Unrenewed (index : Nat) (handle : UInt32) : World → List Action → Prop
  | _, [] => True
  | world, action :: actions =>
    ¬ action.Renews world index handle ∧ (world.step action).Unrenewed index handle actions

/-- By an action the peer of a session asks about a link: it wants an answer, or credit given
back. -/
def Action.Asks (index : Nat) (handle : UInt32) (action : Action) : Prop :=
  ∃ act, action = .serve index act ∧ act.Asks handle

/-- What is told about a link by an action is only flows, and nothing unless the peer asks. -/
def Action.Answered (index : Nat) (handle : UInt32) (action : Action) (told : List Outgoing) :
    Prop :=
  (∀ output ∈ told, output.Flows) ∧ (told ≠ [] → action.Asks index handle)

theorem answered_step (rest : member.session.AtRest) (hget : world.members[index]? = some member)
    (parted : member.session.Parted handle) {action : Action}
    (unrenewed : ¬ action.Renews world index handle) :
  ∃ later told, (world.step action).members[index]? = some later ∧ later.session.Parted handle
    ∧ later.told handle = member.told handle ++ told ∧ action.Answered index handle told
  := by
  rcases member_step hget action with ⟨act, rfl, hmember, -⟩ | ⟨-, hmember⟩
  · obtain ⟨told, htold, hdiscreet⟩ := Member.discreet_run rest world.store act handle
    have shut : member.session.Shut act handle :=
      ⟨parted, fun hfree hattaches => unrenewed ⟨act, member, rfl, hget, hattaches, hfree⟩⟩
    obtain ⟨hafter, hflows, hasks⟩ := hdiscreet.shut shut
    exact ⟨_, told, hmember, hafter.parted, htold, hflows, fun hsome => ⟨act, rfl, hasks hsome⟩⟩
  · exact ⟨member, [], hmember, parted, (List.append_nil _).symm, by simp, by simp⟩

/-- As long as a link is not attached anew, only flows are told about it that the peer asks for. -/
theorem answered_run (reachable : world.Reachable) (hget : world.members[index]? = some member)
    (parted : member.session.Parted handle) {actions : List Action}
    (unrenewed : world.Unrenewed index handle actions) :
  ∃ later answers, (world.run actions).members[index]? = some later
    ∧ later.session.Parted handle ∧ later.told handle = member.told handle ++ answers.flatten
    ∧ List.Forall₂ (Action.Answered index handle) actions answers
  := by
  induction actions generalizing world member with
  | nil => exact ⟨member, [], hget, parted, (List.append_nil _).symm, .nil⟩
  | cons action actions ih =>
      obtain ⟨hfirst, hothers⟩ := unrenewed
      have rest := reachable.atRest member (List.mem_of_getElem? hget)
      obtain ⟨middle, told, hmiddle, hparted, htold, hanswered⟩ :=
        answered_step rest hget parted hfirst
      obtain ⟨later, answers, hlater, hparted', htold', hanswers⟩ :=
        ih (reachable.run [action]) hmiddle hparted hothers
      refine ⟨later, told :: answers, hlater, hparted', ?_, .cons hanswered hanswers⟩
      rw [htold', htold, List.append_assoc]
      rfl

/-- A flow that names a link that the broker has detached is answered. -/
theorem told_flow (hget : world.members[index]? = some member) {endpoint : Endpoint}
    (there : member.session.endpoints.get? handle = some endpoint)
    (parted : endpoint.link.detachSent = true) {flow : Flow} (names : flow.handle = some handle)
    (payload : Bytes) :
  ∃ next, (world.step (.flow index flow payload)).members[index]? = some next
    ∧ (next.told handle).length = (member.told handle).length + endpoint.answers flow
  := by
  have hlength := Operation.told_handle_flow names (s := ⟨member.session, world.store⟩) there parted
    payload
  have handling : Session.Act.handle (.flow flow) payload ≠ .takeOutput := by simp
  refine ⟨_, member_serve hget _, ?_⟩
  rw [Member.told_eq, Member.told_eq, Member.taken_run handling, List.length_append,
    List.length_append, Nat.add_assoc, ← hlength]
  rfl

/-- A session keeps silent about a link, unless it is asked. -/
structure Silent (world : World) (index : Nat) (member : Member) (handle : UInt32) : Prop where
  /-- Until the peer has attached a link anew under the handle, nothing but flows is told about it,
  and by no action by which the peer does not ask. -/
  unasked : ∀ actions, world.Unrenewed index handle actions →
    ∃ later answers, (world.run actions).members[index]? = some later
      ∧ later.told handle = member.told handle ++ answers.flatten
      ∧ List.Forall₂ (Action.Answered index handle) actions answers
  /-- As long as the end of the link is there, flows that name it are answered. -/
  asked : ∀ actions, world.Unrenewed index handle actions →
    ∀ later endpoint, (world.run actions).members[index]? = some later →
      later.session.endpoints.get? handle = some endpoint →
      ∀ flow payload, flow.handle = some handle →
        ∃ next, ((world.run actions).step (.flow index flow payload)).members[index]? = some next
          ∧ (next.told handle).length = (later.told handle).length + endpoint.answers flow

/-- Once a session has told its peer that a link is detached, it keeps silent about it. -/
theorem silent_of_parted (reachable : world.Reachable) (hget : world.members[index]? = some member)
    (parted : member.session.Parted handle) :
  world.Silent index member handle
  := by
  constructor
  · intro actions unrenewed
    obtain ⟨later, answers, hlater, -, htold, hanswers⟩ :=
      answered_run reachable hget parted unrenewed
    exact ⟨later, answers, hlater, htold, hanswers⟩
  · intro actions unrenewed later endpoint hlater there flow payload names
    obtain ⟨later', _, hlater', parted', -, -⟩ := answered_run reachable hget parted unrenewed
    obtain rfl := Option.some.inj (hlater'.symm.trans hlater)
    exact told_flow hlater there (parted' endpoint there) names payload

/-- When a session tells its peer by an action that a link is detached, that is the last it tells
about the link by the action, and from then on it keeps silent about the link unless it is
asked. -/
theorem silent_after_detach (reachable : world.Reachable)
    (hget : world.members[index]? = some member) (handle : UInt32) (action : Action) :
  ∃ after told, (world.step action).members[index]? = some after
    ∧ after.told handle = member.told handle ++ told
    ∧ ((∃ output ∈ told, output.Detaches) →
      Outgoing.Parting told ∧ (world.step action).Silent index after handle)
  := by
  have rest := reachable.atRest member (List.mem_of_getElem? hget)
  rcases member_step hget action with ⟨act, rfl, hmember, -⟩ | ⟨-, hmember⟩
  · obtain ⟨told, htold, hdiscreet⟩ := Member.discreet_run rest world.store act handle
    refine ⟨_, told, hmember, htold, fun hdetaches => ?_⟩
    obtain ⟨hparting, hshut, -⟩ := hdiscreet.parts hdetaches
    exact ⟨hparting, silent_of_parted (reachable.run [.serve index act]) hmember hshut.parted⟩
  · refine ⟨member, [], hmember, (List.append_nil _).symm, ?_⟩
    rintro ⟨output, hmem, -⟩
    contradiction

/-- A world with a session that has just begun. -/
def idle : World :=
  empty.run [.begin ⟨none, 0, 9, 9, none⟩ ⟨9, 9, 0, true, 512⟩]

/-- The peer attaches a link to receive messages on, but does not say where they come from. -/
def Action.sourceless : Action :=
  .serve 0 (.handle (.attach ⟨"b", 0, .receiver, .mixed, .first, none, none, none, none⟩) [])

/-- A link that is refused is attached and detached, and yet a flow that names it is answered. -/
theorem silent_after_detach_of_refused :
  ∃ after later : Member, (idle.step .sourceless).members[0]? = some after
    ∧ (idle.step .sourceless).Silent 0 after 0
    ∧ ((idle.step .sourceless).step
        (.flow 0 ⟨some 0, 9, 0, 9, some 0, none, none, none, false, true⟩ [])).members[0]? = some later
    ∧ (later.told 0).map (·.performative.name) = ["attach", "detach", "flow"]
  := by
  have hget : idle.members[0]? = some _ := rfl
  obtain ⟨after, told, hafter, htold, hsilent⟩ :=
    silent_after_detach ⟨_, rfl⟩ hget 0 .sourceless
  have hrun := Option.some.inj (hafter.symm.trans (member_serve hget _))
  have hnames : (after.told 0).map (·.performative.name) = ["attach", "detach"] := by
    rw [hrun]
    decide +kernel
  have hdetaches : ∃ output ∈ told, output.Detaches := by
    have hmem : "detach" ∈ told.map (·.performative.name) := by
      rw [htold] at hnames
      change told.map _ = _ at hnames
      rw [hnames]
      decide
    obtain ⟨output, houtput, hname⟩ := List.mem_map.mp hmem
    refine ⟨output, houtput, ?_⟩
    cases hp : output.performative with
    | detach detach => exact ⟨detach, hp⟩
    | _ => simp [hp, Performative.name] at hname
  refine ⟨after, _, hafter, (hsilent hdetaches).2, member_serve hafter _, ?_⟩
  rw [hrun]
  decide +kernel

end World

end MessageBroker
