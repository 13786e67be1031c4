import MessageBroker.Proofs.Session.Refusing
import MessageBroker.Proofs.World.Links
import MessageBroker.Proofs.World.Prepending

/-!
# Tags are refused while they are in use

The first transfer of an unsettled delivery is refused, by detaching its link, exactly while an
earlier delivery with its tag on the link waits for the peer to settle it: it was completed, and
answered by a disposition that did not settle it, and the peer has not settled it since.  This holds
however transfers, dispositions and whatever else happens are mixed, as long as the peer gives no
two deliveries of a session one number.
-/

namespace MessageBroker.World

open Session

/-! ### What has happened -/

/-- By an action a delivery from the peer is answered on a session, so that the peer is to settle
it. -/
def Action.Answers (world : World) (index : Nat) (handle id : UInt32) (tag : Bytes)
    (action : Action) : Prop :=
  ∃ act member, action = .serve index act ∧ world.members[index]? = some member
    ∧ act.Answers ⟨member.session, world.store⟩ handle id tag

/-- By an action the peer settles a delivery of a session, or the link of the delivery or the
session comes to its end. -/
def Action.Releases (index : Nat) (handle id : UInt32) (action : Action) : Prop :=
  ∃ act, action = .serve index act ∧ act.Releases handle id

/-- Of the deliveries that were answered by actions on a session, the peer is to settle those that
it has not settled since, unless their links or the session came to an end. -/
def Unreleased (index : Nat) (actions : List Action) : Awaited :=
  fun handle id tag =>
    ∃ before action later, actions = before ++ action :: later
      ∧ action.Answers (empty.run before) index handle id tag
      ∧ ∀ other ∈ later, ¬ other.Releases index handle id

/-- The number of the delivery that the peer begins on a session by an action, if it does. -/
def Action.begun? (world : World) (index : Nat) : Action → Option UInt32
  | .serve other act =>
    if other = index then world.members[index]?.bind (·.session.begun? act) else none
  | _ => none

/-- The numbers of the deliveries that the peer begins on a session by actions. -/
def begunBy (index : Nat) : World → List Action → List UInt32
  | _, [] => []
  | world, action :: actions =>
    (action.begun? world index).toList ++ (world.step action).begunBy index actions

variable {world : World} {index : Nat} {actions : List Action} {action : Action}
  {handle id : UInt32} {tag : Bytes} {member : Member}

theorem begunBy_concat (world : World) (index : Nat) (actions : List Action) (action : Action) :
  world.begunBy index (actions ++ [action])
    = world.begunBy index actions ++ (action.begun? (world.run actions) index).toList
  := by
  induction actions generalizing world with
  | nil => exact List.append_nil _
  | cons first others ih =>
      rw [List.cons_append, begunBy, ih, ← List.append_assoc]
      rfl

/-- What the peer is to settle after one more action. -/
theorem unreleased_concat :
  Unreleased index (actions ++ [action]) handle id tag
    ↔ Unreleased index actions handle id tag ∧ ¬ action.Releases index handle id
      ∨ action.Answers (empty.run actions) index handle id tag
  := since_concat

/-- What the peer is to settle after something was done with a session. -/
theorem awaits_serve (hget : (empty.run actions).members[index]? = some member)
    (act : Session.Act) :
  Unreleased index (actions ++ [.serve index act])
    = (Unreleased index actions).after ⟨member.session, (empty.run actions).store⟩ act
  := by
  funext handle id tag
  apply propext
  rw [unreleased_concat, Awaited.after]
  have releases : Action.Releases index handle id (.serve index act) ↔ act.Releases handle id := by
    constructor
    · rintro ⟨act', ⟨⟩, releases⟩
      exact releases
    · exact fun releases => ⟨act, rfl, releases⟩
  have answers : Action.Answers (empty.run actions) index handle id tag (.serve index act)
      ↔ act.Answers ⟨member.session, (empty.run actions).store⟩ handle id tag := by
    constructor
    · rintro ⟨act', member', ⟨⟩, hget', answers⟩
      rw [hget] at hget'
      cases hget'
      exact answers
    · exact fun answers => ⟨act, member, rfl, hget, answers⟩
  rw [releases, answers]

/-- Whatever else happens makes no difference to what the peer is to settle. -/
theorem awaits_of_apart (apart : ∀ act, action ≠ .serve index act) :
  Unreleased index (actions ++ [action]) = Unreleased index actions
  := by
  funext handle id tag
  apply propext
  rw [unreleased_concat]
  constructor
  · rintro (⟨awaits, -⟩ | ⟨act, -, same, -⟩)
    · exact awaits
    · exact absurd same (apart act)
  · refine fun awaits => .inl ⟨awaits, ?_⟩
    rintro ⟨act, same, -⟩
    exact apart act same

/-! ### The accounts are in order -/

/-- What has happened with a session is kept account of: nothing has if it has not begun. -/
structure Recounts (index : Nat) (actions : List Action) : Prop where
  /-- The accounts of the session are in order. -/
  keeps : ∀ member, (empty.run actions).members[index]? = some member →
    member.session.Keeps (Unreleased index actions) (empty.begunBy index actions)
  /-- Nothing has happened with a session that has not begun. -/
  unborn : (empty.run actions).members[index]? = none →
    Unreleased index actions = (fun _ _ _ => False) ∧ empty.begunBy index actions = []

/-- Whatever else happens begins no delivery on a session. -/
theorem begun?_of_apart (apart : ∀ act, action ≠ .serve index act) (world : World) :
  action.begun? world index = none
  := by
  cases action with
  | serve other act =>
      rw [Action.begun?, if_neg]
      rintro rfl
      exact apart act rfl
  | _ => rfl

/-- An action on a session that has not begun makes no difference, unless it begins the session. -/
theorem Recounts.concat_of_none (recounts : Recounts index actions) (action : Action)
    (unborn : (empty.run actions).members[index]? = none) :
  Recounts index (actions ++ [action])
  := by
  obtain ⟨nothing, none⟩ := recounts.unborn unborn
  have nothing' : Unreleased index (actions ++ [action]) = fun _ _ _ => False := by
    funext handle id tag
    apply eq_false
    rw [unreleased_concat, nothing]
    rintro (⟨awaits, -⟩ | ⟨act, member, -, hget, -⟩)
    · exact awaits
    · rw [unborn] at hget
      contradiction
  have none' : empty.begunBy index (actions ++ [action]) = [] := by
    rw [begunBy_concat, none, List.nil_append]
    cases action with
    | serve other act =>
        rw [Action.begun?, unborn]
        split <;> rfl
    | _ => rfl
  refine ⟨fun member hget => ?_, fun _ => ⟨nothing', none'⟩⟩
  rw [nothing', none']
  rw [run_append] at hget
  change ((empty.run actions).step action).members[index]? = _ at hget
  obtain ⟨terms, limits, rfl⟩ := begun_of_step unborn hget
  exact .ofBegin terms limits

/-- What happens with a session is kept account of, as long as the peer uses no number again. -/
theorem Recounts.concat (recounts : Recounts index actions) (action : Action)
    (apart : (empty.begunBy index (actions ++ [action])).Nodup) :
  Recounts index (actions ++ [action])
  := by
  cases hget : (empty.run actions).members[index]? with
  | none => exact recounts.concat_of_none action hget
  | some member =>
      have keeps := recounts.keeps member hget
      rw [begunBy_concat] at apart
      have next : empty.run (actions ++ [action]) = (empty.run actions).step action :=
        run_append _ _ _
      rcases member_step hget action with ⟨act, rfl, hmember, -⟩ | ⟨elsewhere, hmember⟩
      · have begins : Action.begun? (empty.run actions) index (.serve index act)
            = member.session.begun? act := by
          rw [Action.begun?, if_pos rfl, hget]
          rfl
        rw [begins] at apart
        have new : ∀ id ∈ member.session.begun? act, id ∉ empty.begunBy index actions := by
          intro id hid used
          exact (List.nodup_append.mp apart).2.2 id used id (Option.mem_toList.mpr hid) rfl
        have attached :=
          (Reachable.housed ⟨actions, rfl⟩ member (List.mem_of_getElem? hget)).attached
        have kept :=
          Act.keeps_run (s := ⟨member.session, (empty.run actions).store⟩) keeps attached new
        rw [← next] at hmember
        refine ⟨fun member' hget' => ?_, fun unborn => ?_⟩
        · obtain rfl := Option.some.inj (hmember.symm.trans hget')
          rw [awaits_serve hget, begunBy_concat, begins]
          exact kept
        · rw [hmember] at unborn
          contradiction
      · rw [← next] at hmember
        refine ⟨fun member' hget' => ?_, fun unborn => ?_⟩
        · obtain rfl := Option.some.inj (hmember.symm.trans hget')
          rw [awaits_of_apart elsewhere, begunBy_concat, begun?_of_apart elsewhere,
            Option.toList_none, List.append_nil]
          exact keeps
        · rw [hmember] at unborn
          contradiction

/-- What happens with a session is kept account of. -/
theorem recounts (apart : (empty.begunBy index actions).Nodup) :
  Recounts index actions
  := by
  induction actions using List.reverseRecOn with
  | nil =>
      refine ⟨fun member hget => by contradiction, fun _ => ⟨?_, rfl⟩⟩
      funext handle id tag
      apply eq_false
      rintro ⟨before, action, later, split, -⟩
      simp at split
  | append_singleton actions action ih =>
      apply Recounts.concat _ action apart
      apply ih
      rw [begunBy_concat] at apart
      exact (List.nodup_append.mp apart).1

/-! ### Refused exactly while in use -/

/-- By a transfer a link of a session is detached because of its state. -/
def Refuses (world : World) (index : Nat) (transfer : Transfer) (payload : Bytes) : Prop :=
  ∃ member member', world.members[index]? = some member
    ∧ (world.step (.serve index (.handle (.transfer transfer) payload))).members[index]?
      = some member'
    ∧ member.session.Refuses transfer.handle member'.session

/-- A delivery tag is refused exactly while it is unsettled.  The first transfer of an unsettled
delivery, on an attached link with credit that allows its mode, is refused if and only if the peer
is to settle an earlier delivery with the tag on the link: that delivery was completed in a mode in
which the receiver settles second and was answered by a disposition that did not settle it, and no
settled disposition of the peer has covered it since.  If the transfer is refused, no queue
changes. -/
theorem tag_refused_iff (apart : (empty.begunBy index actions).Nodup)
    (hget : (empty.run actions).members[index]? = some member) {endpoint : Endpoint}
    {transfer : Transfer} (there : member.session.endpoints.get? transfer.handle = some endpoint)
    (opens : endpoint.Opens transfer tag) (payload : Bytes) :
  ((empty.run actions).Refuses index transfer payload
      ↔ ∃ id, Unreleased index actions transfer.handle id tag)
    ∧ ((empty.run actions).Refuses index transfer payload →
      ((empty.run actions).step (.serve index (.handle (.transfer transfer) payload))).store
        = (empty.run actions).store)
  := by
  have keeps := (recounts apart).keeps member hget
  have housed := Reachable.housed ⟨actions, rfl⟩ member (List.mem_of_getElem? hget)
  have sent := Link.detachSent_of_isAttached opens.attached
  have used := keeps.hasTag_iff there sent opens.idle tag
  have admitted (h : endpoint.link.unsettled.hasTag tag = true) :
      member.session.incomingWindow ≠ 0 := by
    obtain ⟨id, awaits⟩ := used.mp h
    exact housed.window (keeps.admits _ _ _ awaits)
  obtain ⟨refuses, store⟩ := Operation.refuses_iff_used
    (s := ⟨member.session, (empty.run actions).store⟩) housed.attached there opens admitted payload
  have here : (empty.run actions).Refuses index transfer payload
      ↔ member.session.Refuses transfer.handle (member.run (empty.run actions).store
        (.handle (.transfer transfer) payload)).1.session := by
    constructor
    · rintro ⟨before, next, hbefore, hnext, refused⟩
      obtain rfl := Option.some.inj (hget.symm.trans hbefore)
      obtain rfl := Option.some.inj ((member_serve hget _).symm.trans hnext)
      exact refused
    · exact fun refused => ⟨member, _, hget, member_serve hget _, refused⟩
  rw [here]
  exact ⟨refuses.trans used, fun refused => (store_serve hget _).trans (store refused)⟩

/-- The peer sends a message to a queue, on a link on which it settles after the broker. -/
def sentSecond : List Action :=
  [.addQueue "q" .unlimited true,
    .begin ⟨none, 0, 9, 9, none⟩ (BrokerConfig.standard.sessionLimits 512),
    .serve 0 (.handle (.attach ⟨"a", 0, .sender, .mixed, .second, none,
      some (.node ⟨some "q", none, none, none, false, none⟩), some 0, none⟩) []),
    .serve 0 (.handle (.transfer
      { Transfer.opening 0 0 false with deliveryTag := some [1], more := false })
      [0x00, 0x53, 0x77, 0x40])]

/-- The peer settles every delivery. -/
def settleAll : Action :=
  .serve 0 (.handle (.disposition ⟨.sender, 0, some 4294967295, true, none, false⟩) [])

/-- A tag that was used is refused until the peer has settled. -/
theorem tag_refused_iff_of_used :
  let transfer : Transfer :=
    { Transfer.opening 0 1 false with deliveryTag := some [1], more := false }
  (empty.run sentSecond).Refuses 0 transfer []
    ∧ ¬ (empty.run (sentSecond ++ [settleAll])).Refuses 0 transfer []
  := by
  intro transfer
  constructor
  · have first : (empty.run sentSecond).members[0]? = some _ := rfl
    have answers : Action.Answers (empty.run (sentSecond.take 3)) 0 0 0 [1] sentSecond[3] :=
      ⟨_, _, rfl, rfl, _, _, .accepted, [], rfl, rfl, rfl, rfl, rfl, rfl, rfl⟩
    refine (tag_refused_iff (by decide +kernel) first rfl
      ⟨rfl, rfl, rfl, rfl, rfl, by decide, rfl, ⟨.second, rfl⟩⟩ []).1.mpr ?_
    exact ⟨0, _, _, [], rfl, answers, by simp⟩
  · have later : (empty.run (sentSecond ++ [settleAll])).members[0]? = some _ := rfl
    intro refused
    obtain ⟨id, awaits⟩ := (tag_refused_iff (by decide +kernel) later rfl
      ⟨rfl, rfl, rfl, rfl, rfl, by decide, rfl, ⟨.second, rfl⟩⟩ []).1.mp refused
    rcases unreleased_concat.mp awaits with ⟨-, unreleased⟩ | ⟨act, member, same, -, answers⟩
    · have covered : covers ⟨.sender, 0, some 4294967295, true, none, false⟩ id = true :=
        decide_eq_true ⟨UInt32.zero_le,
          UInt32.le_iff_toNat_le.mpr (Nat.le_of_lt_succ id.toNat_lt)⟩
      exact unreleased ⟨_, rfl, .inl ⟨rfl, rfl, covered⟩⟩
    · cases same
      exact answers

end MessageBroker.World
