import MessageBroker.Proofs.Connection.Output
import MessageBroker.Proofs.Session.Attaching

/-!
# Sizes of the frames of a connection

From its open on, a connection has a limit of the size of its frames, that of the end which accepts
less, but never less than every peer accepts.  Deliveries are cut so that they keep to the limit.
Nothing else is cut: what keeps to the limit does so because the fields that it writes whole are
small enough.
-/

namespace MessageBroker

namespace Connection

/-- The limit of a connection is the one that both ends accept, but not less than every peer
accepts. -/
structure Agrees (config : BrokerConfig) (terms : Open) (connection : Connection) : Prop where
  /-- The peer is the one that opened the connection. -/
  peer : connection.peer = some terms.containerId
  /-- Both ends accept frames up to the limit. -/
  limit : connection.maxFrameSize
    = max (min (terms.maxFrameSize.getD 4294967295) config.maxFrameSize) leastMaxFrameSize

/-- The limit leaves room for the fields of a transfer. -/
theorem Agrees.large {config : BrokerConfig} {terms : Open} {connection : Connection}
    (agrees : connection.Agrees config terms) :
  512 ≤ connection.maxFrameSize
  := by
  rw [agrees.limit]
  change leastMaxFrameSize ≤ if _ ≤ leastMaxFrameSize then leastMaxFrameSize else _
  split
  · apply UInt32.le_refl
  · next larger => exact UInt32.le_of_lt (UInt32.not_le.mp larger)

/-- The frames of a connection keep to its limit as far as deliveries are concerned. -/
structure Sized (config : BrokerConfig) (taken : List Emission) (connection : Connection) :
    Prop where
  /-- The broker is told the same about itself all the time. -/
  same : connection.config = config
  /-- While the connection is open the peer is known. -/
  known : connection.phase = .opened → connection.peer.isSome = true
  /-- From then on there is a limit. -/
  agrees : connection.peer.isSome = true → ∃ terms, connection.Agrees config terms
  /-- The sessions keep to the limit. -/
  sessions : ∀ slot ∈ connection.channels.rows, slot.session.Sized connection.maxFrameSize
  /-- What was sent keeps to it. -/
  said : ∀ channel content, .frame channel content ∈ taken ++ connection.output →
    content.Sized connection.maxFrameSize

namespace Sized

variable {config : BrokerConfig} {taken : List Emission} {connection connection' : Connection}

theorem start (config : BrokerConfig) :
  (Connection.start config).Sized config []
  := by
  constructor
  · rfl
  · exact fun opened => absurd opened (by simp [Connection.start])
  · exact fun known => absurd known (by simp [Connection.start])
  · simp [Connection.start, Table.rows]
  · simp [Connection.start]

variable (sized : connection.Sized config taken)

include sized

/-- The connection goes on, or is closed, and sends something. -/
theorem goes (same : connection'.config = connection.config)
    (phase : connection'.phase = .opened → connection.phase = .opened)
    (peer : connection'.peer = connection.peer)
    (limit : connection'.maxFrameSize = connection.maxFrameSize)
    (sessions : ∀ slot ∈ connection'.channels.rows, slot.session.Sized connection.maxFrameSize)
    {told : List Emission} (output : connection'.output = connection.output ++ told)
    (small : ∀ channel content, .frame channel content ∈ told →
      content.Sized connection.maxFrameSize) :
  connection'.Sized config taken
  := by
  constructor
  · exact same.trans sized.same
  · intro opened
    rw [peer]
    apply sized.known (phase opened)
  · intro known
    rw [peer] at known
    obtain ⟨terms, agrees⟩ := sized.agrees known
    exact ⟨terms, peer.trans agrees.peer, limit.trans agrees.limit⟩
  · rw [limit]
    exact sessions
  · intro channel content hmem
    rw [output, ← List.append_assoc] at hmem
    rw [limit]
    exact (List.mem_append.mp hmem).elim (sized.said channel content) (small channel content)

/-- Nothing is sent, and the sessions change. -/
theorem channels {channels : Table UInt16 SessionChannel}
    (sessions : ∀ slot ∈ channels.rows, slot.session.Sized connection.maxFrameSize) :
  { connection with channels }.Sized config taken
  := sized.goes rfl id rfl rfl sessions (List.append_nil _).symm (by simp)

/-- The sessions are gone, and the connection is closed. -/
theorem drop :
  { connection with channels := [], phase := .closed }.Sized config taken
  := by
  refine sized.goes rfl ?_ rfl rfl ?_ (List.append_nil _).symm (by simp)
  · exact fun closed => absurd closed (by simp)
  · simp [Table.rows]

theorem sendAll (channel : UInt16) {contents : List Outgoing}
    (small : ∀ content ∈ contents, content.Sized connection.maxFrameSize) :
  (connection.sendAll channel contents).Sized config taken
  := by
  refine sized.goes rfl id rfl rfl sized.sessions rfl ?_
  intro other content hmem
  obtain ⟨sent, hsent, hframe⟩ := List.mem_map.mp hmem
  cases hframe
  apply small content hsent

theorem send (channel : UInt16) {p : Performative} (other : ∀ transfer, p ≠ .transfer transfer) :
  (connection.send channel p).Sized config taken
  := by
  have small : ∀ content ∈ [(⟨p, none⟩ : Outgoing)], content.Sized connection.maxFrameSize := by
    intro content hmem
    rw [List.mem_singleton.mp hmem]
    apply Outgoing.Sized.bare other
  exact sized.sendAll channel small

theorem session {channel : UInt16} {slot : SessionChannel}
    (there : connection.channels.get? channel = some slot) :
  slot.session.Sized connection.maxFrameSize
  := sized.sessions slot (Table.mem_rows_of_mem (Table.mem_of_get? there))

/-- A session goes on or begins. -/
theorem put (channel : UInt16) {slot : SessionChannel}
    (small : slot.session.Sized connection.maxFrameSize) :
  { connection with channels := connection.channels.put channel slot }.Sized config taken
  := by
  apply sized.channels
  intro other hmem
  rcases Table.mem_rows_put hmem with rfl | hbefore
  · exact small
  · apply sized.sessions other hbefore

/-- What the sessions have to send is gathered. -/
theorem collect :
  connection.collect.Sized config taken
  := by
  refine sized.goes rfl id rfl rfl ?_ rfl ?_
  · intro slot hmem
    rw [Table.rows, Connection.collect, List.map_map] at hmem
    obtain ⟨row, there, rfl⟩ := List.mem_map.mp hmem
    have small := sized.sessions row.2 (Table.mem_rows_of_mem there)
    exact ⟨small.large, small.cuts, by simp [Session.takeOutput]⟩
  · intro channel content hmem
    obtain ⟨row, there, hmem⟩ := List.mem_flatMap.mp hmem
    obtain ⟨told, htold, hframe⟩ := List.mem_map.mp hmem
    cases hframe
    have small := sized.sessions row.2 (Table.mem_rows_of_mem there)
    apply small.takeOutput htold

theorem takeOutput :
  connection.takeOutput.2.Sized config (taken ++ connection.takeOutput.1)
  := by
  obtain ⟨same, known, agrees, sessions, said⟩ := sized.collect
  constructor
  · exact same
  · exact known
  · intro opened
    obtain ⟨terms, hterms⟩ := agrees opened
    exact ⟨terms, hterms.peer, hterms.limit⟩
  · exact sessions
  · intro channel content hmem
    apply said channel content
    change _ ∈ taken ++ connection.collect.output ++ [] at hmem
    rwa [List.append_nil] at hmem

end Sized

end Connection

namespace Hosting

open Connection

variable {config : BrokerConfig} {h h' : Hosting} {taken : List Emission}

section Sized

variable (sized : h.connection.Sized config taken)

include sized

/-- The connection is opened, and there is a limit from now on. -/
theorem sized_onOpen (converses : h.connection.Converses taken)
    (awaiting : h.connection.phase = .awaitingOpen) (terms : Open) :
  (h.onOpen terms).connection.Sized config taken
  := by
  have none := channels_of_unopened converses (by simp [awaiting])
  have stage := converses.stage
  rw [awaiting] at stage
  constructor
  · exact sized.same
  · exact fun _ => rfl
  · intro _
    rw [← sized.same]
    exact ⟨terms, rfl, rfl⟩
  · change ∀ slot ∈ h.connection.channels.rows, _
    rw [none]
    simp [Table.rows]
  · intro channel content hmem
    change _ ∈ taken ++ (h.connection.output ++ [_]) at hmem
    rw [← List.append_assoc, stage.said_of_awaitingOpen] at hmem
    rcases List.mem_cons.mp hmem with hheader | hopen
    · contradiction
    · cases List.mem_singleton.mp hopen
      apply Outgoing.Sized.bare
      simp

theorem sized_onBegin (opened : h.connection.phase = .opened) {channel : UInt16} {terms : Begin}
    (hbegin : h.onBegin channel terms = .ok h') :
  h'.connection.Sized config taken
  := by
  obtain ⟨terms', agrees⟩ := sized.agrees (sized.known opened)
  rw [onBegin] at hbegin
  split at hbegin
  · contradiction
  · split at hbegin
    · contradiction
    · cases hbegin
      apply (sized.send _ (by simp)).put
      exact Session.sized_ofBegin terms (h.connection.config.sessionLimits _) agrees.large

theorem sized_finishSession {channel : UInt16} {slot : SessionChannel}
    (there : h.connection.channels.get? channel = some slot) (error : Option ErrorReport) :
  (h.finishSession channel slot error).connection.Sized config taken
  := by
  have small : (Serving.finish ⟨slot.session, h.store⟩).session.Sized h.connection.maxFrameSize :=
    Session.Act.finish.sized_run (sized.session there)
  have others :
      { h.connection with channels := h.connection.channels.erase channel }.Sized config taken := by
    apply sized.channels
    intro other hmem
    apply sized.sessions other
    exact (List.filter_sublist.map _).subset hmem
  apply Sized.send _ slot.outgoing (by simp)
  apply others.sendAll
  intro content
  apply small.takeOutput

theorem sized_close (live : h.connection.isClosed = false) (error : Option ErrorReport) :
  (h.close error).connection.Sized config taken
  := by
  rw [close, if_neg (by simp [live])]
  exact sized.collect.drop.send 0 (by simp)

/-- Whatever a connection undergoes, its frames keep to the limit as far as deliveries are
concerned. -/
theorem sized_undergoes (converses : h.connection.Converses taken) (undergoes : h.Undergoes h') :
  h'.connection.Sized config taken
  := by
  induction undergoes with
  | refl | elsewhere => exact sized
  | trans first _ ih_first ih_second =>
      exact ih_second (ih_first sized converses) (converses_undergoes converses first)
  | keep => exact sized.goes rfl id rfl rfl sized.sessions (List.append_nil _).symm (by simp)
  | greet awaiting header =>
      refine sized.goes rfl ?_ rfl rfl sized.sessions rfl (by simp)
      intro opened
      change ite _ _ _ = _ at opened
      split at opened <;> contradiction
  | opens awaiting terms => apply sized_onOpen sized converses awaiting
  | begins opened hbegin => apply sized_onBegin sized opened hbegin
  | serve there act =>
      apply sized.put
      apply act.sized_run
      exact sized.session there
  | finishes there error => apply sized_finishSession sized there
  | collects => apply sized.collect
  | drops => apply sized.drop
  | closes _ live error => apply sized_close sized live

theorem sized_call (converses : h.connection.Converses taken) (call : Call) :
  (h.call call).2.connection.Sized config (taken ++ (h.call call).1)
  := by
  by_cases taking : call = .takeOutput
  · rw [taking]
    apply sized.takeOutput
  · obtain ⟨undergoes, none⟩ := undergoes_call taking h
    rw [none, List.append_nil]
    apply sized_undergoes sized converses undergoes

theorem sized_callAll (converses : h.connection.Converses taken) (calls : List Call) :
  (h.callAll calls).2.connection.Sized config (taken ++ (h.callAll calls).1)
  := by
  induction calls generalizing h taken with
  | nil =>
      rw [callAll, List.append_nil]
      exact sized
  | cons call calls ih =>
      have others := ih (sized_call sized converses call) (converses_call converses call)
      rw [List.append_assoc] at others
      exact others

end Sized

/-! ### Answers to attaches -/

/-- What a session has to send is sent on its channel when output is taken. -/
theorem mem_takeOutput {channel : UInt16} {slot : SessionChannel}
    (there : h.connection.channels.get? channel = some slot) {content : Outgoing}
    (hmem : content ∈ slot.session.pending) :
  .frame slot.outgoing content ∈ h.connection.takeOutput.1
  := by
  apply List.mem_append_right
  apply List.mem_flatMap.mpr
  exact ⟨(channel, slot), Table.mem_of_get? there, List.mem_map_of_mem hmem⟩

/-- An attach of the peer under a free handle is answered. -/
theorem answered_process (opened : h.connection.phase = .opened) {channel : UInt16}
    {slot : SessionChannel} (there : h.connection.channels.get? channel = some slot)
    {attach : Attach} (free : slot.session.endpoints.get? attach.handle = none) (payload : Bytes) :
  ∃ told, attach.Answered (EndpointKind.ofAttach h.store attach) told ∧ ∀ content ∈ told,
    .frame slot.outgoing content
      ∈ (h.process channel (.attach attach) payload).2.connection.takeOutput.1
  := by
  obtain ⟨s', hok, answered⟩ :=
    Operation.handle_attach_eq_ok (s := ⟨slot.session, h.store⟩) free payload
  have hprocess : h.process channel (.attach attach) payload
      = (none, ⟨{ h.connection with
            channels := h.connection.channels.put channel { slot with session := s'.session } },
          s'.store⟩) := by
    unfold process
    rw [opened]
    change onSessionPerformative channel (.attach attach) payload h = _
    rw [onSessionPerformative, there]
    dsimp only
    rw [operate, hok]
  have later : (h.process channel (.attach attach) payload).2.connection.channels.get? channel
      = some { slot with session := s'.session } := by
    rw [hprocess]
    apply Table.get?_put_self
  refine ⟨_, answered, fun content hmem => ?_⟩
  have sent := mem_takeOutput later hmem
  exact sent

/-! ### All calls -/

/-- Whatever is called on a connection, and whatever others do with the queues meanwhile: once the
peer has opened it, its limit is the one that both ends accept, but not less than every peer
accepts.  Every transfer that was taken from it keeps to the limit, and so does every other frame
whose fields that are written whole leave the limit some room.  Nothing of these is cut, so that
every frame is larger than each of them.  And an attach of the peer under a free handle is answered
by frames that repeat its name, what it says of the end of the peer, and why the link is refused,
of whatever size they are. -/
theorem frames_keep_to_limit (config : BrokerConfig) (store : QueueStore) (calls : List Call) :
  let after := callAll ⟨.start config, store⟩ calls
  let limit := after.2.connection.maxFrameSize.toNat
  after.2.connection.peer.isSome = true →
    (∃ terms, after.2.connection.Agrees config terms) ∧ 512 ≤ limit
    ∧ (∀ channel content, .frame channel content ∈ after.1 →
        let size := (Emission.frame channel content).octets.length
        ((∃ transfer, content.performative = .transfer transfer) → size ≤ limit)
        ∧ (64 + content.performative.wholeSize ≤ limit → size ≤ limit)
        ∧ ∀ field ∈ content.performative.whole, field.isNull = false →
            field.encode.length < size)
    ∧ (∀ channel slot, after.2.connection.channels.get? channel = some slot →
        ∀ attach : Attach, slot.session.endpoints.get? attach.handle = none →
          ∀ payload, let answered := (after.2.process channel (.attach attach) payload).2
            ∀ field, attach.Repeats (EndpointKind.ofAttach after.2.store attach) field →
              ∃ emission ∈ answered.connection.takeOutput.1,
                field.encode.length < emission.octets.length)
  := by
  intro after limit known
  have converses : after.2.connection.Converses after.1 :=
    converses_callAll (h := ⟨.start config, store⟩) (.start config) calls
  have sized : after.2.connection.Sized config after.1 :=
    sized_callAll (h := ⟨.start config, store⟩) (.start config) (.start config) calls
  obtain ⟨terms, agrees⟩ := sized.agrees known
  refine ⟨⟨terms, agrees⟩, UInt32.le_iff_toNat_le.mp agrees.large, ?_, ?_⟩
  · intro channel content hmem size
    have small := sized.said channel content (List.mem_append_left _ hmem)
    have hsize : size = content.size := Emission.length_octets channel content
    rw [hsize]
    refine ⟨?_, ?_, fun field there present => Outgoing.length_encode_lt_size there present⟩
    · rintro ⟨transfer, htransfer⟩
      apply small.transfer_le htransfer
    · intro room
      have bound := small.size_le
      omega
  · intro channel slot there attach free payload _ field repeats
    have opened : after.2.connection.phase = .opened := by
      by_contra unopened
      rw [channels_of_unopened converses unopened] at there
      contradiction
    obtain ⟨told, answers, sent⟩ := answered_process opened there free payload
    obtain ⟨content, hmem, larger⟩ := answers.exceeds repeats
    refine ⟨_, sent content hmem, ?_⟩
    rwa [Emission.length_octets]

/-- The peer asks for a node of a long name. -/
def longAttach : Attach where
  name := "a"
  handle := 0
  role := .receiver
  sndSettleMode := .mixed
  rcvSettleMode := .first
  source := some
    { address := some (String.ofList (List.replicate 500 'x'))
      durable := none
      expiryPolicy := none
      timeout := none
      dynamic := false
      distributionMode := none
      filter := .null
      defaultOutcome := none
      outcomes := none
      capabilities := none }
  target := none
  initialDeliveryCount := none
  maxMessageSize := none

/-- A peer that accepts frames of 512 octets asks for a node that there is not, by a name of 500
letters.  It is told so in a frame that is larger. -/
theorem frames_keep_to_limit_of_long_name :
  let after := callAll ⟨.start .standard, .empty⟩
    [.feed (protocolHeader
        ++ Frame.wire 0 (Performative.openConnection ⟨"peer", none, some 512, none, none⟩).encode),
      .feed (Frame.wire 0 (Performative.beginSession ⟨none, 0, 1, 1, none⟩).encode),
      .takeOutput]
  after.2.connection.maxFrameSize = 512
    ∧ ∃ emission ∈ (after.2.process 0 (.attach longAttach) []).2.connection.takeOutput.1,
      512 < emission.octets.length
  := by
  intro after
  obtain ⟨-, -, -, larger⟩ := frames_keep_to_limit .standard .empty
    [.feed (protocolHeader
        ++ Frame.wire 0 (Performative.openConnection ⟨"peer", none, some 512, none, none⟩).encode),
      .feed (Frame.wire 0 (Performative.beginSession ⟨none, 0, 1, 1, none⟩).encode),
      .takeOutput] rfl
  refine ⟨rfl, ?_⟩
  obtain ⟨emission, hmem, hlarger⟩ := larger 0 _ rfl longAttach rfl [] _ (.report rfl)
  refine ⟨emission, hmem, Nat.lt_of_le_of_lt ?_ hlarger⟩
  decide +kernel

end Hosting

end MessageBroker
