import MessageBroker.Proofs.Connection.Conversation
import MessageBroker.Proofs.Connection.Gaps
import MessageBroker.Proofs.Connection.Reading
import MessageBroker.Proofs.Connection.Undergoing

/-!
# The output of a connection

Opens, begins, ends and closes are put in the output of a connection at once, but what a session
has to send stays with the session until it is gathered.  It is gathered before the session ends
and before the connection closes, and a session sends on a channel that no other session sends on.
So what is taken from a connection is a conversation, whatever arrives, and whenever it is taken.
-/

namespace MessageBroker

/-! ### Channels of the broker -/

namespace Connection

variable {connection : Connection}

theorem mem_outgoing {slot : SessionChannel} (there : slot ∈ connection.channels.rows) :
  slot.outgoing ∈ connection.outgoing.toFinset
  := List.mem_toFinset.mpr (List.mem_map_of_mem there)

/-- Where the peer has a channel without a session, there are no more sessions than channels below
the greatest one. -/
theorem length_outgoing_le (sorted : connection.channels.Sorted) {limit : UInt16}
    (within : ∀ number ∈ connection.channels.keys, number ≤ limit) {channel : UInt16}
    (vacant : connection.channels.get? channel = none) (offered : channel ≤ limit) :
  connection.outgoing.length ≤ limit.toNat
  := by
  have nodup : ((channel :: connection.channels.keys).map UInt16.toNat).Nodup := by
    apply List.Nodup.map (fun _ _ => UInt16.toNat.inj)
    exact List.nodup_cons.mpr ⟨Table.get?_eq_none_iff.mp vacant, sorted.nodup⟩
  have below : (channel :: connection.channels.keys).map UInt16.toNat
      ⊆ List.range (limit.toNat + 1) := by
    intro n hmem
    obtain ⟨number, hnumber, rfl⟩ := List.mem_map.mp hmem
    have hle : number ≤ limit := by
      rcases List.mem_cons.mp hnumber with rfl | hkey
      · exact offered
      · exact within number hkey
    exact List.mem_range.mpr (Nat.lt_succ_of_le (UInt16.le_iff_toNat_le.mp hle))
  have few := (List.subperm_of_subset nodup below).length_le
  rw [List.length_map, List.length_cons, List.length_range, Table.keys, List.length_map] at few
  rw [outgoing, Table.rows, List.length_map, List.length_map]
  omega

/-- Where the peer has a channel without a session, there are fewer sessions than channels. -/
theorem length_outgoing_lt (sorted : connection.channels.Sorted) {channel : UInt16}
    (vacant : connection.channels.get? channel = none) :
  connection.outgoing.length < 2 ^ 16
  := by
  have last (number : UInt16) : number ≤ 65535 :=
    UInt16.le_iff_toNat_le.mpr (Nat.le_of_lt_succ number.toNat_lt)
  exact Nat.lt_succ_of_le (length_outgoing_le sorted (fun _ _ => last _) vacant (last channel))

/-! ### Connections in conversation -/

/-- What was taken from a connection and what is in its output are a conversation so far, in which
the sessions that go on are those of the connection.  They send on channels of their own. -/
structure Converses (taken : List Emission) (connection : Connection) : Prop where
  /-- The conversation has come as far as the connection. -/
  stage : Stage connection.phase connection.outgoing.toFinset (taken ++ connection.output)
  /-- Sessions are in the order of the channels of the peer. -/
  sorted : connection.channels.Sorted
  /-- No two sessions send on one channel. -/
  apart : connection.outgoing.Nodup
  /-- Sessions have nothing to send but performatives of their own. -/
  proper : ∀ slot ∈ connection.channels.rows, slot.session.Proper

namespace Converses

variable {taken : List Emission}

theorem start (config : BrokerConfig) :
  (Connection.start config).Converses []
  := ⟨.silent, .nil, List.nodup_nil, by simp [Connection.start, Table.rows]⟩

/-- Where there are no sessions, there is nothing to be said about them. -/
theorem of_nil (h : connection.channels = [])
    (stage : Stage connection.phase ∅ (taken ++ connection.output)) :
  connection.Converses taken
  := by
  constructor
  · rw [outgoing, h]
    exact stage
  · rw [h]
    apply Table.Sorted.nil
  · rw [outgoing, h]
    apply List.nodup_nil
  · rw [h]
    simp [Table.rows]

variable (converses : connection.Converses taken)

include converses

/-- What the sessions have to send is gathered. -/
theorem collect :
  connection.collect.Converses taken
  := by
  have same : connection.collect.outgoing = connection.outgoing := by
    simp [outgoing, Connection.collect, Table.rows]
  constructor
  · rw [same]
    change Stage _ _ (taken ++ (connection.output ++ _))
    rw [← List.append_assoc]
    apply converses.stage.sends
    intro emission hmem
    obtain ⟨⟨number, slot⟩, there, hmem⟩ := List.mem_flatMap.mp hmem
    obtain ⟨content, hcontent, rfl⟩ := List.mem_map.mp hmem
    have listed := Table.mem_rows_of_mem there
    exact ⟨slot.outgoing, mem_outgoing listed, content, rfl,
      (converses.proper slot listed).takeOutput hcontent⟩
  · rw [Table.Sorted, Table.keys, Connection.collect, List.map_map]
    exact converses.sorted
  · rw [same]
    exact converses.apart
  · intro slot hmem
    rw [Table.rows, Connection.collect, List.map_map] at hmem
    obtain ⟨row, -, rfl⟩ := List.mem_map.mp hmem
    intro output hnone
    contradiction

/-- What is taken belongs to the conversation. -/
theorem takeOutput :
  connection.takeOutput.2.Converses (taken ++ connection.takeOutput.1)
  := by
  obtain ⟨stage, sorted, apart, proper⟩ := converses.collect
  refine ⟨?_, sorted, apart, proper⟩
  change Stage _ _ (taken ++ connection.collect.output ++ [])
  rw [List.append_nil]
  exact stage

/-- A session goes on. -/
theorem put {channel : UInt16} {slot : SessionChannel}
    (there : connection.channels.get? channel = some slot) {session : Session}
    (proper : session.Proper) :
  { connection with
    channels := connection.channels.put channel { slot with session } }.Converses taken
  := by
  have same : outgoing { connection with
      channels := connection.channels.put channel { slot with session } }
        = connection.outgoing :=
    converses.sorted.map_rows_put there rfl
  constructor
  · rw [same]
    exact converses.stage
  · apply converses.sorted.put
  · rw [same]
    exact converses.apart
  · intro other hmem
    rcases Table.mem_rows_put hmem with rfl | hbefore
    · exact proper
    · apply converses.proper other hbefore

/-- A session ends, after what it has to send. -/
theorem finish {channel : UInt16} {slot : SessionChannel}
    (there : connection.channels.get? channel = some slot) {contents : List Outgoing}
    (own : ∀ content ∈ contents, content.performative.isOfSession = true)
    (error : Option ErrorReport) :
  ((sendAll { connection with channels := connection.channels.erase channel } slot.outgoing
    contents).send slot.outgoing (.endSession error)).Converses taken
  := by
  have perm : connection.outgoing.Perm
      (slot.outgoing :: (connection.channels.erase channel).rows.map (·.outgoing)) := by
    have hperm := Table.perm_erase converses.sorted.nodup there
    exact (hperm.map (·.2)).map (·.outgoing)
  have apart := perm.nodup converses.apart
  obtain ⟨gone, others⟩ := List.nodup_cons.mp apart
  have listed := Table.mem_rows_of_mem (Table.mem_of_get? there)
  constructor
  · have told : ∀ emission ∈ contents.map (Emission.frame slot.outgoing),
        ∃ number ∈ connection.outgoing.toFinset, ∃ content : Outgoing,
          emission = .frame number content ∧ content.performative.isOfSession = true := by
      intro emission hmem
      obtain ⟨content, hcontent, rfl⟩ := List.mem_map.mp hmem
      exact ⟨slot.outgoing, mem_outgoing listed, content, rfl, own content hcontent⟩
    have stage := (converses.stage.sends told).ends (mem_outgoing listed) error
    rw [List.toFinset_eq_of_perm _ _ perm, List.toFinset_cons, Finset.erase_insert
      (by rwa [List.mem_toFinset])] at stage
    rw [List.append_assoc, List.append_assoc] at stage
    simpa [send, sendAll, outgoing] using stage
  · apply converses.sorted.erase
  · exact others
  · intro other hmem
    apply converses.proper other
    exact (List.filter_sublist.map _).subset hmem

/-- A session begins, on a channel that is free. -/
theorem begins (opened : connection.phase = .opened) {channel : UInt16}
    (vacant : connection.channels.get? channel = none) {session : Session} (proper : session.Proper)
    (terms : Begin) :
  { connection.send connection.freeChannel (.beginSession terms) with
    channels := connection.channels.put channel ⟨connection.freeChannel, session⟩ }.Converses taken
  := by
  have free := freeChannel_notMem (length_outgoing_lt converses.sorted vacant) converses.apart
  have perm : (outgoing { connection.send connection.freeChannel (.beginSession terms) with
      channels := connection.channels.put channel ⟨connection.freeChannel, session⟩ }).Perm
        (connection.freeChannel :: connection.outgoing) := by
    have hperm := Table.put_perm vacant ⟨connection.freeChannel, session⟩
    exact (hperm.map (·.2)).map (·.outgoing)
  constructor
  · have stage := converses.stage
    rw [opened] at stage
    have hbegins := stage.begins (by rwa [List.mem_toFinset]) terms
    rw [List.toFinset_eq_of_perm _ _ perm, List.toFinset_cons]
    rw [List.append_assoc] at hbegins
    simpa [send, opened] using hbegins
  · apply converses.sorted.put
  · apply perm.symm.nodup
    exact List.nodup_cons.mpr ⟨free, converses.apart⟩
  · intro other hmem
    rcases Table.mem_rows_put hmem with rfl | hbefore
    · exact proper
    · apply converses.proper other hbefore

/-- The connection is gone, or is closed without a word. -/
theorem drops :
  { connection with channels := [], phase := .closed }.Converses taken
  := by
  apply of_nil rfl
  apply converses.stage.drops

/-- The connection is closed, and the peer is told. -/
theorem closes (greeted : connection.phase ≠ .awaitingHeader) (unclosed : connection.phase ≠ .closed)
    (error : Option ErrorReport) :
  (send { connection with channels := [], phase := .closed } 0 (.closeConnection error)).Converses
    taken
  := by
  apply of_nil rfl
  have stage := converses.stage.closes greeted unclosed error
  rw [List.append_assoc] at stage
  exact stage

end Converses

end Connection

/-! ### Connections at work -/

namespace Hosting

open Connection

variable {h h' : Hosting} {taken : List Emission}

section Converses

variable (converses : h.connection.Converses taken)

include converses

/-- The header of the peer is answered, whether it is the right one or not. -/
theorem converses_answer (awaiting : h.connection.phase = .awaitingHeader) (header : Bytes) :
  Converses taken { h.connection with
    header
    phase := if header = protocolHeader then .awaitingOpen else .closed
    output := h.connection.output ++ [.header] }
  := by
  obtain ⟨stage, sorted, apart, proper⟩ := converses
  refine ⟨?_, sorted, apart, proper⟩
  rw [awaiting] at stage
  dsimp only
  rw [← List.append_assoc]
  split
  · apply stage.greets
  · apply stage.refuses

theorem converses_onOpen (awaiting : h.connection.phase = .awaitingOpen) (terms : Open) :
  (h.onOpen terms).connection.Converses taken
  := by
  obtain ⟨stage, sorted, apart, proper⟩ := converses
  refine ⟨?_, sorted, apart, proper⟩
  rw [awaiting] at stage
  have opens := stage.opens
  simp only [List.append_assoc] at opens
  apply opens

theorem converses_onBegin (opened : h.connection.phase = .opened) {channel : UInt16}
    {terms : Begin} {h' : Hosting} (hbegin : h.onBegin channel terms = .ok h') :
  h'.connection.Converses taken
  := by
  rw [onBegin] at hbegin
  split at hbegin
  · contradiction
  · next hvacant =>
      split at hbegin
      · contradiction
      · cases hbegin
        have vacant : h.connection.channels.get? channel = none := by
          simpa [Table.has] using hvacant
        apply converses.begins opened vacant
        apply Session.proper_ofBegin

theorem converses_finishSession {channel : UInt16} {slot : SessionChannel}
    (there : h.connection.channels.get? channel = some slot) (error : Option ErrorReport) :
  (h.finishSession channel slot error).connection.Converses taken
  := by
  rw [finishSession]
  apply converses.finish there
  have proper := converses.proper slot (Table.mem_rows_of_mem (Table.mem_of_get? there))
  have finished : (Serving.finish ⟨slot.session, h.store⟩).session.Proper :=
    Session.Act.finish.proper_run proper
  intro content hcontent
  apply finished.takeOutput hcontent

theorem converses_close (greeted : h.connection.phase ≠ .awaitingHeader)
    (live : h.connection.isClosed = false) (error : Option ErrorReport) :
  (h.close error).connection.Converses taken
  := by
  rw [close, if_neg (by simp [live])]
  apply converses.collect.closes greeted
  exact of_decide_eq_false live

/-- Whatever a connection undergoes, what is sent on it stays a conversation. -/
theorem converses_undergoes (undergoes : h.Undergoes h') :
  h'.connection.Converses taken
  := by
  induction undergoes with
  | refl | elsewhere => exact converses
  | trans _ _ first second => exact second (first converses)
  | keep => exact ⟨converses.stage, converses.sorted, converses.apart, converses.proper⟩
  | greet awaiting header => apply converses_answer converses awaiting
  | opens awaiting terms => apply converses_onOpen converses awaiting
  | begins opened hbegin => apply converses_onBegin converses opened hbegin
  | serve there act =>
      apply converses.put there
      apply act.proper_run
      exact converses.proper _ (Table.mem_rows_of_mem (Table.mem_of_get? there))
  | finishes there error => apply converses_finishSession converses there
  | collects => apply converses.collect
  | drops => apply converses.drops
  | closes greeted live error => apply converses_close converses greeted live

end Converses

/-! ### Calls -/

/-- What is called on a connection. -/
inductive Call where
  /-- Octets of the peer arrive. -/
  | feed (octets : Bytes)
  /-- What waits in the queues is sent. -/
  | pump
  /-- What is to be sent is taken. -/
  | takeOutput
  /-- What the peer has not settled on the session of a channel is taken back. -/
  | recover (channel : UInt16)
  /-- The peer is gone. -/
  | shutdown
  /-- The queues are changed by others. -/
  | elsewhere (store : QueueStore)

/-- The octets that arrive in a call. -/
def Call.octets : Call → Bytes
  | .feed octets => octets
  | _ => []

/-- What is taken from a connection in a call, and what becomes of it. -/
def call (h : Hosting) : Call → List Emission × Hosting
  | .feed octets => ([], h.feed octets)
  | .pump => ([], h.pump)
  | .takeOutput => (h.connection.takeOutput.1, h.onConnection (·.takeOutput.2))
  | .recover channel => ([], (h.recover channel).2)
  | .shutdown => ([], h.shutdown)
  | .elsewhere store => ([], { h with store })

/-- What is taken from a connection in calls, one after another, and what becomes of it. -/
def callAll (h : Hosting) : List Call → List Emission × Hosting
  | [] => ([], h)
  | call :: calls =>
    let (taken, h) := h.call call
    let (others, h) := h.callAll calls
    (taken ++ others, h)

/-- But for the taking of its output, a call on a connection is something that it undergoes. -/
theorem undergoes_call {call : Call} (other : call ≠ .takeOutput) (h : Hosting) :
  h.Undergoes (h.call call).2 ∧ (h.call call).1 = []
  := by
  cases call with
  | takeOutput => contradiction
  | feed octets => exact ⟨undergoes_feed octets h, rfl⟩
  | pump => exact ⟨undergoes_pump h, rfl⟩
  | recover channel => exact ⟨undergoes_recover channel h, rfl⟩
  | shutdown => exact ⟨.drops h, rfl⟩
  | elsewhere store => exact ⟨.elsewhere h store, rfl⟩

theorem converses_call (converses : h.connection.Converses taken) (call : Call) :
  (h.call call).2.connection.Converses (taken ++ (h.call call).1)
  := by
  by_cases taking : call = .takeOutput
  · rw [taking]
    apply converses.takeOutput
  · obtain ⟨undergoes, none⟩ := undergoes_call taking h
    rw [none, List.append_nil]
    apply converses_undergoes converses undergoes

/-! ### The header of the peer -/

/-- How the header of the peer was met, of which some octets have arrived: it is incomplete; or
nothing is sent but the answer, because the peer is gone or the header is not the right one; or it
is the right one. -/
inductive Greeting (fed : Bytes) (taken : List Emission) (connection : Connection) : Prop where
  /-- The header is incomplete. -/
  | arriving (awaiting : connection.phase = .awaitingHeader) (arrived : connection.header = fed)
      (short : fed.length < protocolHeader.length)
  /-- Nothing is sent but the answer. -/
  | mute (closed : connection.isClosed = true)
      (said : taken ++ connection.output = [] ∨ taken ++ connection.output = [.header])
  /-- The header is the right one. -/
  | right (header : protocolHeader <+: fed)

/-- Sessions are there only while the connection is open. -/
theorem channels_of_unopened (converses : h.connection.Converses taken)
    (unopened : h.connection.phase ≠ .opened) :
  h.connection.channels = []
  := by
  have none := converses.stage.live_of_unopened unopened
  rw [List.toFinset_eq_empty_iff, outgoing, List.map_eq_nil_iff, Table.rows,
    List.map_eq_nil_iff] at none
  exact none

theorem takeOutput_of_nil {connection : Connection} (none : connection.channels = []) :
  connection.takeOutput = (connection.output, { connection with output := [] })
  := by
  rw [takeOutput, collect, none]
  simp

/-- Where there are no sessions, and octets that arrive are passed over, a call sends nothing. -/
theorem call_of_nil (none : h.connection.channels = []) (unopened : h.connection.phase ≠ .opened)
    (taken : List Emission) (call : Call)
    (passed : ∀ octets, call = .feed octets → h.connection.isClosed = true) :
  taken ++ (h.call call).1 ++ (h.call call).2.connection.output = taken ++ h.connection.output
    ∧ (call = .shutdown ∧ (h.call call).2.connection.isClosed = true
      ∨ (h.call call).2.connection.phase = h.connection.phase
        ∧ (h.call call).2.connection.header = h.connection.header)
  := by
  cases call with
  | feed octets =>
      rw [Hosting.call, feed_of_closed (passed octets rfl), List.append_nil]
      exact ⟨rfl, .inr ⟨rfl, rfl⟩⟩
  | pump =>
      rw [Hosting.call, pump, if_neg unopened, List.append_nil]
      exact ⟨rfl, .inr ⟨rfl, rfl⟩⟩
  | takeOutput =>
      rw [Hosting.call, onConnection, takeOutput_of_nil none]
      exact ⟨List.append_nil _, .inr ⟨rfl, rfl⟩⟩
  | recover channel =>
      rw [Hosting.call, recover, none, List.append_nil]
      exact ⟨rfl, .inr ⟨rfl, rfl⟩⟩
  | shutdown =>
      rw [Hosting.call, List.append_nil]
      exact ⟨rfl, .inl ⟨rfl, rfl⟩⟩
  | elsewhere store =>
      rw [Hosting.call, List.append_nil]
      exact ⟨rfl, .inr ⟨rfl, rfl⟩⟩

theorem Greeting.feed {fed : Bytes} (converses : h.connection.Converses taken)
    (awaiting : h.connection.phase = .awaitingHeader) (arrived : h.connection.header = fed)
    (short : fed.length < protocolHeader.length) (octets : Bytes) :
  Greeting (fed ++ octets) taken (h.feed octets).connection
  := by
  rw [Hosting.feed, if_pos awaiting, arrived]
  dsimp only
  have hlength : protocolHeader.length = 8 := rfl
  split
  · next hshort =>
      rw [List.length_append, List.length_take] at hshort
      have few : octets.length ≤ protocolHeader.length - fed.length := by omega
      refine .arriving awaiting ?_ ?_
      · rw [onConnection, List.take_of_length_le few]
      · rw [List.length_append]
        omega
  · next hlong =>
      by_cases same : fed ++ octets.take (protocolHeader.length - fed.length) = protocolHeader
      · apply Greeting.right
        rw [← same]
        exact List.prefix_append_right_inj fed |>.mpr (List.take_prefix _ _)
      · have said := converses.stage
        rw [awaiting] at said
        have silent := said.said_of_awaitingHeader
        rw [if_neg same, feedFrames, if_pos (by rfl)]
        apply Greeting.mute rfl
        right
        change taken ++ (h.connection.output ++ [.header]) = [.header]
        rw [← List.append_assoc, silent, List.nil_append]

theorem Greeting.call {fed : Bytes} (greeting : Greeting fed taken h.connection)
    (converses : h.connection.Converses taken) (call : Call) :
  Greeting (fed ++ call.octets) (taken ++ (h.call call).1) (h.call call).2.connection
  := by
  cases greeting with
  | right header => exact .right (header.trans (List.prefix_append _ _))
  | mute closed said =>
      have unopened : h.connection.phase ≠ .opened := by
        rw [of_decide_eq_true closed]
        simp
      obtain ⟨same, hcall⟩ := call_of_nil (channels_of_unopened converses unopened) unopened taken
        call fun _ _ => closed
      rw [← same] at said
      refine .mute ?_ said
      rcases hcall with ⟨-, gone⟩ | ⟨hphase, -⟩
      · exact gone
      · rw [isClosed, hphase]
        exact closed
  | arriving awaiting arrived short =>
      by_cases feeds : ∃ octets, call = .feed octets
      · obtain ⟨octets, rfl⟩ := feeds
        rw [Hosting.call, List.append_nil]
        apply Greeting.feed converses awaiting arrived short
      · have unopened : h.connection.phase ≠ .opened := by simp [awaiting]
        obtain ⟨same, hcall⟩ := call_of_nil (channels_of_unopened converses unopened) unopened taken
          call fun octets hfeed => absurd ⟨octets, hfeed⟩ feeds
        have none : call.octets = [] := by
          cases call with
          | feed octets => exact absurd ⟨octets, rfl⟩ feeds
          | _ => rfl
        rw [none, List.append_nil]
        rcases hcall with ⟨-, gone⟩ | ⟨hphase, hheader⟩
        · have stage := converses.stage
          rw [awaiting] at stage
          exact .mute gone (.inl (same.trans stage.said_of_awaitingHeader))
        · exact .arriving (hphase.trans awaiting) (hheader.trans arrived) short

/-! ### All calls -/

theorem converses_callAll (converses : h.connection.Converses taken) (calls : List Call) :
  (h.callAll calls).2.connection.Converses (taken ++ (h.callAll calls).1)
  := by
  induction calls generalizing h taken with
  | nil =>
      rw [callAll, List.append_nil]
      exact converses
  | cons call calls ih =>
      have others := ih (converses_call converses call)
      rw [List.append_assoc] at others
      exact others

theorem Greeting.callAll {fed : Bytes} (greeting : Greeting fed taken h.connection)
    (converses : h.connection.Converses taken) (calls : List Call) :
  Greeting (fed ++ calls.flatMap Call.octets) (taken ++ (h.callAll calls).1)
    (h.callAll calls).2.connection
  := by
  induction calls generalizing h fed taken with
  | nil =>
      rw [Hosting.callAll, List.flatMap_nil, List.append_nil, List.append_nil]
      exact greeting
  | cons call calls ih =>
      have others := ih (greeting.call converses call) (converses_call converses call)
      rw [List.append_assoc, List.append_assoc] at others
      exact others

/-- What was taken is a conversation. -/
theorem conversation_callAll (converses : h.connection.Converses taken)
    (conversation : Conversation taken) (calls : List Call) :
  Conversation (taken ++ (h.callAll calls).1)
  := by
  induction calls generalizing h taken with
  | nil =>
      rw [callAll, List.append_nil]
      exact conversation
  | cons call calls ih =>
      have others := ih (converses_call converses call) ?_
      · rw [List.append_assoc] at others
        exact others
      · cases call with
        | takeOutput =>
            have taking := (converses_call converses .takeOutput).stage.conversation
            change Conversation (_ ++ []) at taking
            rw [List.append_nil] at taking
            exact taking
        | _ =>
            rw [Hosting.call, List.append_nil]
            exact conversation

/-- No two sessions of a connection send on one channel. -/
theorem outgoing_injective (apart : h.connection.outgoing.Nodup) {channel other : UInt16}
    {slot slot' : SessionChannel} (there : h.connection.channels.get? channel = some slot)
    (there' : h.connection.channels.get? other = some slot') (same : slot.outgoing = slot'.outgoing) :
  channel = other
  := by
  rw [outgoing, Table.rows, List.map_map] at apart
  have rows := List.inj_on_of_nodup_map apart (Table.mem_of_get? there) (Table.mem_of_get? there') same
  exact congrArg Prod.fst rows

/-- Whatever is called on a connection, and whatever others do with the queues meanwhile, what is
taken from it is a conversation: nothing, or the protocol header and an open, sessions and a close.
Its octets are read as these frames, as long as their sizes fit in their headers.  Sessions that are
there at the same time send on different channels.  And if the peer sends another header, nothing
is sent but the protocol header. -/
theorem conversation_of_calls (config : BrokerConfig) (store : QueueStore) (calls : List Call) :
  let after := callAll ⟨.start config, store⟩ calls
  let fed := calls.flatMap Call.octets
  Conversation after.1
    ∧ ((∀ emission ∈ after.1, emission.octets.length < 2 ^ 32) →
        decodeFrames ((after.1.flatMap Emission.octets).drop protocolHeader.length)
          = (after.1.filterMap Emission.read?, .insufficientData FrameHeader.length))
    ∧ (∀ channel other slot slot', after.2.connection.channels.get? channel = some slot →
        after.2.connection.channels.get? other = some slot' → slot.outgoing = slot'.outgoing →
          channel = other)
    ∧ (protocolHeader.length ≤ fed.length → ¬ protocolHeader <+: fed →
        after.1 = [] ∨ after.1 = [.header])
  := by
  intro after fed
  have converses := Converses.start config
  have conversation : Conversation after.1 := conversation_callAll converses .silence calls
  refine ⟨conversation, conversation.decodeFrames, ?_, ?_⟩
  · intro channel other slot slot' there there' same
    exact outgoing_injective (converses_callAll converses calls).apart there there' same
  · intro long other
    have start : Greeting [] [] (Connection.start config) := .arriving rfl rfl (by decide)
    have greeting : Greeting fed after.1 after.2.connection :=
      Greeting.callAll (h := ⟨.start config, store⟩) start converses calls
    cases greeting with
    | arriving _ _ short => exact absurd short (Nat.not_lt_of_le long)
    | right header => exact absurd header other
    | mute _ said =>
        rcases said with said | said
        · exact .inl (List.append_eq_nil_iff.mp said).1
        · exact (List.append_eq_singleton_iff.mp said).imp And.left And.left

/-- A session ends for a fault, and the connection is closed for another. -/
theorem conversation_of_calls_of_ended :
  let after := callAll ⟨.start .standard, .empty⟩
    [.feed (protocolHeader
        ++ Frame.wire 0 (Performative.openConnection ⟨"peer", none, none, none, none⟩).encode),
      .feed (Frame.wire 3 (Performative.beginSession ⟨none, 0, 1, 1, none⟩).encode
        ++ Frame.wire 3 (Performative.detach ⟨5, true, none⟩).encode),
      .takeOutput, .feed [0, 0, 0, 0, 0, 0, 0, 0], .takeOutput]
  Conversation after.1
    ∧ (decodeFrames ((after.1.flatMap Emission.octets).drop protocolHeader.length)).1.map
        (fun frame => (frame.channel, frame.performative.map Performative.name))
      = [(0, some "open"), (0, some "begin"), (0, some "end"), (0, some "close")]
  := by
  intro after
  obtain ⟨conversation, octets, -, -⟩ := conversation_of_calls .standard .empty
    [.feed (protocolHeader
        ++ Frame.wire 0 (Performative.openConnection ⟨"peer", none, none, none, none⟩).encode),
      .feed (Frame.wire 3 (Performative.beginSession ⟨none, 0, 1, 1, none⟩).encode
        ++ Frame.wire 3 (Performative.detach ⟨5, true, none⟩).encode),
      .takeOutput, .feed [0, 0, 0, 0, 0, 0, 0, 0], .takeOutput]
  refine ⟨conversation, ?_⟩
  rw [octets]
  · rfl
  · decide +kernel

end Hosting

end MessageBroker
