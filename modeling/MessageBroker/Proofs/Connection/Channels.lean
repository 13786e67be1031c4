import MessageBroker.Proofs.Connection.Ending
import MessageBroker.Proofs.Connection.Output

/-!
# Channels of sessions

The peer numbers its channels as it likes, within the limit that both ends agreed on when the
connection was opened, and the broker numbers its own.  No two sessions are sent on one channel, and
none on a channel above the limit, though nothing checks that: a session that begins gets the least
channel that is free, and there are no more sessions than channels of the peer.
-/

namespace MessageBroker

namespace Connection

/-- The greatest number of a channel is the one that both ends accept. -/
def Limited (terms : Open) (connection : Connection) : Prop :=
  connection.peer = some terms.containerId
    ∧ connection.channelMax = min (terms.channelMax.getD 65535) connection.config.channelMax

/-- The sessions of a connection have channels of their own, at both ends, within its limit. -/
structure Allotted (connection : Connection) : Prop extends connection.Sound where
  /-- From the open on there is a limit. -/
  limited : connection.phase = .opened → ∃ terms, connection.Limited terms
  /-- Sessions are in the order of the channels of the peer. -/
  sorted : connection.channels.Sorted
  /-- No two sessions are sent on one channel. -/
  apart : connection.outgoing.Nodup
  /-- No session is sent on a channel above the limit. -/
  least : ∀ number ∈ connection.outgoing, number ≤ connection.channelMax

namespace Allotted

variable {connection connection' : Connection}

/-- Where there are no sessions, only the limit is to be looked at. -/
theorem of_nil (none : connection.channels = [])
    (limited : connection.phase = .opened → ∃ terms, connection.Limited terms) :
  connection.Allotted
  := by
  have silent : connection.outgoing = [] := by
    rw [outgoing, none]
    rfl
  refine ⟨.of_nil none, limited, ?_, ?_, ?_⟩
  · rw [none]
    apply Table.Sorted.nil
  · rw [silent]
    apply List.nodup_nil
  · rw [silent]
    simp

/-- A connection that is not open has no limit yet, or has none any more. -/
theorem of_unopened (none : connection.channels = []) (unopened : connection.phase ≠ .opened) :
  connection.Allotted
  := of_nil none fun opened => absurd opened unopened

variable (allotted : connection.Allotted)

include allotted

/-- Something changes that is neither a session nor the limit. -/
theorem of_same (phase : connection'.phase = connection.phase)
    (peer : connection'.peer = connection.peer) (config : connection'.config = connection.config)
    (limit : connection'.channelMax = connection.channelMax)
    (channels : connection'.channels = connection.channels) :
  connection'.Allotted
  := by
  obtain ⟨⟨opened, within⟩, limited, sorted, apart, least⟩ := allotted
  refine ⟨⟨?_, ?_⟩, ?_, ?_, ?_, ?_⟩
  · rwa [phase, channels]
  · rwa [channels, limit]
  · simp only [Limited, phase, peer, config, limit]
    exact limited
  · rwa [channels]
  · rwa [outgoing, channels]
  · rwa [outgoing, channels, limit]

/-- Sessions go on, or end. -/
theorem goes {channels : Table UInt16 SessionChannel} (sorted : channels.Sorted)
    (keys : ∀ channel ∈ channels.keys, channel ∈ connection.channels.keys)
    (rows : (channels.rows.map (·.outgoing)).Sublist connection.outgoing) :
  { connection with channels }.Allotted
  := by
  refine ⟨⟨fun unopened => ?_, fun channel hmem => ?_⟩, allotted.limited, sorted, ?_, ?_⟩
  · apply List.map_eq_nil_iff.mp
    apply List.eq_nil_iff_forall_not_mem.mpr
    intro channel hmem
    have there := keys channel hmem
    rw [allotted.opened unopened] at there
    contradiction
  · exact allotted.within channel (keys channel hmem)
  · exact rows.nodup allotted.apart
  · exact fun number hmem => allotted.least number (rows.subset hmem)

/-- A session goes on. -/
theorem put {channel : UInt16} {slot : SessionChannel}
    (there : connection.channels.get? channel = some slot) (session : Session) :
  { connection with channels := connection.channels.put channel { slot with session } }.Allotted
  := by
  apply allotted.goes
  · apply allotted.sorted.put
  · intro other hmem
    rcases Table.mem_keys_put.mp hmem with rfl | hbefore
    · exact Table.mem_keys_of_get? there
    · exact hbefore
  · have same : (connection.channels.put channel { slot with session }).rows.map (·.outgoing)
        = connection.outgoing := allotted.sorted.map_rows_put there rfl
    rw [same]

/-- A session ends. -/
theorem erase (channel : UInt16) :
  { connection with channels := connection.channels.erase channel }.Allotted
  := by
  apply allotted.goes
  · apply allotted.sorted.erase
  · exact fun other hmem => (List.filter_sublist.map _).subset hmem
  · exact (List.filter_sublist.map _).map _

/-- What the sessions have to send is gathered. -/
theorem collect :
  connection.collect.Allotted
  := by
  have goes : Allotted { connection with channels := connection.collect.channels } := by
    apply allotted.goes
    · rw [Table.Sorted, Table.keys, Connection.collect, List.map_map]
      exact allotted.sorted
    · intro channel hmem
      rw [Table.keys, Connection.collect, List.map_map] at hmem
      exact hmem
    · rw [Table.rows, Connection.collect, List.map_map, List.map_map, outgoing, Table.rows,
        List.map_map]
      exact .refl _
  exact goes.of_same rfl rfl rfl rfl rfl

/-- A session begins on the least channel that is free, which is within the limit. -/
theorem begins (opened : connection.phase = .opened) {channel : UInt16}
    (vacant : connection.channels.get? channel = none) (within : channel ≤ connection.channelMax)
    (session : Session) :
  { connection with
    channels := connection.channels.put channel ⟨connection.freeChannel, session⟩ }.Allotted
  := by
  have few := length_outgoing_lt allotted.sorted vacant
  have free := freeChannel_notMem few allotted.apart
  have bound : connection.freeChannel ≤ connection.channelMax :=
    UInt16.le_iff_toNat_le.mpr
      ((toNat_freeChannel_le few).trans
        (length_outgoing_le allotted.sorted allotted.within vacant within))
  have perm : (outgoing { connection with
      channels := connection.channels.put channel ⟨connection.freeChannel, session⟩ }).Perm
        (connection.freeChannel :: connection.outgoing) := by
    have hperm := Table.put_perm vacant ⟨connection.freeChannel, session⟩
    exact (hperm.map (·.2)).map (·.outgoing)
  refine ⟨⟨fun unopened => absurd opened unopened, fun other hmem => ?_⟩, allotted.limited,
    allotted.sorted.put _ _, ?_, fun number hmem => ?_⟩
  · rcases Table.mem_keys_put.mp hmem with rfl | hbefore
    · exact within
    · exact allotted.within other hbefore
  · exact perm.symm.nodup (List.nodup_cons.mpr ⟨free, allotted.apart⟩)
  · rcases List.mem_cons.mp (perm.subset hmem) with rfl | hbefore
    · exact bound
    · exact allotted.least number hbefore

end Allotted

end Connection

namespace Hosting

open Connection

variable {h h' : Hosting}

/-! ### Whatever happens -/

theorem allotted_close (allotted : h.connection.Allotted) (error : Option ErrorReport) :
  (h.close error).connection.Allotted
  := by
  rw [close]
  split
  · exact allotted
  · exact .of_unopened rfl (by simp [shutdown, onConnection, send])

/-- Whatever a connection undergoes, its sessions keep channels of their own. -/
theorem allotted_undergoes (allotted : h.connection.Allotted) (undergoes : h.Undergoes h') :
  h'.connection.Allotted
  := by
  induction undergoes with
  | refl | elsewhere => exact allotted
  | trans _ _ ih ih' => exact ih' (ih allotted)
  | keep => exact allotted.of_same rfl rfl rfl rfl rfl
  | greet awaiting header =>
      apply Allotted.of_unopened
      · exact allotted.opened (by simp [awaiting])
      · change ite _ _ _ ≠ _
        split <;> simp
  | opens awaiting terms =>
      apply Allotted.of_nil
      · exact allotted.opened (by simp [awaiting])
      · exact fun _ => ⟨terms, rfl, rfl⟩
  | @begins h h' opened channel terms hbegin =>
      rw [onBegin] at hbegin
      split at hbegin
      · contradiction
      · next hvacant =>
          split at hbegin
          · contradiction
          · next hwithin =>
              cases hbegin
              have vacant : h.connection.channels.get? channel = none := by
                simpa [Table.has] using hvacant
              have begins := allotted.begins opened vacant (UInt16.not_lt.mp hwithin)
                (.ofBegin terms (h.connection.config.sessionLimits h.connection.maxFrameSize))
              exact begins.of_same rfl rfl rfl rfl rfl
  | serve there act => exact allotted.put there _
  | @finishes h channel slot there error =>
      exact (allotted.erase channel).of_same rfl rfl rfl rfl rfl
  | collects => exact allotted.collect
  | drops => exact .of_unopened rfl (by simp [shutdown])
  | closes _ _ error => exact allotted_close allotted error

/-- In every step the sessions keep channels of their own. -/
theorem allotted_step (allotted : h.connection.Allotted) (step : Step) :
  (h.step step).connection.Allotted
  := by
  cases step with
  | greet octets =>
      rw [Hosting.step]
      split
      · next awaiting =>
          rw [onConnection, greet]
          dsimp only
          split
          · exact allotted_undergoes allotted (.keep h _ h.connection.frames)
          · exact allotted_undergoes allotted (.greet awaiting _)
      · exact allotted
  | gather frames => exact allotted_undergoes allotted (.keep h h.connection.header frames)
  | frame frame =>
      rw [Hosting.step]
      split
      · exact allotted
      · next greeted => exact allotted_undergoes allotted (undergoes_onFrame greeted frame)
  | broken fault =>
      have closes : ∃ error, h.fail none fault = h.close error := by
        cases fault with
        | _ => exact ⟨_, rfl⟩
      obtain ⟨error, closes⟩ := closes
      rw [Hosting.step, closes]
      exact allotted_close allotted error
  | pump => exact allotted_undergoes allotted h.undergoes_pump
  | recover channel => exact allotted_undergoes allotted (undergoes_recover channel h)
  | shutdown => exact allotted_undergoes allotted (.drops h)
  | takeOutput => exact allotted.collect.of_same rfl rfl rfl rfl rfl
  | elsewhere store => exact allotted

/-- In every connection that comes about, sessions have channels of their own. -/
theorem Reachable.allotted (reachable : h.Reachable) :
  h.connection.Allotted
  := reachable.holds (fun _ => .of_unopened rfl (by simp [start])) fun _ step allotted =>
    allotted_step allotted step

/-! ### Sessions that begin -/

/-- How the sessions of an open connection are numbered by the broker. -/
structure Numbers (h : Hosting) : Prop where
  /-- The limit is the one that both ends accept. -/
  limited : ∃ terms, h.connection.Limited terms
  /-- No two sessions are sent on one channel. -/
  apart : h.connection.outgoing.Nodup
  /-- No session is sent on a channel above the limit. -/
  within : ∀ number ∈ h.connection.outgoing, number ≤ h.connection.channelMax
  /-- Where the peer may begin a session on a channel, the channel on which it is sent is the least
  that is free, and the search for it never goes past the last number. -/
  free : ∀ channel, h.connection.channels.get? channel = none →
    h.connection.freeChannel ∉ h.connection.outgoing
      ∧ (∀ number < h.connection.freeChannel, number ∈ h.connection.outgoing)
      ∧ ∀ number ∈ passed 0 h.connection.ascending, number < 65535
  /-- A session begins when the peer begins one on a channel that it may use. -/
  begins : ∀ frame terms, frame.Begins terms → frame.isHeartbeat = false →
    h.connection.channels.get? frame.header.channel = none →
    frame.header.channel ≤ h.connection.channelMax →
      BeginsSession frame.header.channel terms h (h.step (.frame frame))

/-- In every connection that comes about and is open, the sessions are sent on channels of their
own, none above the limit, and one that begins is sent on the least that is free. -/
theorem channels_numbered (reachable : h.Reachable) (opened : h.connection.phase = .opened) :
  h.Numbers
  := by
  have allotted := reachable.allotted
  refine ⟨allotted.limited opened, allotted.apart, allotted.least, ?_, ?_⟩
  · intro channel vacant
    have few := length_outgoing_lt allotted.sorted vacant
    exact ⟨freeChannel_notMem few allotted.apart, fun _ => mem_of_lt_freeChannel few,
      passed_ascending_lt few⟩
  · intro frame terms begins holds vacant within
    have greeted : h.connection.phase ≠ .awaitingHeader := by simp [opened]
    rw [step, if_neg greeted]
    exact onFrame_of_begins opened vacant within begins holds

/-- Of two sessions the first ends, and the next one is sent on its channel. -/
theorem channels_numbered_of_ended :
  let begins (channel : UInt16) : Frame := .carrying channel (.beginSession ⟨none, 0, 1, 1, none⟩)
  let h := run ⟨.start .standard, .empty⟩
    [.greet protocolHeader,
      .frame (.carrying 0 (.openConnection ⟨"peer", none, none, some 9, none⟩)),
      .frame (begins 5), .frame (begins 3), .frame (.carrying 5 (.endSession none))]
  h.Numbers ∧ h.connection.channelMax = 9 ∧ h.connection.outgoing = [1]
    ∧ ((h.step (.frame (begins 7))).connection.channels.get? 7).map (·.outgoing) = some 0
  := by
  intro begins h
  have reachable : h.Reachable := ⟨.standard, .empty, _, rfl⟩
  have opened : h.connection.phase = .opened := by decide +kernel
  have outgoing : h.connection.outgoing = [1] := by decide +kernel
  have limit : h.connection.channelMax = 9 := by decide +kernel
  have keys : h.connection.channels.keys = [3] := by decide +kernel
  have free : h.connection.freeChannel = 0 := by decide +kernel
  have numbers := channels_numbered reachable opened
  refine ⟨numbers, limit, outgoing, ?_⟩
  have vacant : h.connection.channels.get? 7 = none := by
    rw [Table.get?_eq_none_iff, keys]
    decide
  have within : 7 ≤ h.connection.channelMax := by
    rw [limit]
    decide
  have begun := numbers.begins (begins 7) ⟨none, 0, 1, 1, none⟩ ⟨[], rfl⟩ rfl vacant within
  have here : 7 = (begins 7).header.channel := rfl
  rw [begun.sessions 7, if_pos here, free]
  rfl

end Hosting

end MessageBroker
