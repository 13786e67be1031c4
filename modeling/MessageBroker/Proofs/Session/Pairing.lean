import MessageBroker.Proofs.Session.Sources

/-!
# Attaches and detaches in pairs

For every link that comes about a session tells its peer one attach, and from then on it owes the peer
one detach, until it has told one.  What a session has told about a link keeps step with the end of
the link, whatever is done with the session, unless the session ends and drops its links without a
word.
-/

namespace MessageBroker

open Session

/-! ### What is told -/

namespace Outgoing

/-- Whether an attach is told. -/
def isAttach (output : Outgoing) : Bool :=
  match output.performative with
  | .attach _ => true
  | _ => false

/-- Whether a detach is told. -/
def isDetach (output : Outgoing) : Bool :=
  match output.performative with
  | .detach _ => true
  | _ => false

/-- How many attaches are told. -/
def attachCount (told : List Outgoing) : Nat :=
  told.countP isAttach

/-- How many detaches are told. -/
def detachCount (told : List Outgoing) : Nat :=
  told.countP isDetach

@[simp]
theorem attachCount_nil :
  attachCount [] = 0
  := rfl

@[simp]
theorem detachCount_nil :
  detachCount [] = 0
  := rfl

@[simp]
theorem attachCount_append (told more : List Outgoing) :
  attachCount (told ++ more) = attachCount told + attachCount more
  := List.countP_append

@[simp]
theorem detachCount_append (told more : List Outgoing) :
  detachCount (told ++ more) = detachCount told + detachCount more
  := List.countP_append

/-- Transfers are neither attaches nor detaches. -/
theorem counts_of_carries {told : List Outgoing} (h : ∀ output ∈ told, output.Carries) :
  attachCount told = 0 ∧ detachCount told = 0
  := by
  constructor
  · apply List.countP_eq_zero.mpr
    intro output hmem
    obtain ⟨transfer, htransfer⟩ := h output hmem
    simp [isAttach, htransfer]
  · apply List.countP_eq_zero.mpr
    intro output hmem
    obtain ⟨transfer, htransfer⟩ := h output hmem
    simp [isDetach, htransfer]

end Outgoing

open Outgoing

/-! ### How far a link is -/

/-- How far the broker is with the link under a handle. -/
inductive LinkStage where
  /-- There is no link. -/
  | free
  /-- The broker has attached the link. -/
  | attached
  /-- The broker has detached the link, and waits for the peer to do so. -/
  | detached
  deriving DecidableEq

namespace LinkStage

/-- How many links there are. -/
def held : LinkStage → Nat
  | .free => 0
  | .attached | .detached => 1

/-- How many detaches the broker owes the peer. -/
def due : LinkStage → Nat
  | .attached => 1
  | .free | .detached => 0

end LinkStage

/-- How far the broker is with a link, by its end. -/
def Endpoint.stage (endpoint : Endpoint) : LinkStage :=
  if endpoint.link.detachSent then .detached else .attached

theorem Endpoint.held_stage (endpoint : Endpoint) :
  endpoint.stage.held = 1
  := by
  rw [stage]
  split
  · rfl
  · rfl

theorem Endpoint.due_stage (endpoint : Endpoint) :
  endpoint.stage.due = if endpoint.link.detachSent then 0 else 1
  := by
  rw [stage]
  split
  · rfl
  · rfl

namespace Session

variable {session session' : Session} {handle key : UInt32} {endpoint : Endpoint}

/-- How far the broker is with the link under a handle. -/
def stage (handle : UInt32) (session : Session) : LinkStage :=
  ((session.endpoints.get? handle).map Endpoint.stage).getD .free

theorem stage_of_get? (there : session.endpoints.get? handle = some endpoint) :
  session.stage handle = endpoint.stage
  := by
  rw [stage, there]
  rfl

theorem stage_of_free (free : session.endpoints.get? handle = none) :
  session.stage handle = .free
  := by
  rw [stage, free]
  rfl

/-- Where there is a link its end is there. -/
theorem exists_of_held (held : (session.stage handle).held = 1) :
  ∃ endpoint, session.endpoints.get? handle = some endpoint
  := by
  cases hget : session.endpoints.get? handle with
  | none =>
      rw [stage_of_free hget] at held
      contradiction
  | some endpoint => exact ⟨endpoint, rfl⟩

theorem held_le_one (session : Session) (handle : UInt32) :
  (session.stage handle).held ≤ 1
  := by
  cases session.stage handle with
  | free => exact Nat.zero_le 1
  | _ => exact Nat.le_refl 1

theorem stage_putEndpoint (session : Session) (key : UInt32) (endpoint : Endpoint) :
  (session.putEndpoint key endpoint).stage handle
    = if handle = key then endpoint.stage else session.stage handle
  := by
  rw [stage, putEndpoint, Table.get?_put]
  split
  · rfl
  · rfl

theorem stage_erase (session : Session) (key : UInt32) :
  { session with endpoints := session.endpoints.erase key }.stage handle
    = if handle = key then .free else session.stage handle
  := by
  rw [stage, Table.get?_erase]
  split
  · rfl
  · rfl

/-- Where an end of a link is put in place of one that is as far, all links are as far. -/
theorem stage_putEndpoint_of_same {endpoint' : Endpoint}
    (there : session.endpoints.get? key = some endpoint)
    (same : endpoint'.link.detachSent = endpoint.link.detachSent) :
  (session.putEndpoint key endpoint').stage handle = session.stage handle
  := by
  rw [stage_putEndpoint]
  split
  · next hkey =>
      rw [hkey, stage_of_get? there, Endpoint.stage, Endpoint.stage, same]
  · rfl

theorem Alike.stage (h : session.Alike session') (handle : UInt32) :
  session'.stage handle = session.stage handle
  := by
  cases hget : session'.endpoints.get? handle with
  | none => rw [stage_of_free hget, stage_of_free (h.free hget)]
  | some endpoint =>
      obtain ⟨before, hbefore, steady⟩ := h.there hget
      rw [stage_of_get? hget, stage_of_get? hbefore, Endpoint.stage, Endpoint.stage,
        steady.detachSent]

end Session

/-! ### What is told keeps step -/

/-- What an act tells about a link keeps step with how far the broker is with it. -/
structure Paired (act : Session.Act) (handle : UInt32) (told : List Outgoing)
    (before after : LinkStage) : Prop where
  /-- An attach is told for every link that comes about. -/
  attaches : ¬ act.Parts handle → attachCount told + before.held = after.held
  /-- None is where a link comes to its end. -/
  parts : act.Parts handle → attachCount told = 0
  /-- A detach is owed for every attach, until it is told. -/
  detaches : act ≠ .finish → detachCount told + after.due = attachCount told + before.due

namespace Paired

variable {act : Session.Act} {handle key : UInt32} {told more : List Outgoing}
variable {before middle after : LinkStage}

/-- Nothing is told of that kind, and the broker is as far with the link. -/
theorem still (attaches : attachCount told = 0) (detaches : detachCount told = 0)
    (same : after = before) :
  Paired act handle told before after
  := by
  rw [same]
  exact ⟨fun _ => by rw [attaches, Nat.zero_add], fun _ => attaches,
    fun _ => by rw [attaches, detaches]⟩

theorem trans (h : Paired act handle told before middle) (h' : Paired act handle more middle after) :
  Paired act handle (told ++ more) before after
  := by
  constructor
  · intro lasting
    have := h.attaches lasting
    have := h'.attaches lasting
    rw [attachCount_append]
    omega
  · intro parts
    rw [attachCount_append, h.parts parts, h'.parts parts]
  · intro going
    have := h.detaches going
    have := h'.detaches going
    rw [attachCount_append, detachCount_append]
    omega

end Paired

namespace Session

variable {session session' : Session} {act : Session.Act}

/-- One session comes from another by an act, or a part of it, and what is told about a link keeps
step with how far the broker is with it. -/
def TellsInStep (act : Session.Act) (handle : UInt32) (session session' : Session) : Prop :=
  ∃ told, session'.told handle = session.told handle ++ told
    ∧ Paired act handle told (session.stage handle) (session'.stage handle)

namespace TellsInStep

variable {mid session'' : Session} {handle key : UInt32} {endpoint : Endpoint} {draining : Prop}

/-- Nothing is told about the link. -/
theorem silent (told : session'.told handle = session.told handle)
    (h : Paired act handle [] (session.stage handle) (session'.stage handle)) :
  session.TellsInStep act handle session'
  := ⟨[], by rw [told, List.append_nil], h⟩

theorem trans (h : session.TellsInStep act handle session')
    (h' : session'.TellsInStep act handle session'') :
  session.TellsInStep act handle session''
  := by
  obtain ⟨told, htold, hfirst⟩ := h
  obtain ⟨more, hmore, hsecond⟩ := h'
  exact ⟨told ++ more, by rw [hmore, htold, List.append_assoc], hfirst.trans hsecond⟩

/-- Something is told after the links are changed. -/
theorem emit {p : Performative} (told : mid.told handle = session.told handle)
    (h : Paired act handle (if Outgoing.link? ⟨p, none⟩ = some handle then [⟨p, none⟩] else [])
      (session.stage handle) (mid.stage handle)) :
  session.TellsInStep act handle (mid.emit p none)
  := ⟨_, by rw [told_emit, told], h⟩

/-- A flow is told after the ends of the links are changed, and the broker is as far with them. -/
theorem emitFlow {flow : Flow} (told : mid.told handle = session.told handle)
    (same : mid.stage handle = session.stage handle) :
  session.TellsInStep act handle (mid.emit (.flow flow) none)
  := by
  apply emit told
  split
  · exact .still rfl rfl same
  · exact .still rfl rfl same

/-- The detach that is owed is told. -/
theorem emitDetach {detach : Detach} (told : mid.told handle = session.told handle)
    (there : session.endpoints.get? key = some endpoint)
    (attached : endpoint.link.detachSent = false) (names : detach.handle = key)
    (self : handle = key → (mid.stage handle).due = 0
      ∧ (¬ act.Parts handle → (mid.stage handle).held = 1))
    (other : handle ≠ key → mid.stage handle = session.stage handle) :
  session.TellsInStep act handle (mid.emit (.detach detach) none)
  := by
  apply emit told
  by_cases hkey : handle = key
  · obtain ⟨paid, lasts⟩ := self hkey
    have stage : session.stage handle = .attached := by
      rw [hkey, stage_of_get? there, Endpoint.stage, attached]
      rfl
    have link : Outgoing.link? ⟨.detach detach, none⟩ = some handle := by
      rw [hkey, ← names]
      rfl
    rw [if_pos link, stage]
    refine ⟨fun lasting => (lasts lasting).symm, fun _ => rfl, fun _ => ?_⟩
    rw [paid]
    rfl
  · have link : Outgoing.link? ⟨.detach detach, none⟩ ≠ some handle := by
      intro same
      exact hkey ((Option.some.inj same).symm.trans names)
    rw [if_neg link]
    exact .still rfl rfl (other hkey)

/-! ### Each thing that is told -/

theorem alike (alike : session.Alike session') :
  session.TellsInStep act handle session'
  := silent (alike.told handle) (.still rfl rfl (alike.stage handle))

theorem flow {flow : Flow} :
  session.TellsInStep act handle (session.emit (.flow flow) none)
  := emitFlow rfl rfl

theorem attach {attach : Attach} (asked : act.Attaches key)
    (free : session.endpoints.get? key = none) (names : attach.handle = key)
    (fresh : endpoint.Fresh key) :
  session.TellsInStep act handle ((session.emit (.attach attach) none).putEndpoint key endpoint)
  := by
  change session.TellsInStep act handle
    ((session.putEndpoint key endpoint).emit (.attach attach) none)
  refine emit rfl ?_
  rw [stage_putEndpoint]
  by_cases hkey : handle = key
  · have link : Outgoing.link? ⟨.attach attach, none⟩ = some handle := by
      rw [hkey, ← names]
      rfl
    have lasts : ¬ act.Parts handle := by
      rw [hkey]
      exact Act.not_parts_of_attaches asked
    rw [if_pos hkey, if_pos link, stage_of_free (hkey ▸ free), Endpoint.stage, fresh.detachSent]
    exact ⟨fun _ => rfl, fun parts => absurd parts lasts, fun _ => rfl⟩
  · have link : Outgoing.link? ⟨.attach attach, none⟩ ≠ some handle := by
      intro same
      exact hkey ((Option.some.inj same).symm.trans names)
    rw [if_neg hkey, if_neg link]
    exact .still rfl rfl rfl

theorem detach {report : ErrorReport} (tidy : endpoint.Tidy key draining)
    (there : session.endpoints.get? key = some endpoint)
    (attached : endpoint.link.detachSent = false) :
  session.TellsInStep act handle
    ((if endpoint.link.detachReceived then
      { session with endpoints := session.endpoints.erase key }
    else session.putEndpoint key endpoint.givenUp).emit
      (.detach ⟨endpoint.link.handle, true, some report⟩) none)
  := by
  rw [if_neg (Bool.eq_false_iff.mp tidy.detachReceived)]
  have stage : endpoint.givenUp.stage = .detached := if_pos endpoint.detachSent_givenUp
  refine emitDetach rfl there attached tidy.handle ?_ ?_
  · intro hkey
    rw [stage_putEndpoint, if_pos hkey, stage]
    exact ⟨rfl, fun _ => rfl⟩
  · intro hkey
    rw [stage_putEndpoint, if_neg hkey]

theorem drop (asked : act.Detaches key) (there : session.endpoints.get? key = some endpoint)
    (parted : endpoint.link.detachSent = true) :
  session.TellsInStep act handle { session with endpoints := session.endpoints.erase key }
  := by
  refine silent rfl ?_
  rw [stage_erase]
  by_cases hkey : handle = key
  · rw [if_pos hkey, hkey, stage_of_get? there, Endpoint.stage, parted]
    exact ⟨fun lasting => absurd (.inl asked) lasting, fun _ => rfl, fun _ => rfl⟩
  · rw [if_neg hkey]
    exact .still rfl rfl rfl

theorem answer {detach : Detach} (tidy : endpoint.Tidy key draining) (asked : act.Detaches key)
    (there : session.endpoints.get? key = some endpoint)
    (attached : endpoint.link.detachSent = false) (names : detach.handle = endpoint.link.handle) :
  session.TellsInStep act handle
    ({ session with endpoints := session.endpoints.erase key }.emit (.detach detach) none)
  := by
  refine emitDetach rfl there attached (names.trans tidy.handle) ?_ ?_
  · intro hkey
    rw [stage_erase, if_pos hkey]
    exact ⟨rfl, fun lasting => absurd (.inl (hkey ▸ asked)) lasting⟩
  · intro hkey
    rw [stage_erase, if_neg hkey]

theorem finish (ends : act = .finish) :
  session.TellsInStep act handle { session with endpoints := [] }
  := silent rfl
    ⟨fun lasting => absurd (.inr ends) lasting, fun _ => rfl, fun going => absurd ends going⟩

theorem credit {flow : Flow} (there : session.endpoints.get? key = some endpoint) :
  session.TellsInStep act handle (session.putEndpoint key (endpoint.credited flow))
  := silent rfl (.still rfl rfl (stage_putEndpoint_of_same there rfl))

theorem giveBack {flow : Flow} (there : session.endpoints.get? key = some endpoint) :
  session.TellsInStep act handle
    ((session.putEndpoint key endpoint.gaveBack).emit (.flow flow) none)
  := emitFlow rfl (stage_putEndpoint_of_same there rfl)

theorem deliver {id : UInt32} {endpoint' : Endpoint} {settled : Bool} {payload : Bytes}
    (there : session.endpoints.get? key = some endpoint) (pays : endpoint.Pays endpoint') :
  session.TellsInStep act handle
    ((session.putEndpoint key endpoint').sendDelivery key id settled payload)
  := by
  obtain ⟨sent, hsent, hcarries, -⟩ := told_sendPieces (session.putEndpoint key endpoint')
    handle (.opening key id settled)
    (slices (chunkSize session.limits.maxFrameSize (.opening key id settled)) payload)
  obtain ⟨attaches, detaches⟩ := counts_of_carries hcarries
  refine ⟨sent, hsent, .still attaches detaches ?_⟩
  have same : (session.putEndpoint key endpoint').stage handle = session.stage handle := by
    apply stage_putEndpoint_of_same there
    rw [pays.link]
  rw [← same, stage, sendDelivery, endpoints_sendPieces]
  rfl

end TellsInStep

/-- Whatever is told about links keeps step with how far the broker is with them. -/
theorem Speaks.paired (h : session.Speaks act session') (tidy : session.Tidy (act.Drains ·))
    (handle : UInt32) :
  session.TellsInStep act handle session'
  := by
  induction h with
  | alike alike => exact .alike alike
  | trans first _ ih ih' => exact (ih tidy).trans (ih' (first.tidy tidy))
  | flow => exact .flow
  | attach asked free names fresh => exact .attach asked free names fresh
  | detach _ there attached => exact .detach (tidy _ _ there) there attached
  | drop asked there parted => exact .drop asked there parted
  | answer asked there attached names => exact .answer (tidy _ _ there) asked there attached names
  | finish ends => exact .finish ends
  | credit _ _ there => exact .credit there
  | giveBack there => exact .giveBack there
  | deliver _ there _ _ pays => exact .deliver there pays

end Session

/-! ### Whole acts -/

namespace Session.Act

variable {act : Session.Act} {s : Serving}

/-- Whatever is done with a session, what it tells about a link keeps step with how far the broker is
with it. -/
theorem paired_run (taking : act ≠ .takeOutput) (rest : s.session.AtRest) (handle : UInt32) :
  s.session.TellsInStep act handle (act.run s).2.session
  := by
  obtain ⟨hendpoints, houtbox⟩ := act.informed_same s.session
  obtain ⟨told, htold, hpaired⟩ := (act.speaks_run taking s).paired (rest.informed act) handle
  rw [Session.told, Session.told, houtbox] at htold
  rw [Session.stage, hendpoints] at hpaired
  exact ⟨told, htold, hpaired⟩

end Session.Act

namespace Operation

variable {attach : Attach} {s : Serving}

/-- An attach under a handle that is free puts the end of a link there, accepted or refused. -/
theorem get?_handle_attach (free : s.session.endpoints.get? attach.handle = none)
    (payload : Bytes) :
  ∃ endpoint, ((handle (.attach attach) payload).after s).session.endpoints.get? attach.handle
    = some endpoint
  := by
  rw [after_handle_attach free]
  cases hkind : EndpointKind.ofAttach s.store attach with
  | ok kind => exact ⟨_, get?_onAttach_of_ok free hkind⟩
  | error report =>
      obtain ⟨source, target, hget⟩ := get?_onAttach_of_error free hkind
      exact ⟨_, hget⟩

end Operation

end MessageBroker
