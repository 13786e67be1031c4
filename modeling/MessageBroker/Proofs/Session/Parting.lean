import MessageBroker.Proofs.Session.Speaking

/-!
# Links that the broker has detached

The end of a link that the broker has detached stays until the peer detaches the link too.  The
broker sends nothing on such a link and grants it no credit.  It still answers a flow of the peer
that names the link, if the flow wants that, or wants credit given back that the link has.
-/

namespace MessageBroker

open Session

namespace Outgoing

/-- A flow is told. -/
def Flows (output : Outgoing) : Prop :=
  ∃ flow, output.performative = .flow flow

/-- A detach is told. -/
def Detaches (output : Outgoing) : Prop :=
  ∃ detach, output.performative = .detach detach

/-- A transfer is told. -/
def Carries (output : Outgoing) : Prop :=
  ∃ transfer, output.performative = .transfer transfer

/-- The last thing that is told is a detach, and nothing before it is. -/
def Parting (told : List Outgoing) : Prop :=
  ∃ before detach, told = before ++ [detach] ∧ detach.Detaches
    ∧ ∀ output ∈ before, ¬ output.Detaches

end Outgoing

namespace Session.Act

variable {handle : UInt32} {act : Session.Act}

/-- The peer asks about a link: it wants an answer, or credit given back. -/
def Asks (handle : UInt32) (act : Session.Act) : Prop :=
  act.Echoes handle ∨ act.Drains handle

theorem Asks.credits (h : act.Asks handle) :
  act.Credits handle
  := by
  cases act with
  | handle p payload =>
      cases p with
      | flow flow => exact h.elim (·.1) (·.1)
      | _ => exact h.elim id id
  | _ => exact h.elim id id

theorem Detaches.not_credits (h : act.Detaches handle) (other : UInt32) :
  ¬ act.Credits other
  := by
  cases act with
  | handle p payload =>
      cases p with
      | detach detach => exact id
      | _ => contradiction
  | _ => contradiction

theorem Detaches.not_attaches (h : act.Detaches handle) :
  ¬ act.Attaches handle
  := by
  cases act with
  | handle p payload =>
      cases p with
      | detach detach => exact id
      | _ => contradiction
  | _ => contradiction

/-- A flow of the peer changes neither the links nor what is told. -/
theorem informed_same (act : Session.Act) (session : Session) :
  (act.informed session).endpoints = session.endpoints
    ∧ (act.informed session).outbox = session.outbox
  := by
  cases act with
  | handle p payload =>
      cases p with
      | _ => exact ⟨rfl, rfl⟩
  | _ => exact ⟨rfl, rfl⟩

end Session.Act

/-! ### Ends of links -/

/-- The end of a link knows its handle, and the peer has not detached the link.  If the peer wants
credit given back, messages go to it, and it has been given back, except while that is being done. -/
structure Endpoint.Tidy (handle : UInt32) (draining : Prop) (endpoint : Endpoint) : Prop where
  /-- The link has the handle as its number. -/
  handle : endpoint.link.handle = handle
  /-- The peer has not detached the link. -/
  detachReceived : endpoint.link.detachReceived = false
  /-- Credit is given back where messages go to the peer. -/
  sending : endpoint.link.credit.drain = true → endpoint.kind.isSending = true
  /-- No credit is left. -/
  spent : endpoint.link.credit.drain = true → ¬ draining → endpoint.link.credit.credit = 0

namespace Endpoint

variable {handle : UInt32} {draining : Prop} {endpoint endpoint' : Endpoint}

theorem Fresh.tidy (fresh : endpoint.Fresh handle) :
  endpoint.Tidy handle draining
  := by
  have undrained : endpoint.link.credit.drain ≠ true := by simp [fresh.drain]
  exact ⟨fresh.handle, fresh.detachReceived, fun h => absurd h undrained,
    fun h => absurd h undrained⟩

namespace Tidy

theorem steady (tidy : endpoint.Tidy handle draining) (h : endpoint.Steady endpoint') :
  endpoint'.Tidy handle draining
  := by
  constructor
  · exact h.handle.trans tidy.handle
  · exact h.detachReceived.trans tidy.detachReceived
  · intro hdrain
    exact h.sending.trans (tidy.sending (h.drain.symm.trans hdrain))
  · intro hdrain hundrained
    have hbefore := h.drain.symm.trans hdrain
    rw [h.credit (tidy.sending hbefore)]
    exact tidy.spent hbefore hundrained

theorem givenUp (tidy : endpoint.Tidy handle draining) :
  endpoint.givenUp.Tidy handle draining
  := by
  obtain ⟨hhandle, hreceived, hsending, hspent⟩   := tidy
  rw [Endpoint.givenUp]
  cases endpoint.assembly with
  | none => exact ⟨hhandle, hreceived, hsending, hspent⟩
  | some assembly => exact ⟨hhandle, hreceived, hsending, hspent⟩

theorem credited (tidy : endpoint.Tidy handle draining) {flow : Flow}
    (sending : endpoint.kind.isSending = true) (h : flow.drain = true → draining) :
  (endpoint.credited flow).Tidy handle draining
  := ⟨tidy.handle, tidy.detachReceived, fun _ => sending,
    fun hdrain hundrained => absurd (h hdrain) hundrained⟩

theorem gaveBack (tidy : endpoint.Tidy handle draining)
    (drain : endpoint.link.credit.drain = true) (may : endpoint.link.credit.maySend = true) :
  endpoint.gaveBack.Tidy handle draining
  := by
  have hcredit : endpoint.link.credit.giveBack.2.credit = 0 := by
    rw [LinkCredit.giveBack, drain, may]
    rfl
  exact ⟨tidy.handle, tidy.detachReceived, fun _ => tidy.sending drain, fun _ _ => hcredit⟩

theorem pays (tidy : endpoint.Tidy handle draining) (h : endpoint.Pays endpoint')
    (may : endpoint.link.credit.maySend = true) :
  endpoint'.Tidy handle draining
  := by
  have hcredit : endpoint.link.credit.credit ≠ 0 := of_decide_eq_true may
  constructor
  · rw [h.link]
    exact tidy.handle
  · rw [h.link]
    exact tidy.detachReceived
  · rw [h.link, h.sending]
    exact tidy.sending
  · rw [h.link]
    intro hdrain hundrained
    exact absurd (tidy.spent hdrain hundrained) hcredit

end Tidy

end Endpoint

namespace Session

variable {session session' : Session} {handle key : UInt32} {draining : UInt32 → Prop}

/-- The ends of the links of a session know their handles, and the peer has detached none of them.
No credit is left where the peer wants it given back, but on links for which that is being done. -/
def Tidy (draining : UInt32 → Prop) (session : Session) : Prop :=
  ∀ key endpoint, session.endpoints.get? key = some endpoint → endpoint.Tidy key (draining key)

namespace Tidy

theorem put (tidy : session.Tidy draining) {endpoint : Endpoint}
    (h : endpoint.Tidy key (draining key)) :
  (session.putEndpoint key endpoint).Tidy draining
  := by
  intro other endpoint' hget
  rw [putEndpoint, Table.get?_put] at hget
  split at hget
  · next hother =>
      cases hget
      rw [hother]
      exact h
  · exact tidy other endpoint' hget

theorem erase (tidy : session.Tidy draining) (key : UInt32) :
  { session with endpoints := session.endpoints.erase key }.Tidy draining
  := by
  intro other endpoint hget
  rw [Table.get?_erase] at hget
  split at hget
  · contradiction
  · exact tidy other endpoint hget

end Tidy

/-! ### Links that are detached -/

/-- The broker has detached the link with a handle, or there is none. -/
def Parted (handle : UInt32) (session : Session) : Prop :=
  ∀ endpoint, session.endpoints.get? handle = some endpoint → endpoint.link.detachSent = true

/-- The broker has detached the link with a handle, or there is none and an act does not attach
one. -/
structure Shut (act : Session.Act) (handle : UInt32) (session : Session) : Prop where
  /-- The broker has detached the link, or there is none. -/
  parted : session.Parted handle
  /-- If there is none the peer does not attach one. -/
  free : session.endpoints.get? handle = none → ¬ act.Attaches handle

variable {act : Session.Act} {endpoint : Endpoint}

namespace Shut

theorem of_endpoints (shut : session.Shut act handle)
    (h : session'.endpoints = session.endpoints) :
  session'.Shut act handle
  := by
  obtain ⟨hparted, hfree⟩ := shut
  rw [Parted, ← h] at hparted
  rw [← h] at hfree
  exact ⟨hparted, hfree⟩

theorem put (other : key ≠ handle → session.Shut act handle)
    (self : key = handle → endpoint.link.detachSent = true) :
  (session.putEndpoint key endpoint).Shut act handle
  := by
  by_cases hkey : handle = key
  · refine ⟨fun endpoint' hget => ?_, fun hget => ?_⟩
    · rw [putEndpoint, Table.get?_put, if_pos hkey] at hget
      cases hget
      exact self hkey.symm
    · rw [putEndpoint, Table.get?_put, if_pos hkey] at hget
      contradiction
  · obtain ⟨hparted, hfree⟩ := other (Ne.symm hkey)
    refine ⟨fun endpoint' hget => ?_, fun hget => ?_⟩
    · rw [putEndpoint, Table.get?_put, if_neg hkey] at hget
      exact hparted endpoint' hget
    · rw [putEndpoint, Table.get?_put, if_neg hkey] at hget
      exact hfree hget

theorem erase (other : key ≠ handle → session.Shut act handle)
    (self : key = handle → ¬ act.Attaches handle) :
  { session with endpoints := session.endpoints.erase key }.Shut act handle
  := by
  by_cases hkey : handle = key
  · refine ⟨fun endpoint' hget => ?_, fun _ => self hkey.symm⟩
    rw [Table.get?_erase, if_pos hkey] at hget
    contradiction
  · obtain ⟨hparted, hfree⟩ := other (Ne.symm hkey)
    refine ⟨fun endpoint' hget => ?_, fun hget => ?_⟩
    · rw [Table.get?_erase, if_neg hkey] at hget
      exact hparted endpoint' hget
    · rw [Table.get?_erase, if_neg hkey] at hget
      exact hfree hget

/-- A link that the broker has not detached is not shut. -/
theorem ne (shut : session.Shut act handle) (there : session.endpoints.get? key = some endpoint)
    (attached : endpoint.link.detachSent = false) :
  key ≠ handle
  := by
  rintro rfl
  rw [shut.parted endpoint there] at attached
  contradiction

end Shut

/-! ### What is told about one link -/

/-- What a session has still to tell the peer about a link. -/
def told (handle : UInt32) (session : Session) : List Outgoing :=
  session.outbox.filter fun output => output.link? = some handle

theorem Alike.told (h : session.Alike session') (handle : UInt32) :
  session'.told handle = session.told handle
  := by
  obtain ⟨told, htold, hnone⟩ := h.outbox
  have hnothing : told.filter (fun output => output.link? = some handle) = [] := by
    apply List.filter_eq_nil_iff.mpr
    intro output hmem
    simp [hnone output hmem]
  rw [Session.told, htold, List.filter_append, hnothing, List.append_nil, Session.told]

theorem told_emit (session : Session) (handle : UInt32) (p : Performative)
    (payload : Option Bytes) :
  (session.emit p payload).told handle = session.told handle
    ++ if Outgoing.link? ⟨p, payload⟩ = some handle then [⟨p, payload⟩] else []
  := by
  have hflush := session.alike_flush.told handle
  rw [told] at hflush
  rw [told, emit]
  dsimp only
  rw [List.filter_append, hflush, List.filter_singleton]
  split
  · next hnames => rw [decide_eq_true hnames, cond_true]
  · next hnames => rw [decide_eq_false hnames, cond_false]

/-- What an act tells about a link respects that the broker has detached it.  Only flows are told
about a link that is shut, and only if the peer asks for it.  A detach shuts the link, and nothing
is told about it after. -/
structure Discreet (act : Session.Act) (handle : UInt32) (told : List Outgoing)
    (session session' : Session) : Prop where
  /-- A link that is shut stays so, and only flows are told about it, if the peer asks. -/
  shut : session.Shut act handle → session'.Shut act handle
    ∧ (∀ output ∈ told, output.Flows) ∧ (told ≠ [] → act.Asks handle)
  /-- A detach comes last, and shuts the link. -/
  parts : (∃ output ∈ told, output.Detaches) →
    Outgoing.Parting told ∧ session'.Shut act handle ∧ ¬ act.Asks handle

namespace Discreet

variable {told more : List Outgoing} {session'' : Session}

/-- Nothing is told. -/
theorem quiet (h : session.Shut act handle → session'.Shut act handle) :
  Discreet act handle [] session session'
  := ⟨fun shut => ⟨h shut, by simp, by simp⟩, by simp⟩

theorem trans (h : Discreet act handle told session session')
    (h' : Discreet act handle more session' session'') :
  Discreet act handle (told ++ more) session session''
  := by
  constructor
  · intro shut
    obtain ⟨hmid, hflows, hasks⟩ := h.shut shut
    obtain ⟨hafter, hflows', hasks'⟩ := h'.shut hmid
    refine ⟨hafter, ?_, ?_⟩
    · intro output hmem
      exact (List.mem_append.mp hmem).elim (hflows output) (hflows' output)
    · intro hsome
      by_cases hnone : told = []
      · rw [hnone] at hsome
        exact hasks' hsome
      · exact hasks hnone
  · intro hdetaches
    by_cases hfirst : ∃ output ∈ told, output.Detaches
    · -- After the detach nothing more can be told, since the peer does not ask for it.
      obtain ⟨hparting, hmid, hunasked⟩ := h.parts hfirst
      obtain ⟨hafter, -, hasks⟩ := h'.shut hmid
      have hnone : more = [] := by
        by_contra hsome
        exact hunasked (hasks hsome)
      rw [hnone, List.append_nil]
      exact ⟨hparting, hafter, hunasked⟩
    · obtain ⟨output, hmem, hdetach⟩ := hdetaches
      have hsecond : output ∈ more := by
        rcases List.mem_append.mp hmem with htold | hmore
        · exact absurd ⟨output, htold, hdetach⟩ hfirst
        · exact hmore
      obtain ⟨⟨before, detach, rfl, hlast, hbefore⟩, hafter⟩ := h'.parts ⟨output, hsecond, hdetach⟩
      refine ⟨⟨told ++ before, detach, by rw [List.append_assoc], hlast, ?_⟩, hafter⟩
      intro other hother
      rcases List.mem_append.mp hother with htold | hmore
      · exact fun h => hfirst ⟨other, htold, h⟩
      · exact hbefore other hmore

end Discreet

theorem Alike.shut (h : session.Alike session') (shut : session.Shut act handle) :
  session'.Shut act handle
  := by
  refine ⟨fun endpoint' hget => ?_, fun hget => shut.free (h.free hget)⟩
  obtain ⟨endpoint, hbefore, steady⟩ := h.there hget
  exact steady.detachSent.trans (shut.parted endpoint hbefore)

/-- The transfers of a delivery name its link. -/
theorem told_sendPieces (session : Session) (handle : UInt32) (transfer : Transfer)
    (pieces : List Bytes) :
  ∃ sent, (session.sendPieces transfer pieces).told handle = session.told handle ++ sent
    ∧ (∀ output ∈ sent, output.Carries) ∧ (transfer.handle ≠ handle → sent = [])
  := by
  have hone (session : Session) (transfer : Transfer) (piece : Bytes) :
      ∃ sent, (session.sendTransfer transfer piece).told handle = session.told handle ++ sent
        ∧ (∀ output ∈ sent, output.Carries) ∧ (transfer.handle ≠ handle → sent = []) := by
    refine ⟨_, told_emit _ handle (.transfer transfer) (some piece), ?_, ?_⟩
    · intro output hmem
      split at hmem
      · rw [List.mem_singleton.mp hmem]
        exact ⟨transfer, rfl⟩
      · contradiction
    · intro hne
      exact if_neg fun hnames => hne (Option.some.inj hnames)
  induction pieces generalizing session transfer with
  | nil => exact ⟨[], (List.append_nil _).symm, by simp, fun _ => rfl⟩
  | cons piece pieces ih =>
      cases pieces with
      | nil => exact hone session { transfer with more := false } piece
      | cons next others =>
          obtain ⟨sent, hsent, hcarries, hother⟩ :=
            hone session { transfer with more := true } piece
          obtain ⟨later, hlater, hcarries', hother'⟩ :=
            ih (session.sendTransfer { transfer with more := true } piece)
              (.continuation transfer.handle)
          refine ⟨sent ++ later, ?_, ?_, ?_⟩
          · change ((session.sendTransfer { transfer with more := true } piece).sendPieces
              (.continuation transfer.handle) (next :: others)).told handle = _
            rw [hlater, hsent, List.append_assoc]
          · intro output hmem
            exact (List.mem_append.mp hmem).elim (hcarries output) (hcarries' output)
          · intro hne
            rw [hother hne, hother' hne]
            rfl

end Session

theorem Link.detachSent_of_isAttached {link : Link} (h : link.isAttached = true) :
  link.detachSent = false
  := by
  cases hsent : link.detachSent with
  | false => rfl
  | true =>
      rw [isAttached, state, hsent] at h
      cases hreceived : link.detachReceived with
      | false => simp [hreceived] at h
      | true => simp [hreceived] at h

namespace Session

variable {session session' : Session} {act : Session.Act}

/-- Whatever is told about links, their ends stay tidy. -/
theorem Speaks.tidy (h : session.Speaks act session') (tidy : session.Tidy (act.Drains ·)) :
  session'.Tidy (act.Drains ·)
  := by
  induction h with
  | alike alike =>
      intro key endpoint hget
      obtain ⟨before, hbefore, steady⟩ := alike.there hget
      exact (tidy key before hbefore).steady steady
  | trans _ _ ih ih' => exact ih' (ih tidy)
  | flow => exact tidy
  | attach _ _ _ fresh => exact tidy.put fresh.tidy
  | @detach session key endpoint report unasked there attached =>
      have hreceived := (tidy key endpoint there).detachReceived
      rw [if_neg (Bool.eq_false_iff.mp hreceived)]
      exact tidy.put (tidy key endpoint there).givenUp
  | drop | answer => exact tidy.erase _
  | finish =>
      intro key endpoint hget
      contradiction
  | @credit session key endpoint flow payload asked names there sending =>
      apply tidy.put
      apply (tidy key endpoint there).credited sending
      intro hdrain
      rw [asked]
      exact ⟨names, hdrain⟩
  | @giveBack session key endpoint flow there drain may names =>
      exact tidy.put ((tidy key endpoint there).gaveBack drain may)
  | @deliver session key id endpoint endpoint' settled payload window there attached may pays =>
      have hput := tidy.put ((tidy key endpoint there).pays pays may)
      intro other later hget
      rw [sendDelivery, endpoints_sendPieces] at hget
      exact hput other later hget

/-- One session comes from another by an act, or a part of it, that tells about a link only what is
discreet. -/
def TellsDiscreetly (act : Session.Act) (handle : UInt32) (session session' : Session) : Prop :=
  ∃ told, session'.told handle = session.told handle ++ told
    ∧ Discreet act handle told session session'

namespace TellsDiscreetly

variable {mid session'' : Session} {draining : Prop}

/-- Nothing is told about the link. -/
theorem silent (told : session'.told handle = session.told handle)
    (shut : session.Shut act handle → session'.Shut act handle) :
  session.TellsDiscreetly act handle session'
  := ⟨[], by rw [told, List.append_nil], .quiet shut⟩

theorem trans (h : session.TellsDiscreetly act handle session')
    (h' : session'.TellsDiscreetly act handle session'') :
  session.TellsDiscreetly act handle session''
  := by
  obtain ⟨told, htold, hfirst⟩ := h
  obtain ⟨more, hmore, hsecond⟩ := h'
  exact ⟨told ++ more, by rw [hmore, htold, List.append_assoc], hfirst.trans hsecond⟩

/-- After the links are changed something is told. -/
theorem emit {p : Performative} (told : mid.told handle = session.told handle)
    (shut : session.Shut act handle → mid.Shut act handle
      ∧ (Outgoing.link? ⟨p, none⟩ = some handle → Outgoing.Flows ⟨p, none⟩ ∧ act.Asks handle))
    (parts : Outgoing.link? ⟨p, none⟩ = some handle → Outgoing.Detaches ⟨p, none⟩ →
      mid.Shut act handle ∧ ¬ act.Asks handle) :
  session.TellsDiscreetly act handle (mid.emit p none)
  := by
  refine ⟨_, by rw [told_emit, told], ?_⟩
  by_cases hnames : Outgoing.link? ⟨p, none⟩ = some handle
  · rw [if_pos hnames]
    constructor
    · intro hshut
      obtain ⟨hmid, hmay⟩ := shut hshut
      obtain ⟨hflows, hasks⟩ := hmay hnames
      refine ⟨hmid.of_endpoints rfl, ?_, fun _ => hasks⟩
      intro output hmem
      rw [List.mem_singleton.mp hmem]
      exact hflows
    · rintro ⟨output, hmem, hdetach⟩
      obtain rfl := List.mem_singleton.mp hmem
      obtain ⟨hmid, hunasked⟩ := parts hnames hdetach
      exact ⟨⟨[], _, rfl, hdetach, by simp⟩, hmid.of_endpoints rfl, hunasked⟩
  · rw [if_neg hnames]
    exact .quiet fun hshut => (shut hshut).1.of_endpoints rfl

/-- A flow is told that names a link. -/
theorem emitFlow {flow : Flow} (told : mid.told handle = session.told handle)
    (names : flow.handle = some key)
    (shut : session.Shut act handle → mid.Shut act handle ∧ (key = handle → act.Asks handle)) :
  session.TellsDiscreetly act handle (mid.emit (.flow flow) none)
  := by
  apply emit told
  · intro hshut
    obtain ⟨hmid, hasks⟩ := shut hshut
    refine ⟨hmid, fun hnames => ⟨⟨flow, rfl⟩, hasks ?_⟩⟩
    exact Option.some.inj (names.symm.trans hnames)
  · rintro - ⟨detach, hdetach⟩
    cases hdetach

/-- A link is told to be detached that was not. -/
theorem emitDetach {detach : Detach} (told : mid.told handle = session.told handle)
    (there : session.endpoints.get? key = some endpoint)
    (attached : endpoint.link.detachSent = false) (names : detach.handle = key)
    (shut : (key ≠ handle → session.Shut act handle) → mid.Shut act handle)
    (unasked : ¬ act.Asks key) :
  session.TellsDiscreetly act handle (mid.emit (.detach detach) none)
  := by
  apply emit told
  · intro hshut
    refine ⟨shut fun _ => hshut, fun hnames => ?_⟩
    exact absurd (names.symm.trans (Option.some.inj hnames)) (hshut.ne there attached)
  · intro hnames _
    obtain rfl : key = handle := names.symm.trans (Option.some.inj hnames)
    exact ⟨shut fun hne => absurd rfl hne, unasked⟩

/-! ### Each thing that is told -/

theorem alike (alike : session.Alike session') :
  session.TellsDiscreetly act handle session'
  := silent (alike.told handle) alike.shut

theorem flow {flow : Flow} (there : session.endpoints.get? key = some endpoint)
    (names : flow.handle = some key) (may : endpoint.link.detachSent = false ∨ act.Echoes key) :
  session.TellsDiscreetly act handle (session.emit (.flow flow) none)
  := by
  refine emitFlow rfl names ?_
  intro shut
  refine ⟨shut, fun hkey => ?_⟩
  rcases may with hattached | hechoes
  · exact absurd hkey (shut.ne there hattached)
  · rw [← hkey]
    exact .inl hechoes

theorem attach {attach : Attach} (asked : act.Attaches key)
    (free : session.endpoints.get? key = none) (names : attach.handle = key) :
  session.TellsDiscreetly act handle ((session.emit (.attach attach) none).putEndpoint key endpoint)
  := by
  change session.TellsDiscreetly act handle
    ((session.putEndpoint key endpoint).emit (.attach attach) none)
  refine emit rfl ?_ ?_
  · intro shut
    have hne : key ≠ handle := by
      rintro rfl
      exact shut.free free asked
    refine ⟨.put (fun _ => shut) fun hkey => absurd hkey hne, fun hnames => ?_⟩
    exact absurd (names.symm.trans (Option.some.inj hnames)) hne
  · rintro - ⟨detach, hdetach⟩
    cases hdetach

theorem detach {report : ErrorReport} (tidy : endpoint.Tidy key draining)
    (unasked : ∀ handle, ¬ act.Credits handle)
    (there : session.endpoints.get? key = some endpoint)
    (attached : endpoint.link.detachSent = false) :
  session.TellsDiscreetly act handle
    ((if endpoint.link.detachReceived then
      { session with endpoints := session.endpoints.erase key }
    else session.putEndpoint key endpoint.givenUp).emit
      (.detach ⟨endpoint.link.handle, true, some report⟩) none)
  := by
  rw [if_neg (Bool.eq_false_iff.mp tidy.detachReceived)]
  refine emitDetach rfl there attached tidy.handle ?_ ?_
  · intro other
    exact .put other fun _ => endpoint.detachSent_givenUp
  · exact fun hasks => unasked key hasks.credits

theorem drop (asked : act.Detaches key) :
  session.TellsDiscreetly act handle { session with endpoints := session.endpoints.erase key }
  := by
  refine silent rfl fun shut => .erase (fun _ => shut) ?_
  rintro rfl
  exact asked.not_attaches

theorem answer {detach : Detach} (tidy : endpoint.Tidy key draining) (asked : act.Detaches key)
    (there : session.endpoints.get? key = some endpoint)
    (attached : endpoint.link.detachSent = false) (names : detach.handle = endpoint.link.handle) :
  session.TellsDiscreetly act handle
    ({ session with endpoints := session.endpoints.erase key }.emit (.detach detach) none)
  := by
  refine emitDetach rfl there attached (names.trans tidy.handle) ?_ ?_
  · intro other
    apply Shut.erase other
    rintro rfl
    exact asked.not_attaches
  · exact fun hasks => asked.not_credits key hasks.credits

theorem finish (ends : act = .finish) :
  session.TellsDiscreetly act handle { session with endpoints := [] }
  := by
  refine silent rfl fun _ => ⟨fun _ hget => ?_, fun _ => ?_⟩
  · contradiction
  · rw [ends]
    exact id

theorem credit {flow : Flow} (there : session.endpoints.get? key = some endpoint) :
  session.TellsDiscreetly act handle (session.putEndpoint key (endpoint.credited flow))
  := by
  refine silent rfl fun shut => .put (fun _ => shut) ?_
  rintro rfl
  exact shut.parted endpoint there

theorem giveBack {flow : Flow} (tidy : endpoint.Tidy key (act.Drains key))
    (there : session.endpoints.get? key = some endpoint)
    (drain : endpoint.link.credit.drain = true) (may : endpoint.link.credit.maySend = true)
    (names : flow.handle = some key) :
  session.TellsDiscreetly act handle
    ((session.putEndpoint key endpoint.gaveBack).emit (.flow flow) none)
  := by
  refine emitFlow rfl names ?_
  intro shut
  refine ⟨.put (fun _ => shut) ?_, fun hkey => ?_⟩
  · rintro rfl
    exact shut.parted endpoint there
  · -- No credit is left to be given back unless the peer has just asked for that.
    rw [← hkey]
    right
    by_contra hundrained
    have hspent := tidy.spent drain hundrained
    rw [LinkCredit.maySend, hspent] at may
    contradiction

theorem deliver {id : UInt32} {endpoint' : Endpoint} {settled : Bool} {payload : Bytes}
    (there : session.endpoints.get? key = some endpoint)
    (attached : endpoint.link.isAttached = true) :
  session.TellsDiscreetly act handle
    ((session.putEndpoint key endpoint').sendDelivery key id settled payload)
  := by
  obtain ⟨sent, hsent, hcarries, hother⟩ := told_sendPieces (session.putEndpoint key endpoint')
    handle (.opening key id settled)
    (slices (chunkSize session.limits.maxFrameSize (.opening key id settled)) payload)
  refine ⟨sent, hsent, ?_, ?_⟩
  · intro shut
    have hne := shut.ne there (Link.detachSent_of_isAttached attached)
    have hput : (session.putEndpoint key endpoint').Shut act handle :=
      .put (fun _ => shut) fun hkey => absurd hkey hne
    rw [hother hne]
    exact ⟨hput.of_endpoints (endpoints_sendPieces _ _ _), by simp, by simp⟩
  · rintro ⟨output, hmem, detach, hdetach⟩
    obtain ⟨transfer, htransfer⟩ := hcarries output hmem
    rw [hdetach] at htransfer
    contradiction

end TellsDiscreetly

/-- Whatever is told about links, it is discreet. -/
theorem Speaks.discreet (h : session.Speaks act session') (tidy : session.Tidy (act.Drains ·))
    (handle : UInt32) :
  session.TellsDiscreetly act handle session'
  := by
  induction h with
  | alike alike => exact .alike alike
  | trans first _ ih ih' => exact (ih tidy).trans (ih' (first.tidy tidy))
  | flow there names may => exact .flow there names may
  | attach asked free names => exact .attach asked free names
  | detach unasked there attached => exact .detach (tidy _ _ there) unasked there attached
  | drop asked => exact .drop asked
  | answer asked there attached names => exact .answer (tidy _ _ there) asked there attached names
  | finish ends => exact .finish ends
  | credit _ _ there => exact .credit there
  | giveBack there drain may names => exact .giveBack (tidy _ _ there) there drain may names
  | deliver _ there attached => exact .deliver there attached

/-- Between acts no credit is left where the peer wants it given back. -/
abbrev AtRest (session : Session) : Prop :=
  session.Tidy fun _ => False

theorem AtRest.informed (rest : session.AtRest) (act : Session.Act) :
  (act.informed session).Tidy (act.Drains ·)
  := by
  intro key endpoint hget
  rw [(act.informed_same session).1] at hget
  have hend := rest key endpoint hget
  exact ⟨hend.handle, hend.detachReceived, hend.sending, fun hdrain _ => hend.spent hdrain id⟩

end Session

/-! ### Whole acts -/

namespace Session.Act

variable {act : Session.Act} {s : Serving}

/-- Where the peer wants credit given back, none is left once it has been served. -/
theorem spent_handle_flow {flow : Flow} {key : UInt32} (names : flow.handle = some key)
    (drain : flow.drain = true) (payload : Bytes) {endpoint : Endpoint}
    (hget : ((Operation.handle (.flow flow) payload).after s).session.endpoints.get? key
      = some endpoint) (sending : endpoint.kind.isSending = true) :
  endpoint.link.credit.credit = 0
  := by
  have hafter : (((Operation.handle (.flow flow) payload).after s).session.standing key).meter
      = some endpoint.meter := by
    rw [standing, hget, Option.map_some]
  by_cases hreceives : ∀ meter, (s.session.standing key).meter = some meter →
      meter.sending = false
  · rw [Operation.standing_handle_flow names hreceives payload] at hafter
    have hsending : endpoint.kind.isSending = false := hreceives _ hafter
    rw [sending] at hsending
    contradiction
  · obtain ⟨meter, hmeter, hsending⟩ : ∃ meter, (s.session.standing key).meter = some meter
        ∧ meter.sending = true := by
      simpa using hreceives
    obtain ⟨_, -, hdrained⟩ := Operation.sends_handle_flow names hmeter hsending payload
    have hbudget := hdrained drain
    rw [Standing.budget, hafter, Option.map_some, Option.getD_some, Endpoint.meter, sending]
      at hbudget
    exact UInt32.toNat_inj.mp hbudget

/-- After every act no credit is left where the peer wants it given back. -/
theorem rests_run (taking : act ≠ .takeOutput) (rest : s.session.AtRest) :
  (act.run s).2.session.AtRest
  := by
  intro key endpoint hget
  have hend := (act.speaks_run taking s).tidy (rest.informed act) key endpoint hget
  refine ⟨hend.handle, hend.detachReceived, hend.sending, fun hdrain _ => ?_⟩
  by_cases hdrains : act.Drains key
  · cases act with
    | handle p payload =>
        cases p with
        | flow flow => exact spent_handle_flow hdrains.1 hdrains.2 payload hget (hend.sending hdrain)
        | _ => contradiction
    | _ => contradiction
  · exact hend.spent hdrain hdrains

/-- Whatever is done with a session, it tells about a link only what is discreet. -/
theorem discreet_run (taking : act ≠ .takeOutput) (rest : s.session.AtRest) (handle : UInt32) :
  s.session.TellsDiscreetly act handle (act.run s).2.session
  := by
  obtain ⟨hendpoints, houtbox⟩ := act.informed_same s.session
  obtain ⟨told, htold, hdiscreet⟩ :=
    (act.speaks_run taking s).discreet (rest.informed act) handle
  rw [Session.told, Session.told, houtbox] at htold
  exact ⟨told, htold, fun shut => hdiscreet.shut (shut.of_endpoints hendpoints), hdiscreet.parts⟩

end Session.Act

/-! ### Answers to flows -/

/-- How often a flow that names a link is answered that the broker has detached: if the flow wants
an answer, and if credit is given back. -/
def Endpoint.answers (endpoint : Endpoint) (flow : Flow) : Nat :=
  (if endpoint.kind.isSending && (endpoint.credited flow).link.credit.giveBack.1 then 1 else 0)
    + if flow.echo then 1 else 0

namespace Session

variable {session : Session} {key : UInt32} {endpoint : Endpoint}

theorem told_emitLinkFlow (hget : session.endpoints.get? key = some endpoint)
    (store : QueueStore) :
  ((session.emitLinkFlow store key).told key).length = (session.told key).length + 1
  := by
  have hnames : Outgoing.link? ⟨.flow (session.linkFlow store key endpoint), none⟩ = some key := rfl
  rw [emitLinkFlow, hget]
  dsimp only
  rw [told_emit, if_pos hnames, List.length_append, List.length_singleton]

end Session

namespace Serving

variable {s : Serving} {key : UInt32} {endpoint : Endpoint}

/-- Nothing is sent on a link that the broker has detached; credit is given back. -/
theorem pump_of_parted (parted : s.session.Parted key) :
  s.pump key = s.giveBackCredit key
  := by
  have hnone : s.sendNext? key = none := by
    cases hnext : s.sendNext? key with
    | none => rfl
    | some s' =>
        obtain ⟨endpoint, _, hget, -, attached, -⟩ := sendNext?_eq_some hnext
        have hattached := Link.detachSent_of_isAttached attached
        rw [parted endpoint hget] at hattached
        contradiction
  rw [pump]
  cases (s.creditOf key).toNat with
  | zero => rfl
  | succ count => rw [sendAtMost, hnone]

theorem told_giveBackCredit (hget : s.session.endpoints.get? key = some endpoint) :
  ((s.giveBackCredit key).session.told key).length
      = (s.session.told key).length + (if endpoint.link.credit.giveBack.1 then 1 else 0)
    ∧ ∃ endpoint', (s.giveBackCredit key).session.endpoints.get? key = some endpoint'
  := by
  rw [giveBackCredit, hget]
  dsimp only
  rcases hgives : endpoint.link.credit.giveBack with ⟨gives, credit⟩
  cases gives with
  | false => exact ⟨rfl, endpoint, hget⟩
  | true =>
      dsimp only
      generalize (endpoint.onLink fun link => { link with credit }) = endpoint'
      have hput : (s.session.putEndpoint key endpoint').endpoints.get? key = some endpoint' :=
        Table.get?_put_self key _ _
      refine ⟨told_emitLinkFlow hput s.store, endpoint', ?_⟩
      rw [onSession, emitLinkFlow, hput]
      exact hput

theorem told_echo (hget : s.session.endpoints.get? key = some endpoint) (flow : Flow) :
  ((s.echo flow key).session.told key).length
    = (s.session.told key).length + if flow.echo then 1 else 0
  := by
  rw [echo]
  split
  · exact told_emitLinkFlow hget s.store
  · rfl

end Serving

namespace Operation

/-- A flow that names a link that the broker has detached is answered. -/
theorem told_handle_flow {flow : Flow} {key : UInt32} (names : flow.handle = some key)
    {s : Serving} {endpoint : Endpoint} (hget : s.session.endpoints.get? key = some endpoint)
    (parted : endpoint.link.detachSent = true) (payload : Bytes) :
  (((Operation.handle (.flow flow) payload).after s).session.told key).length
    = (s.session.told key).length + endpoint.answers flow
  := by
  rw [after_of_ok (handle_of_onFlow (onFlow_of_get? names hget) payload), Endpoint.answers]
  cases hsending : endpoint.kind.isSending with
  | true =>
      generalize ht : (s.onSession (tellWindows flow)).onSession
        (·.putEndpoint key (endpoint.credited flow)) = t
      have hput : t.session.endpoints.get? key = some (endpoint.credited flow) := by
        rw [← ht]
        exact Table.get?_put_self key _ _
      have htold : t.session.told key = s.session.told key := by
        rw [← ht]
        rfl
      have hparted : t.session.Parted key := by
        intro endpoint' hget
        rw [hput] at hget
        cases hget
        exact parted
      obtain ⟨hgives, endpoint', hthere⟩ := Serving.told_giveBackCredit hput
      rw [if_pos rfl, Serving.pump_of_parted hparted, Serving.told_echo hthere, hgives, htold,
        Bool.true_and, Nat.add_assoc]
  | false =>
      have hthere : (s.onSession (tellWindows flow)).session.endpoints.get? key
          = some endpoint := hget
      rw [if_neg Bool.false_ne_true, Serving.told_echo hthere, Bool.false_and,
        if_neg Bool.false_ne_true, Nat.zero_add]
      rfl

end Operation

end MessageBroker
