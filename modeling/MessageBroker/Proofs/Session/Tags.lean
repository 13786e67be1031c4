import MessageBroker.Proofs.Link.Unsettled
import MessageBroker.Proofs.Session.Accounts
import MessageBroker.Proofs.Session.Runs
import MessageBroker.Proofs.Session.Speaking

/-!
# Tags in use

The tag of a delivery from the peer is in use on its link while the delivery arrives, and after
that for as long as the peer is to settle it.  The accounts of a session are kept so that no other
tag is in use, as long as no two deliveries have one number.
-/

namespace MessageBroker

open Session

/-- Deliveries that the peer is to settle, each by its link, its number and its tag. -/
abbrev Awaited :=
  UInt32 → UInt32 → Bytes → Prop

/-! ### The account of one link -/

/-- A delivery that arrives on a link is kept account of. -/
structure Account.Gathers (awaited : Awaited) (begun : List UInt32) (account : Account)
    (assembly : Assembly) : Prop where
  /-- The delivery was begun. -/
  begun : assembly.id ∈ begun
  /-- The peer is not to settle it yet. -/
  untold : ∀ handle tag, ¬ awaited handle assembly.id tag
  /-- It is unsettled, unless the peer has settled it. -/
  carried : assembly.discarding = false → assembly.settled = false →
    account.unsettled.byId.get? assembly.id = some assembly.tag
  /-- It is settled once it was refused. -/
  refused : assembly.discarding = true → account.unsettled.byId.get? assembly.id = none

/-- The account of a link is in order. -/
structure Account.Sound (awaited : Awaited) (begun : List UInt32) (handle : UInt32)
    (account : Account) : Prop where
  /-- Tags and numbers agree. -/
  agrees : account.unsettled.Agrees
  /-- What the peer is to settle is unsettled. -/
  held : ∀ id tag, awaited handle id tag → account.unsettled.byId.get? id = some tag
  /-- Unless the broker has detached the link, nothing else is unsettled but what arrives. -/
  owed : account.detached = false → ∀ id tag, account.unsettled.byId.get? id = some tag →
    awaited handle id tag ∨ ∃ assembly, account.assembly = some assembly ∧ assembly.id = id
  /-- What arrives is kept account of. -/
  gathers : ∀ assembly, account.assembly = some assembly →
    account.Gathers awaited begun assembly

namespace Account

variable {awaited : Awaited} {begun begun' : List UInt32} {handle id : UInt32} {tag : Bytes}
  {account : Account} {assembly assembly' : Assembly}

/-- The account of a link that is just attached. -/
theorem Sound.fresh (unheard : ∀ id tag, ¬ awaited handle id tag) (detached : Bool) :
  Sound awaited begun handle ⟨detached, .empty, none⟩
  := by
  constructor
  · exact .empty
  · exact fun id tag h => absurd h (unheard id tag)
  · intro _ id tag h
    contradiction
  · intro assembly h
    contradiction

theorem Sound.mono (sound : account.Sound awaited begun handle) (more : begun ⊆ begun') :
  account.Sound awaited begun' handle
  := by
  refine ⟨sound.agrees, sound.held, sound.owed, fun assembly h => ?_⟩
  have gathers := sound.gathers assembly h
  exact ⟨more gathers.begun, gathers.untold, gathers.carried, gathers.refused⟩

/-- A delivery begins to arrive. -/
theorem Sound.start (sound : account.Sound awaited begun handle) (idle : account.assembly = none)
    (new : account.unsettled.byId.get? id = none) (untold : ∀ handle tag, ¬ awaited handle id tag)
    {unsettled : Unsettled}
    (number : assembly.id = id) (kept : assembly.discarding = false)
    (inserted : assembly.settled = true ∧ unsettled = account.unsettled
      ∨ account.unsettled.insert assembly.tag id = .ok unsettled) :
  Sound awaited (begun ++ [id]) handle ⟨account.detached, unsettled, some assembly⟩
  := by
  subst number
  have mono := sound.mono (List.subset_append_left begun [assembly.id])
  have gathered (carried : assembly.settled = false →
      unsettled.byId.get? assembly.id = some assembly.tag) :
      Gathers awaited (begun ++ [assembly.id]) ⟨account.detached, unsettled, some assembly⟩
        assembly := by
    refine ⟨by simp, untold, fun _ => carried, fun dropped => ?_⟩
    rw [kept] at dropped
    contradiction
  rcases inserted with ⟨settled, rfl⟩ | inserted
  · refine ⟨sound.agrees, sound.held, fun attached id tag h => ?_, fun other h => ?_⟩
    · rcases sound.owed attached id tag h with awaits | ⟨other, hother, -⟩
      · exact .inl awaits
      · rw [idle] at hother
        contradiction
    · cases h
      apply gathered
      intro unsettled
      rw [settled] at unsettled
      contradiction
  · have found := Unsettled.get?_insert inserted
    refine ⟨sound.agrees.insert new inserted, fun id tag h => ?_, fun attached id tag h => ?_,
      fun other h => ?_⟩
    · rw [found, if_neg, sound.held id tag h]
      rintro rfl
      exact untold _ _ h
    · change unsettled.byId.get? id = _ at h
      rw [found] at h
      split at h
      · next same => exact .inr ⟨assembly, rfl, same.symm⟩
      · rcases sound.owed attached id tag h with awaits | ⟨other, hother, -⟩
        · exact .inl awaits
        · rw [idle] at hother
          contradiction
    · cases h
      apply gathered
      intro _
      rw [found, if_pos rfl]

/-- The delivery that arrives goes on to do so. -/
theorem Sound.resume (sound : account.Sound awaited begun handle)
    (arriving : account.assembly = some assembly) (number : assembly'.id = assembly.id)
    (tag : assembly'.tag = assembly.tag) (dropped : assembly'.discarding = assembly.discarding)
    (settled : assembly'.settled = false → assembly.settled = false) :
  Sound awaited begun handle { account with assembly := some assembly' }
  := by
  have gathers := sound.gathers assembly arriving
  refine ⟨sound.agrees, sound.held, fun attached id tag h => ?_, fun other h => ?_⟩
  · refine (sound.owed attached id tag h).imp_right ?_
    rintro ⟨other, hother, hid⟩
    rw [arriving] at hother
    cases hother
    exact ⟨assembly', rfl, number.trans hid⟩
  · cases h
    constructor
    · rw [number]
      exact gathers.begun
    · rw [number]
      exact gathers.untold
    · rw [number, tag, dropped]
      exact fun kept unsettled => gathers.carried kept (settled unsettled)
    · rw [number, dropped]
      exact gathers.refused

/-- The delivery that arrives is settled, and does not arrive any more, unless the rest of it is
dropped. -/
theorem Sound.settle (sound : account.Sound awaited begun handle)
    (arriving : account.assembly = some assembly) {rest : Option Assembly}
    (dropped : ∀ other ∈ rest, other.id = assembly.id ∧ other.discarding = true)
    (detached : Bool) (parted : account.detached = true → detached = true) :
  Sound awaited begun handle ⟨detached, (account.unsettled.settle assembly.id).2, rest⟩
  := by
  have gathers := sound.gathers assembly arriving
  have found := Unsettled.get?_settle account.unsettled assembly.id
  refine ⟨sound.agrees.settle _, fun id tag h => ?_, fun attached id tag h => ?_,
    fun other h => ?_⟩
  · rw [found, if_neg, sound.held id tag h]
    rintro rfl
    exact gathers.untold _ _ h
  · change (account.unsettled.settle assembly.id).2.byId.get? id = _ at h
    rw [found] at h
    split at h
    · contradiction
    · next differs =>
        have before : account.detached = false := by
          cases hbefore : account.detached with
          | true => exact absurd attached (by simp [parted hbefore])
          | false => rfl
        rcases sound.owed before id tag h with awaits | ⟨other, hother, rfl⟩
        · exact .inl awaits
        · rw [arriving] at hother
          cases hother
          exact absurd rfl differs
  · obtain ⟨number, discarded⟩ := dropped other h
    constructor
    · rw [number]
      exact gathers.begun
    · rw [number]
      exact gathers.untold
    · intro kept
      rw [discarded] at kept
      contradiction
    · intro _
      rw [number, found, if_pos rfl]

/-- The link is detached by the broker. -/
theorem Sound.part (sound : account.Sound awaited begun handle) :
  Sound awaited begun handle ⟨true, account.unsettled, none⟩
  := by
  refine ⟨sound.agrees, sound.held, fun attached => ?_, fun assembly h => ?_⟩
  · contradiction
  · contradiction

/-- The delivery that arrives was refused, and has come to its end. -/
theorem Sound.drop (sound : account.Sound awaited begun handle)
    (arriving : account.assembly = some assembly) (dropped : assembly.discarding = true) :
  Sound awaited begun handle { account with assembly := none }
  := by
  have gathers := sound.gathers assembly arriving
  refine ⟨sound.agrees, sound.held, fun attached id tag h => ?_, fun other h => ?_⟩
  · rcases sound.owed attached id tag h with awaits | ⟨other, hother, rfl⟩
    · exact .inl awaits
    · rw [arriving] at hother
      cases hother
      rw [gathers.refused dropped] at h
      contradiction
  · contradiction

/-- The peer is to settle the delivery that arrived. -/
theorem Sound.await (sound : account.Sound awaited begun handle)
    (arriving : account.assembly = some assembly) (kept : assembly.discarding = false)
    (unsettled : assembly.settled = false) :
  Sound (fun key id tag => awaited key id tag
      ∨ key = handle ∧ id = assembly.id ∧ tag = assembly.tag) begun handle
    { account with assembly := none }
  := by
  have gathers := sound.gathers assembly arriving
  refine ⟨sound.agrees, fun id tag h => ?_, fun attached id tag h => ?_, fun other h => ?_⟩
  · rcases h with h | ⟨-, rfl, rfl⟩
    · exact sound.held id tag h
    · exact gathers.carried kept unsettled
  · rcases sound.owed attached id tag h with awaits | ⟨other, hother, rfl⟩
    · exact .inl (.inl awaits)
    · rw [arriving] at hother
      cases hother
      rw [gathers.carried kept unsettled] at h
      exact .inl (.inr ⟨rfl, rfl, (Option.some.inj h).symm⟩)
  · contradiction

/-- The peer has settled a delivery of the link. -/
theorem Sound.forget (sound : account.Sound awaited begun handle) (awaits : awaited handle id tag) :
  Sound (fun key other tag => awaited key other tag ∧ other ≠ id) begun handle
    { account with unsettled := (account.unsettled.settle id).2 }
  := by
  have found := Unsettled.get?_settle account.unsettled id
  refine ⟨sound.agrees.settle id, fun other tag h => ?_, fun attached other tag h => ?_,
    fun assembly h => ?_⟩
  · rw [found, if_neg h.2]
    exact sound.held other tag h.1
  · change (account.unsettled.settle id).2.byId.get? other = _ at h
    rw [found] at h
    split at h
    · contradiction
    · next differs => exact (sound.owed attached other tag h).imp_left fun h => ⟨h, differs⟩
  · have gathers := sound.gathers assembly h
    have differs : assembly.id ≠ id := by
      rintro rfl
      exact gathers.untold _ _ awaits
    constructor
    · exact gathers.begun
    · exact fun key tag h => gathers.untold key tag h.1
    · intro kept unsettled
      rw [found, if_neg differs]
      exact gathers.carried kept unsettled
    · intro dropped
      rw [found, if_neg differs]
      exact gathers.refused dropped

/-- What the peer is to settle on other links makes no difference. -/
theorem Sound.congr {awaited' : Awaited} (sound : account.Sound awaited begun handle)
    (same : ∀ id tag, awaited' handle id tag ↔ awaited handle id tag)
    (untold : ∀ assembly, account.assembly = some assembly →
      ∀ key tag, ¬ awaited' key assembly.id tag) :
  account.Sound awaited' begun handle
  := by
  refine ⟨sound.agrees, fun id tag h => sound.held id tag ((same id tag).mp h),
    fun attached id tag h => ?_, fun assembly h => ?_⟩
  · exact (sound.owed attached id tag h).imp_left (same id tag).mpr
  · have gathers := sound.gathers assembly h
    exact ⟨gathers.begun, untold assembly h, gathers.carried, gathers.refused⟩

/-- On other links the peer is to settle less. -/
theorem Sound.fewer {awaited' : Awaited} (sound : account.Sound awaited begun handle)
    (same : ∀ id tag, awaited' handle id tag ↔ awaited handle id tag)
    (fewer : ∀ key id tag, awaited' key id tag → awaited key id tag) :
  account.Sound awaited' begun handle
  := by
  apply sound.congr same
  intro assembly h key tag h'
  exact (sound.gathers assembly h).untold key tag (fewer key assembly.id tag h')

end Account

/-! ### The accounts of a session -/

/-- The accounts of a session are in order: the peer is to settle the deliveries that it was told
so, and no others, and no other tag is in use. -/
structure Session.Keeps (awaited : Awaited) (begun : List UInt32) (session : Session) : Prop where
  /-- No transfer is taken in if the limits let none be sent. -/
  shut : session.limits.incomingWindow = 0 → session.incomingWindow = 0
  /-- The account of every link is in order. -/
  sound : ∀ handle account, session.account? handle = some account →
    account.Sound awaited begun handle
  /-- No two links have deliveries of one number arriving. -/
  apart : ∀ handle handle' account account' assembly assembly',
    session.account? handle = some account → session.account? handle' = some account' →
    account.assembly = some assembly → account'.assembly = some assembly' →
    assembly.id = assembly'.id → handle = handle'
  /-- What the peer is to settle it is to settle on a link. -/
  there : ∀ handle id tag, awaited handle id tag → (session.account? handle).isSome
  /-- The session keeps what the peer is to settle in order. -/
  sorted : session.incomingUnsettled.Sorted
  /-- The session knows what the peer is to settle. -/
  incoming : ∀ handle id,
    session.incomingUnsettled.get? id = some handle ↔ ∃ tag, awaited handle id tag
  /-- What the peer is to settle was begun. -/
  begun : ∀ handle id tag, awaited handle id tag → id ∈ begun
  /-- Nothing was begun if the limits let no transfer be sent. -/
  admits : ∀ handle id tag, awaited handle id tag → session.limits.incomingWindow ≠ 0

namespace Session.Keeps

variable {awaited : Awaited} {begun begun' : List UInt32} {session session' : Session}
  {handle id : UInt32} {tag : Bytes} {account account' : Account} {assembly : Assembly}

theorem ofBegin (terms : Begin) (limits : SessionLimits) :
  (Session.ofBegin terms limits).Keeps (fun _ _ _ => False) []
  := by
  constructor
  · exact fun h => h
  · intro handle account h
    contradiction
  · intro handle handle' account account' assembly assembly' h
    contradiction
  · exact fun handle id tag h => h.elim
  · exact .nil
  · intro handle id
    constructor
    · intro h
      contradiction
    · exact fun h => h.choose_spec.elim
  · exact fun handle id tag h => h.elim
  · exact fun handle id tag h => h.elim

/-- The window is counted down, or topped up. -/
theorem of_window (keeps : session.Keeps awaited begun)
    (limits : session'.limits = session.limits)
    (window : session.limits.incomingWindow = 0 → session'.incomingWindow = 0)
    (incoming : session'.incomingUnsettled = session.incomingUnsettled)
    (account : ∀ handle, session'.account? handle = session.account? handle) :
  session'.Keeps awaited begun
  := by
  constructor
  · rw [limits]
    exact window
  · intro handle
    rw [account]
    exact keeps.sound handle
  · intro handle handle'
    rw [account, account]
    exact keeps.apart handle handle'
  · intro handle
    rw [account]
    exact keeps.there handle
  · rw [incoming]
    exact keeps.sorted
  · rw [incoming]
    exact keeps.incoming
  · exact keeps.begun
  · rw [limits]
    exact keeps.admits

theorem of_leaves (keeps : session.Keeps awaited begun) (leaves : session.Leaves session') :
  session'.Keeps awaited begun
  := by
  apply keeps.of_window leaves.limits _ leaves.incoming leaves.account
  rw [leaves.window]
  exact keeps.shut

theorem mono (keeps : session.Keeps awaited begun) (more : begun ⊆ begun') :
  session.Keeps awaited begun'
  := ⟨keeps.shut, fun handle account h => (keeps.sound handle account h).mono more, keeps.apart,
    keeps.there, keeps.sorted, keeps.incoming,
    fun handle id tag h => more (keeps.begun handle id tag h), keeps.admits⟩

/-- The account of one link is replaced. -/
theorem replace (keeps : session.Keeps awaited begun)
    (replaced : ∀ other, session'.account? other
      = if other = handle then some account' else session.account? other)
    (limits : session'.limits = session.limits)
    (window : session'.incomingWindow = session.incomingWindow)
    (incoming : session'.incomingUnsettled = session.incomingUnsettled)
    (sound : account'.Sound awaited begun handle)
    (apart : ∀ assembly, account'.assembly = some assembly →
      ∀ other account assembly', session.account? other = some account →
        account.assembly = some assembly' → assembly'.id = assembly.id → other = handle) :
  session'.Keeps awaited begun
  := by
  constructor
  · rw [limits, window]
    exact keeps.shut
  · intro other account h
    rw [replaced] at h
    split at h
    · next same =>
        cases h
        rw [same]
        exact sound
    · exact keeps.sound other account h
  · intro key key' account account' assembly assembly' h h' hassembly hassembly' same
    rw [replaced] at h h'
    split at h
    · next hkey =>
        cases h
        split at h'
        · next hkey' => rw [hkey, hkey']
        · rw [hkey]
          exact (apart assembly hassembly key' account' assembly' h' hassembly' same.symm).symm
    · split at h'
      · next hkey' =>
          cases h'
          rw [hkey']
          exact apart assembly' hassembly' key account assembly h hassembly same
      · exact keeps.apart key key' account account' assembly assembly' h h' hassembly hassembly'
          same
  · intro other id tag h
    rw [replaced]
    split
    · rfl
    · exact keeps.there other id tag h
  · rw [incoming]
    exact keeps.sorted
  · rw [incoming]
    exact keeps.incoming
  · exact keeps.begun
  · rw [limits]
    exact keeps.admits

/-- The account of one link is replaced, and no other delivery arrives on it. -/
theorem replace_kept (keeps : session.Keeps awaited begun)
    (before : session.account? handle = some account)
    (replaced : ∀ other, session'.account? other
      = if other = handle then some account' else session.account? other)
    (limits : session'.limits = session.limits)
    (window : session'.incomingWindow = session.incomingWindow)
    (incoming : session'.incomingUnsettled = session.incomingUnsettled)
    (sound : account'.Sound awaited begun handle)
    (kept : ∀ assembly', account'.assembly = some assembly' →
      ∃ assembly, account.assembly = some assembly ∧ assembly.id = assembly'.id) :
  session'.Keeps awaited begun
  := by
  apply keeps.replace replaced limits window incoming sound
  intro assembly hassembly other account' assembly' hother hassembly' same
  obtain ⟨assembly'', hassembly'', same'⟩ := kept assembly hassembly
  exact keeps.apart other handle account' account assembly' assembly'' hother before hassembly'
    hassembly'' (same.trans same'.symm)

/-! ### Links come and go -/

/-- A link is attached under a handle that is free. -/
theorem attach (keeps : session.Keeps awaited begun) (free : session.account? handle = none)
    {endpoint : Endpoint} (unsettled : endpoint.link.unsettled = .empty)
    (idle : endpoint.assembly = none) :
  (session.putEndpoint handle endpoint).Keeps awaited begun
  := by
  apply keeps.replace (session.account?_putEndpoint handle endpoint) rfl rfl rfl
  · rw [Endpoint.account, unsettled, idle]
    apply Account.Sound.fresh
    intro id tag h
    have there := keeps.there handle id tag h
    rw [free] at there
    contradiction
  · intro assembly hassembly
    change endpoint.assembly = _ at hassembly
    rw [idle] at hassembly
    contradiction

/-- The peer is to settle nothing on a link that it has detached. -/
theorem detach (keeps : session.Keeps awaited begun) (handle : UInt32) :
  ({ session with
      endpoints := session.endpoints.erase handle
      incomingUnsettled := session.incomingUnsettled.filter fun row => row.2 ≠ handle
    } : Session).Keeps (fun key id tag => awaited key id tag ∧ key ≠ handle) begun
  := by
  have accounts (other : UInt32) :
      Session.account? { session with
        endpoints := session.endpoints.erase handle
        incomingUnsettled := session.incomingUnsettled.filter fun row => row.2 ≠ handle } other
        = if other = handle then none else session.account? other := by
    rw [account?, Table.get?_erase, apply_ite (Option.map Endpoint.account)]
    rfl
  constructor
  · exact keeps.shut
  · intro other account h
    rw [accounts] at h
    split at h
    · contradiction
    · next differs =>
        apply (keeps.sound other account h).fewer
        · exact fun id tag => and_iff_left differs
        · exact fun key id tag h => h.1
  · intro key key' account account' assembly assembly' h h'
    rw [accounts] at h h'
    split at h
    · contradiction
    · split at h'
      · contradiction
      · exact keeps.apart key key' account account' assembly assembly' h h'
  · intro key id tag h
    rw [accounts, if_neg h.2]
    exact keeps.there key id tag h.1
  · exact List.Pairwise.sublist (List.Sublist.map _ List.filter_sublist) keeps.sorted
  · intro key id
    rw [Table.get?_filter keeps.sorted.nodup, keeps.incoming]
    simp
  · exact fun key id tag h => keeps.begun key id tag h.1
  · exact fun key id tag h => keeps.admits key id tag h.1

/-- The peer is to settle nothing when the session has ended. -/
theorem finish (keeps : session.Keeps awaited begun) {session' : Session}
    (limits : session'.limits = session.limits)
    (window : session'.incomingWindow = session.incomingWindow)
    (incoming : session'.incomingUnsettled = []) (endpoints : session'.endpoints = []) :
  session'.Keeps (fun _ _ _ => False) begun
  := by
  have none (handle : UInt32) : session'.account? handle = none := by
    rw [account?, endpoints]
    rfl
  constructor
  · rw [limits, window]
    exact keeps.shut
  · intro handle account h
    rw [none] at h
    contradiction
  · intro handle handle' account account' assembly assembly' h
    rw [none] at h
    contradiction
  · exact fun handle id tag h => h.elim
  · rw [incoming]
    exact .nil
  · intro handle id
    rw [incoming]
    constructor
    · intro h
      contradiction
    · exact fun h => h.choose_spec.elim
  · exact fun handle id tag h => h.elim
  · exact fun handle id tag h => h.elim

/-! ### The peer settles -/

/-- Nothing changes where the peer has nothing to settle under a number. -/
theorem forget_of_none (keeps : session.Keeps awaited begun)
    (unknown : session.incomingUnsettled.get? id = none) :
  (session.forget id).Keeps (fun key other tag => awaited key other tag ∧ other ≠ id) begun
  := by
  have same : (fun key other tag => awaited key other tag ∧ other ≠ id) = awaited := by
    funext key other tag
    apply propext
    apply and_iff_left_of_imp
    rintro awaits rfl
    rw [(keeps.incoming key other).mpr ⟨tag, awaits⟩] at unknown
    contradiction
  rw [same, Session.forget, unknown]
  exact keeps

/-- A delivery that the peer settles is forgotten on its link. -/
theorem forget_of_some (keeps : session.Keeps awaited begun)
    (known : session.incomingUnsettled.get? id = some handle) :
  (session.forget id).Keeps (fun key other tag => awaited key other tag ∧ other ≠ id) begun
  := by
  obtain ⟨tag, awaits⟩ := (keeps.incoming handle id).mp known
  have alone (key : UInt32) (tag' : Bytes) (h : awaited key id tag') : key = handle := by
    rw [(keeps.incoming key id).mpr ⟨tag', h⟩] at known
    exact Option.some.inj known
  rw [Session.forget, known]
  have accounts (other : UInt32) :
      Session.account? { session.settle handle id with
        incomingUnsettled := session.incomingUnsettled.erase id } other
      = if other = handle then (session.account? other).map fun account =>
          { account with unsettled := (account.unsettled.settle id).2 }
        else session.account? other := session.account?_settle handle id other
  constructor
  · exact keeps.shut
  · intro other account h
    rw [accounts] at h
    split at h
    · next same =>
        obtain ⟨before, hbefore, rfl⟩ := Option.map_eq_some_iff.mp h
        rw [same] at hbefore ⊢
        exact (keeps.sound handle before hbefore).forget awaits
    · next differs =>
        apply (keeps.sound other account h).fewer
        · intro other' tag'
          apply and_iff_left_of_imp
          rintro awaits' rfl
          exact differs (alone other tag' awaits')
        · exact fun key id tag h => h.1
  · intro key key' account account' assembly assembly' h h' hassembly hassembly' same
    obtain ⟨before, hbefore, hsame⟩ := exists_of_account?_settle h
    obtain ⟨before', hbefore', hsame'⟩ := exists_of_account?_settle h'
    exact keeps.apart key key' before before' assembly assembly' hbefore hbefore'
      (hsame.trans hassembly) (hsame'.trans hassembly') same
  · intro key other tag' h
    rw [accounts]
    split
    · rw [Option.isSome_map]
      exact keeps.there key other tag' h.1
    · exact keeps.there key other tag' h.1
  · exact keeps.sorted.erase id
  · intro key other
    change (session.incomingUnsettled.erase id).get? other = some key ↔ _
    rw [Table.get?_erase]
    split
    · next same => simp [same]
    · next differs =>
        rw [keeps.incoming]
        simp [differs]
  · exact fun key other tag' h => keeps.begun key other tag' h.1
  · exact fun key other tag' h => keeps.admits key other tag' h.1

theorem forget (keeps : session.Keeps awaited begun) (id : UInt32) :
  (session.forget id).Keeps (fun key other tag => awaited key other tag ∧ other ≠ id) begun
  := by
  cases known : session.incomingUnsettled.get? id with
  | none => exact keeps.forget_of_none known
  | some handle => exact keeps.forget_of_some known

theorem onSenderDisposition (keeps : session.Keeps awaited begun) (disposition : Disposition) :
  (session.onSenderDisposition disposition).Keeps
    (fun key id tag => awaited key id tag
      ∧ ¬ (disposition.settled = true ∧ covers disposition id = true)) begun
  := by
  rw [Session.onSenderDisposition]
  split
  · next settled =>
      have folded (ids : List UInt32) :
          (ids.foldl Session.forget session).Keeps
            (fun key id tag => awaited key id tag ∧ id ∉ ids) begun := by
        induction ids generalizing session awaited with
        | nil => simpa using keeps
        | cons id ids ih =>
            have first := ih (keeps.forget id)
            simpa [and_assoc] using first
      have same : (fun key id tag => awaited key id tag
            ∧ ¬ (disposition.settled = true ∧ covers disposition id = true))
          = fun key id tag => awaited key id tag
            ∧ id ∉ session.incomingUnsettled.keys.filter (covers disposition) := by
        funext key id tag
        apply propext
        apply and_congr_right
        intro awaits
        have known := Table.mem_keys_of_get? ((keeps.incoming key id).mpr ⟨tag, awaits⟩)
        simp [settled, known]
      rw [same]
      exact folded _
  · next unsettled => simpa [unsettled] using keeps

end Session.Keeps

/-! ### A delivery in hand -/

namespace Session

/-- The session with a delivery arriving on a link. -/
def holding (handle : UInt32) (assembly : Assembly) (session : Session) : Session :=
  { session with
    endpoints := session.endpoints.update handle ({ · with assembly := some assembly }) }

theorem account?_holding (session : Session) (key : UInt32) (assembly : Assembly)
    (handle : UInt32) :
  (session.holding key assembly).account? handle
    = if handle = key then (session.account? handle).map ({ · with assembly := some assembly })
      else session.account? handle
  := by
  rw [account?, holding]
  dsimp only
  rw [Table.get?_update, apply_ite (Option.map Endpoint.account), account?, Option.map_map,
    Option.map_map]
  split
  · next same => rw [same]; rfl
  · rfl

theorem account?_holding_self {session : Session} {handle : UInt32} {account : Account}
    (there : session.account? handle = some account) (assembly : Assembly) :
  (session.holding handle assembly).account? handle
    = some { account with assembly := some assembly }
  := by
  rw [account?_holding, if_pos rfl, there, Option.map_some]

theorem account?_holding_of_ne {handle other : UInt32} (differs : other ≠ handle)
    (session : Session) (assembly : Assembly) :
  (session.holding handle assembly).account? other = session.account? other
  := by
  rw [account?_holding, if_neg differs]

/-- The accounts of a session are in order once the delivery in hand, if there is one, is put back
on its link. -/
inductive Keeping (awaited : Awaited) (begun : List UInt32) (handle : UInt32)
    (session : Session) : Prop where
  /-- There is none. -/
  | none (keeps : session.Keeps awaited begun) : Keeping awaited begun handle session
  /-- There is one. -/
  | some {account : Account} {assembly : Assembly} (there : session.account? handle = some account)
    (attached : account.detached = false) (taken : account.assembly = .none)
    (keeps : (session.holding handle assembly).Keeps awaited begun) :
    Keeping awaited begun handle session

variable {awaited : Awaited} {begun : List UInt32} {session : Session} {handle : UInt32}
  {account : Account} {assembly : Assembly}

namespace Keeps

/-- The delivery in hand is on the account of its link. -/
theorem held (keeps : (session.holding handle assembly).Keeps awaited begun)
    (there : session.account? handle = some account) :
  Account.Sound awaited begun handle { account with assembly := some assembly }
  := keeps.sound handle _ (account?_holding_self there assembly)

/-- The delivery in hand comes to its end on its link. -/
theorem replace_held {account' : Account} {session' : Session}
    (keeps : (session.holding handle assembly).Keeps awaited begun)
    (there : session.account? handle = some account)
    (replaced : ∀ other, session'.account? other
      = if other = handle then some account' else session.account? other)
    (limits : session'.limits = session.limits)
    (window : session'.incomingWindow = session.incomingWindow)
    (incoming : session'.incomingUnsettled = session.incomingUnsettled)
    (sound : account'.Sound awaited begun handle)
    (kept : ∀ assembly', account'.assembly = some assembly' → assembly'.id = assembly.id) :
  session'.Keeps awaited begun
  := by
  have replaced' (other : UInt32) : session'.account? other
      = if other = handle then some account'
        else (session.holding handle assembly).account? other := by
    rw [replaced, account?_holding]
    split
    · rfl
    · rfl
  apply keeps.replace_kept (account?_holding_self there assembly) replaced' limits window incoming
    sound
  exact fun assembly' h => ⟨assembly, rfl, (kept assembly' h).symm⟩

/-- The delivery in hand is settled, and does not arrive any more. -/
theorem settle_held (keeps : (session.holding handle assembly).Keeps awaited begun)
    (there : session.account? handle = some account) (taken : account.assembly = .none) :
  (session.settle handle assembly.id).Keeps awaited begun
  := by
  have sound : Account.Sound awaited begun handle
      ⟨account.detached, (account.unsettled.settle assembly.id).2, .none⟩ :=
    (keeps.held there).settle rfl (by simp) account.detached id
  have replaced (other : UInt32) : (session.settle handle assembly.id).account? other
      = if other = handle then
          .some ⟨account.detached, (account.unsettled.settle assembly.id).2, .none⟩
        else session.account? other := by
    rw [account?_settle]
    split
    · next same => rw [same, there, Option.map_some, ← taken]
    · rfl
  apply keeps.replace_held there replaced rfl rfl rfl sound
  intro assembly' h
  contradiction

/-- The delivery in hand is settled, and the rest of it is dropped. -/
theorem discard_held (keeps : (session.holding handle assembly).Keeps awaited begun)
    (there : session.account? handle = some account) :
  ((session.settle handle assembly.id).holding handle assembly.discard).Keeps awaited begun
  := by
  have sound : Account.Sound awaited begun handle
      ⟨account.detached, (account.unsettled.settle assembly.id).2, .some assembly.discard⟩ :=
    (keeps.held there).settle rfl (by rintro _ ⟨⟩; exact ⟨rfl, rfl⟩) account.detached id
  have replaced (other : UInt32) :
      ((session.settle handle assembly.id).holding handle assembly.discard).account? other
      = if other = handle then
          .some ⟨account.detached, (account.unsettled.settle assembly.id).2,
            .some assembly.discard⟩
        else session.account? other := by
    rw [account?_holding, account?_settle]
    split
    · next same => rw [same, there]; rfl
    · rfl
  apply keeps.replace_held there replaced rfl rfl rfl sound
  rintro assembly' ⟨⟩
  rfl

/-- The delivery in hand was refused, and is at its end. -/
theorem drop_held (keeps : (session.holding handle assembly).Keeps awaited begun)
    (there : session.account? handle = some account) (taken : account.assembly = .none)
    (dropped : assembly.discarding = true) :
  session.Keeps awaited begun
  := by
  have sound := (keeps.held there).drop rfl dropped
  have replaced (other : UInt32) : session.account? other
      = if other = handle then .some { account with assembly := .none }
        else session.account? other := by
    split
    · next same => rw [same, there, ← taken]
    · rfl
  apply keeps.replace_held there replaced rfl rfl rfl sound
  intro assembly' h
  contradiction

/-- While a delivery of the link is in hand, the accounts with deliveries are those of others. -/
theorem elsewhere_of_taken (there : session.account? handle = some account)
    (taken : account.assembly = .none) {other : UInt32} {account' : Account}
    {assembly' : Assembly} (h : session.account? other = some account')
    (arriving : account'.assembly = some assembly') (assembly : Assembly) :
  (session.holding handle assembly).account? other = some account'
  := by
  rw [account?_holding_of_ne _ session assembly, h]
  rintro rfl
  rw [there] at h
  cases h
  rw [taken] at arriving
  contradiction

/-- The peer is to settle the delivery in hand. -/
theorem await_held (keeps : (session.holding handle assembly).Keeps awaited begun)
    (there : session.account? handle = some account) (taken : account.assembly = .none)
    (admits : session.limits.incomingWindow ≠ 0)
    (kept : assembly.discarding = false) (unsettled : assembly.settled = false) :
  ({ session with
      incomingUnsettled := session.incomingUnsettled.put assembly.id handle } : Session).Keeps
    (fun key id tag => awaited key id tag ∨ key = handle ∧ id = assembly.id ∧ tag = assembly.tag)
    begun
  := by
  have held := keeps.held there
  have gathers := held.gathers assembly rfl
  have sound := held.await rfl kept unsettled
  rw [← taken] at sound
  have before := account?_holding_self there assembly
  constructor
  · exact keeps.shut
  · intro other account' (h : session.account? other = some account')
    by_cases same : other = handle
    · rw [same, there] at h
      cases h
      rw [same]
      exact sound
    · rw [← account?_holding_of_ne same session assembly] at h
      have sound' := keeps.sound other account' h
      apply sound'.congr
      · intro id tag
        simp [same]
      · rintro assembly' hassembly key tag (h' | ⟨-, hid, -⟩)
        · exact (sound'.gathers assembly' hassembly).untold key tag h'
        · exact same (keeps.apart other handle account' _ assembly' assembly h before hassembly
            rfl hid)
  · intro key key' account' account'' assembly' assembly''
      (h : session.account? key = some account') (h' : session.account? key' = some account'')
      hassembly hassembly' same
    exact keeps.apart key key' account' account'' assembly' assembly''
      (elsewhere_of_taken there taken h hassembly assembly)
      (elsewhere_of_taken there taken h' hassembly' assembly) hassembly hassembly' same
  · rintro key id tag (h | ⟨rfl, -, -⟩)
    · by_cases same : key = handle
      · change (session.account? key).isSome = true
        rw [same, there]
        rfl
      · have h' := keeps.there key id tag h
        rwa [account?_holding_of_ne same] at h'
    · change (session.account? key).isSome = true
      rw [there]
      rfl
  · exact keeps.sorted.put _ _
  · intro key id
    change (session.incomingUnsettled.put assembly.id handle).get? id = some key ↔ _
    rw [Table.get?_put]
    split
    · next same =>
        subst same
        constructor
        · intro h
          exact ⟨assembly.tag, .inr ⟨(Option.some.inj h).symm, rfl, rfl⟩⟩
        · rintro ⟨tag, h | ⟨rfl, -, -⟩⟩
          · exact absurd h (gathers.untold key tag)
          · rfl
    · next differs =>
        change (session.holding handle assembly).incomingUnsettled.get? id = some key ↔ _
        rw [keeps.incoming]
        simp [differs]
  · rintro key id tag (h | ⟨-, rfl, -⟩)
    · exact keeps.begun key id tag h
    · exact gathers.begun
  · exact fun key id tag _ => admits

end Keeps

end Session

end MessageBroker
