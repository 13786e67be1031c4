import MessageBroker.Proofs.Queue.Conservation

/-!
# Signals

Whenever a message becomes available in a listed queue, the activity of its store is counted up.
So in a store whose queues are all listed, nothing becomes available without a signal: as long as
the activity stays the same, there are fewer and fewer messages that wait.
-/

namespace MessageBroker

/-! ### Messages that wait in a queue -/

namespace Queue

variable {queue queue' : Queue}

/-- The numbers of the messages that no consumer holds. -/
def waiting (queue : Queue) : List Nat :=
  queue.browse.map (·.id)

theorem waiting_setHeld (queue : Queue) (id : Nat) :
  (queue.setHeld id true).waiting ⊆ queue.waiting
  := by
  rw [waiting, browse_setHeld]
  apply (List.filter_sublist.map _).subset

theorem waiting_remove (queue : Queue) (id : Nat) :
  (queue.remove id).waiting ⊆ queue.waiting
  := by
  have sublist : (queue.remove id).browse.Sublist queue.browse :=
    (List.filter_sublist.filter _).map _
  apply (sublist.map _).subset

theorem waiting_countAttempt (queue : Queue) (id : Nat) :
  (queue.countAttempt id).waiting = queue.waiting
  := by
  simp only [waiting, browse, countAttempt]
  induction queue.slots with
  | nil => rfl
  | cons slot slots ih =>
      rw [List.map_cons, List.filter_cons, List.filter_cons]
      by_cases here : slot.entry.id = id
      · cases held : slot.held <;> simpa [here, held] using ih
      · cases held : slot.held <;> simpa [here, held] using ih

/-- One queue comes from another without a message becoming available. -/
structure Dwindles (queue queue' : Queue) : Prop where
  /-- The queue has the same name. -/
  name : queue'.name = queue.name
  /-- Messages that wait have waited before. -/
  waiting : queue'.waiting ⊆ queue.waiting

theorem dwindles_acquire {entry : QueueEntry} (h : queue.acquire = some (entry, queue')) :
  queue.Dwindles queue'
  := by
  rw [acquire] at h
  split at h
  · contradiction
  · cases h
    exact ⟨rfl, waiting_setHeld queue _⟩

theorem dwindles_acknowledge {id : Nat} (h : queue.acknowledge id = some queue') :
  queue.Dwindles queue'
  := by
  obtain ⟨entry, -, rfl⟩ := Option.map_eq_some_iff.mp h
  exact ⟨rfl, waiting_remove queue id⟩

/-- A message that is given back is not available unless it takes its place again. -/
theorem dwindles_giveBack {id : Nat} {counted : Bool} {entry : QueueEntry}
    {decision : RedeliveryDecision} (h : queue.giveBack id counted = some (entry, decision, queue')) :
  queue'.name = queue.name ∧ (decision ≠ .requeue → queue.Dwindles queue')
  := by
  obtain ⟨found, -, hfound⟩ := Option.map_eq_some_iff.mp h
  have counting : (if counted then queue.countAttempt id else queue).name = queue.name
      ∧ (if counted then queue.countAttempt id else queue).waiting = queue.waiting := by
    split
    · exact ⟨rfl, waiting_countAttempt queue id⟩
    · exact ⟨rfl, rfl⟩
  obtain ⟨hname, hwaiting⟩ := counting
  dsimp only at hfound
  generalize (if counted then queue.countAttempt id else queue) = counted' at hname hwaiting hfound
  obtain ⟨-, hrest⟩ := Prod.mk.inj hfound
  obtain ⟨rfl, rfl⟩ := Prod.mk.inj hrest
  constructor
  · split <;> exact hname
  · intro goes
    refine ⟨?_, ?_⟩
    · split <;> exact hname
    · split
      · contradiction
      · rw [← hwaiting]
        apply waiting_remove

end Queue

/-! ### Messages that wait in a store -/

namespace QueueStore

variable {store store' store'' : QueueStore} {id : QueueId} {queue queue' : Queue}

/-- The numbers of the messages of a queue that no consumer holds. -/
def waiting (store : QueueStore) (id : QueueId) : List Nat :=
  ((store.get? id).map Queue.waiting).getD []

/-- Every queue is found by its name. -/
def Listed (store : QueueStore) : Prop :=
  ∀ row ∈ store.listing, row.2 = true

theorem listed_empty :
  QueueStore.empty.Listed
  := by
  intro row hmem
  contradiction

/-- One store comes from another without a message becoming available, and without a signal. -/
structure Dwindles (store store' : QueueStore) : Prop where
  /-- The queues are listed as before. -/
  listing : store'.listing = store.listing
  /-- There was no signal. -/
  activity : store'.activity = store.activity
  /-- Messages that wait have waited before. -/
  waiting : ∀ id, store'.waiting id ⊆ store.waiting id

/-- One store comes from another, and a message became available only if there was a signal. -/
structure Signals (store store' : QueueStore) : Prop where
  /-- Every queue is found by its name. -/
  listed : store'.Listed
  /-- Signals are counted up. -/
  activity : store.activity ≤ store'.activity
  /-- Without a signal, messages that wait have waited before. -/
  waiting : store'.activity = store.activity → ∀ id, store'.waiting id ⊆ store.waiting id

theorem Dwindles.refl (store : QueueStore) :
  store.Dwindles store
  := ⟨rfl, rfl, fun _ _ hmem => hmem⟩

theorem Dwindles.trans (h : store.Dwindles store') (h' : store'.Dwindles store'') :
  store.Dwindles store''
  := by
  constructor
  · apply h'.listing.trans h.listing
  · apply h'.activity.trans h.activity
  · intro id number hmem
    apply h.waiting id (h'.waiting id hmem)

theorem Dwindles.signals (h : store.Dwindles store') (listed : store.Listed) :
  store.Signals store'
  := by
  constructor
  · rw [Listed, h.listing]
    exact listed
  · rw [h.activity]
  · intro _
    exact h.waiting

theorem Signals.refl (listed : store.Listed) :
  store.Signals store
  := (Dwindles.refl store).signals listed

theorem Signals.trans (h : store.Signals store') (h' : store'.Signals store'') :
  store.Signals store''
  := by
  have hactivity := h.activity
  have hactivity' := h'.activity
  constructor
  · exact h'.listed
  · omega
  · intro same id number hmem
    apply h.waiting (by omega) id
    apply h'.waiting (by omega) id hmem

/-- A signal is enough. -/
theorem Signals.of_lt (listed : store'.Listed) (h : store.activity < store'.activity) :
  store.Signals store'
  := by
  constructor
  · exact listed
  · apply Nat.le_of_lt h
  · intro same
    omega

/-! ### Requests -/

theorem dwindles_set (found : store.get? id = some queue) (h : queue.Dwindles queue') :
  store.Dwindles (store.set id queue')
  := by
  constructor
  · apply listing_set found queue' h.name
  · rfl
  · intro other
    rw [waiting, waiting, get?_set]
    split
    · next same =>
        rw [same, found]
        exact h.waiting
    · apply List.Subset.refl

theorem dwindles_acquire (store : QueueStore) (id : QueueId) :
  store.Dwindles (store.acquire id).2
  := by
  rw [acquire]
  split
  · next entry queue' hbind =>
      obtain ⟨queue, found, hacquire⟩ := Option.bind_eq_some_iff.mp hbind
      apply dwindles_set found (Queue.dwindles_acquire hacquire)
  · apply Dwindles.refl

theorem dwindles_acknowledge (store : QueueStore) (id : QueueId) (entry : Nat) :
  store.Dwindles (store.acknowledge id entry).2
  := by
  rw [acknowledge]
  split
  · next queue' hbind =>
      obtain ⟨queue, found, hacknowledge⟩ := Option.bind_eq_some_iff.mp hbind
      apply dwindles_set found (Queue.dwindles_acknowledge hacknowledge)
  · apply Dwindles.refl

/-- In a listed queue, a message that becomes available is a signal. -/
theorem activity_notify (listed : store.Listed) (found : store.get? id = some queue) :
  (store.notify id).activity = store.activity + 1
  := by
  obtain ⟨⟨stored, isListed⟩, hstored, -⟩ := Option.map_eq_some_iff.mp found
  have hlisted : isListed = true :=
    listed (stored.name, isListed) (List.mem_map.mpr ⟨_, List.mem_of_getElem? hstored, rfl⟩)
  rw [notify, hstored, hlisted]

theorem signals_notify_set (listed : store.Listed) (found : store.get? id = some queue)
    (name : queue'.name = queue.name) :
  store.Signals ((store.set id queue').notify id)
  := by
  have same := listing_set found queue' name
  have listed' : (store.set id queue').Listed := by
    rw [Listed, same]
    exact listed
  have found' : (store.set id queue').get? id = some queue' := by
    rw [get?_set, if_pos rfl, found]
    rfl
  apply Signals.of_lt
  · rw [Listed, listing_notify]
    exact listed'
  · rw [activity_notify listed' found']
    apply Nat.lt_succ_self

theorem signals_enqueue (listed : store.Listed) (id : QueueId) (payload : Bytes) :
  store.Signals (store.enqueue id payload).2
  := by
  rw [enqueue]
  split
  · next queue found => exact signals_notify_set listed found rfl
  · apply Signals.refl listed

theorem signals_release (listed : store.Listed) (id : QueueId) (entry : Nat) (counted : Bool) :
  store.Signals (store.release id entry counted).2
  := by
  rw [release]
  split
  · apply Signals.refl listed
  · next found decision queue' hbind =>
      obtain ⟨queue, hqueue, hgive⟩ := Option.bind_eq_some_iff.mp hbind
      obtain ⟨name, dwindles⟩ := Queue.dwindles_giveBack hgive
      dsimp only
      split
      · apply signals_notify_set listed hqueue name
      · apply (dwindles_set hqueue (dwindles (by simp))).signals listed
      · have gone := (dwindles_set hqueue (dwindles (by simp))).signals listed
        split
        · apply gone.trans
          apply signals_enqueue gone.listed
        · exact gone

theorem signals_add (listed : store.Listed) (name : String) (policy : RedeliveryPolicy) :
  store.Signals (store.add name policy true)
  := by
  constructor
  · intro row hmem
    rw [listing_add] at hmem
    rcases List.mem_append.mp hmem with hbefore | hnew
    · apply listed row hbefore
    · rw [List.mem_singleton.mp hnew]
  · apply Nat.le_refl
  · intro _ id
    rw [waiting, waiting, get?_add]
    split
    · next hnew =>
        intro number hmem
        contradiction
    · apply List.Subset.refl

theorem signals_create (listed : store.Listed) {name : String} {policy : RedeliveryPolicy}
    (h : store.create name policy = .ok store') :
  store.Signals store'
  := by
  rw [create] at h
  split at h
  · contradiction
  · cases h
    apply signals_add listed

end QueueStore

end MessageBroker
