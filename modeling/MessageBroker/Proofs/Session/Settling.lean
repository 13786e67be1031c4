import MessageBroker.Proofs.Session.Recording

/-!
# Outcomes carried out

Outcomes are carried out one delivery after another.  An outcome is a deed done to the message of
its delivery at once, unless the message is to be taken in a transaction: then it is recorded there,
and the queues are left alone.  If that transaction is not open the message is given back, the link
of the delivery is at fault, and no further outcome is carried out.
-/

namespace MessageBroker

open Session

/-! ### Outcomes and deeds -/

namespace DeliveryState

/-- What an outcome does to a message at once; nothing if the message is to be taken in a
transaction. -/
def deed? (place : Place) : DeliveryState → Option Deed
  | .accepted => some (.take place)
  | .modified deliveryFailed _ => some (.giveBack place deliveryFailed)
  | .rejected _ => some (.giveBack place true)
  | .transactional _ => none
  | .provisional _ .accepted => none
  | .provisional _ outcome => outcome.deed? place
  | _ => some (.giveBack place false)

/-- Either something is done to a message at once, or it is to be taken in a transaction. -/
theorem deed?_of_takenIn? (place : Place) (state : DeliveryState) :
  (∃ id, state.takenIn? = some id ∧ state.deed? place = none)
    ∨ (state.takenIn? = none ∧ ∃ deed, state.deed? place = some deed ∧ deed.place? = some place)
  := by
  induction state with
  | transactional transaction => exact .inl ⟨transaction, rfl, rfl⟩
  | provisional transaction outcome ih =>
      cases outcome with
      | accepted => exact .inl ⟨transaction, rfl, rfl⟩
      | _ => exact ih
  | _ => exact .inr ⟨rfl, _, rfl, rfl⟩

end DeliveryState

/-- A delivery with its number and the outcome that it is given. -/
abbrev Verdict :=
  UInt32 × OutgoingDelivery × DeliveryState

namespace Verdict

/-- The delivery and its number. -/
def row (verdict : Verdict) : UInt32 × OutgoingDelivery :=
  (verdict.1, verdict.2.1)

/-- The place of the message. -/
def place (verdict : Verdict) : Place :=
  verdict.2.1.place

/-- The transaction in which the message is to be taken. -/
def takenIn? (verdict : Verdict) : Option Bytes :=
  verdict.2.2.takenIn?

/-- What is done to the message at once. -/
def deed? (verdict : Verdict) : Option Deed :=
  verdict.2.2.deed? verdict.place

/-- What is recorded in a transaction. -/
def work? (id : Bytes) (verdict : Verdict) : Option Work :=
  if verdict.takenIn? = some id then some verdict.2.1.taking else none

/-- The transaction in which the message is to be taken, if any, is open. -/
def Known (ledger : Ledger) (verdict : Verdict) : Prop :=
  ∀ id, verdict.takenIn? = some id → ledger.contains id = true

/-- The delivery, with its message given back instead. -/
def released (verdict : Verdict) : Verdict :=
  (verdict.1, verdict.2.1, .released)

theorem Known.released (ledger : Ledger) (verdict : Verdict) :
  verdict.released.Known ledger
  := by
  intro id hid
  contradiction

/-- Either the message is to be taken in a transaction, or something is done to it at once. -/
theorem deed?_of_takenIn? (verdict : Verdict) :
  (∃ id, verdict.takenIn? = some id ∧ verdict.deed? = none)
    ∨ (verdict.takenIn? = none
      ∧ ∃ deed, verdict.deed? = some deed ∧ deed.place? = some verdict.place)
  := verdict.2.2.deed?_of_takenIn? verdict.place

theorem deed?_eq_none {verdict : Verdict} {id : Bytes} (h : verdict.takenIn? = some id) :
  verdict.deed? = none
  := by
  rcases verdict.deed?_of_takenIn? with ⟨_, _, hnone⟩ | ⟨hnone, _⟩
  · exact hnone
  · rw [hnone] at h
    contradiction

theorem deed?_eq_some {verdict : Verdict} (h : verdict.takenIn? = none) :
  ∃ deed, verdict.deed? = some deed ∧ deed.place? = some verdict.place
  := by
  rcases verdict.deed?_of_takenIn? with ⟨id, hid, _⟩ | ⟨_, hdeed⟩
  · rw [hid] at h
    contradiction
  · exact hdeed

end Verdict

/-- Records that a message is to be taken in a transaction, if it is. -/
def Ledger.note (ledger : Ledger) (verdict : Verdict) : Ledger :=
  match verdict.takenIn? with
  | some id => ledger.onWork id (· ++ [verdict.2.1.taking])
  | none => ledger

namespace Ledger

/-- What is found of a transaction after outcomes were told. -/
theorem find?_note (verdicts : List Verdict) (ledger : Ledger) (id : Bytes) :
  (verdicts.foldl note ledger).find? id
    = (ledger.find? id).map fun transaction =>
        { transaction with work := transaction.work ++ verdicts.filterMap (Verdict.work? id) }
  := by
  induction verdicts generalizing ledger with
  | nil =>
      simp only [List.foldl_nil, List.filterMap_nil, List.append_nil]
      exact (congrFun Option.map_id_fun' _).symm
  | cons verdict verdicts ih =>
      rw [List.foldl_cons, ih, note]
      cases htaken : verdict.takenIn? with
      | none =>
          have hwork : verdict.work? id = none := by simp [Verdict.work?, htaken]
          rw [List.filterMap_cons_none hwork]
      | some other =>
          dsimp only
          rw [find?_onWork, Option.map_map]
          congr 1
          funext transaction
          by_cases hid : id = other
          · have hwork : verdict.work? id = some verdict.2.1.taking := by
              simp [Verdict.work?, htaken, hid]
            rw [List.filterMap_cons_some hwork, Function.comp_apply, if_pos hid]
            simp
          · have hwork : verdict.work? id = none := by
              simp [Verdict.work?, htaken, Ne.symm hid]
            rw [List.filterMap_cons_none hwork, Function.comp_apply, if_neg hid]

end Ledger

/-! ### Outcomes one after another -/

/-- Deliveries that are not settled without those that are given outcomes. -/
def Session.unsettledWithout (unsettled : Table UInt32 OutgoingDelivery) (verdicts : List Verdict) :
    Table UInt32 OutgoingDelivery :=
  unsettled.filter fun row => row.1 ∉ verdicts.map (·.1)

namespace Serving

/-- Carries out outcomes: the deliveries are forgotten, what is to be taken in transactions is
recorded, and the other deeds are done. -/
def concludeAll (s : Serving) (verdicts : List Verdict) : Serving where
  session :=
    { s.session with
      outgoingUnsettled := verdicts.foldl (fun unsettled verdict => unsettled.erase verdict.1)
        s.session.outgoingUnsettled
      transactions := verdicts.foldl Ledger.note s.session.transactions }
  store := Deed.performAll (verdicts.filterMap Verdict.deed?) s.store

theorem concludeAll_cons (s : Serving) (verdict : Verdict) (verdicts : List Verdict) :
  s.concludeAll (verdict :: verdicts) = (s.concludeAll [verdict]).concludeAll verdicts
  := by
  have hstore : Deed.performAll ((verdict :: verdicts).filterMap Verdict.deed?) s.store
      = Deed.performAll (verdicts.filterMap Verdict.deed?)
        (Deed.performAll ([verdict].filterMap Verdict.deed?) s.store) := by
    rw [Deed.performAll, Deed.performAll, Deed.performAll, ← List.foldl_append,
      ← List.filterMap_append, List.singleton_append]
  rw [concludeAll, hstore]
  rfl

theorem concludeAll_append (s : Serving) (verdicts others : List Verdict) :
  s.concludeAll (verdicts ++ others) = (s.concludeAll verdicts).concludeAll others
  := by
  induction verdicts generalizing s with
  | nil => rfl
  | cons verdict verdicts ih =>
      rw [List.cons_append, concludeAll_cons, ih, ← concludeAll_cons s verdict verdicts]

theorem outgoingUnsettled_concludeAll (s : Serving) (verdicts : List Verdict) :
  (s.concludeAll verdicts).session.outgoingUnsettled
    = unsettledWithout s.session.outgoingUnsettled verdicts
  := by
  rw [concludeAll, unsettledWithout]
  dsimp only
  induction verdicts generalizing s with
  | nil => exact (List.filter_eq_self.mpr (by simp)).symm
  | cons verdict verdicts ih =>
      rw [List.foldl_cons]
      have hrest := ih (s.concludeAll [verdict])
      refine Eq.trans hrest ?_
      change List.filter _ (Table.erase _ _) = _
      rw [Table.erase, List.filter_filter]
      congr 1
      funext row
      rw [List.map_cons, Bool.eq_iff_iff]
      simp [and_comm]

/-- Taking messages in transactions does nothing to the queues. -/
theorem store_concludeAll_of_taken {s : Serving} {verdicts : List Verdict} {id : Bytes}
    (taken : ∀ verdict ∈ verdicts, verdict.takenIn? = some id) :
  (s.concludeAll verdicts).store = s.store
  := by
  have hdeeds : verdicts.filterMap Verdict.deed? = [] := by
    apply List.filterMap_eq_nil_iff.mpr
    intro verdict hverdict
    exact Verdict.deed?_eq_none (taken verdict hverdict)
  rw [concludeAll, hdeeds]
  rfl

/-- Outcomes that are carried out at once leave the transactions alone. -/
theorem transactions_concludeAll_of_none {s : Serving} {verdicts : List Verdict}
    (plain : ∀ verdict ∈ verdicts, verdict.takenIn? = none) :
  (s.concludeAll verdicts).session.transactions = s.session.transactions
  := by
  rw [concludeAll]
  dsimp only
  induction verdicts with
  | nil => rfl
  | cons verdict verdicts ih =>
      have hnote : s.session.transactions.note verdict = s.session.transactions := by
        rw [Ledger.note, plain _ List.mem_cons_self]
      rw [List.foldl_cons, hnote]
      exact ih fun other hother => plain other (List.mem_cons_of_mem _ hother)

/-- Whether transactions are open does not depend on what is recorded in them. -/
theorem known_concludeAll {s : Serving} {verdict : Verdict} (verdicts : List Verdict)
    (known : verdict.Known s.session.transactions) :
  verdict.Known (s.concludeAll verdicts).session.transactions
  := by
  intro id hid
  have hopened := known id hid
  rw [Ledger.contains] at hopened ⊢
  rw [concludeAll, Ledger.find?_note, Option.isSome_map]
  exact hopened

end Serving

namespace Operation

variable {verdict : Verdict} {s : Serving}

theorem carryOut_of_deed? {delivery : OutgoingDelivery} {state : DeliveryState} {deed : Deed}
    (h : state.deed? delivery.place = some deed) (s : Serving) :
  carryOut delivery state s = .ok () (s.onStore deed.perform)
  := by
  induction state with
  | transactional transaction => contradiction
  | provisional transaction outcome ih =>
      cases outcome with
      | accepted => contradiction
      | _ => exact ih h
  | _ =>
      obtain rfl := Option.some.inj h
      rfl

/-- An outcome is carried out if the transaction is open in which the message is to be taken. -/
theorem carryOutEach_cons_of_known (known : verdict.Known s.session.transactions)
    (others : List Verdict) :
  carryOutEach (verdict :: others) s = carryOutEach others (s.concludeAll [verdict])
  := by
  rw [carryOutEach, run_onSession_bind]
  apply run_bind_of_ok
  rw [Serving.concludeAll, List.foldl_cons, List.foldl_cons, Ledger.note]
  cases htaken : verdict.takenIn? with
  | some id =>
      have hnone := Verdict.deed?_eq_none htaken
      rw [carryOut_of_takenIn? verdict.2.1 htaken, take, run_get_bind,
        List.filterMap_cons_none hnone]
      dsimp only [Serving.onSession]
      rw [Ledger.record, if_pos (known id htaken)]
      rfl
  | none =>
      obtain ⟨deed, hdeed, -⟩ := Verdict.deed?_eq_some htaken
      rw [carryOut_of_deed? hdeed, List.filterMap_cons_some hdeed]
      rfl

/-- A message that is to be taken in a transaction that is not open is given back, and the link of
its delivery is at fault. -/
theorem carryOutEach_cons_of_unknown {id : Bytes} (taken : verdict.takenIn? = some id)
    (unknown : s.session.transactions.contains id = false) (others : List Verdict) :
  carryOutEach (verdict :: others) s
    = .error (.link verdict.2.1.handle (Ledger.unknown id)) (s.concludeAll [verdict.released])
  := by
  rw [carryOutEach, run_onSession_bind]
  apply run_bind_of_error
  rw [carryOut_of_takenIn? verdict.2.1 taken, take, run_get_bind]
  dsimp only [Serving.onSession]
  rw [Ledger.record, if_neg (by simp [unknown])]
  rfl

/-- Outcomes are carried out in order as long as the transactions are open. -/
theorem carryOutEach_append_of_known {verdicts : List Verdict}
    (known : ∀ verdict ∈ verdicts, verdict.Known s.session.transactions)
    (others : List Verdict) :
  carryOutEach (verdicts ++ others) s = carryOutEach others (s.concludeAll verdicts)
  := by
  induction verdicts generalizing s with
  | nil => rfl
  | cons verdict verdicts ih =>
      rw [List.cons_append, carryOutEach_cons_of_known (known _ List.mem_cons_self),
        Serving.concludeAll_cons s verdict verdicts]
      apply ih
      intro other hother
      exact Serving.known_concludeAll [verdict] (known other (List.mem_cons_of_mem _ hother))

end Operation

/-! ### What becomes of the messages -/

/-- The places of deliveries that are given outcomes are among those of unsettled deliveries. -/
theorem Session.unsettledPlaces_verdicts {unsettled : Table UInt32 OutgoingDelivery}
    (sorted : unsettled.Sorted) {verdicts : List Verdict}
    (distinct : (verdicts.map (·.1)).Nodup)
    (found : ∀ verdict ∈ verdicts, unsettled.get? verdict.1 = some verdict.2.1) :
  ∃ others, unsettledPlaces unsettled = ↑(verdicts.map Verdict.place) + others
  := by
  induction verdicts generalizing unsettled with
  | nil => exact ⟨_, (zero_add _).symm⟩
  | cons verdict verdicts ih =>
      rw [List.map_cons, List.nodup_cons] at distinct
      obtain ⟨others, hothers⟩ := ih (sorted.erase verdict.1) distinct.2 (by
        intro other hother
        rw [Table.get?_erase, if_neg]
        · exact found other (List.mem_cons_of_mem _ hother)
        · intro heq
          apply distinct.1
          rw [← heq]
          exact List.mem_map_of_mem hother)
      refine ⟨others, ?_⟩
      rw [unsettledPlaces_erase sorted (found _ List.mem_cons_self), hothers, List.map_cons,
        ← Multiset.cons_coe, Multiset.cons_add]
      rfl

/-- Messages are subject to deeds at once, or are to be taken in transactions. -/
theorem Verdict.coe_places (verdicts : List Verdict) :
  (↑(verdicts.map Verdict.place) : Multiset Place)
    = ↑((verdicts.filterMap Verdict.deed?).filterMap Deed.place?)
      + ↑((verdicts.filter fun verdict => verdict.takenIn?.isSome).map Verdict.place)
  := by
  induction verdicts with
  | nil => rfl
  | cons verdict verdicts ih =>
      rw [List.map_cons, ← Multiset.cons_coe, ih]
      rcases verdict.deed?_of_takenIn? with ⟨id, hid, hnone⟩ | ⟨htaken, deed, hdeed, hplace⟩
      · rw [List.filterMap_cons_none hnone, List.filter_cons_of_pos (by simp [hid]),
          List.map_cons, ← Multiset.cons_coe, Multiset.add_cons]
      · rw [List.filterMap_cons_some hdeed, List.filterMap_cons_some hplace,
          List.filter_cons_of_neg (by simp [htaken]), ← Multiset.cons_coe, Multiset.cons_add]

/-- What becomes of a session and the queues when deliveries are given outcomes. -/
structure Serving.Concludes (verdicts : List Verdict) (s s' : Serving) : Prop where
  /-- The deliveries are settled, and no others are. -/
  settled : s'.session.outgoingUnsettled = unsettledWithout s.session.outgoingUnsettled verdicts
  /-- Every queue keeps what the outcomes leave of its slots, and messages that they send on come
  after these. -/
  queues : ∀ queue, s'.store.get? queue
    = (s.store.get? queue).map
        (Queue.settled (verdicts.filterMap Verdict.deed?) s.store queue)
  /-- What is to be taken in a transaction is recorded there. -/
  recorded : ∀ id, s'.session.transactions.find? id
    = (s.session.transactions.find? id).map fun transaction =>
        { transaction with work := transaction.work ++ verdicts.filterMap (Verdict.work? id) }
  /-- A message that an outcome is carried out on at once is held no longer. -/
  done : ∀ verdict ∈ verdicts, verdict.takenIn? = none →
    s'.store.isHeld verdict.place = false
  /-- A message that is to be taken in a transaction stays held as it is. -/
  waits : ∀ verdict ∈ verdicts, ∀ id, verdict.takenIn? = some id →
    s'.store.isHeld verdict.place = true
      ∧ s'.store.slot? verdict.place = s.store.slot? verdict.place

theorem Serving.concludes_concludeAll {s : Serving} (sorted : s.session.outgoingUnsettled.Sorted)
    {others : Multiset Place} (custody : s.store.InCustody (s.session.places + others))
    {verdicts : List Verdict} (distinct : (verdicts.map (·.1)).Nodup)
    (found : ∀ verdict ∈ verdicts,
      s.session.outgoingUnsettled.get? verdict.1 = some verdict.2.1) :
  s.Concludes verdicts (s.concludeAll verdicts)
  := by
  obtain ⟨unsettled, hunsettled⟩ := unsettledPlaces_verdicts sorted distinct found
  obtain ⟨waiting, hwaiting⟩ : ∃ waiting, waiting
      = (verdicts.filter fun verdict => verdict.takenIn?.isSome).map Verdict.place := ⟨_, rfl⟩
  rw [Session.places, hunsettled, Verdict.coe_places, ← hwaiting, add_assoc, add_assoc,
    add_assoc] at custody
  have moves := Deed.moves_performAll (verdicts.filterMap Verdict.deed?)
    (↑waiting + (unsettled + (s.session.transactions.places + others))) s.store
  have hlater : (s.concludeAll verdicts).store.InCustody
      (↑waiting + (unsettled + (s.session.transactions.places + others))) :=
    moves.inCustody custody
  constructor
  · exact s.outgoingUnsettled_concludeAll verdicts
  · exact fun queue => Deed.get?_performAll custody queue
  · exact fun id => Ledger.find?_note verdicts s.session.transactions id
  · intro verdict hverdict htaken
    obtain ⟨deed, hdeed, hplace⟩ := Verdict.deed?_eq_some htaken
    -- The place is listed once before, among those of the deeds, so it is not among the others.
    have hmem : verdict.place ∈ (verdicts.filterMap Verdict.deed?).filterMap Deed.place? :=
      List.mem_filterMap.mpr ⟨deed, List.mem_filterMap.mpr ⟨verdict, hverdict, hdeed⟩, hplace⟩
    rw [Bool.eq_false_iff, Ne, ← hlater.mem_iff]
    exact Multiset.disjoint_left.mp (Multiset.nodup_add.mp custody.nodup).2.2 hmem
  · intro verdict hverdict id htaken
    have hmem : verdict.place ∈ (↑waiting : Multiset Place)
        + (unsettled + (s.session.transactions.places + others)) := by
      apply Multiset.mem_add.mpr
      refine .inl (Multiset.mem_coe.mpr ?_)
      rw [hwaiting]
      exact List.mem_map_of_mem (List.mem_filter.mpr ⟨hverdict, by simp [htaken]⟩)
    refine ⟨hlater.isHeld_of_mem hmem, ?_⟩
    have hmoves := Deed.moves_performAll (verdicts.filterMap Verdict.deed?) 0 s.store
    rw [add_zero] at hmoves
    exact hmoves.slot?_of_others custody hmem

end MessageBroker
