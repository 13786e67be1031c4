import Mathlib.Algebra.BigOperators.Group.Multiset.Basic
import Mathlib.Algebra.Order.Group.Multiset
import MessageBroker.Proofs.Queue.Custody
import MessageBroker.Transaction.Ledger

/-!
# Ledgers and held messages

The names of the open transactions of a ledger are the numbers up to that of the transaction
declared last, so no two are the same before the numbers wrap.  A transaction holds the messages
that it is to take out of their queues.  Recording work adds to what it holds, and at its end it
does with them, one after another, what a holder may do.
-/

namespace MessageBroker

/-! ### What transactions hold -/

/-- The place of the message that is to be taken out of its queue. -/
def Work.place? : Work → Option Place
  | .enqueue _ _ => none
  | .dequeue queue entry => some (queue, entry)

/-- The places of the messages that a transaction is to take out of their queues. -/
def Transaction.places (transaction : Transaction) : Multiset Place :=
  transaction.work.filterMap Work.place?

namespace Ledger

/-- The places of the messages that the open transactions are to take out of their queues. -/
def places (ledger : Ledger) : Multiset Place :=
  (ledger.opened.map Transaction.places).sum

/-- No two open transactions have the same name. -/
def Distinct (ledger : Ledger) : Prop :=
  (ledger.opened.map (·.id)).Nodup

/-- A ledger has declared so many transactions, and those that are open have names that were
given out. -/
structure Numbered (ledger : Ledger) (declared : Nat) : Prop where
  /-- The number of the transaction declared last. -/
  lastId : ledger.lastId = .ofNat declared
  /-- Every name was given out. -/
  named : ∀ transaction ∈ ledger.opened, ∃ number < declared,
    transaction.id = bigEndian 4 (number + 1)

/-- Of the names of the transactions that were declared first, those that are not open are not
opened again. -/
def Retires (declared : Nat) (ledger ledger' : Ledger) : Prop :=
  ∀ number < declared, ledger.find? (bigEndian 4 (number + 1)) = none →
    ledger'.find? (bigEndian 4 (number + 1)) = none

theorem Retires.refl (declared : Nat) (ledger : Ledger) :
  Retires declared ledger ledger
  := fun _ _ h => h

theorem Retires.trans {first second : Nat} (hle : first ≤ second)
    {ledger ledger' ledger'' : Ledger} (h : Retires first ledger ledger')
    (h' : Retires second ledger' ledger'') :
  Retires first ledger ledger''
  := fun number hlt hnone => h' number (by omega) (h number hlt hnone)

theorem Distinct.empty :
  Ledger.empty.Distinct
  := List.nodup_nil

theorem Numbered.empty :
  Ledger.empty.Numbered 0
  := ⟨rfl, by simp [Ledger.empty]⟩

/-! ### Finding transactions -/

theorem mem_of_find? {ledger : Ledger} {id : Bytes} {transaction : Transaction}
    (h : ledger.find? id = some transaction) :
  transaction ∈ ledger.opened
  := List.mem_of_find?_eq_some h

theorem id_of_find? {ledger : Ledger} {id : Bytes} {transaction : Transaction}
    (h : ledger.find? id = some transaction) :
  transaction.id = id
  := by
  have hid := List.find?_some h
  simpa using hid

theorem find?_eq_none_iff {ledger : Ledger} {id : Bytes} :
  ledger.find? id = none ↔ ∀ transaction ∈ ledger.opened, transaction.id ≠ id
  := by
  simp [find?]

/-- An open transaction is found by its name. -/
theorem Distinct.find?_of_mem {ledger : Ledger} (distinct : ledger.Distinct)
    {transaction : Transaction} (h : transaction ∈ ledger.opened) :
  ledger.find? transaction.id = some transaction
  := by
  obtain ⟨found, hfound⟩ : ∃ found, ledger.find? transaction.id = some found := by
    apply Option.ne_none_iff_exists'.mp
    intro hnone
    exact find?_eq_none_iff.mp hnone transaction h rfl
  have hid := id_of_find? hfound
  rw [hfound, List.inj_on_of_nodup_map distinct (mem_of_find? hfound) h hid]

theorem find?_remove (ledger : Ledger) (id other : Bytes) :
  (ledger.remove id).find? other = if other = id then none else ledger.find? other
  := by
  rw [find?, remove, List.find?_filter]
  by_cases h : other = id
  · subst h
    simp
  · rw [if_neg h, find?]
    congr 1
    funext transaction
    by_cases hid : transaction.id = other
    · simp [hid, h]
    · simp [hid]

theorem Distinct.remove {ledger : Ledger} (distinct : ledger.Distinct) (id : Bytes) :
  (ledger.remove id).Distinct
  := distinct.sublist (List.filter_sublist.map _)

theorem Numbered.remove {ledger : Ledger} {declared : Nat} (numbered : ledger.Numbered declared)
    (id : Bytes) :
  (ledger.remove id).Numbered declared
  := by
  constructor
  · exact numbered.lastId
  · intro transaction hmem
    exact numbered.named transaction (List.mem_of_mem_filter hmem)

theorem retires_remove (declared : Nat) (ledger : Ledger) (id : Bytes) :
  Retires declared ledger (ledger.remove id)
  := by
  intro number _ hnone
  rw [find?_remove, hnone]
  exact ite_self none

/-! ### Changing the work of a transaction -/

/-- A ledger with the work of a transaction changed. -/
def onWork (id : Bytes) (change : List Work → List Work) (ledger : Ledger) : Ledger :=
  { ledger with
    opened := ledger.opened.map fun transaction =>
      if transaction.id = id then { transaction with work := change transaction.work }
      else transaction }

theorem ids_onWork (id : Bytes) (change : List Work → List Work) (ledger : Ledger) :
  (ledger.onWork id change).opened.map (·.id) = ledger.opened.map (·.id)
  := by
  rw [onWork, List.map_map]
  apply List.map_congr_left
  intro transaction _
  rw [Function.comp_apply]
  split <;> rfl

theorem Distinct.onWork {ledger : Ledger} (distinct : ledger.Distinct) (id : Bytes)
    (change : List Work → List Work) :
  (ledger.onWork id change).Distinct
  := by
  rw [Distinct, ids_onWork]
  exact distinct

theorem Numbered.onWork {ledger : Ledger} {declared : Nat} (numbered : ledger.Numbered declared)
    (id : Bytes) (change : List Work → List Work) :
  (ledger.onWork id change).Numbered declared
  := by
  have hids := ids_onWork id change ledger
  constructor
  · exact numbered.lastId
  · intro transaction hmem
    have hid : transaction.id ∈ ledger.opened.map (·.id) := by
      rw [← hids]
      exact List.mem_map_of_mem hmem
    obtain ⟨old, hold, heq⟩ := List.mem_map.mp hid
    rw [← heq]
    exact numbered.named old hold

theorem find?_onWork (id : Bytes) (change : List Work → List Work) (ledger : Ledger)
    (other : Bytes) :
  (ledger.onWork id change).find? other
    = (ledger.find? other).map fun transaction =>
        if other = id then { transaction with work := change transaction.work }
        else transaction
  := by
  rw [find?, onWork, List.find?_map, find?]
  have hids : ((fun transaction : Transaction => decide (transaction.id = other)) ∘
      fun transaction => if transaction.id = id then
        { transaction with work := change transaction.work } else transaction)
      = fun transaction => decide (transaction.id = other) := by
    funext transaction
    rw [Function.comp_apply]
    split <;> rfl
  rw [hids]
  cases hfound : ledger.opened.find? fun transaction => transaction.id = other with
  | none => rfl
  | some transaction =>
      have hid := id_of_find? hfound
      rw [Option.map_some, Option.map_some, hid]

theorem contains_onWork (id : Bytes) (change : List Work → List Work) (ledger : Ledger)
    (other : Bytes) :
  (ledger.onWork id change).contains other = ledger.contains other
  := by
  rw [contains, contains, find?_onWork, Option.isSome_map]

theorem onWork_onWork (id : Bytes) (first second : List Work → List Work) (ledger : Ledger) :
  (ledger.onWork id first).onWork id second = ledger.onWork id fun work => second (first work)
  := by
  simp only [onWork, List.map_map]
  congr 2
  funext transaction
  by_cases h : transaction.id = id
  · simp [h]
  · simp [h]

theorem onWork_id (id : Bytes) (ledger : Ledger) :
  ledger.onWork id (fun work => work) = ledger
  := by
  have hmap : ledger.opened.map (fun transaction =>
      if transaction.id = id then { transaction with work := transaction.work }
      else transaction) = ledger.opened := by
    apply Eq.trans (List.map_congr_left _) (List.map_id _)
    intro transaction _
    exact ite_self transaction
  rw [onWork, hmap]

/-- Forgetting a transaction and changing the work of one can be done in either order. -/
theorem remove_onWork (id : Bytes) (change : List Work → List Work) (ledger : Ledger)
    (other : Bytes) :
  (ledger.onWork id change).remove other = (ledger.remove other).onWork id change
  := by
  rw [remove, onWork, remove, onWork, List.filter_map]
  congr 3
  funext transaction
  rw [Function.comp_apply]
  split <;> rfl

/-- A transaction that is not open has no work to change. -/
theorem onWork_of_none {id : Bytes} {ledger : Ledger} (h : ledger.find? id = none)
    (change : List Work → List Work) :
  ledger.onWork id change = ledger
  := by
  have hmap : ledger.opened.map (fun transaction =>
      if transaction.id = id then { transaction with work := change transaction.work }
      else transaction) = ledger.opened := by
    apply Eq.trans (List.map_congr_left _) (List.map_id _)
    intro transaction hmem
    rw [if_neg (find?_eq_none_iff.mp h transaction hmem)]
    rfl
  rw [onWork, hmap]

/-! ### Declaring transactions -/

/-- The number of a transaction fits in its name. -/
theorem bigEndian_injective {a b : Nat} (ha : a < 4294967296) (hb : b < 4294967296)
    (h : bigEndian 4 a = bigEndian 4 b) :
  a = b
  := by
  have hread := congrArg ofBigEndian h
  rw [ofBigEndian_bigEndian, ofBigEndian_bigEndian] at hread
  simpa [Nat.mod_eq_of_lt ha, Nat.mod_eq_of_lt hb] using hread

section Declare

variable {ledger : Ledger} {declared : Nat}

/-- A transaction is declared in place of one of the same name. -/
theorem opened_declare_snd (ledger : Ledger) :
  ledger.declare.2.opened = (ledger.remove ledger.declare.1).opened ++ [⟨ledger.declare.1, []⟩]
  := rfl

/-- The name of the next transaction is that of its number. -/
theorem Numbered.declare_fst (numbered : ledger.Numbered declared)
    (h : declared + 1 < 4294967296) :
  ledger.declare.1 = bigEndian 4 (declared + 1)
  := by
  have hnumber : (ledger.lastId + 1).toNat = declared + 1 := by
    rw [numbered.lastId, UInt32.toNat_add, UInt32.toNat_ofNat']
    simp only [UInt32.reduceToNat]
    omega
  rw [declare, hnumber]

/-- The name of the next transaction is not that of an open one. -/
theorem Numbered.find?_declare_fst (numbered : ledger.Numbered declared)
    (h : declared + 1 < 4294967296) :
  ledger.find? ledger.declare.1 = none
  := by
  rw [numbered.declare_fst h]
  apply find?_eq_none_iff.mpr
  intro transaction hmem hid
  obtain ⟨number, hlt, hname⟩ := numbered.named transaction hmem
  have heq := bigEndian_injective (by omega) h (hname.symm.trans hid)
  omega

/-- A transaction is declared without any other being forgotten. -/
theorem Numbered.opened_declare (numbered : ledger.Numbered declared)
    (h : declared + 1 < 4294967296) :
  ledger.declare.2.opened = ledger.opened ++ [⟨ledger.declare.1, []⟩]
  := by
  have hnone := find?_eq_none_iff.mp (numbered.find?_declare_fst h)
  have hfilter : (ledger.remove ledger.declare.1).opened = ledger.opened := by
    apply List.filter_eq_self.mpr
    intro transaction hmem
    exact decide_eq_true (hnone transaction hmem)
  rw [← hfilter]
  rfl

theorem Numbered.declare (numbered : ledger.Numbered declared) (h : declared + 1 < 4294967296) :
  ledger.declare.2.Numbered (declared + 1)
  := by
  have hname := numbered.declare_fst h
  constructor
  · change ledger.lastId + 1 = _
    rw [numbered.lastId, UInt32.ofNat_add]
    rfl
  · rw [numbered.opened_declare h, hname]
    intro transaction hmem
    rcases List.mem_append.mp hmem with hold | hnew
    · obtain ⟨number, hlt, hid⟩ := numbered.named transaction hold
      exact ⟨number, by omega, hid⟩
    · rw [List.mem_singleton.mp hnew]
      exact ⟨declared, Nat.lt_succ_self declared, rfl⟩

theorem Numbered.retires_declare (numbered : ledger.Numbered declared)
    (h : declared + 1 < 4294967296) :
  Retires declared ledger ledger.declare.2
  := by
  intro number hlt hnone
  apply find?_eq_none_iff.mpr
  rw [numbered.opened_declare h, numbered.declare_fst h]
  intro transaction hmem hid
  rcases List.mem_append.mp hmem with hold | hnew
  · exact find?_eq_none_iff.mp hnone transaction hold hid
  · rw [List.mem_singleton.mp hnew] at hid
    have heq := bigEndian_injective h (by omega) hid
    omega

/-- A transaction with the name of an earlier one takes its place. -/
theorem Distinct.declare (distinct : ledger.Distinct) :
  ledger.declare.2.Distinct
  := by
  rw [Distinct, opened_declare_snd, List.map_append]
  apply List.nodup_append.mpr
  refine ⟨distinct.remove _, List.nodup_singleton _, ?_⟩
  intro a hold b hnew
  obtain ⟨transaction, hmem, rfl⟩ := List.mem_map.mp hold
  rw [List.mem_singleton.mp hnew]
  have hne := (List.mem_filter.mp hmem).2
  simpa using hne

end Declare

/-! ### Recording work -/

section Record

variable {ledger ledger' : Ledger} {id : Bytes} {work : Work}

/-- Work is recorded in a transaction that is open. -/
theorem record_eq_ok (h : ledger.record id work = .ok ledger') :
  (∃ transaction, ledger.find? id = some transaction) ∧ ledger' = ledger.onWork id (· ++ [work])
  := by
  rw [record] at h
  split at h
  · next hcontains =>
      exact ⟨Option.isSome_iff_exists.mp hcontains, (Except.ok.inj h).symm⟩
  · contradiction

theorem lastId_record (h : ledger.record id work = .ok ledger') :
  ledger'.lastId = ledger.lastId
  := by
  obtain ⟨-, rfl⟩ := record_eq_ok h
  rfl

theorem Distinct.record (distinct : ledger.Distinct) (h : ledger.record id work = .ok ledger') :
  ledger'.Distinct
  := by
  rw [(record_eq_ok h).2]
  exact distinct.onWork id _

theorem Numbered.record {declared : Nat} (numbered : ledger.Numbered declared)
    (h : ledger.record id work = .ok ledger') :
  ledger'.Numbered declared
  := by
  rw [(record_eq_ok h).2]
  exact numbered.onWork id _

/-- An open transaction stands apart from the others. -/
theorem Distinct.opened_perm (distinct : ledger.Distinct) {transaction : Transaction}
    (h : ledger.find? id = some transaction) :
  ledger.opened.Perm (transaction :: (ledger.remove id).opened)
  := by
  have hmem := mem_of_find? h
  have hid := id_of_find? h
  have hnodup := List.Nodup.of_map _ distinct
  have herase : ledger.opened.erase transaction = (ledger.remove id).opened := by
    rw [hnodup.erase_eq_filter, Ledger.remove]
    apply List.filter_congr
    intro other hother
    have hiff : other = transaction ↔ other.id = id := by
      constructor
      · rintro rfl
        exact hid
      · intro hsame
        exact List.inj_on_of_nodup_map distinct hother hmem (hsame.trans hid.symm)
    by_cases heq : other = transaction
    · simp [heq, hid]
    · simp [heq, mt hiff.mpr heq]
  rw [← herase]
  exact List.perm_cons_erase hmem

/-- A transaction holds its messages beside the others. -/
theorem Distinct.places_eq (distinct : ledger.Distinct) {transaction : Transaction}
    (h : ledger.find? id = some transaction) :
  ledger.places = transaction.places + (ledger.remove id).places
  := by
  rw [places, ((distinct.opened_perm h).map Transaction.places).sum_eq, List.map_cons,
    List.sum_cons]
  rfl

/-- Recorded work is found at the end of the work of its transaction. -/
theorem find?_record (h : ledger.record id work = .ok ledger') (other : Bytes) :
  ledger'.find? other
    = (ledger.find? other).map fun transaction =>
        if other = id then { transaction with work := transaction.work ++ [work] }
        else transaction
  := by
  rw [(record_eq_ok h).2, find?_onWork]

theorem retires_record (declared : Nat) (h : ledger.record id work = .ok ledger') :
  Retires declared ledger ledger'
  := by
  intro number _ hnone
  rw [find?_record h, hnone]
  rfl

/-- Recording work leaves the other transactions alone. -/
theorem remove_record (h : ledger.record id work = .ok ledger') :
  ledger'.remove id = ledger.remove id
  := by
  rw [(record_eq_ok h).2, remove_onWork]
  apply onWork_of_none
  rw [find?_remove, if_pos rfl]

/-- A message to be taken out is held from when that is recorded. -/
theorem Distinct.places_record (distinct : ledger.Distinct)
    (h : ledger.record id work = .ok ledger') :
  ledger'.places = work.place?.toList + ledger.places
  := by
  obtain ⟨⟨transaction, hfound⟩, -⟩ := record_eq_ok h
  have hfound' := find?_record h id
  rw [hfound, Option.map_some, if_pos rfl] at hfound'
  rw [(distinct.record h).places_eq hfound', distinct.places_eq hfound, remove_record h]
  rw [Transaction.places, Transaction.places, List.filterMap_append, ← Multiset.coe_add,
    ← add_assoc]
  congr 1
  rw [add_comm]
  cases work <;> rfl

/-- A transaction holds nothing when it is declared.  What one of the same name held is held by no
transaction then. -/
theorem Distinct.places_declare (distinct : ledger.Distinct) :
  ∃ lost, ledger.places = ledger.declare.2.places + lost
    ∧ (ledger.find? ledger.declare.1 = none → lost = 0)
  := by
  have hdeclare : ledger.declare.2.places = (ledger.remove ledger.declare.1).places := by
    rw [places, opened_declare_snd, List.map_append, List.sum_append]
    exact add_zero _
  rw [hdeclare]
  cases hfind : ledger.find? ledger.declare.1 with
  | none =>
      refine ⟨0, ?_, fun _ => rfl⟩
      have hopened : (ledger.remove ledger.declare.1).opened = ledger.opened := by
        apply List.filter_eq_self.mpr
        intro transaction hmem
        exact decide_eq_true (find?_eq_none_iff.mp hfind transaction hmem)
      rw [places, places, hopened, add_zero]
  | some transaction =>
      refine ⟨transaction.places, ?_, fun hnone => by contradiction⟩
      rw [distinct.places_eq hfind, add_comm]

end Record

/-! ### Ends of transactions -/

/-- At the end of a transaction its messages are acknowledged or given back, one after another. -/
theorem moves_settle (fail : Bool) (work : List Work) (others : Multiset Place)
    (store : QueueStore) :
  Custody.Moves ⟨↑(work.filterMap Work.place?) + others, store⟩
    ⟨others, settle fail work store⟩
  := by
  induction work generalizing store with
  | nil =>
      rw [settle, List.foldl_nil, List.filterMap_nil, Multiset.coe_nil, zero_add]
  | cons first work ih =>
      cases first with
      | enqueue queue payload =>
          cases fail with
          | false => exact .head (.enqueue _ _ queue payload) (ih _)
          | true => exact ih store
      | dequeue queue entry =>
          have hplaces : (Work.dequeue queue entry :: work).filterMap Work.place?
              = (queue, entry) :: work.filterMap Work.place? := rfl
          rw [hplaces, ← Multiset.cons_coe, Multiset.cons_add]
          cases fail with
          | false => exact .head (.acknowledge _ _ (queue, entry)) (ih _)
          | true => exact .head (.release _ _ (queue, entry) true) (ih _)

theorem Numbered.rollbackAll {ledger : Ledger} {declared : Nat}
    (numbered : ledger.Numbered declared) (store : QueueStore) :
  (ledger.rollbackAll store).1.Numbered declared
  := ⟨numbered.lastId, by simp [Ledger.rollbackAll]⟩

/-- When every transaction fails, all that they hold is given back. -/
theorem moves_rollbackAll (ledger : Ledger) (others : Multiset Place) (store : QueueStore) :
  Custody.Moves ⟨ledger.places + others, store⟩ ⟨others, (ledger.rollbackAll store).2⟩
  := by
  rw [places, Ledger.rollbackAll]
  generalize ledger.opened = opened
  induction opened generalizing store with
  | nil =>
      rw [List.map_nil, List.sum_nil, zero_add, List.foldl_nil]
  | cons transaction opened ih =>
      rw [List.map_cons, List.sum_cons, add_assoc, List.foldl_cons]
      exact (moves_settle true transaction.work _ store).trans (ih _)

end Ledger

end MessageBroker
