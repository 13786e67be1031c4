import Mathlib.Data.List.Nodup
import MessageBroker.Table

/-!
# Laws of tables

Putting, erasing and updating a row change what is found under its key and nothing else.  In a
sorted table no key has two rows, so that a row that is put under a new key, or erased, is one row
more or one row less.
-/

namespace MessageBroker.Table

variable {κ α : Type} [DecidableEq κ]

/-! ### Finding rows -/

@[simp]
theorem get?_nil (key : κ) :
  get? ([] : Table κ α) key = none
  := rfl

theorem get?_cons (row : κ × α) (table : Table κ α) (key : κ) :
  get? (row :: table) key = if row.1 = key then some row.2 else table.get? key
  := by
  by_cases h : row.1 = key
  · simp [get?, h]
  · simp [get?, h]

theorem get?_put [LT κ] [DecidableLT κ] (key : κ) (row : α) (table : Table κ α) (other : κ) :
  (table.put key row).get? other = if other = key then some row else table.get? other
  := by
  induction table with
  | nil =>
      rw [put, get?_cons]
      simp [eq_comm]
  | cons first others ih =>
      obtain ⟨k, r⟩ := first
      by_cases hlt : key < k
      · rw [put, if_pos hlt, get?_cons]
        simp [eq_comm]
      · rw [put, if_neg hlt]
        by_cases heq : key = k
        · rw [if_pos heq, get?_cons, get?_cons]
          subst heq
          by_cases ho : key = other
          · simp [ho]
          · simp [ho, Ne.symm ho]
        · rw [if_neg heq, get?_cons, get?_cons, ih]
          by_cases ho : k = other
          · subst ho
            simp [Ne.symm heq]
          · simp [ho]

theorem get?_erase (table : Table κ α) (key other : κ) :
  (table.erase key).get? other = if other = key then none else table.get? other
  := by
  induction table with
  | nil => simp [erase]
  | cons first others ih =>
      by_cases h : first.1 = key
      · have herase : erase (first :: others) key = erase others key := by simp [erase, h]
        rw [herase, ih, get?_cons, h]
        by_cases ho : other = key
        · simp [ho]
        · simp [ho, Ne.symm ho]
      · have herase : erase (first :: others) key = first :: erase others key := by
          simp [erase, h]
        rw [herase, get?_cons, get?_cons, ih]
        by_cases ho : first.1 = other
        · have hne : other ≠ key := by rwa [← ho]
          simp [ho, hne]
        · simp [ho]

theorem get?_update (table : Table κ α) (key : κ) (change : α → α) (other : κ) :
  (table.update key change).get? other
    = if other = key then (table.get? other).map change else table.get? other
  := by
  induction table with
  | nil => simp [update]
  | cons first others ih =>
      have hcons : update (first :: others) key change
          = (if first.1 = key then (first.1, change first.2) else first)
            :: update others key change := rfl
      rw [hcons, get?_cons, get?_cons, ih]
      by_cases h : first.1 = key
      · by_cases ho : key = other
        · simp [h, ho]
        · simp [h, ho]
      · by_cases ho : first.1 = other
        · have hne : other ≠ key := by rwa [← ho]
          simp [ho, hne]
        · simp [h, ho]

/-- Every row is changed on its own. -/
theorem get?_map {β : Type} (change : α → β) (table : Table κ α) (key : κ) :
  get? (table.map fun row => (row.1, change row.2)) key = (table.get? key).map change
  := by
  induction table with
  | nil => rfl
  | cons row others ih =>
      rw [List.map_cons, get?_cons, get?_cons]
      split
      · rfl
      · exact ih

@[simp]
theorem get?_put_self [LT κ] [DecidableLT κ] (key : κ) (row : α) (table : Table κ α) :
  (table.put key row).get? key = some row
  := by
  rw [get?_put, if_pos rfl]

/-- A table that has a row under a key lists it. -/
theorem mem_of_get? {table : Table κ α} {key : κ} {row : α} (h : table.get? key = some row) :
  (key, row) ∈ table
  := by
  induction table with
  | nil => simp at h
  | cons first others ih =>
      rw [get?_cons] at h
      split at h
      · next hkey =>
          obtain ⟨k, r⟩ := first
          simp only [Option.some.injEq] at h
          simp_all
      · exact List.mem_cons_of_mem _ (ih h)

/-- A row is found under its key if no other row has that key. -/
theorem mem_keys_of_get? {table : Table κ α} {key : κ} {row : α} (h : table.get? key = some row) :
  key ∈ table.keys
  := List.mem_map_of_mem (mem_of_get? h)

theorem get?_of_mem {table : Table κ α} (nodup : table.keys.Nodup) {key : κ} {row : α}
    (h : (key, row) ∈ table) :
  table.get? key = some row
  := by
  induction table with
  | nil => contradiction
  | cons first others ih =>
      obtain ⟨hfirst, hothers⟩ := List.nodup_cons.mp nodup
      rw [get?_cons]
      rcases List.mem_cons.mp h with rfl | hmem
      · rw [if_pos rfl]
      · rw [if_neg, ih hothers hmem]
        intro heq
        exact hfirst (List.mem_map.mpr ⟨(key, row), hmem, heq.symm⟩)

/-- What is found after rows were left out. -/
theorem get?_filter {table : Table κ α} (nodup : table.keys.Nodup) (keeps : κ × α → Bool)
    {key : κ} {row : α} :
  get? (table.filter keeps) key = some row ↔ table.get? key = some row ∧ keeps (key, row) = true
  := by
  have nodup' : (keys (table.filter keeps)).Nodup :=
    nodup.sublist (List.Sublist.map _ List.filter_sublist)
  constructor
  · intro h
    obtain ⟨hmem, hkeeps⟩ := List.mem_filter.mp (mem_of_get? h)
    exact ⟨get?_of_mem nodup hmem, hkeeps⟩
  · rintro ⟨h, hkeeps⟩
    exact get?_of_mem nodup' (List.mem_filter.mpr ⟨mem_of_get? h, hkeeps⟩)

/-- A key without a row is not among the keys. -/
theorem get?_eq_none_iff {table : Table κ α} {key : κ} :
  table.get? key = none ↔ key ∉ table.keys
  := by
  induction table with
  | nil => simp [keys]
  | cons first others ih =>
      rw [get?_cons]
      by_cases h : first.1 = key
      · simp [keys, h]
      · rw [if_neg h, ih]
        simp [keys, Ne.symm h]

/-- A row that is put under a new key is one row more. -/
theorem put_perm [LT κ] [DecidableLT κ] {key : κ} {table : Table κ α}
    (h : table.get? key = none) (row : α) :
  (table.put key row).Perm ((key, row) :: table)
  := by
  induction table with
  | nil => rfl
  | cons first others ih =>
      obtain ⟨k, r⟩ := first
      rw [get?_cons] at h
      split at h
      · contradiction
      · next hne =>
          rw [put]
          split
          · rfl
          · rw [if_neg (Ne.symm hne)]
            apply List.Perm.trans ((ih h).cons (k, r))
            apply List.Perm.swap

/-- A row that is put and taken away leaves none under its key. -/
theorem erase_put [LT κ] [DecidableLT κ] (key : κ) (row : α) (table : Table κ α) :
  (table.put key row).erase key = table.erase key
  := by
  induction table with
  | nil => simp [put, erase]
  | cons first others ih =>
      obtain ⟨k, r⟩ := first
      rw [put]
      split
      · simp [erase]
      · split
        · next heq => simp [erase, heq]
        · next hne =>
            rw [erase] at ih ⊢
            rw [List.filter_cons, ih, erase, erase, List.filter_cons]

/-- A row that is erased is one row less, if no other row has its key. -/
theorem perm_erase {table : Table κ α} (nodup : table.keys.Nodup) {key : κ} {row : α}
    (h : table.get? key = some row) :
  table.Perm ((key, row) :: table.erase key)
  := by
  induction table with
  | nil => simp at h
  | cons first others ih =>
      obtain ⟨k, r⟩ := first
      obtain ⟨hk, hothers⟩ := List.nodup_cons.mp nodup
      rw [get?_cons] at h
      split at h
      · next heq =>
          obtain rfl : k = key := heq
          obtain rfl : r = row := Option.some.inj h
          have herase : erase ((k, r) :: others) k = others := by
            have hall : ∀ x ∈ others, x.1 ≠ k := by
              intro x hx hxk
              exact hk (List.mem_map.mpr ⟨x, hx, hxk⟩)
            simpa [erase] using hall
          rw [herase]
      · next hne =>
          have hne : k ≠ key := hne
          have herase : erase ((k, r) :: others) key = (k, r) :: erase others key := by
            simp [erase, hne]
          rw [herase]
          apply List.Perm.trans ((ih hothers h).cons (k, r))
          apply List.Perm.swap

theorem mem_keys_put [LT κ] [DecidableLT κ] {key other : κ} {row : α} {table : Table κ α} :
  other ∈ (table.put key row).keys ↔ other = key ∨ other ∈ table.keys
  := by
  induction table with
  | nil => simp [put, keys]
  | cons first others ih =>
      obtain ⟨k, r⟩ := first
      rw [put]
      split
      · simp [keys]
      · split
        · next heq => simp [keys, heq]
        · simp only [keys, List.map_cons, List.mem_cons] at ih ⊢
          rw [ih]
          tauto

/-! ### Sorted tables -/

/-- The keys ascend. -/
def Sorted [LT κ] (table : Table κ α) : Prop :=
  table.keys.Pairwise (· < ·)

omit [DecidableEq κ] in
theorem Sorted.nil [LT κ] :
  Sorted ([] : Table κ α)
  := List.Pairwise.nil

theorem Sorted.erase [LT κ] {table : Table κ α} (sorted : table.Sorted) (key : κ) :
  (table.erase key).Sorted
  := List.Pairwise.sublist (List.Sublist.map _ List.filter_sublist) sorted

theorem Sorted.put [LE κ] [LT κ] [DecidableLT κ] [Std.IsLinearOrder κ] [Std.LawfulOrderLT κ]
    {table : Table κ α} (sorted : table.Sorted) (key : κ) (row : α) :
  (table.put key row).Sorted
  := by
  induction table with
  | nil => simp [Table.put, Sorted, keys]
  | cons first others ih =>
      obtain ⟨k, r⟩ := first
      obtain ⟨hk, hothers⟩ := List.pairwise_cons.mp sorted
      rw [Table.put]
      split
      · next hlt =>
          apply List.pairwise_cons.mpr
          constructor
          · intro other hother
            obtain rfl | hother := List.mem_cons.mp hother
            · exact hlt
            · exact Std.lt_trans hlt (hk other hother)
          · exact sorted
      · next hnlt =>
          split
          · next heq =>
              subst heq
              exact sorted
          · next hne =>
              have hgt : k < key := Std.lt_of_le_of_ne (Std.not_lt.mp hnlt) (Ne.symm hne)
              apply List.pairwise_cons.mpr
              constructor
              · intro other hother
                obtain rfl | hother := mem_keys_put.mp hother
                · exact hgt
                · exact hk other hother
              · exact ih hothers

omit [DecidableEq κ] in
theorem Sorted.nodup [LE κ] [LT κ] [Std.LawfulOrderLT κ] {table : Table κ α}
    (sorted : table.Sorted) :
  table.keys.Nodup
  := by
  apply List.Pairwise.imp _ sorted
  intro a b hlt heq
  subst heq
  exact Std.lt_irrefl hlt

/-- A row that is put in the place of another changes nothing in which the two agree. -/
theorem Sorted.map_rows_put [LE κ] [LT κ] [DecidableLT κ] [Std.LawfulOrderLT κ]
    {table : Table κ α} (sorted : table.Sorted) {key : κ} {row row' : α} {β : Type} {view : α → β}
    (h : table.get? key = some row) (same : view row' = view row) :
  (table.put key row').rows.map view = table.rows.map view
  := by
  induction table with
  | nil => contradiction
  | cons first others ih =>
      obtain ⟨k, r⟩ := first
      obtain ⟨hk, hothers⟩ := List.pairwise_cons.mp sorted
      rw [get?_cons] at h
      rw [Table.put]
      split at h
      · next heq =>
          obtain rfl : k = key := heq
          obtain rfl : r = row := Option.some.inj h
          rw [if_neg Std.lt_irrefl, if_pos rfl]
          simp [rows, same]
      · next hne =>
          have hlt : k < key := hk key (mem_keys_of_get? h)
          rw [if_neg (Std.not_gt_of_lt hlt), if_neg (Ne.symm hne)]
          simpa [rows] using ih hothers h

omit [DecidableEq κ] in
theorem mem_rows_of_mem {table : Table κ α} {key : κ} {row : α} (h : (key, row) ∈ table) :
  row ∈ table.rows
  := List.mem_map_of_mem h

theorem mem_rows_put [LT κ] [DecidableLT κ] {key : κ} {row other : α} {table : Table κ α}
    (h : other ∈ (table.put key row).rows) :
  other = row ∨ other ∈ table.rows
  := by
  induction table with
  | nil => simpa [put, rows] using h
  | cons first others ih =>
      obtain ⟨k, r⟩ := first
      rw [put] at h
      split at h
      · simpa [rows] using h
      · split at h
        · rcases List.mem_cons.mp h with rfl | hmem
          · exact .inl rfl
          · exact .inr (List.mem_cons_of_mem _ hmem)
        · rcases List.mem_cons.mp h with rfl | hmem
          · exact .inr List.mem_cons_self
          · exact (ih hmem).imp_right (List.mem_cons_of_mem _)

end MessageBroker.Table
