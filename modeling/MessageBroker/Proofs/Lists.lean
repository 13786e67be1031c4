import Mathlib.Algebra.BigOperators.Group.List.Basic
import Mathlib.Algebra.Order.Group.Multiset
import Mathlib.Data.List.Chain
import Mathlib.Data.List.Induction

/-!
# Lists

A history is a list of what happened, one thing after another.  What several hold is a sum over a
list, and what one of them holds is compared to what the others do.
-/

namespace MessageBroker

/-! ### Histories -/

section

variable {α : Type} {happens : List α → α → Prop} {kept : α → Prop} {history : List α}

/-- Something happened in the course of a history, after what came before it, and all that happened
since is of a kind. -/
def Since (happens : List α → α → Prop) (kept : α → Prop) (history : List α) : Prop :=
  ∃ before event later, history = before ++ event :: later ∧ happens before event
    ∧ ∀ other ∈ later, kept other

/-- What is so since something happened is still so if all that happens is of the kind. -/
theorem Since.append (since : Since happens kept history) {more : List α}
    (all : ∀ other ∈ more, kept other) :
  Since happens kept (history ++ more)
  := by
  obtain ⟨before, event, later, rfl, happened, earlier⟩ := since
  refine ⟨before, event, later ++ more, by simp, happened, fun other hmem => ?_⟩
  rcases List.mem_append.mp hmem with hmem | hmem
  · exact earlier other hmem
  · exact all other hmem

/-- What is so since something happened, after one more event. -/
theorem since_concat {last : α} :
  Since happens kept (history ++ [last])
    ↔ Since happens kept history ∧ kept last ∨ happens history last
  := by
  constructor
  · rintro ⟨before, event, later, split, happened, all⟩
    rcases List.eq_nil_or_concat later with rfl | ⟨others, final, rfl⟩
    · obtain ⟨rfl, same⟩ := List.append_inj' split rfl
      obtain rfl := List.singleton_inj.mp same
      exact .inr happened
    · rw [List.concat_eq_append, ← List.cons_append, ← List.append_assoc] at split
      obtain ⟨rfl, same⟩ := List.append_inj' split rfl
      obtain rfl := List.singleton_inj.mp same
      rw [List.concat_eq_append] at all
      exact .inl ⟨⟨before, event, others, rfl, happened,
        fun other hmem => all other (List.mem_append_left _ hmem)⟩, all last (by simp)⟩
  · rintro (⟨since, keeps⟩ | happened)
    · exact since.append (by simpa using keeps)
    · exact ⟨history, last, [], rfl, happened, by simp⟩

end

/-! ### One among others -/

section

variable {α M : Type} [AddCommMonoid M] (measure : α → M) {list : List α} {index : Nat}

/-- What all hold is what one holds beside the others. -/
theorem sum_eq_of_getElem? {a : α} (h : list[index]? = some a) :
  (list.map measure).sum = measure a + ((list.eraseIdx index).map measure).sum
  := by
  obtain ⟨hlt, rfl⟩ := List.getElem?_eq_some_iff.mp h
  rw [← ((List.getElem_cons_eraseIdx_perm hlt).map measure).sum_eq, List.map_cons, List.sum_cons]

/-- What all hold after a change of one is what it then holds beside the others. -/
theorem sum_set (h : index < list.length) (a : α) :
  ((list.set index a).map measure).sum = measure a + ((list.eraseIdx index).map measure).sum
  := by
  have hget : (list.set index a)[index]? = some a := by simp [h]
  rw [sum_eq_of_getElem? measure hget, List.eraseIdx_set_eq]

/-- A change of one changes what all hold by what it holds before and after. -/
theorem sum_modify (change : α → α) {a : α} (h : list[index]? = some a) :
  ((list.modify index change).map measure).sum + measure a
    = (list.map measure).sum + measure (change a)
  := by
  have changed : list.modify index change = list.set index (change a) := by
    rw [List.modify_eq_set_getElem?, h]
    rfl
  obtain ⟨hlt, -⟩ := List.getElem?_eq_some_iff.mp h
  rw [changed, sum_set measure hlt, sum_eq_of_getElem? measure h, add_right_comm, add_assoc,
    add_comm]

/-- What another holds is among what the others hold. -/
theorem mem_sum_eraseIdx {β : Type} (holds : α → Multiset β) {other : Nat} (hne : other ≠ index)
    {a : α} (h : list[other]? = some a) {b : β} (hmem : b ∈ holds a) :
  b ∈ ((list.eraseIdx index).map holds).sum
  := by
  have there : a ∈ list.eraseIdx index :=
    List.mem_eraseIdx_iff_getElem?.mpr ⟨other, hne, h⟩
  obtain ⟨n, hn⟩ := List.getElem?_of_mem there
  rw [sum_eq_of_getElem? holds hn]
  exact Multiset.mem_add.mpr (.inl hmem)

end

/-! ### Changes of one -/

section

variable {α : Type} (list : List α) (index : Nat) (change : α → α)

theorem modify_set (other : Nat) (a : α) :
  (list.modify index change).set other (if index = other then change a else a)
    = (list.set other a).modify index change
  := by
  apply List.ext_getElem?
  intro n
  rw [List.getElem?_set, List.getElem?_modify, List.getElem?_modify, List.getElem?_set,
    List.length_modify]
  by_cases hother : other = n
  · subst hother
    rw [if_pos rfl, if_pos rfl]
    split <;> rfl
  · rw [if_neg hother, if_neg hother]

theorem modify_append_singleton {a : α} (h : change a = a) :
  list.modify index change ++ [a] = (list ++ [a]).modify index change
  := by
  apply List.ext_getElem?
  intro n
  rw [List.getElem?_append, List.getElem?_modify, List.getElem?_modify, List.getElem?_append,
    List.length_modify]
  split
  · rfl
  · cases hn : [a][n - list.length]? with
    | none => rfl
    | some other =>
        have hmem := List.mem_of_getElem? hn
        rw [List.mem_singleton.mp hmem]
        by_cases hindex : index = n
        · simp [hindex, h]
        · simp [hindex]

end

/-! ### Ends -/

section

variable {α β : Type}

theorem filterMap_concat (f : α → Option β) (items : List α) (last : α) :
  (items ++ [last]).filterMap f = items.filterMap f ++ (f last).toList
  := by
  rw [List.filterMap_append]
  cases h : f last <;> simp [h]

theorem getLast?_append_toList (items : List α) (last : Option α) :
  (items ++ last.toList).getLast? = last.or items.getLast?
  := by
  cases last <;> simp

end

/-- What goes on from the last one of a chain makes it longer. -/
theorem isChain_append_of_getLast? {numbers others : List Nat} (first : numbers.IsChain (· < ·))
    (h : (numbers.getLast?.toList ++ others).IsChain (· < ·)) :
  (numbers ++ others).IsChain (· < ·)
  := by
  obtain ⟨-, later, between⟩ := List.isChain_append.mp h
  refine List.isChain_append.mpr ⟨first, later, fun last hlast => between last ?_⟩
  obtain hlast : numbers.getLast? = some last := hlast
  rw [hlast]
  rfl

/-! ### Visits -/

/-- What holds after one is visited, and still holds after another is, holds once all are
visited. -/
theorem foldl_of_visited {α β : Type} {visit : β → α → β} {holds : β → Prop} {a : α}
    (one : ∀ b, holds (visit b a)) (other : ∀ b a', holds b → holds (visit b a')) {visited : List α}
    {b : β} (either : a ∈ visited ∨ holds b) :
  holds (visited.foldl visit b)
  := by
  induction visited generalizing b with
  | nil => exact either.resolve_left List.not_mem_nil
  | cons first visited ih =>
      apply ih
      rcases either with hmem | already
      · rcases List.mem_cons.mp hmem with rfl | hlater
        · exact .inr (one b)
        · exact .inl hlater
      · exact .inr (other b first already)

end MessageBroker
