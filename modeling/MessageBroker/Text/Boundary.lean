import MessageBroker.Text.Utf8

/-!
# Boundaries of characters

The places of a UTF-8 form at which no character is cut apart, and the search, from a place on
and backwards, for the first of them.
-/

namespace MessageBroker.Utf8

/-- Whether an octet goes on with a character that began before it. -/
def continues (octet : UInt8) : Bool :=
  0x80 ≤ octet && octet < 0xc0

/-- Whether a place is a boundary: the front, the end, or in front of an octet that does not go
on with a character. -/
def isBoundary (bytes : Bytes) (place : Nat) : Bool :=
  place == 0 || match bytes[place]? with
    | none => place == bytes.length
    | some octet => !continues octet

/-- The last boundary that is not after a place, looked for octet by octet from there backwards;
none if the search would have to go back from the front. -/
def boundaryUpTo? (bytes : Bytes) (place : Nat) : Option Nat :=
  if isBoundary bytes place then some place
  else
    match place with
    | 0 => none
    | earlier + 1 => boundaryUpTo? bytes earlier

/-- The search ends at the front at the latest. -/
theorem isSome_boundaryUpTo? (bytes : Bytes) (place : Nat) :
  (boundaryUpTo? bytes place).isSome
  := by
  fun_induction boundaryUpTo? bytes place with
  | case1 => rfl
  | case2 cut => exact absurd rfl cut
  | case3 _ _ ih => exact ih

/-- The last boundary that is not after a place. -/
def boundaryUpTo (bytes : Bytes) (place : Nat) : Nat :=
  (boundaryUpTo? bytes place).get (isSome_boundaryUpTo? bytes place)

theorem boundaryUpTo?_eq (bytes : Bytes) (place : Nat) :
  boundaryUpTo? bytes place = some (boundaryUpTo bytes place)
  := (Option.some_get _).symm

/-- What the search finds is a boundary, is not after the place where the search began, and is
the last of those that are not. -/
theorem boundaryUpTo?_eq_some {bytes : Bytes} {place found : Nat}
    (h : boundaryUpTo? bytes place = some found) :
  isBoundary bytes found ∧ found ≤ place
    ∧ ∀ other ≤ place, isBoundary bytes other → other ≤ found
  := by
  fun_induction boundaryUpTo? bytes place with
  | case1 place here =>
      cases h
      exact ⟨here, Nat.le_refl _, fun other le _ => le⟩
  | case2 => contradiction
  | case3 earlier cut ih =>
      obtain ⟨boundary, le, last⟩ := ih h
      refine ⟨boundary, Nat.le_succ_of_le le, fun other le boundary => last other ?_ boundary⟩
      rcases Nat.le_succ_iff.mp le with le | rfl
      · exact le
      · contradiction

theorem boundaryUpTo_le (bytes : Bytes) (place : Nat) :
  boundaryUpTo bytes place ≤ place
  := (boundaryUpTo?_eq_some (boundaryUpTo?_eq bytes place)).2.1

end MessageBroker.Utf8
