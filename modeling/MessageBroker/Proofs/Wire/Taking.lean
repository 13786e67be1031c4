import Mathlib.Algebra.Group.Nat.Defs
import MessageBroker.Wire.Reader

/-!
# What readers take

A reader takes a byte string as a thing if, wherever that byte string stands in front of further
octets, the reader gives the thing and stops right after it.  Readers that take two byte strings
one after another take their concatenation when they are run one after another; so what a reader
makes of an encoding is put together the way the encoding was.
-/

namespace MessageBroker

namespace Reader

variable {α β : Type}

/-- A reader that has a result goes on with it. -/
theorem bind_of_ok {reader : Reader α} {next : α → Reader β} {cursor cursor' : Cursor} {a : α}
    (h : reader cursor = .ok a cursor') :
  (reader >>= next) cursor = next a cursor'
  := by
  change EStateM.bind reader next cursor = next a cursor'
  rw [EStateM.bind, h]

/-- The reader takes `bytes` from the front of any byte string, and makes `a` of them. -/
def Takes (reader : Reader α) (bytes : Bytes) (a : α) : Prop :=
  ∀ position rest,
    reader ⟨position, bytes ++ rest⟩ = .ok a ⟨position + bytes.length, rest⟩

namespace Takes

theorem pure (a : α) :
  Takes (Pure.pure a) [] a
  := fun _ _ => rfl

theorem bind {reader : Reader α} {next : α → Reader β} {bytes others : Bytes} {a : α} {b : β}
    (first : Takes reader bytes a) (second : Takes (next a) others b) :
  Takes (reader >>= next) (bytes ++ others) b
  := by
  intro position rest
  rw [List.append_assoc, bind_of_ok (first position (others ++ rest)),
    second (position + bytes.length) rest, List.length_append, Nat.add_assoc]

/-- What is computed from the thing taken needs no further octets. -/
theorem bind_pure {reader : Reader α} {next : α → Reader β} {bytes : Bytes} {a : α} {b : β}
    (first : Takes reader bytes a) (second : Takes (next a) [] b) :
  Takes (reader >>= next) bytes b
  := by
  have both := bind first second
  rwa [List.append_nil] at both

/-- What is taken is put into another thing. -/
theorem gives {reader : Reader α} {f : α → β} {bytes : Bytes} {a : α} {b : β}
    (first : Takes reader bytes a) (h : f a = b) :
  Takes (reader >>= fun a => Pure.pure (f a)) bytes b
  := by
  apply first.bind_pure
  rw [h]
  apply Takes.pure

theorem map {reader : Reader α} {bytes : Bytes} {a : α} (f : α → β)
    (first : Takes reader bytes a) :
  Takes (f <$> reader) bytes (f a)
  := by
  intro position rest
  change EStateM.map f reader ⟨position, bytes ++ rest⟩ = _
  rw [EStateM.map, first position rest]

end Takes

/-! ### Octets and numbers -/

theorem need_of_le {n : Nat} {cursor : Cursor} (h : n ≤ cursor.rest.length) :
  need n cursor = .ok () cursor
  := by
  have enough : (cursor.rest.take n).length = n := by
    rw [List.length_take, Nat.min_eq_left h]
  simp [need, enough]

theorem position_eq (cursor : Cursor) :
  Reader.position cursor = .ok cursor.position cursor
  := rfl

theorem takes_octet (code : UInt8) :
  Takes octet [code] code
  := fun _ _ => rfl

theorem takes_take (bytes : Bytes) :
  Takes (take bytes.length) bytes bytes
  := by
  intro position rest
  have enough : bytes.length ≤ (Cursor.mk position (bytes ++ rest)).rest.length := by
    simp
  apply (bind_of_ok (need_of_le enough)).trans
  simp

/-- A number that fits in its octets is read back. -/
theorem takes_number (width : Nat) {n : Nat} (h : n < 256 ^ width) :
  Takes (number width) (bigEndian width n) n
  := by
  have taken := (takes_take (bigEndian width n)).map ofBigEndian
  rw [length_bigEndian, ofBigEndian_bigEndian, Nat.pow_eq, Nat.mod_eq_of_lt h] at taken
  exact taken

/-! ### Things one after another -/

theorem manyAfter_eq_map (item : Reader α) (count : Nat) (done : List α) :
  manyAfter item count done = (done.reverse ++ ·) <$> many item count
  := by
  rw [many]
  induction count generalizing done with
  | zero => simp [manyAfter]
  | succ count ih =>
    simp only [manyAfter, map_bind]
    congr 1
    funext a
    rw [ih, ih [a]]
    simp

theorem takes_many_zero (item : Reader α) :
  Takes (many item 0) [] []
  := Takes.pure []

theorem takes_many_succ {item : Reader α} {count : Nat} {bytes others : Bytes} {a : α}
    {as : List α} (first : Takes item bytes a) (rest : Takes (many item count) others as) :
  Takes (many item (count + 1)) (bytes ++ others) (a :: as)
  := by
  rw [many, manyAfter]
  apply first.bind
  rw [manyAfter_eq_map]
  apply rest.map

/-- Things of which each is taken on its own are taken one after another. -/
theorem takes_many_map {item : Reader α} {write : β → Bytes} {read : β → α} {bs : List β}
    (each : ∀ b ∈ bs, Takes item (write b) (read b)) :
  Takes (many item bs.length) (bs.flatMap write) (bs.map read)
  := by
  induction bs with
  | nil => apply takes_many_zero
  | cons b bs ih =>
    rw [List.flatMap_cons]
    apply takes_many_succ (each b List.mem_cons_self)
    apply ih
    intro other hother
    exact each other (List.mem_cons_of_mem b hother)

theorem takes_many {item : Reader α} {write : α → Bytes} {as : List α}
    (each : ∀ a ∈ as, Takes item (write a) a) :
  Takes (many item as.length) (as.flatMap write) as
  := by
  have taken := takes_many_map each
  rwa [List.map_id'] at taken

end Reader

end MessageBroker
