import MessageBroker.Octets
import MessageBroker.Fault.Decoding

/-!
# Readers

A reader takes octets from the front of a byte string.  Its state is a cursor: the octets that
are left, and how many were taken before them.  A reader that fails leaves the cursor where it
stopped.
-/

namespace MessageBroker

/-- A place in a byte string. -/
structure Cursor where
  /-- The number of octets before this place. -/
  position : Nat
  /-- The octets after this place. -/
  rest : Bytes
  deriving DecidableEq, Repr

/-- The start of a byte string. -/
def Cursor.start (bytes : Bytes) : Cursor :=
  ⟨0, bytes⟩

/-- A computation that takes octets from a byte string. -/
abbrev Reader :=
  EStateM DecodeError Cursor

namespace Reader

/-- Fails unless `n` more octets are left; takes none. -/
def need (n : Nat) : Reader Unit := fun cursor =>
  let available := (cursor.rest.take n).length
  if available < n then .error (.insufficientData (n - available)) cursor
  else .ok () cursor

/-- Takes one octet. -/
def octet : Reader UInt8 := fun cursor =>
  match cursor.rest with
  | [] => .error (.insufficientData 1) cursor
  | octet :: rest => .ok octet ⟨cursor.position + 1, rest⟩

/-- Takes `n` octets. -/
def take (n : Nat) : Reader Bytes := do
  need n
  fun cursor => .ok (cursor.rest.take n) ⟨cursor.position + n, cursor.rest.drop n⟩

/-- Takes a number of `width` octets. -/
def number (width : Nat) : Reader Nat :=
  ofBigEndian <$> take width

/-- The number of octets taken so far. -/
def position : Reader Nat := fun cursor =>
  .ok cursor.position cursor

/-- Reads `count` things one after another and puts them after `done`, which is in reverse. -/
def manyAfter {α : Type} (item : Reader α) : Nat → List α → Reader (List α)
  | 0, done => pure done.reverse
  | count + 1, done => do
    let a ← item
    manyAfter item count (a :: done)

/-- Reads `count` things one after another. -/
def many {α : Type} (item : Reader α) (count : Nat) : Reader (List α) :=
  manyAfter item count []

/-- Fails as malformed. -/
def malformed {α : Type} (defect : Defect) : Reader α :=
  throw (.malformed defect)

/-- What a reader makes of a whole byte string, and how many octets it took. -/
def runOn {α : Type} (reader : Reader α) (bytes : Bytes) : Except DecodeError (α × Nat) :=
  match reader (Cursor.start bytes) with
  | .ok a cursor => .ok (a, cursor.position)
  | .error error _ => .error error

end Reader

end MessageBroker
