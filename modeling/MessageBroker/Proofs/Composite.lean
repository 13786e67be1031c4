import Mathlib.Data.List.Induction
import MessageBroker.Catalogue
import MessageBroker.Descriptors
import MessageBroker.Proofs.Value.Normal

/-!
# Fields as they are written

The fields of a composite are written by their position and without the absent ones at the end;
read by their position, they are all there again.  A field that is written in a type is read in
that type as what was written.  The normal form of a composite has the normal forms of its
fields.
-/

namespace MessageBroker

/-! ### Trailing fields -/

theorem withoutTrailingNulls_append_null (values : List Value) :
  withoutTrailingNulls (values ++ [.null]) = withoutTrailingNulls values
  := by
  rw [withoutTrailingNulls, List.reverse_append]
  rfl

theorem withoutTrailingNulls_append_of_not_null (values : List Value) {value : Value}
    (h : value.isNull = false) :
  withoutTrailingNulls (values ++ [value]) = values ++ [value]
  := by
  simp [withoutTrailingNulls, h]

theorem eq_null_of_isNull {value : Value} (h : value.isNull = true) :
  value = .null
  := by
  cases value with
  | null => rfl
  | _ => simp [Value.isNull] at h

/-- What was left out at the end is read as absent. -/
theorem getD_withoutTrailingNulls (values : List Value) (index : Nat) :
  (withoutTrailingNulls values).getD index .null = values.getD index .null
  := by
  induction values using List.reverseRecOn with
  | nil => rfl
  | append_singleton values value ih =>
    cases h : value.isNull with
    | false => rw [withoutTrailingNulls_append_of_not_null values h]
    | true =>
      obtain rfl := eq_null_of_isNull h
      rw [withoutTrailingNulls_append_null, ih]
      simp only [List.getD_eq_getElem?_getD]
      obtain before | after := Nat.lt_or_ge index values.length
      · rw [List.getElem?_append_left before]
      · rw [List.getElem?_append_right after, List.getElem?_eq_none after]
        cases index - values.length <;> rfl

namespace Fields

/-- The fields of a composite as they are written. -/
def written (composite : String) (values : List Value) : Fields :=
  ⟨composite, withoutTrailingNulls values⟩

@[simp]
theorem get_written (composite : String) (values : List Value) (index : Nat) :
  (written composite values).get index = values.getD index .null
  := by
  apply getD_withoutTrailingNulls

theorem ofValue_written (composite : String) (values : List Value) :
  ofValue composite (.list (withoutTrailingNulls values)) = .ok (written composite values)
  := rfl

end Fields

/-! ### Fields of a type -/

/-- What `write` writes is no absent value, and `read` reads it back. -/
class ReadBack {α : Type} {m : Type → Type} [Pure m] (write : α → Value) (read : Value → m α) :
    Prop where
  /-- What is written is there. -/
  there : ∀ a, (write a).isNull = false
  /-- What is written is read. -/
  back : ∀ a, read (write a) = pure a

namespace Value

variable {α : Type}

/-- A value read by `convert`; none if it is null. -/
def readOptional (composite field : String) (convert : Value → Option α) :
    Value → Except DecodeError (Option α)
  | .null => .ok none
  | value =>
    match convert value with
    | some a => .ok (some a)
    | none => .error (.invalidField composite field)

/-- A value decoded by `decode`; none if it is null. -/
def readNested (decode : Value → Except DecodeError α) : Value → Except DecodeError (Option α)
  | .null => .ok none
  | value => some <$> decode value

/-- A flag; false if it is null. -/
def readFlag (composite field : String) (value : Value) : Except DecodeError Bool := do
  return (← value.readOptional composite field toBool?).getD false

theorem readOptional_of_there {composite field : String} {convert : Value → Option α}
    {value : Value} {a : α} (there : value.isNull = false) (back : convert value = some a) :
  readOptional composite field convert value = .ok (some a)
  := by
  unfold readOptional
  split
  · simp [isNull] at there
  · rw [back]

theorem readNested_of_there {decode : Value → Except DecodeError α} {value : Value} {a : α}
    (there : value.isNull = false) (back : decode value = .ok a) :
  readNested decode value = .ok (some a)
  := by
  unfold readNested
  split
  · simp [isNull] at there
  · rw [back]
    rfl

@[simp]
theorem readOptional_write (composite field : String) (write : α → Value)
    (convert : Value → Option α) [written : ReadBack write convert] (a : α) :
  readOptional composite field convert (write a) = .ok (some a)
  := readOptional_of_there (written.there a) (written.back a)

@[simp]
theorem readOptional_fieldOf (composite field : String) (write : α → Value)
    (convert : Value → Option α) [ReadBack write convert] (o : Option α) :
  readOptional composite field convert (fieldOf write o) = .ok o
  := by
  cases o with
  | none => rfl
  | some a => apply readOptional_write

@[simp]
theorem readFlag_bool (composite field : String) (flag : Bool) :
  (bool flag).readFlag composite field = .ok flag
  := rfl

@[simp]
theorem readFlag_flagField (composite field : String) (flag : Bool) :
  (flagField flag).readFlag composite field = .ok flag
  := by
  cases flag <;> rfl

@[simp]
theorem readNested_fieldOf (write : α → Value) (decode : Value → Except DecodeError α)
    [written : ReadBack write decode] (o : Option α) :
  readNested decode (fieldOf write o) = .ok o
  := by
  cases o with
  | none => rfl
  | some a => exact readNested_of_there (written.there a) (written.back a)

end Value

namespace Fields

variable {α : Type}

/-- A result without failure goes on. -/
@[simp]
theorem ok_bind {β : Type} (a : α) (next : α → Except DecodeError β) :
  (Except.ok a >>= next) = next a
  := rfl

@[simp]
theorem pure_eq_ok (a : α) :
  (pure a : Except DecodeError α) = .ok a
  := rfl

@[simp]
theorem optional_written (composite : String) (values : List Value) (index : Nat)
    (field : String) (convert : Value → Option α) :
  (written composite values).optional index field convert =
    (values.getD index .null).readOptional composite field convert
  := by
  rw [← get_written composite]
  rfl

@[simp]
theorem nested_written (composite : String) (values : List Value) (index : Nat)
    (decode : Value → Except DecodeError α) :
  (written composite values).nested index decode = (values.getD index .null).readNested decode
  := by
  rw [← get_written composite]
  rfl

@[simp]
theorem required_written (composite : String) (values : List Value) (index : Nat)
    (field : String) (convert : Value → Option α) :
  (written composite values).required index field convert =
    (do
      match ← (values.getD index .null).readOptional composite field convert with
      | some a => pure a
      | none => throw (.missingField composite field))
  := by
  rw [required, optional_written]
  rfl

@[simp]
theorem flag_written (composite : String) (values : List Value) (index : Nat) (field : String) :
  (written composite values).flag index field =
    (values.getD index .null).readFlag composite field
  := by
  rw [flag, optional_written]
  rfl

end Fields

/-! ### The types of fields -/

namespace Value

instance readBack_uint : ReadBack uint toUInt? where
  there _ := rfl
  back n := by
    have small : n.toUInt64.toNat < UInt32.size := by
      simpa using n.toNat_lt
    simp only [toUInt?, toUnsigned?, if_pos small]
    simp

instance readBack_ushort : ReadBack ushort toUShort? where
  there _ := rfl
  back n := by
    have small : n.toUInt64.toNat < UInt16.size := by
      simpa using n.toNat_lt
    simp only [toUShort?, toUnsigned?, if_pos small]
    simp

instance readBack_ulong : ReadBack ulong toUnsigned? where
  there _ := rfl
  back _ := rfl

instance readBack_bool : ReadBack bool toBool? where
  there _ := rfl
  back _ := rfl

instance readBack_binary : ReadBack binary toBinary? where
  there _ := rfl
  back _ := rfl

instance readBack_text : ReadBack string toText? where
  there _ := rfl
  back _ := rfl

instance readBack_name : ReadBack string toName? where
  there _ := rfl
  back _ := rfl

instance readBack_symbol : ReadBack symbol toSymbol? where
  there _ := rfl
  back _ := rfl

instance readBack_symbols : ReadBack symbolArray toSymbols? where
  there _ := rfl
  back symbols := by
    change (symbols.map symbol).mapM toSymbol? = some symbols
    rw [List.mapM_map]
    induction symbols with
    | nil => rfl
    | cons first others ih => simp [ih, toSymbol?]

end Value

end MessageBroker
