import MessageBroker.Performative.Encoding
import MessageBroker.Proofs.Composite
import MessageBroker.Transaction.Control

/-!
# Normal performatives

The filter of a source and the global identity of a transaction are the only fields that hold a
value of any kind.  So the normal form of the composite of a performative or of a control is the
composite of the same one with that field in its normal form, and where every array has members
of one constructor nothing changes at all.
-/

namespace MessageBroker

namespace Value

/-! ### Uniform values -/

mutual

/-- A value in which, at every depth, the members of every array have a constructor in common.
Absent values, compounds and described values have none as members. -/
def Uniform : Value → Prop
  | .list items => AllUniform items
  | .map pairs => PairsUniform pairs
  | .array [] => True
  | .array (first :: others) => commonConstructor? (first :: others) ≠ none
  | .described _ value => value.Uniform
  | _ => True

/-- Values that are all uniform. -/
def AllUniform : List Value → Prop
  | [] => True
  | first :: others => first.Uniform ∧ AllUniform others

/-- Keys and values that are all uniform. -/
def PairsUniform : List (Value × Value) → Prop
  | [] => True
  | (key, value) :: others => key.Uniform ∧ value.Uniform ∧ PairsUniform others

end

mutual

theorem normal_of_uniform : ∀ value : Value, value.Uniform → normal value = value
  | .list items, uniform => by rw [normal, normalAll_of_uniform items uniform]
  | .map pairs, uniform => by rw [normal, normalPairs_of_uniform pairs uniform]
  | .array [], _ => rfl
  | .array (first :: others), uniform => by
    rw [normal]
    cases common : commonConstructor? (first :: others) with
    | some constructor => rfl
    | none => exact absurd common uniform
  | .described descriptor value, uniform => by rw [normal, normal_of_uniform value uniform]
  | .null, _ | .bool _, _ | .ubyte _, _ | .ushort _, _ | .uint _, _ | .ulong _, _ | .byte _, _
  | .short _, _ | .int _, _ | .long _, _ | .timestamp _, _ | .uuid _, _ | .binary _, _
  | .string _, _ | .symbol _, _ => rfl

theorem normalAll_of_uniform : ∀ items : List Value, AllUniform items → normalAll items = items
  | [], _ => rfl
  | first :: others, uniform => by
    rw [normalAll, normal_of_uniform first uniform.1, normalAll_of_uniform others uniform.2]

theorem normalPairs_of_uniform : ∀ pairs : List (Value × Value),
    PairsUniform pairs → normalPairs pairs = pairs
  | [], _ => rfl
  | (key, value) :: others, uniform => by
    rw [normalPairs, normal_of_uniform key uniform.1, normal_of_uniform value uniform.2.1,
      normalPairs_of_uniform others uniform.2.2]

end

/-! ### Normal forms of composites -/

@[simp]
theorem isNull_normal (value : Value) :
  value.normal.isNull = value.isNull
  := by
  cases value with
  | array items =>
    cases items with
    | nil => rfl
    | cons first others =>
      rw [normal]
      cases commonConstructor? (first :: others) <;> rfl
  | _ => rfl

theorem normalAll_eq_map (items : List Value) :
  normalAll items = items.map normal
  := by
  induction items with
  | nil => rfl
  | cons first others ih => rw [normalAll, ih, List.map_cons]

theorem withoutTrailingNulls_map_normal (values : List Value) :
  withoutTrailingNulls (values.map normal) = (withoutTrailingNulls values).map normal
  := by
  have same : isNull ∘ normal = isNull := funext isNull_normal
  rw [withoutTrailingNulls, ← List.map_reverse, List.dropWhile_map, same, ← List.map_reverse,
    withoutTrailingNulls]

theorem normal_composite (code : UInt64) (fields : List Value) :
  normal (composite code fields) = composite code (fields.map normal)
  := by
  rw [composite, describedBy, normal, normal, normalAll_eq_map, ← withoutTrailingNulls_map_normal,
    composite, describedBy]

/-- What `write` writes is in normal form. -/
class WritesNormal {α : Type} (write : α → Value) : Prop where
  /-- What is written is its own normal form. -/
  normal_write : ∀ a, normal (write a) = write a

instance : WritesNormal uint := ⟨fun _ => rfl⟩

instance : WritesNormal ushort := ⟨fun _ => rfl⟩

instance : WritesNormal ulong := ⟨fun _ => rfl⟩

instance : WritesNormal bool := ⟨fun _ => rfl⟩

instance : WritesNormal string := ⟨fun _ => rfl⟩

instance : WritesNormal symbol := ⟨fun _ => rfl⟩

instance : WritesNormal binary := ⟨fun _ => rfl⟩

instance : WritesNormal (ubyte ∘ ReceiverSettleMode.code) := ⟨fun _ => rfl⟩

@[simp]
theorem normal_fieldOf {α : Type} (write : α → Value) [plain : WritesNormal write]
    (o : Option α) :
  normal (fieldOf write o) = fieldOf write o
  := by
  cases o with
  | none => rfl
  | some a => apply plain.normal_write

@[simp]
theorem normal_flagField (flag : Bool) :
  normal (flagField flag) = flagField flag
  := by
  cases flag <;> rfl

theorem normal_symbolArray (symbols : List Symbol) :
  normal (symbolArray symbols) = symbolArray symbols
  := by
  cases symbols with
  | nil => rfl
  | cons first others =>
    have common : commonConstructor? ((first :: others).map symbol) = some .symbol32 := by
      simp [commonConstructor?, memberConstructor?]
    rw [symbolArray, List.map_cons, normal]
    rw [List.map_cons] at common
    rw [common]

instance : WritesNormal symbolArray := ⟨normal_symbolArray⟩

end Value

/-! ### Normal forms of performatives -/

open Value

theorem ErrorReport.normal_toValue (report : ErrorReport) :
  normal report.toValue = report.toValue
  := by
  rw [toValue, normal_composite]
  simp [normal]

instance : WritesNormal ErrorReport.toValue := ⟨ErrorReport.normal_toValue⟩

theorem DeliveryState.normal_toValue (state : DeliveryState) :
  normal state.toValue = state.toValue
  := by
  induction state with
  | provisional transaction outcome ih =>
    rw [toValue, normal_composite]
    simp [normal, ih]
  | _ =>
    rw [toValue, normal_composite]
    simp [normal]

instance : WritesNormal DeliveryState.toValue := ⟨DeliveryState.normal_toValue⟩

/-- A source with its filter in normal form. -/
def Source.normal (source : Source) : Source :=
  { source with filter := source.filter.normal }

@[simp]
theorem Source.normal_toValue (source : Source) :
  Value.normal source.toValue = source.normal.toValue
  := by
  rw [toValue, normal_composite]
  simp [Value.normal, Source.normal, toValue]

theorem Target.normal_toValue (target : Target) :
  normal target.toValue = target.toValue
  := by
  cases target with
  | _ =>
    rw [toValue, normal_composite]
    simp [normal]

instance : WritesNormal Target.toValue := ⟨Target.normal_toValue⟩

/-- A performative with the filter of its source, if it has one, in normal form. -/
def Performative.normal : Performative → Performative
  | .attach p => .attach { p with source := p.source.map Source.normal }
  | p => p

theorem normal_fieldOf_source (source : Option Source) :
  normal (fieldOf Source.toValue source) = fieldOf Source.toValue (source.map Source.normal)
  := by
  cases source with
  | none => rfl
  | some source => apply Source.normal_toValue

theorem Performative.normal_toValue (p : Performative) :
  Value.normal p.toValue = p.normal.toValue
  := by
  cases p with
  | attach p =>
    simp only [toValue, Performative.normal, Attach.toValue, normal_composite]
    simp [normal_fieldOf_source, Value.normal]
  | _ =>
    simp only [toValue, Performative.normal, Open.toValue, Begin.toValue, Flow.toValue,
      Transfer.toValue, Disposition.toValue, Detach.toValue, normal_composite]
    simp [Value.normal]

/-- The filter of the source of a performative, if it has one. -/
def Performative.filter? : Performative → Option Value
  | .attach p => p.source.map Source.filter
  | _ => none

theorem Performative.normal_of_uniform (p : Performative)
    (uniform : ∀ filter ∈ p.filter?, filter.Uniform) :
  p.normal = p
  := by
  cases p with
  | attach p =>
    have same : p.source.map Source.normal = p.source := by
      cases source : p.source with
      | none => rfl
      | some found =>
        have plain : found.filter.normal = found.filter := by
          apply Value.normal_of_uniform
          apply uniform
          simp [filter?, source]
        rw [Option.map_some, Source.normal, plain]
    rw [Performative.normal, same]
  | _ => rfl

/-- A control with the global identity, if it has one, in normal form. -/
def TransactionControl.normal : TransactionControl → TransactionControl
  | .declare globalId => .declare (globalId.map Value.normal)
  | .discharge transaction fail => .discharge transaction fail

theorem TransactionControl.normal_toValue (control : TransactionControl) :
  Value.normal control.toValue = control.normal.toValue
  := by
  cases control with
  | declare globalId =>
    cases globalId <;>
      simp [toValue, normal_composite, TransactionControl.normal, fieldOf, Value.normal]
  | discharge transaction fail =>
    simp [toValue, normal_composite, TransactionControl.normal, Value.normal]

/-- The global identity of a transaction that is begun, if it has one. -/
def TransactionControl.globalId? : TransactionControl → Option Value
  | .declare globalId => globalId
  | .discharge _ _ => none

theorem TransactionControl.normal_of_uniform (control : TransactionControl)
    (uniform : ∀ globalId ∈ control.globalId?, globalId.Uniform) :
  control.normal = control
  := by
  cases control with
  | declare globalId =>
    cases globalId with
    | none => rfl
    | some value =>
      have same : value.normal = value := Value.normal_of_uniform value (uniform value rfl)
      rw [TransactionControl.normal, Option.map_some, same]
  | discharge transaction fail => rfl

end MessageBroker
