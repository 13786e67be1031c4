import MessageBroker.Proofs.Composite
import MessageBroker.Proofs.Session.Splitting

/-!
# Sizes of performatives

Most fields of a performative are numbers and flags, which are written in a few octets.  But names,
tags, termini, states and errors are written whole, so that a performative is as large as these are,
and not much larger.
-/

namespace MessageBroker

/-! ### Fields -/

namespace Value

theorem length_encode_le_encodeAll {values : List Value} {value : Value} (h : value ∈ values) :
  value.encode.length ≤ (encodeAll values).length
  := by
  induction values with
  | nil => contradiction
  | cons first others ih =>
      rw [encodeAll, List.length_append]
      rcases List.mem_cons.mp h with rfl | hlater
      · exact Nat.le_add_right _ _
      · have later := ih hlater
        omega

theorem length_encodeAll_append (values others : List Value) :
  (encodeAll (values ++ others)).length = (encodeAll values).length + (encodeAll others).length
  := by
  induction values with
  | nil => simp [encodeAll]
  | cons first values ih =>
      rw [List.cons_append, encodeAll, List.length_append, ih, encodeAll, List.length_append,
        Nat.add_assoc]

theorem length_encodeCompound_le (narrow wide : Constructor) (count : Nat) (members : Bytes) :
  (encodeCompound narrow wide count members).length ≤ members.length + 9
  := by
  rw [encodeCompound]
  split <;>
  · simp only [List.length_cons, List.length_append, length_bigEndian]
    omega

theorem length_encode_list_le (values : List Value) :
  (Value.list values).encode.length ≤ (encodeAll values).length + 9
  := by
  cases values with
  | nil => simp [encode, encodeAll]
  | cons first others =>
      rw [encode, ← encodeAll]
      apply length_encodeCompound_le

theorem length_encodeAll_lt_list (values : List Value) :
  (encodeAll values).length < (Value.list values).encode.length
  := by
  cases values with
  | nil => simp [encode, encodeAll]
  | cons first others =>
      have sized := length_encodeCompound .list8 .list32 (others.length + 1)
        (encode first ++ encodeAll others)
      rw [encode, encodeAll]
      omega

theorem length_encode_ulong (n : UInt64) :
  (encodeUlong n).length ≤ 9
  := by
  rw [encodeUlong]
  split
  · simp
  · split
    · simp
    · simp

/-- A field that may be absent is not larger than what it may hold. -/
theorem length_encode_fieldOf {α : Type} {write : α → Value} {size : Nat} (positive : 0 < size)
    (small : ∀ a, (write a).encode.length ≤ size) (content : Option α) :
  (fieldOf write content).encode.length ≤ size
  := by
  cases content with
  | none =>
      rw [fieldOf, encode]
      exact positive
  | some a => apply small

theorem length_encode_fieldOf_uint (n : Option UInt32) :
  (fieldOf .uint n).encode.length ≤ 5
  := length_encode_fieldOf (by decide) length_encode_uint n

theorem length_encode_fieldOf_ushort (n : Option UInt16) :
  (fieldOf .ushort n).encode.length ≤ 3
  := length_encode_fieldOf (by decide) (fun _ => by simp [encode]) n

theorem length_encode_fieldOf_ulong (n : Option UInt64) :
  (fieldOf .ulong n).encode.length ≤ 9
  := length_encode_fieldOf (by decide) (fun n => by simpa [encode] using length_encode_ulong n) n

theorem length_encode_fieldOf_bool (flag : Option Bool) :
  (fieldOf .bool flag).encode.length ≤ 1
  := length_encode_fieldOf (by decide) (fun _ => by simp [encode]) flag

theorem length_encode_fieldOf_mode (mode : Option ReceiverSettleMode) :
  (fieldOf (.ubyte ∘ ReceiverSettleMode.code) mode).encode.length ≤ 2
  := length_encode_fieldOf (by decide) (fun _ => by simp [encode]) mode

theorem length_encode_flagField (flag : Bool) :
  (flagField flag).encode.length = 1
  := by
  cases flag <;> rfl

end Value

/-! ### Composites -/

/-- Fields that are left out do not come back. -/
theorem length_encodeAll_withoutTrailingNulls (fields : List Value) :
  (Value.encodeAll (withoutTrailingNulls fields)).length ≤ (Value.encodeAll fields).length
  := by
  induction fields using List.reverseRecOn with
  | nil => exact Nat.le_refl _
  | append_singleton fields last ih =>
      cases hlast : last.isNull with
      | false => rw [withoutTrailingNulls_append_of_not_null fields hlast]
      | true =>
          rw [eq_null_of_isNull hlast, withoutTrailingNulls_append_null,
            Value.length_encodeAll_append]
          omega

/-- Only absent fields are left out. -/
theorem mem_withoutTrailingNulls {fields : List Value} {field : Value} (there : field ∈ fields)
    (present : field.isNull = false) :
  field ∈ withoutTrailingNulls fields
  := by
  induction fields using List.reverseRecOn with
  | nil => contradiction
  | append_singleton fields last ih =>
      cases hlast : last.isNull with
      | false =>
          rw [withoutTrailingNulls_append_of_not_null fields hlast]
          exact there
      | true =>
          rw [eq_null_of_isNull hlast] at there ⊢
          rw [withoutTrailingNulls_append_null]
          rcases List.mem_append.mp there with hbefore | hnull
          · exact ih hbefore
          · rw [List.mem_singleton.mp hnull] at present
            contradiction

/-- A composite is not much larger than its fields. -/
theorem length_encode_composite_le {code : UInt64} (small : code.toNat ≤ 255)
    (fields : List Value) :
  (composite code fields).encode.length ≤ (Value.encodeAll fields).length + 12
  := by
  have list := Value.length_encode_list_le (withoutTrailingNulls fields)
  have fewer := length_encodeAll_withoutTrailingNulls fields
  have descriptor : (Value.encodeDescriptor (.code code)).length ≤ 2 := by
    rw [Value.encodeDescriptor, Value.encodeUlong]
    split
    · simp
    · simp
  rw [composite, Value.describedBy, Value.encode, List.length_cons, List.length_append]
  omega

/-- A composite is larger than each of its fields. -/
theorem length_encode_lt_composite (code : UInt64) {fields : List Value} {field : Value}
    (there : field ∈ fields) (present : field.isNull = false) :
  field.encode.length < (composite code fields).encode.length
  := by
  have among := Value.length_encode_le_encodeAll (mem_withoutTrailingNulls there present)
  have list := Value.length_encodeAll_lt_list (withoutTrailingNulls fields)
  rw [composite, Value.describedBy, Value.encode, List.length_cons, List.length_append]
  omega

/-! ### Performatives -/

namespace Performative

/-- The number that names a performative. -/
def code : Performative → UInt64
  | .openConnection _ => Descriptor.openCode
  | .beginSession _ => Descriptor.beginCode
  | .attach _ => Descriptor.attachCode
  | .flow _ => Descriptor.flowCode
  | .transfer _ => Descriptor.transferCode
  | .disposition _ => Descriptor.dispositionCode
  | .detach _ => Descriptor.detachCode
  | .endSession _ => Descriptor.endCode
  | .closeConnection _ => Descriptor.closeCode

/-- The fields of a performative that are written whole, however large they are: names, tags,
termini, states and errors. -/
def whole : Performative → List Value
  | .openConnection p => [.string p.containerId, fieldOf .string p.hostname]
  | .beginSession _ => []
  | .attach p => [.string p.name, fieldOf Source.toValue p.source, fieldOf Target.toValue p.target]
  | .flow _ => []
  | .transfer p => [fieldOf .binary p.deliveryTag, fieldOf DeliveryState.toValue p.state]
  | .disposition p => [fieldOf DeliveryState.toValue p.state]
  | .detach p => [fieldOf ErrorReport.toValue p.error]
  | .endSession error => [fieldOf ErrorReport.toValue error]
  | .closeConnection error => [fieldOf ErrorReport.toValue error]

/-- The number of octets of the fields that are written whole. -/
def wholeSize (p : Performative) : Nat :=
  (Value.encodeAll p.whole).length

theorem code_toNat_le (p : Performative) :
  p.code.toNat ≤ 255
  := by
  cases p with
  | _ =>
      rw [code]
      decide

/-- The fields of a performative are the ones that are written whole, and others that are small. -/
theorem exists_fields (p : Performative) :
  ∃ fields, p.toValue = composite p.code fields ∧ (∀ field ∈ p.whole, field ∈ fields)
    ∧ (Value.encodeAll fields).length ≤ 44 + p.wholeSize
  := by
  cases p
  all_goals
    refine ⟨_, rfl, by simp [whole], ?_⟩
    simp only [wholeSize, whole, Value.encodeAll, List.length_append, List.length_nil]
    grind [Value.length_encode_uint, Value.length_encode_fieldOf_uint,
      Value.length_encode_fieldOf_ushort, Value.length_encode_fieldOf_ulong,
      Value.length_encode_fieldOf_bool, Value.length_encode_fieldOf_mode,
      Value.length_encode_flagField, Value.encode]

/-- A frame is not much larger than the fields that are written whole. -/
theorem frameSize_le (p : Performative) :
  p.frameSize ≤ 64 + p.wholeSize
  := by
  obtain ⟨fields, hvalue, -, small⟩ := p.exists_fields
  have composite := length_encode_composite_le p.code_toNat_le fields
  rw [frameSize, FrameHeader.length, encode, hvalue]
  omega

/-- A frame is larger than each of the fields that are written whole. -/
theorem length_encode_lt_frameSize {p : Performative} {field : Value} (there : field ∈ p.whole)
    (present : field.isNull = false) :
  field.encode.length < p.frameSize
  := by
  obtain ⟨fields, hvalue, whole, -⟩ := p.exists_fields
  have composite := length_encode_lt_composite p.code (whole field there) present
  rw [frameSize, encode, hvalue]
  omega

end Performative

end MessageBroker
