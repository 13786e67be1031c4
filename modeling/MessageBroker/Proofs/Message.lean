import MessageBroker.Message.Draft
import MessageBroker.Message.Sections
import MessageBroker.Proofs.Composite
import MessageBroker.Proofs.Lists
import MessageBroker.Proofs.Value.RoundTrip

/-!
# Messages read back

A message is drafted in steps, which may come in any order: durability is set, properties, data and
values are added.  It is written section by section, and its sections are read one after another,
each as the normal form of what was written.  So a message is read as it was drafted: durability and
the value as they were set last, properties and data in the order in which they were added.
-/

namespace MessageBroker

open Reader

/-! ### Sections one after another -/

/-- A value in front of any further octets is read as its normal form. -/
theorem Value.takes_read {value : Value} (fits : value.Fits) :
  Takes read (encode value) (normal value)
  := by
  intro position rest
  have room : (encode value).length ≤ (encode value ++ rest).length := by simp
  exact takes_encode value fits room position rest

namespace MessageSections

/-- The section with a descriptor and a body. -/
def describe (part : UInt64 × Value) : Value :=
  .describedBy part.1 part.2

/-- The sections with further ones, given by their descriptors and their bodies as they are
written. -/
def addAll (sections : MessageSections) (parts : List (UInt64 × Value)) :
    Except DecodeError MessageSections :=
  parts.foldlM (fun sections part => sections.add part.1 part.2.normal) sections

theorem addAll_cons (sections : MessageSections) (part : UInt64 × Value)
    (parts : List (UInt64 × Value)) :
  sections.addAll (part :: parts)
    = (sections.add part.1 part.2.normal >>= fun sections => sections.addAll parts)
  := List.foldlM_cons

theorem addAll_append (sections : MessageSections) (parts others : List (UInt64 × Value)) :
  sections.addAll (parts ++ others)
    = (sections.addAll parts >>= fun sections => sections.addAll others)
  := List.foldlM_append

/-- A section at the front is read, and then those behind it. -/
theorem parseFrom_append (sections : MessageSections) {part : UInt64 × Value}
    (fits : (describe part).Fits) (count position : Nat) (rest : Bytes) :
  sections.parseFrom (count + 1) ⟨position, (describe part).encode ++ rest⟩
    = (sections.add part.1 part.2.normal >>= fun sections =>
        sections.parseFrom count ⟨position + (describe part).encode.length, rest⟩)
  := by
  have there : ((describe part).encode ++ rest).isEmpty = false := by
    rw [List.isEmpty_eq_false_iff, ← List.length_pos_iff, List.length_append]
    exact Nat.add_pos_left (Value.length_encode_pos _) _
  have taken := Value.takes_read fits position rest
  rw [parseFrom, there, taken]
  rfl

/-- Sections that are written one after another are read one after another. -/
theorem parseFrom_encodeAll (sections : MessageSections) {parts : List (UInt64 × Value)}
    (fits : ∀ part ∈ parts, (describe part).Fits) {count : Nat} (enough : parts.length ≤ count)
    (position : Nat) :
  sections.parseFrom count ⟨position, Value.encodeAll (parts.map describe)⟩ = sections.addAll parts
  := by
  induction parts generalizing sections count position with
  | nil =>
      cases count with
      | zero => rfl
      | succ count => rfl
  | cons part parts ih =>
      obtain ⟨first, others⟩ := List.forall_mem_cons.mp fits
      cases count with
      | zero => contradiction
      | succ count =>
          rw [List.map_cons, Value.encodeAll, parseFrom_append sections first, addAll_cons]
          congr 1
          funext sections
          exact ih sections others (Nat.le_of_succ_le_succ enough) _

/-- A message is read section by section. -/
theorem parse_encodeAll {parts : List (UInt64 × Value)}
    (fits : ∀ part ∈ parts, (describe part).Fits) :
  parse (Value.encodeAll (parts.map describe)) = empty.addAll parts
  := by
  apply parseFrom_encodeAll empty fits
  have counted := Value.length_le_encodeAll (parts.map describe)
  rwa [List.length_map] at counted

end MessageSections

/-! ### Drafts -/

namespace MessageDraft

/-- A step in which a message is drafted. -/
inductive Step where
  /-- Durability is set. -/
  | setDurable (flag : Bool)
  /-- A property is added. -/
  | addProperty (key : String) (value : Value)
  /-- A data section is added. -/
  | addData (bytes : Bytes)
  /-- A value section is added. -/
  | addValue (value : Value)

namespace Step

/-- The durability that is set. -/
def durable? : Step → Option Bool
  | .setDurable flag => some flag
  | _ => none

/-- The property that is added, as it is written. -/
def property? : Step → Option (Value × Value)
  | .addProperty key value => some (.string key, value)
  | _ => none

/-- The value of the property that is added, if it has a given key. -/
def propertyOf? (key : String) : Step → Option Value
  | .addProperty other value => if other = key then some value else none
  | _ => none

/-- The data that are added. -/
def data? : Step → Option Bytes
  | .addData bytes => some bytes
  | _ => none

/-- The value that is added. -/
def value? : Step → Option Value
  | .addValue value => some value
  | _ => none

/-- The section that is added to the body. -/
def part? : Step → Option (UInt64 × Value)
  | .addData bytes => some (Descriptor.dataCode, .binary bytes)
  | .addValue value => some (Descriptor.valueCode, value)
  | _ => none

end Step

/-- A draft after a further step. -/
def after (draft : MessageDraft) : Step → MessageDraft
  | .setDurable flag => draft.setDurable flag
  | .addProperty key value => draft.addProperty key value
  | .addData bytes => draft.addData bytes
  | .addValue value => draft.addValue value

/-- What is drafted in steps, one after another. -/
def ofSteps (steps : List Step) : MessageDraft :=
  steps.foldl after empty

/-- What is in a draft: durability as it was set last, and all that was added. -/
theorem ofSteps_eq (steps : List Step) :
  ofSteps steps =
    ⟨(steps.filterMap Step.durable?).getLast?, steps.filterMap Step.property?,
      (steps.filterMap Step.part?).map MessageSections.describe⟩
  := by
  induction steps using List.reverseRecOn with
  | nil => rfl
  | append_singleton steps step ih =>
      rw [ofSteps, List.foldl_append, ← ofSteps, ih]
      cases step <;>
        simp [after, setDurable, addProperty, addData, addValue, Step.durable?, Step.property?,
          Step.part?, MessageSections.describe]

/-- The header, if durability is set. -/
def headerPart : Option Bool → List (UInt64 × Value)
  | some flag => [(Descriptor.headerCode, .list (withoutTrailingNulls [flagField flag]))]
  | none => []

/-- The section of the properties, if there are any. -/
def propertiesPart : List (Value × Value) → List (UInt64 × Value)
  | [] => []
  | pairs => [(Descriptor.applicationPropertiesCode, .map pairs)]

/-- The sections of a message that is drafted in steps. -/
def parts (steps : List Step) : List (UInt64 × Value) :=
  headerPart (steps.filterMap Step.durable?).getLast?
    ++ propertiesPart (steps.filterMap Step.property?)
    ++ steps.filterMap Step.part?

theorem sections_ofSteps (steps : List Step) :
  (ofSteps steps).sections = (parts steps).map MessageSections.describe
  := by
  rw [ofSteps_eq, sections, parts, List.map_append, List.map_append]
  congr 2
  · cases (steps.filterMap Step.durable?).getLast? <;> rfl
  · cases steps.filterMap Step.property? <;> rfl

end MessageDraft

/-! ### What is read -/

namespace MessageSections

open MessageDraft

/-- What there is to see in a message that is drafted in steps. -/
def drafted (steps : List Step) : MessageSections where
  durable := (steps.filterMap Step.durable?).getLast?.getD false
  priority := none
  applicationProperties := Value.normalPairs (steps.filterMap Step.property?)
  data := steps.filterMap Step.data?
  value := (steps.filterMap Step.value?).getLast?.map Value.normal

theorem addAll_header (flag : Option Bool) :
  empty.addAll (headerPart flag) = .ok { empty with durable := flag.getD false }
  := by
  cases flag with
  | none => rfl
  | some flag => cases flag <;> rfl

theorem addAll_properties {sections : MessageSections}
    (unset : sections.applicationProperties = []) (pairs : List (Value × Value)) :
  sections.addAll (propertiesPart pairs)
    = .ok { sections with applicationProperties := Value.normalPairs pairs }
  := by
  cases pairs with
  | nil =>
      obtain ⟨durable, priority, _, data, value⟩ := sections
      cases unset
      rfl
  | cons pair pairs =>
      rw [propertiesPart.eq_def, addAll_cons, Value.normal]
      rfl

/-- A step adds to the body what it adds to what is read. -/
theorem addAll_part (sections : MessageSections) (step : Step) :
  sections.addAll step.part?.toList
    = .ok { sections with
        data := sections.data ++ step.data?.toList
        value := (step.value?.map Value.normal).or sections.value }
  := by
  cases step with
  | addData bytes => rfl
  | addValue | setDurable | addProperty =>
      simp only [Step.data?, Option.toList_none, List.append_nil]
      rfl

/-- The sections of the body are read in order; of several values the last is kept. -/
theorem addAll_body (sections : MessageSections) (steps : List Step) :
  sections.addAll (steps.filterMap Step.part?)
    = .ok { sections with
        data := sections.data ++ steps.filterMap Step.data?
        value := ((steps.filterMap Step.value?).getLast?.map Value.normal).or sections.value }
  := by
  induction steps using List.reverseRecOn with
  | nil =>
      rw [List.filterMap_nil, List.filterMap_nil, List.append_nil]
      rfl
  | append_singleton steps step ih =>
      rw [filterMap_concat, addAll_append, ih]
      change addAll _ step.part?.toList = _
      rw [addAll_part, filterMap_concat, filterMap_concat, List.append_assoc,
        getLast?_append_toList]
      cases step.value? <;> rfl

theorem addAll_parts (steps : List Step) :
  empty.addAll (parts steps) = .ok (drafted steps)
  := by
  rw [parts, addAll_append, addAll_append, addAll_header, Fields.ok_bind,
    addAll_properties rfl, Fields.ok_bind, addAll_body, drafted]
  congr 2
  exact Option.or_none

/-- Of the properties with a key, the one that was added first is found. -/
theorem property?_drafted (steps : List Step) (key : String) :
  (drafted steps).property? key
    = (steps.findSome? (Step.propertyOf? key)).map Value.normal
  := by
  induction steps with
  | nil => rfl
  | cons step steps ih =>
      cases step with
      | addProperty other value =>
          rw [List.findSome?_cons, Step.propertyOf?, property?]
          change Option.map _ (List.find? _ ((Value.string other, Value.normal value)
            :: (drafted steps).applicationProperties)) = _
          by_cases same : other = key
          · rw [List.find?_cons_of_pos (by simpa [Value.toText?] using same), if_pos same]
            rfl
          · rw [List.find?_cons_of_neg (by simpa [Value.toText?] using same), if_neg same]
            exact ih
      | _ => exact ih

/-- A message is read as it was drafted. -/
theorem parse_ofSteps (steps : List Step)
    (fits : ∀ part ∈ (ofSteps steps).sections, part.Fits) :
  parse (ofSteps steps).encode = .ok (drafted steps)
    ∧ ∀ key, (drafted steps).property? key
      = (steps.findSome? (Step.propertyOf? key)).map Value.normal
  := by
  rw [sections_ofSteps, List.forall_mem_map] at fits
  rw [encode, sections_ofSteps, parse_encodeAll fits, addAll_parts]
  exact ⟨rfl, property?_drafted steps⟩

/-- A message in which durability and the value are set twice, and a property is added twice. -/
theorem parse_ofSteps_of_repeated :
  let steps : List Step :=
    [.addValue .null, .addProperty "kind" (.ubyte 1), .setDurable false,
      .addValue (.array [.ubyte 1, .ushort 2]), .setDurable true, .addData [7],
      .addProperty "kind" (.ubyte 2)]
  let sections : MessageSections :=
    ⟨true, none, [(.string "kind", .ubyte 1), (.string "kind", .ubyte 2)], [[7]],
      some (.list [.ubyte 1, .ushort 2])⟩
  (∀ part ∈ (ofSteps steps).sections, part.Fits)
    ∧ parse (ofSteps steps).encode = .ok sections
    ∧ sections.property? "kind" = some (.ubyte 1)
  := by
  intro steps sections
  have fits : ∀ part ∈ (ofSteps steps).sections, part.Fits := by
    have short : ∀ part ∈ (ofSteps steps).sections, part.encode.length < 2 ^ 32 := by
      decide +kernel
    intro part member
    exact Value.fits_of_length_lt part (short part member)
  obtain ⟨read, found⟩ := parse_ofSteps steps fits
  exact ⟨fits, read, found "kind"⟩

end MessageSections

end MessageBroker
