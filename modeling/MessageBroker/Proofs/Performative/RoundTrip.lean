import MessageBroker.Performative.Decoding
import MessageBroker.Performative.Encoding
import MessageBroker.Proofs.Performative.Normal

/-!
# Reading performatives back

Error reports, delivery states, the ends of links, the nine performatives and the controls of
transactions are read back from the composites that they are written as.  A state nests its
outcome, so this is by induction on the state; all else goes field by field.
-/

namespace MessageBroker

theorem Value.expectDescribed_composite (what : String) (code : UInt64) (fields : List Value) :
  (composite code fields).expectDescribed what = .ok (code, .list (withoutTrailingNulls fields))
  := rfl

theorem Catalogue.ofValue_composite {α : Type} {catalogue : Catalogue α} {code : UInt64}
    {entry : CompositeType α} (h : catalogue.find? code = some entry) (fields : List Value) :
  catalogue.ofValue (composite code fields) = entry.ofFields (.written entry.name fields)
  := by
  simp only [composite, Value.describedBy, ofValue, resolve, Fields.ok_bind, h]
  rfl

/-! ### Error reports -/

theorem ErrorReport.ofValue_toValue (report : ErrorReport) :
  ofValue report.toValue = .ok report
  := by
  rw [ofValue, toValue, Value.expectDescribed_composite, Fields.ok_bind]
  simp [Fields.ofValue_written]

instance ErrorReport.readBack : ReadBack ErrorReport.toValue ErrorReport.ofValue where
  there _ := rfl
  back := ofValue_toValue

/-! ### Delivery states -/

namespace DeliveryState

/-- Every state is a described value. -/
theorem exists_toValue_eq (state : DeliveryState) :
  ∃ descriptor body, state.toValue = .described descriptor body
  := by
  cases state <;> exact ⟨_, _, rfl⟩

theorem isNull_toValue (state : DeliveryState) :
  state.toValue.isNull = false
  := by
  obtain ⟨descriptor, body, h⟩ := state.exists_toValue_eq
  rw [h]
  rfl

theorem ofValue_composite {code : UInt64} (h : code ≠ Descriptor.transactionalStateCode)
    (fields : List Value) :
  ofValue (composite code fields) = ofSimple code (.list (withoutTrailingNulls fields))
  := by
  rw [composite, Value.describedBy, ofValue, if_neg h]

/-- A state is read back; one in a transaction with its outcome is if the outcome is. -/
theorem ofValue_toValue (state : DeliveryState) :
  ofValue state.toValue = .ok state
  := by
  induction state with
  | accepted => rfl
  | released => rfl
  | received sectionNumber sectionOffset =>
    rw [toValue, ofValue_composite (by decide), ofSimple, if_pos rfl]
    simp [Fields.ofValue_written]
  | rejected report =>
    rw [toValue, ofValue_composite (by decide), ofSimple, if_neg (by decide), if_neg (by decide),
      if_pos rfl]
    simp [Fields.ofValue_written]
  | modified deliveryFailed undeliverableHere =>
    rw [toValue, ofValue_composite (by decide), ofSimple, if_neg (by decide), if_neg (by decide),
      if_neg (by decide), if_neg (by decide), if_pos rfl]
    simp [Fields.ofValue_written]
  | declared transaction =>
    rw [toValue, ofValue_composite (by decide), ofSimple, if_neg (by decide), if_neg (by decide),
      if_neg (by decide), if_neg (by decide), if_neg (by decide), if_pos rfl]
    simp [Fields.ofValue_written]
  | transactional transaction => rfl
  | provisional transaction outcome ih =>
    have both : withoutTrailingNulls [.binary transaction, outcome.toValue] =
        [.binary transaction, outcome.toValue] :=
      withoutTrailingNulls_append_of_not_null [.binary transaction] (isNull_toValue outcome)
    rw [toValue, composite, Value.describedBy, both, ofValue, if_pos rfl]
    obtain ⟨descriptor, body, h⟩ := outcome.exists_toValue_eq
    rw [h] at ih ⊢
    change (ofValue (.described descriptor body) >>= fun outcome =>
      pure (DeliveryState.provisional transaction outcome)) = _
    rw [ih]
    rfl

instance readBack : ReadBack toValue ofValue where
  there := isNull_toValue
  back := ofValue_toValue

end DeliveryState

/-! ### The ends of links -/

theorem Attach.sourceOfValue_toValue (source : Source) :
  Attach.sourceOfValue source.toValue = .ok source
  := by
  rw [sourceOfValue, Source.toValue, Value.expectDescribed_composite, Fields.ok_bind]
  simp [Fields.ofValue_written, Source.ofFields]

instance Attach.readBack_source : ReadBack Source.toValue Attach.sourceOfValue where
  there _ := rfl
  back := sourceOfValue_toValue

theorem Target.ofValue_toValue (target : Target) :
  ofValue target.toValue = .ok target
  := by
  cases target with
  | node n =>
    rw [ofValue, toValue, Value.expectDescribed_composite, Fields.ok_bind]
    simp [Fields.ofValue_written, nodeOfFields]
  | coordinator capabilities =>
    rw [ofValue, toValue, Value.expectDescribed_composite, Fields.ok_bind]
    simp only [if_neg (by decide : ¬ Descriptor.coordinatorCode = Descriptor.targetCode)]
    simp [Fields.ofValue_written]

instance Target.readBack : ReadBack Target.toValue Target.ofValue where
  there target := by cases target <;> rfl
  back := ofValue_toValue

/-! ### Settle modes -/

theorem Value.readOptional_senderSettleMode (composite field : String) (mode : SenderSettleMode) :
  (Value.ubyte mode.code).readOptional composite field toSenderSettleMode? = .ok (some mode)
  := by
  cases mode <;> rfl

theorem Value.readOptional_receiverSettleMode (composite field : String)
    (mode : ReceiverSettleMode) :
  (Value.ubyte mode.code).readOptional composite field toReceiverSettleMode? = .ok (some mode)
  := by
  cases mode <;> rfl

instance Value.readBack_receiverSettleMode :
    ReadBack (.ubyte ∘ ReceiverSettleMode.code) toReceiverSettleMode? where
  there _ := rfl
  back mode := by cases mode <;> rfl

theorem Role.ofIsReceiver_isReceiver (role : Role) :
  ofIsReceiver role.isReceiver = role
  := by
  cases role <;> rfl

/-! ### Performatives -/

namespace Performative

/-- Every performative is read back from its composite. -/
theorem ofValue_toValue (p : Performative) :
  catalogue.ofValue p.toValue = .ok p
  := by
  cases p with
  | openConnection p =>
    rw [toValue, Open.toValue, Catalogue.ofValue_composite rfl]
    simp [Open.ofFields]
  | beginSession p =>
    rw [toValue, Begin.toValue, Catalogue.ofValue_composite rfl]
    simp [Begin.ofFields]
  | attach p =>
    rw [toValue, Attach.toValue, Catalogue.ofValue_composite rfl]
    simp [Attach.ofFields, Value.readOptional_senderSettleMode,
      Value.readOptional_receiverSettleMode, Role.ofIsReceiver_isReceiver]
  | flow p =>
    rw [toValue, Flow.toValue, Catalogue.ofValue_composite rfl]
    simp [Flow.ofFields]
  | transfer p =>
    rw [toValue, Transfer.toValue, Catalogue.ofValue_composite rfl]
    simp [Transfer.ofFields]
  | disposition p =>
    rw [toValue, Disposition.toValue, Catalogue.ofValue_composite rfl]
    simp [Disposition.ofFields, Role.ofIsReceiver_isReceiver]
  | detach p =>
    rw [toValue, Detach.toValue, Catalogue.ofValue_composite rfl]
    simp [Detach.ofFields]
  | endSession error =>
    rw [toValue, Catalogue.ofValue_composite rfl]
    simp
  | closeConnection error =>
    rw [toValue, Catalogue.ofValue_composite rfl]
    simp

end Performative

/-! ### Controls of transactions -/

/-- A control is read back unless its global identity is the absent value. -/
theorem TransactionControl.ofValue_toValue (control : TransactionControl)
    (there : ∀ globalId ∈ control.globalId?, globalId.isNull = false) :
  catalogue.ofValue control.toValue = .ok control
  := by
  cases control with
  | declare globalId =>
    rw [toValue, Catalogue.ofValue_composite rfl]
    cases globalId with
    | none => rfl
    | some value =>
      have nested : value.readNested .ok = .ok (some value) :=
        Value.readNested_of_there (there value rfl) rfl
      simp [declareOfFields, fieldOf, nested]
  | discharge transaction fail =>
    rw [toValue, Catalogue.ofValue_composite rfl]
    simp [dischargeOfFields]

end MessageBroker
