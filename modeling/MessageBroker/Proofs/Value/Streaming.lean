import MessageBroker.Proofs.Value.RoundTrip
import MessageBroker.Proofs.Wire.Streaming

/-!
# Values in a stream

A value can be read while the stream that it stands in is still arriving.  A compound looks ahead:
it asks at once for all that its size announces, and it is refused if it ends elsewhere, so that in
the end it has taken all that it looked at.
-/

namespace MessageBroker

open Reader

namespace Value

variable {takesAll : Prop} {value value' : Reader Value} {body body' : UInt8 → Reader Value}

/-! ### Texts and byte strings -/

theorem streams_readSized (width : Nat) :
  Streams takesAll (readSized width)
  := by
  apply (streams_number width).bind
  intro size
  apply streams_take

theorem streams_readText (width : Nat) :
  Streams takesAll (readText width)
  := by
  apply (streams_readSized width).bind
  intro bytes
  split
  · apply Streams.pure
  · apply Streams.malformed

/-! ### Compounds -/

theorem streams_readCompoundHeader (width : Nat) :
  Streams False (readCompoundHeader width)
  := by
  apply (streams_number width).bind
  intro size
  split
  · exact (Streams.malformed _).bind fun _ => (streams_need size).bind fun _ =>
      (streams_number width).bind fun _ => Streams.place.bind fun _ => .pure _
  · exact (streams_need size).bind fun _ =>
      (streams_number width).bind fun _ => Streams.place.bind fun _ => .pure _

/-- The size of a compound makes its reader look as far as its end. -/
theorem finds_readCompoundHeader {width position stop count : Nat} {bytes : Bytes}
    {cursor : Cursor} (h : readCompoundHeader width ⟨position, bytes⟩ = .ok (stop, count) cursor) :
  ∃ taken reach, Finds (readCompoundHeader width) position bytes (stop, count) taken reach
    ∧ position + reach = stop
  := by
  obtain ⟨size, middle, hsize, hrest⟩ := exists_of_bind_ok h
  obtain ⟨sized, rfl⟩ := finds_number hsize
  split at hrest
  · contradiction
  · next covers =>
      obtain ⟨⟨⟩, middle, hneed, hrest⟩ := exists_of_bind_ok hrest
      have needs := finds_need (position + width) (there_of_need _ hneed)
      obtain rfl := needs.left hneed
      obtain ⟨count', middle', hcount, hrest⟩ := exists_of_bind_ok hrest
      obtain ⟨counted, rfl⟩ := finds_number hcount
      cases hrest
      have places : Finds (Reader.position >>= fun place => pure (place + (size - width), count))
          (position + width + 0 + width) (((bytes.drop width).drop 0).drop width)
          (position + width + 0 + width + (size - width), count) 0 0 := by
        apply finds_of_none
        intro octets
        rfl
      refine ⟨width + (0 + (width + 0)), max width (width + max size (0 + max width (width + 0))),
        sized.bind ?_, ?_⟩
      · rw [if_neg covers]
        exact needs.bind (counted.bind places)
      · dsimp only
        omega

theorem streams_expectEnd (stop : Nat) :
  Streams takesAll (expectEnd stop)
  := by
  apply Streams.place.bind
  intro position
  split
  · apply Streams.pure
  · apply Streams.malformed

theorem finds_expectEnd {position stop : Nat} {bytes : Bytes} {cursor : Cursor}
    (h : expectEnd stop ⟨position, bytes⟩ = .ok () cursor) :
  position = stop ∧ cursor = ⟨position, bytes⟩ ∧ Finds (expectEnd stop) position bytes () 0 0
  := by
  obtain ⟨position', middle, hplace, hrest⟩ := exists_of_bind_ok h
  cases hplace
  split at hrest
  · next ended =>
      subst ended
      cases hrest
      exact ⟨rfl, rfl, finds_of_none (expectEnd_self position) bytes⟩
  · contradiction

/-- A compound streams if what it holds does. -/
theorem streams_readCompound {α : Type} {inner : Nat → Reader α}
    (held : ∀ count, Streams True (inner count)) (width : Nat) :
  Streams True (readCompound inner width)
  := by
  constructor
  case refuses =>
    have loose : Streams False (readCompound inner width) :=
      (streams_readCompoundHeader width).bind fun (stop, count) =>
        (held count).loosen.bind fun _ => (streams_expectEnd stop).bind fun _ => .pure _
    intro position bytes error cursor h
    exact loose.refuses h
  case finds =>
    intro position bytes a cursor h
    obtain ⟨⟨stop, count⟩, middle, hheader, hrest⟩ := exists_of_bind_ok h
    obtain ⟨taken, reach, header, ahead⟩ := finds_readCompoundHeader hheader
    obtain rfl := header.left hheader
    obtain ⟨a', middle, hinner, hrest⟩ := exists_of_bind_ok hrest
    obtain ⟨taken', reach', inner, all, rfl⟩ := (held count).exists_finds hinner
    obtain ⟨⟨⟩, middle, hend, hrest⟩ := exists_of_bind_ok hrest
    obtain ⟨ended, rfl, ends⟩ := finds_expectEnd hend
    cases hrest
    have gives : Finds (pure a : Reader α) (position + taken + taken' + 0)
        (((bytes.drop taken).drop taken').drop 0) a 0 0 :=
      finds_of_none (fun _ => rfl) _
    refine ⟨_, _, header.bind (inner.bind (ends.bind gives)), fun _ => ?_⟩
    have taken_le := header.taken_le
    rw [all trivial]
    omega

theorem streams_readPairs (values : Streams True value) (width : Nat) :
  Streams True (readPairs value width)
  := by
  apply (streams_readCompound (streams_many values) width).bind
  intro items
  split
  · apply Streams.pure
  · apply Streams.malformed

theorem streams_readDescriptor (values : Streams True value) :
  Streams True (readDescriptor value)
  := by
  apply values.bind
  intro item
  split
  · apply Streams.pure
  · split
    · apply Streams.pure
    · apply Streams.malformed

theorem streams_readMemberForm (values : Streams True value) :
  Streams True (readMemberForm value)
  := by
  apply streams_octet.bind
  intro code
  split
  · exact (streams_readDescriptor values).bind fun _ => streams_octet.bind fun _ => .pure _
  · apply Streams.pure

theorem streams_readMembers (values : Streams True value)
    (bodies : ∀ code, Streams True (body code)) (width : Nat) :
  Streams True (readMembers value body width)
  := by
  rw [readMembers_eq]
  apply streams_readCompound
  intro count
  apply (streams_readMemberForm values).bind
  intro (code, descriptor)
  exact streams_many ((bodies code).map _) count

/-! ### Values -/

theorem streams_readBodyOf (values : Streams True value)
    (bodies : ∀ code, Streams True (body code)) (constructor : Constructor) :
  Streams True (readBodyOf value body constructor)
  := by
  cases constructor
  case null | true | false | uint0 | ulong0 | list0 => apply Streams.pure
  case ubyte | byte | smallUint | smallUlong | smallInt | smallLong | boolean =>
    exact streams_octet.bind fun _ => .pure _
  case ushort | short | uint | int | ulong | long | timestamp | uuid =>
    exact (streams_number _).bind fun _ => .pure _
  case binary8 | binary32 => exact (streams_readSized _).bind fun _ => .pure _
  case string8 | string32 | symbol8 | symbol32 => exact (streams_readText _).bind fun _ => .pure _
  case list8 | list32 =>
    exact (streams_readCompound (streams_many values) _).bind fun _ => .pure _
  case map8 | map32 => exact (streams_readPairs values _).bind fun _ => .pure _
  case array8 | array32 => exact (streams_readMembers values bodies _).bind fun _ => .pure _

theorem streams_readCodedBody (values : Streams True value)
    (bodies : ∀ code, Streams True (body code)) (code : UInt8) :
  Streams True (readCodedBody value body code)
  := by
  rw [readCodedBody]
  split
  · exact streams_readBodyOf values bodies _
  · apply Streams.throw

theorem streams_readWith (values : Streams True value)
    (bodies : ∀ code, Streams True (body code)) :
  Streams True (readWith value body)
  := by
  apply streams_octet.bind
  intro code
  split
  · exact (streams_readDescriptor values).bind fun _ => values.bind fun _ => .pure _
  · apply bodies

theorem bodyReader_eq_zero (code : UInt8) :
  bodyReader 0 code = readCodedBody readNothing (fun _ => readNothing) code
  := by
  funext cursor
  rw [bodyReader, readBodyWithin]

theorem bodyReader_eq_succ (depth : Nat) (code : UInt8) :
  bodyReader (depth + 1) code = readCodedBody (valueReader depth) (bodyReader depth) code
  := by
  funext cursor
  rw [bodyReader, readBodyWithin]
  rfl

theorem streams_reader (depth : Nat) :
  Streams True (valueReader depth) ∧ ∀ code, Streams True (bodyReader depth code)
  := by
  have nothing : Streams True readNothing := Streams.throw _
  induction depth with
  | zero =>
      refine ⟨?_, fun code => ?_⟩
      · exact nothing
      · rw [bodyReader_eq_zero]
        exact streams_readCodedBody nothing (fun _ => nothing) code
  | succ depth ih =>
      obtain ⟨values, bodies⟩ := ih
      refine ⟨?_, fun code => ?_⟩
      · rw [valueReader_succ]
        exact streams_readWith values bodies
      · rw [bodyReader_eq_succ]
        exact streams_readCodedBody values bodies code

/-! ### Depth -/

section Depth

variable {n : Nat}

theorem advances_readCompoundHeader {width : Nat} (wide : 0 < width) :
  Advances (readCompoundHeader width)
  := by
  intro cursor header cursor' h
  obtain ⟨size, middle, hsize, hrest⟩ := exists_of_bind_ok h
  have shorter := advances_number wide hsize
  split at hrest
  · contradiction
  · obtain ⟨⟨⟩, middle', hneed, hrest⟩ := exists_of_bind_ok hrest
    obtain ⟨count, middle'', hcount, hrest⟩ := exists_of_bind_ok hrest
    cases hrest
    have needed := (streams_need size).length_rest_le hneed
    have counted := advances_number wide hcount
    exact Nat.lt_trans counted (Nat.lt_of_le_of_lt needed shorter)

/-- The octets of a compound come after its size. -/
theorem agree_readCompound {α : Type} {inner inner' : Nat → Reader α} {width : Nat}
    (wide : 0 < width) (held : ∀ count, Streams True (inner count))
    (agree : ∀ count, Agree n (inner count) (inner' count)) :
  Agree (n + 1) (readCompound inner width) (readCompound inner' width)
  := by
  apply Agree.after (advances_readCompoundHeader wide)
  intro (stop, count)
  exact (agree count).bind (held count) fun _ => .refl n _

theorem agree_readPairs {width : Nat} (wide : 0 < width) (values : Streams True value)
    (agree : Agree n value value') :
  Agree (n + 1) (readPairs value width) (readPairs value' width)
  := by
  have items := agree_readCompound wide (streams_many values) (agree.many values)
  exact items.bind (streams_readCompound (streams_many values) width) fun _ => .refl _ _

theorem agree_readDescriptor (values : Streams True value) (agree : Agree n value value') :
  Agree n (readDescriptor value) (readDescriptor value')
  := agree.bind values fun _ => .refl n _

theorem agree_readMemberForm (values : Streams True value) (agree : Agree n value value') :
  Agree (n + 1) (readMemberForm value) (readMemberForm value')
  := by
  apply Agree.after advances_octet
  intro code
  split
  · exact (agree_readDescriptor values agree).bind (streams_readDescriptor values)
      fun _ => .refl n _
  · apply Agree.refl

theorem agree_readMembers {width : Nat} (wide : 0 < width) (values : Streams True value)
    (bodies : ∀ code, Streams True (body code)) (agree : Agree n value value')
    (agreeBodies : ∀ code, Agree n (body code) (body' code)) :
  Agree (n + 1) (readMembers value body width) (readMembers value' body' width)
  := by
  rw [readMembers_eq, readMembers_eq]
  apply agree_readCompound wide
  · intro count
    exact (streams_readMemberForm values).bind fun (code, _) =>
      streams_many ((bodies code).map _) count
  · intro count
    have form : Agree n (readMemberForm value) (readMemberForm value') :=
      fun cursor short => agree_readMemberForm values agree cursor (Nat.lt_succ_of_lt short)
    apply form.bind (streams_readMemberForm values)
    intro (code, descriptor)
    exact ((agreeBodies code).map _ (bodies code)).many ((bodies code).map _) count

theorem agree_readCodedBody (values : Streams True value)
    (bodies : ∀ code, Streams True (body code)) (agree : Agree n value value')
    (agreeBodies : ∀ code, Agree n (body code) (body' code)) (code : UInt8) :
  Agree (n + 1) (readCodedBody value body code) (readCodedBody value' body' code)
  := by
  have one : 0 < 1 := by decide
  have four : 0 < 4 := by decide
  rw [readCodedBody, readCodedBody]
  cases Constructor.ofCode? code with
  | none => apply Agree.refl
  | some constructor =>
      have items (width : Nat) := streams_readCompound (streams_many values) width
      cases constructor
      case list8 =>
        exact (agree_readCompound one (streams_many values) (agree.many values)).bind (items 1)
          fun _ => .refl _ _
      case list32 =>
        exact (agree_readCompound four (streams_many values) (agree.many values)).bind (items 4)
          fun _ => .refl _ _
      case map8 =>
        exact (agree_readPairs one values agree).bind (streams_readPairs values 1)
          fun _ => .refl _ _
      case map32 =>
        exact (agree_readPairs four values agree).bind (streams_readPairs values 4)
          fun _ => .refl _ _
      case array8 =>
        exact (agree_readMembers one values bodies agree agreeBodies).bind
          (streams_readMembers values bodies 1) fun _ => .refl _ _
      case array32 =>
        exact (agree_readMembers four values bodies agree agreeBodies).bind
          (streams_readMembers values bodies 4) fun _ => .refl _ _
      all_goals apply Agree.refl

theorem agree_readWith (values : Streams True value) (agree : Agree n value value')
    (agreeBodies : ∀ code, Agree n (body code) (body' code)) :
  Agree (n + 1) (readWith value body) (readWith value' body')
  := by
  apply Agree.after advances_octet
  intro code
  split
  · apply (agree_readDescriptor values agree).bind (streams_readDescriptor values)
    intro descriptor
    exact agree.bind values fun _ => .refl n _
  · apply agreeBodies

/-- Where no more octets are left than the depth, one more makes no difference. -/
theorem agree_reader_succ (depth : Nat) :
  Agree (depth + 1) (valueReader depth) (valueReader (depth + 1)) ∧
    ∀ code, Agree (depth + 1) (bodyReader depth code) (bodyReader (depth + 1) code)
  := by
  induction depth with
  | zero =>
      refine ⟨fun cursor short => ?_, fun code => ?_⟩
      · obtain ⟨position, rest⟩ := cursor
        obtain rfl : rest = [] := List.eq_nil_of_length_eq_zero (Nat.lt_one_iff.mp short)
        rfl
      · have nothing : Streams True readNothing := Streams.throw _
        rw [bodyReader_eq_zero, bodyReader_eq_succ]
        apply agree_readCodedBody nothing (fun _ => nothing)
        · intro cursor short
          contradiction
        · intro code cursor short
          contradiction
  | succ depth ih =>
      obtain ⟨agree, agreeBodies⟩ := ih
      obtain ⟨values, bodies⟩ := streams_reader depth
      refine ⟨?_, fun code => ?_⟩
      · rw [valueReader_succ, valueReader_succ (depth + 1)]
        exact agree_readWith values agree agreeBodies
      · rw [bodyReader_eq_succ, bodyReader_eq_succ (depth + 1)]
        exact agree_readCodedBody values bodies agree agreeBodies code

theorem agree_reader_add (depth more : Nat) :
  Agree (depth + 1) (valueReader depth) (valueReader (depth + more))
  := by
  induction more with
  | zero => apply Agree.refl
  | succ more ih =>
      intro cursor short
      rw [ih cursor short]
      exact (agree_reader_succ (depth + more)).1 cursor (by omega)

/-- A depth of as many octets as are left is never felt. -/
theorem valueReader_eq_read {depth : Nat} {cursor : Cursor} (deep : cursor.rest.length ≤ depth) :
  valueReader depth cursor = read cursor
  := by
  obtain ⟨more, rfl⟩ := Nat.le.dest deep
  exact (agree_reader_add cursor.rest.length more cursor (Nat.lt_succ_self _)).symm

end Depth

/-- A value is found at the front of `bytes` by the readers of every depth that is not felt
there. -/
theorem finds_valueReader {position : Nat} {bytes : Bytes} {item : Value} {cursor : Cursor}
    (h : read ⟨position, bytes⟩ = .ok item cursor) :
  ∃ taken, cursor = ⟨position + taken, bytes.drop taken⟩ ∧
    ∀ depth, bytes.length ≤ depth → Finds (valueReader depth) position bytes item taken taken
  := by
  have streams (depth : Nat) := (streams_reader depth).1
  obtain ⟨taken, -, -, -, rfl⟩ := (streams bytes.length).exists_finds h
  refine ⟨taken, rfl, fun depth deep => ?_⟩
  rw [← @valueReader_eq_read depth ⟨position, bytes⟩ deep] at h
  obtain ⟨taken', reach, finds, all, same⟩ := (streams depth).exists_finds h
  rw [Cursor.mk.injEq, Nat.add_left_cancel_iff] at same
  rw [all trivial, ← same.1] at finds
  exact finds

theorem streams_read :
  Streams True read
  := by
  constructor
  case finds =>
    intro position bytes item cursor h
    obtain ⟨taken, -, finds⟩ := finds_valueReader h
    refine ⟨taken, taken, ⟨Nat.le_refl taken, ?_, ?_, ?_⟩, fun _ => rfl⟩
    case refine_1 => exact (finds bytes.length (Nat.le_refl _)).reach_le
    case refine_2 =>
      intro octets infront
      rw [← valueReader_eq_read (Nat.le_add_left octets.length bytes.length)]
      exact (finds _ (Nat.le_add_right _ _)).found octets infront
    case refine_3 =>
      intro cut short
      rw [← valueReader_eq_read (List.length_take_le' cut bytes)]
      exact (finds _ (Nat.le_refl _)).starved cut short
  case refuses =>
    intro position bytes error cursor h refused more
    have longer : bytes.length ≤ (bytes ++ more).length := by simp
    rw [← valueReader_eq_read longer] at h
    exact (streams_reader _).1.refuses h refused more

/-- There is no value without octets. -/
theorem read_nil (position : Nat) :
  read ⟨position, []⟩ = .error (.insufficientData 1) ⟨position, []⟩
  := rfl

/-- Decoding can be run on the first octets of a stream.  What it finds and what it refuses stay
the same when further octets arrive; and where octets of a value are missing, it asks for some of
them and for no others. -/
theorem decode_streams (bytes more : Bytes) :
  (∀ item size, decode bytes = .ok (item, size) →
    1 ≤ size ∧ size ≤ bytes.length ∧ decode (bytes ++ more) = .ok (item, size) ∧
      ∀ cut < size, ∃ needed, decode (bytes.take cut) = .error (.insufficientData needed) ∧
        1 ≤ needed ∧ needed ≤ size - cut) ∧
  (∀ error, decode bytes = .error error → (∀ needed, error ≠ .insufficientData needed) →
    decode (bytes ++ more) = .error error)
  := by
  constructor
  case left =>
    intro item size h
    obtain ⟨rest, hread⟩ := runOn_eq_ok_iff.mp h
    obtain ⟨taken, reach, finds, all, cursor_eq⟩ := streams_read.exists_finds hread
    obtain ⟨rfl, -⟩ := (Cursor.mk.injEq ..).mp cursor_eq
    rw [all trivial] at finds
    rw [Nat.zero_add]
    refine ⟨?_, finds.reach_le, ?_, fun cut short => ?_⟩
    · apply Nat.pos_of_ne_zero
      rintro rfl
      have nowhere := finds.found [] (List.nil_prefix)
      rw [read_nil] at nowhere
      contradiction
    · have there := finds.found (bytes ++ more)
        ((List.take_prefix _ _).trans (List.prefix_append _ _))
      rw [Nat.zero_add] at there
      exact runOn_eq_ok_iff.mpr ⟨_, there⟩
    · obtain ⟨needed, cursor, starved, positive, bound⟩ := finds.starved cut short
      exact ⟨needed, runOn_eq_error_iff.mpr ⟨cursor, starved⟩, positive, by omega⟩
  case right =>
    intro error h refused
    obtain ⟨cursor, hread⟩ := runOn_eq_error_iff.mp h
    exact runOn_eq_error_iff.mpr (streams_read.refuses hread refused more)

/-- A list in a list, cut after its count, and a list that is smaller than its count. -/
theorem decode_streams_of_nested :
  let nested : Bytes := [0xc0, 0x04, 0x02, 0x45, 0x50, 0x07]
  let small : Bytes := [0xc0, 0x00]
  decode nested = .ok (.list [.list [], .ubyte 7], 6) ∧
    decode (nested ++ [0x40]) = .ok (.list [.list [], .ubyte 7], 6) ∧
    (∃ needed, decode (nested.take 3) = .error (.insufficientData needed) ∧
      1 ≤ needed ∧ needed ≤ 6 - 3) ∧
    decode small = .error (.malformed .sizeBelowCount) ∧
    decode (small ++ [0x40]) = .error (.malformed .sizeBelowCount)
  := by
  intro nested small
  have found : decode nested = .ok (.list [.list [], .ubyte 7], 6) := rfl
  have refused : decode small = .error (.malformed .sizeBelowCount) := rfl
  obtain ⟨-, -, more, starved⟩ := (decode_streams nested [0x40]).1 _ _ found
  exact ⟨found, more, starved 3 (by decide), refused,
    (decode_streams small [0x40]).2 _ refused (by simp)⟩

end Value

end MessageBroker
