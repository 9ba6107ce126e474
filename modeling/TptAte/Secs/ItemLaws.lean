import TptAte.Secs.Item

/-! # Laws of the SECS-II item codec

What the encoder writes the decoder reads back, whatever follows, and the
encoder succeeds exactly on the items whose lengths three bytes can hold.
-/

namespace Secs

open Wire

/-! ## Headers -/

/-- The format and the number of length bytes are read back from the header. -/
theorem fromByte_header (format : FormatCode) {bits : Nat} (hpos : 0 < bits) (hle : bits ≤ 3) :
    FormatCode.fromByte (format.code ||| UInt8.ofNat bits) = some format ∧
      lengthBits (format.code ||| UInt8.ofNat bits) = bits := by
  obtain rfl | rfl | rfl : bits = 1 ∨ bits = 2 ∨ bits = 3 := by omega
  all_goals cases format <;> decide

/-- A payload has one to three length bytes. -/
theorem length_lengthBytes (length : Nat) :
    0 < (lengthBytes length).length ∧ (lengthBytes length).length ≤ 3 := by
  unfold lengthBytes
  split
  · simp
  split <;> simp

/-- A length up to the maximum is read back from its bytes. -/
theorem lengthOf_lengthBytes {length : Nat} (hle : length ≤ maxLength) :
    lengthOf (lengthBytes length) = length := by
  rw [maxLength] at hle
  rw [lengthOf_eq]
  unfold lengthBytes
  split
  · simp [Endian.value, leValue]
    omega
  split
  · simp [Endian.value, leValue, Nat.shiftRight_eq_div_pow]
    omega
  · simp [Endian.value, leValue, Nat.shiftRight_eq_div_pow]
    omega

/-- The parts of a header that was written. -/
theorem pushHeader_eq_some {format : FormatCode} {length : Nat} {header : Bytes} :
    pushHeader format length = some header ↔
      length ≤ maxLength ∧
        header = (format.code ||| UInt8.ofNat (lengthBytes length).length) ::
          lengthBytes length := by
  unfold pushHeader
  split
  next hle => simp [hle, eq_comm]
  next hlarge => simp [hlarge]

theorem exists_header (format : FormatCode) {length : Nat} (hle : length ≤ maxLength) :
    ∃ header, pushHeader format length = some header :=
  ⟨_, if_pos hle⟩

/-- Behind a header byte and its length bytes stand as many items, or a payload of that
length. -/
theorem decodeItem_header {header : UInt8} {format : FormatCode} {length : Bytes}
    (hformat : FormatCode.fromByte header = some format)
    (hlength : length.length = lengthBits header) (hpos : 0 < length.length) (body : Bytes) :
    decodeItem (header :: (length ++ body)) =
      if hlist : format = .list then do
        let (items, cursor) ← decodeItems (lengthOf length) body
        return (.list items, (header :: (length ++ body)).length - cursor.length)
      else if body.length < lengthOf length then
        .error (.itemLengthOverflow (lengthOf length) body.length)
      else .ok (flatItem format hlist (body.take (lengthOf length)),
        1 + length.length + lengthOf length) := by
  rw [decodeItem, hformat]
  dsimp only
  rw [if_neg (by omega), if_neg (by simp [← hlength]), ← hlength, List.take_left, List.drop_left]

/-- A flat item is read back from its header and payload. -/
theorem decodeItem_flat {format : FormatCode} (hflat : format ≠ .list) {header payload : Bytes}
    (hheader : pushHeader format payload.length = some header) (tail : Bytes) :
    decodeItem (header ++ payload ++ tail) =
      .ok (flatItem format hflat payload, (header ++ payload).length) := by
  obtain ⟨hle, rfl⟩ := pushHeader_eq_some.mp hheader
  obtain ⟨hpos, hthree⟩ := length_lengthBytes payload.length
  obtain ⟨hformat, hbits⟩ := fromByte_header format hpos hthree
  rw [List.append_assoc, List.cons_append, decodeItem_header hformat hbits.symm hpos,
    dif_neg hflat, lengthOf_lengthBytes hle, if_neg (by simp), List.take_left]
  simp only [List.length_cons, List.length_append]
  congr 2
  omega

/-- A list is read back from its header and its items. -/
theorem decodeItem_list {items : List SecsItem} {header bytes tail : Bytes}
    (hheader : pushHeader .list items.length = some header)
    (hitems : decodeItems items.length (bytes ++ tail) = .ok (items, tail)) :
    decodeItem (header ++ bytes ++ tail) = .ok (.list items, (header ++ bytes).length) := by
  obtain ⟨hle, rfl⟩ := pushHeader_eq_some.mp hheader
  obtain ⟨hpos, hthree⟩ := length_lengthBytes items.length
  obtain ⟨hformat, hbits⟩ := fromByte_header .list hpos hthree
  rw [List.append_assoc, List.cons_append, decodeItem_header hformat hbits.symm hpos, dif_pos rfl,
    lengthOf_lengthBytes hle, hitems]
  simp only [Reader.ok_bind, Reader.pure_eq_ok, List.length_cons, List.length_append]
  congr 2
  omega

/-- A decoded item has a header and length bytes; behind them are the items of a list,
or a payload of that length. -/
theorem decodeItem_cases {header : UInt8} {data : Bytes} {item : SecsItem} {used : Nat}
    (hdecode : decodeItem (header :: data) = .ok (item, used)) :
    ∃ format length body, FormatCode.fromByte header = some format ∧ data = length ++ body ∧
      length.length = lengthBits header ∧ 0 < length.length ∧
      ((format = .list ∧ ∃ items rest, decodeItems (lengthOf length) body = .ok (items, rest) ∧
          item = .list items ∧ used = (header :: (length ++ body)).length - rest.length) ∨
        ∃ hflat : format ≠ .list, lengthOf length ≤ body.length ∧
          item = flatItem format hflat (body.take (lengthOf length)) ∧
          used = 1 + length.length + lengthOf length) := by
  rw [decodeItem] at hdecode
  cases hformat : FormatCode.fromByte header with
  | none =>
      rw [hformat] at hdecode
      simp at hdecode
  | some format =>
      rw [hformat] at hdecode
      dsimp only at hdecode
      split at hdecode
      · simp at hdecode
      split at hdecode
      · simp at hdecode
      next hbits hcomplete =>
        have hlength : (data.take (lengthBits header)).length = lengthBits header := by
          rw [List.length_take]
          omega
        -- the header is accepted and its length bytes are there
        refine ⟨format, data.take (lengthBits header), data.drop (lengthBits header), rfl,
          (List.take_append_drop _ _).symm, hlength, by omega, ?_⟩
        split at hdecode
        next hlist =>
          cases hitems : decodeItems (lengthOf (data.take (lengthBits header)))
              (data.drop (lengthBits header)) with
          | error error =>
              rw [hitems] at hdecode
              simp at hdecode
          | ok result =>
              rw [hitems] at hdecode
              cases hdecode
              rw [List.take_append_drop]
              exact .inl ⟨hlist, _, _, rfl, rfl, rfl⟩
        next hflat =>
          split at hdecode
          · simp at hdecode
          next hle =>
            cases hdecode
            rw [hlength]
            exact .inr ⟨hflat, not_lt.mp hle, rfl, rfl⟩

/-- One more item is decoded in front of the others. -/
theorem decodeItems_succ_eq_ok {count : Nat} {cursor rest : Bytes} {items : List SecsItem} :
    decodeItems (count + 1) cursor = .ok (items, rest) ↔
      ∃ item used others, decodeItem cursor = .ok (item, used) ∧
        decodeItems count (cursor.drop used) = .ok (others, rest) ∧ items = item :: others := by
  rw [decodeItems]
  cases hitem : decodeItem cursor with
  | error error => simp
  | ok result =>
      obtain ⟨item, used⟩ := result
      rw [Reader.ok_bind]
      dsimp only
      cases hitems : decodeItems count (cursor.drop used) with
      | error error =>
          simp only [Reader.error_bind, reduceCtorEq, false_iff]
          rintro ⟨_, _, _, hsame, hothers, -⟩
          cases hsame
          rw [hitems] at hothers
          cases hothers
      | ok result =>
          obtain ⟨others, rest'⟩ := result
          constructor
          · intro hdecode
            cases hdecode
            exact ⟨item, used, others, rfl, hitems, rfl⟩
          · rintro ⟨_, _, _, hsame, hothers, rfl⟩
            cases hsame
            rw [hitems] at hothers
            cases hothers
            rfl

/-! ## Payloads -/

/-- Numbers of a fixed width are read back from their bytes. -/
theorem decodeFixed_flatMap {α : Type} (word : Word α) (values : List α) :
    decodeFixed word (values.flatMap (word.bytes .big)) = values := by
  have hwidth := word.width_pos
  induction values with
  | nil =>
      rw [decodeFixed, if_neg]
      simpa using hwidth.ne'
  | cons value values ih =>
      have hvalue : Endian.big.value (word.bytes .big value) = word.toNat value :=
        Endian.value_bytes _ _ _ (word.toNat_lt value)
      have hlength := word.length_bytes .big value
      rw [List.flatMap_cons, decodeFixed, if_pos (by simp), List.take_left' hlength,
        List.drop_left' hlength, ih, hvalue, word.ofNat_toNat]

theorem length_flatMap_bytes {α : Type} (word : Word α) (values : List α) :
    (values.flatMap (word.bytes .big)).length = values.length * word.width := by
  induction values with
  | nil => simp
  | cons value values ih =>
      rw [List.flatMap_cons, List.length_append, ih, word.length_bytes, List.length_cons,
        Nat.succ_mul, Nat.add_comm]

/-- The bytes of a byte are the byte. -/
theorem flatMap_u8 (values : Bytes) : values.flatMap (Word.u8.bytes .big) = values := by
  induction values with
  | nil => rfl
  | cons value values ih =>
      rw [List.flatMap_cons, ih]
      simp [Word.bytes, Word.u8, Endian.bytes, leBytes]

theorem map_ne_zero_toUInt8 (values : List Bool) :
    (values.map Bool.toUInt8).map (· != 0) = values := by
  induction values with
  | nil => rfl
  | cons value values ih =>
      rw [List.map_cons, List.map_cons, ih]
      cases value <;> rfl

/-! ## The round trip -/

namespace SecsItem

/-- The count that the header of an item carries. -/
def lengthCount : SecsItem → Nat
  | .list items => items.length
  | .binary values => values.length
  | .boolean values => values.length
  | .ascii text => (asBytes text).length
  | .jis bytes => bytes.length
  | .i8 values => values.length * 8
  | .i1 values => values.length
  | .i2 values => values.length * 2
  | .i4 values => values.length * 4
  | .f8 values => values.length * 8
  | .f4 values => values.length * 4
  | .u8 values => values.length * 8
  | .u1 values => values.length
  | .u2 values => values.length * 2
  | .u4 values => values.length * 4

mutual

/-- Three bytes can hold the length of every item, at every depth. -/
def Encodable : SecsItem → Prop
  | .list items => items.length ≤ maxLength ∧ AllEncodable items
  | item => item.lengthCount ≤ maxLength

def AllEncodable : List SecsItem → Prop
  | [] => True
  | item :: items => item.Encodable ∧ AllEncodable items

end

end SecsItem

/-- What is encoded is read back, whatever follows. -/
def ReadBack (item : SecsItem) : Prop :=
  ∃ bytes, item.encode = some bytes ∧
    ∀ tail, decodeItem (bytes ++ tail) = .ok (item, bytes.length)

/-- The same for the items of a list. -/
def ReadsBack (items : List SecsItem) : Prop :=
  ∃ bytes, encodeItems items = some bytes ∧
    ∀ tail, decodeItems items.length (bytes ++ tail) = .ok (items, tail)

/-- An item without items in it is read back from its payload. -/
theorem readBack_flat (format : FormatCode) (hflat : format ≠ .list) {item : SecsItem}
    {payload : Bytes} (hle : payload.length ≤ maxLength)
    (hencode : item.encode = (· ++ payload) <$> pushHeader format payload.length)
    (hitem : flatItem format hflat payload = item) : ReadBack item := by
  obtain ⟨header, hheader⟩ := exists_header format hle
  refine ⟨header ++ payload, by rw [hencode, hheader]; rfl, fun tail => ?_⟩
  rw [decodeItem_flat hflat hheader, hitem]

/-- The case of the fixed-width arrays. -/
theorem readBack_fixed {α : Type} (format : FormatCode) (hflat : format ≠ .list)
    (word : Word α) {values : List α} {item : SecsItem} (hle : item.lengthCount ≤ maxLength)
    (hcount : values.length * word.width = item.lengthCount)
    (hencode : item.encode = pushFixed format word values)
    (hitem : flatItem format hflat (values.flatMap (word.bytes .big)) = item) : ReadBack item := by
  have hlength := length_flatMap_bytes word values
  refine readBack_flat format hflat ((hlength.trans hcount).trans_le hle) ?_ hitem
  rw [hencode, pushFixed, hlength]

/-- A list is read back if its items are. -/
theorem readBack_list {items : List SecsItem} (hle : items.length ≤ maxLength)
    (hitems : ReadsBack items) : ReadBack (.list items) := by
  obtain ⟨bytes, hencode, hdecode⟩ := hitems
  obtain ⟨header, hheader⟩ := exists_header .list hle
  refine ⟨header ++ bytes, by simp [SecsItem.encode, hheader, hencode], fun tail => ?_⟩
  exact decodeItem_list hheader (hdecode tail)

theorem readsBack_nil : ReadsBack [] := ⟨[], rfl, fun tail => by simp [decodeItems]⟩

theorem readsBack_cons {item : SecsItem} {items : List SecsItem} (hitem : ReadBack item)
    (hitems : ReadsBack items) : ReadsBack (item :: items) := by
  obtain ⟨bytes, hencode, hdecode⟩ := hitem
  obtain ⟨rest, hrest, hdecodeRest⟩ := hitems
  refine ⟨bytes ++ rest, by simp [encodeItems, hencode, hrest], fun tail => ?_⟩
  simp only [List.length_cons, decodeItems, List.append_assoc, hdecode, Reader.ok_bind,
    List.drop_left, hdecodeRest, Reader.pure_eq_ok]

open SecsItem in
mutual

/-- Every item that can be encoded is read back: by recursion on the item. -/
theorem readBack : (item : SecsItem) → item.Encodable → ReadBack item
  | .list items, hencodable =>
      readBack_list hencodable.1 (readBack_items items hencodable.2)
  | .binary values, hle =>
      readBack_fixed .binary (by decide) Word.u8 hle (Nat.mul_one _) rfl
        (congrArg SecsItem.binary (flatMap_u8 values))
  | .boolean values, hle => by
      apply readBack_fixed .boolean (by decide) Word.u8 hle (by simp [lengthCount, Word.u8]) rfl
      rw [flatMap_u8]
      exact congrArg SecsItem.boolean (map_ne_zero_toUInt8 values)
  | .ascii text, hle =>
      readBack_flat .ascii (by decide) hle rfl
        (congrArg SecsItem.ascii (fromUtf8Lossy_asBytes text))
  | .jis bytes, hle =>
      readBack_fixed .jis8 (by decide) Word.u8 hle (Nat.mul_one _) rfl
        (congrArg SecsItem.jis (flatMap_u8 bytes))
  | .i8 values, hle =>
      readBack_fixed .i8 (by decide) Word.i64 hle rfl rfl
        (congrArg SecsItem.i8 (decodeFixed_flatMap _ values))
  | .i1 values, hle =>
      readBack_fixed .i1 (by decide) Word.i8 hle (Nat.mul_one _) rfl
        (congrArg SecsItem.i1 (decodeFixed_flatMap _ values))
  | .i2 values, hle =>
      readBack_fixed .i2 (by decide) Word.i16 hle rfl rfl
        (congrArg SecsItem.i2 (decodeFixed_flatMap _ values))
  | .i4 values, hle =>
      readBack_fixed .i4 (by decide) Word.i32 hle rfl rfl
        (congrArg SecsItem.i4 (decodeFixed_flatMap _ values))
  | .f8 values, hle =>
      readBack_fixed .f8 (by decide) Word.f64 hle rfl rfl
        (congrArg SecsItem.f8 (decodeFixed_flatMap _ values))
  | .f4 values, hle =>
      readBack_fixed .f4 (by decide) Word.f32 hle rfl rfl
        (congrArg SecsItem.f4 (decodeFixed_flatMap _ values))
  | .u8 values, hle =>
      readBack_fixed .u8 (by decide) Word.u64 hle rfl rfl
        (congrArg SecsItem.u8 (decodeFixed_flatMap _ values))
  | .u1 values, hle =>
      readBack_fixed .u1 (by decide) Word.u8 hle (Nat.mul_one _) rfl
        (congrArg SecsItem.u1 (flatMap_u8 values))
  | .u2 values, hle =>
      readBack_fixed .u2 (by decide) Word.u16 hle rfl rfl
        (congrArg SecsItem.u2 (decodeFixed_flatMap _ values))
  | .u4 values, hle =>
      readBack_fixed .u4 (by decide) Word.u32 hle rfl rfl
        (congrArg SecsItem.u4 (decodeFixed_flatMap _ values))

theorem readBack_items : (items : List SecsItem) → AllEncodable items → ReadsBack items
  | [], _ => readsBack_nil
  | item :: items, hencodable =>
      readsBack_cons (readBack item hencodable.1) (readBack_items items hencodable.2)

end

theorem fromBytes_of_decodeItem {item : SecsItem} {bytes : Bytes}
    (hdecode : ∀ tail, decodeItem (bytes ++ tail) = .ok (item, bytes.length)) :
    SecsItem.fromBytes bytes = .ok (item, bytes.length) := by
  have hexact := hdecode []
  rw [List.append_nil] at hexact
  rw [SecsItem.fromBytes, hexact, Reader.ok_bind]
  exact if_neg (fun hne => hne rfl)

/-- Every encodable item is decoded from its bytes, whatever follows them, and
takes up exactly these bytes. -/
theorem decodeItem_toBytes (item : SecsItem) (hencodable : item.Encodable) :
    ∃ bytes, item.toBytes = some bytes ∧
      (∀ tail, decodeItem (bytes ++ tail) = .ok (item, bytes.length)) ∧
      SecsItem.fromBytes bytes = .ok (item, bytes.length) := by
  obtain ⟨bytes, hencode, hdecode⟩ := readBack item hencodable
  exact ⟨bytes, hencode, hdecode, fromBytes_of_decodeItem hdecode⟩

/-- A list of a number, a nested list of texts and an empty list. -/
def nestedItem : SecsItem :=
  .list [.u4 [4000000000], .list [.ascii "SITE", .boolean [true, false]], .list []]

theorem decodeItem_toBytes_nestedItem :
    ∃ bytes, nestedItem.toBytes = some bytes ∧
      (∀ tail, decodeItem (bytes ++ tail) = .ok (nestedItem, bytes.length)) ∧
      SecsItem.fromBytes bytes = .ok (nestedItem, bytes.length) := by
  apply decodeItem_toBytes nestedItem
  simp only [nestedItem, SecsItem.Encodable, SecsItem.AllEncodable, SecsItem.lengthCount]
  decide +kernel

/-! ## Items that cannot be encoded -/

/-- Numbers can be encoded exactly if their bytes are not more than the length bytes can count. -/
theorem isSome_pushFixed {α : Type} (format : FormatCode) (word : Word α) (values : List α) :
    (pushFixed format word values).isSome ↔ values.length * word.width ≤ maxLength := by
  unfold pushFixed pushHeader
  split <;> simp_all

open SecsItem in
mutual

/-- The encoder fails its assertion on all other items. -/
theorem isSome_encode : (item : SecsItem) → (item.encode.isSome ↔ item.Encodable)
  | .list items => by
      rw [encode, SecsItem.Encodable, ← isSome_encodeItems items]
      unfold pushHeader
      split <;> cases encodeItems items <;> simp_all
  | .binary values => by
      simp [encode, SecsItem.Encodable, lengthCount, isSome_pushFixed, Word.u8]
  | .boolean values => by
      simp [encode, SecsItem.Encodable, lengthCount, isSome_pushFixed, Word.u8]
  | .ascii text => by
      simp only [encode, SecsItem.Encodable, lengthCount]
      unfold pushHeader
      split <;> simp_all
  | .jis bytes => by
      simp [encode, SecsItem.Encodable, lengthCount, isSome_pushFixed, Word.u8]
  | .i8 values => isSome_pushFixed _ _ _
  | .i1 values => by
      simp [encode, SecsItem.Encodable, lengthCount, isSome_pushFixed, Word.i8, Word.map, Word.u8]
  | .i2 values => isSome_pushFixed _ _ _
  | .i4 values => isSome_pushFixed _ _ _
  | .f8 values => isSome_pushFixed _ _ _
  | .f4 values => isSome_pushFixed _ _ _
  | .u8 values => isSome_pushFixed _ _ _
  | .u1 values => by
      simp [encode, SecsItem.Encodable, lengthCount, isSome_pushFixed, Word.u8]
  | .u2 values => isSome_pushFixed _ _ _
  | .u4 values => isSome_pushFixed _ _ _

theorem isSome_encodeItems : (items : List SecsItem) →
    ((encodeItems items).isSome ↔ AllEncodable items)
  | [] => by simp [encodeItems, AllEncodable]
  | item :: items => by
      rw [encodeItems, AllEncodable, ← isSome_encode item, ← isSome_encodeItems items]
      cases item.encode <;> cases encodeItems items <;> simp

end

end Secs
