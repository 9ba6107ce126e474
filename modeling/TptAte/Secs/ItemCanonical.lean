import TptAte.Secs.ItemLaws

/-! # Bytes of an item read and written back

The bytes of an item are a row of segments: a header and, unless it is a list's, the
payload behind it. Canonical segments are written back as they were read, apart from
the bytes at the end of a fixed-width array that do not fill another element.
-/

namespace Secs

open Wire

/-! ## Segments -/

/-- A header with what stands directly behind it: the payload of a flat item, nothing
for a list. -/
structure Segment where
  format : FormatCode
  length : Bytes
  payload : Bytes
  deriving DecidableEq, Repr

namespace Segment

def bytes (segment : Segment) : Bytes :=
  (segment.format.code ||| UInt8.ofNat segment.length.length) :: segment.length ++ segment.payload

def next : Bytes → Option (Segment × Bytes)
  | [] => none
  | header :: rest =>
      (FormatCode.fromByte header).map fun format =>
        let length := rest.take (lengthBits header)
        let body := rest.drop (lengthBits header)
        let payload := if format = .list then [] else body.take (lengthOf length)
        (⟨format, length, payload⟩, body.drop payload.length)

theorem length_next {data rest : Bytes} {segment : Segment}
    (hnext : next data = some (segment, rest)) : rest.length < data.length := by
  cases data with
  | nil => simp [next] at hnext
  | cons header data =>
      simp only [next, Option.map_eq_some_iff, Prod.mk.injEq] at hnext
      obtain ⟨format, -, -, rfl⟩ := hnext
      simp only [List.length_drop, List.length_cons]
      omega

end Segment

def segments (data : Bytes) : List Segment :=
  match h : Segment.next data with
  | none => []
  | some (segment, rest) =>
      have := Segment.length_next h
      segment :: segments rest
termination_by data.length

theorem segments_nil : segments [] = [] := by
  rw [segments]
  rfl

theorem segments_cons {data rest : Bytes} {segment : Segment}
    (hnext : Segment.next data = some (segment, rest)) :
    segments data = segment :: segments rest := by
  rw [segments]
  split <;> simp_all

def FormatCode.width : FormatCode → Nat
  | list | binary | boolean | ascii | jis8 | i1 | u1 => 1
  | i2 | u2 => 2
  | i4 | f4 | u4 => 4
  | i8 | f8 | u8 => 8

namespace Segment

/-- As few length bytes as the length needs, zero and one for the values of a Boolean,
and text in UTF-8. -/
structure Canonical (segment : Segment) : Prop where
  shortest : segment.length = lengthBytes (lengthOf segment.length)
  boolean : segment.format = .boolean → ∀ byte ∈ segment.payload, byte = 0 ∨ byte = 1
  ascii : segment.format = .ascii → IsUtf8 segment.payload

/-- The payload consists of whole elements. -/
def Whole (segment : Segment) : Prop := segment.format.width ∣ segment.payload.length

instance : DecidablePred Whole := fun segment =>
  inferInstanceAs (Decidable (segment.format.width ∣ segment.payload.length))

end Segment

/-! ## Writing segments back -/

/-- What is written for some segments: their bytes if all of them are whole, and fewer
bytes otherwise. -/
def WritesBack (read : List Segment) (encoded : Option Bytes) (front : Bytes) : Prop :=
  (∀ segment ∈ read, segment.Canonical) → ∃ bytes, encoded = some bytes ∧
    ((∀ segment ∈ read, segment.Whole) → bytes = front) ∧
    ((∃ segment ∈ read, ¬ segment.Whole) → bytes.length < front.length)

namespace WritesBack

theorem nil : WritesBack [] (some []) [] :=
  fun _ => ⟨[], rfl, fun _ => rfl, fun h => by simp at h⟩

variable {read rest : List Segment} {encoded encodedRest : Option Bytes} {front frontRest : Bytes}

/-- Whole or not, no more bytes are written than were read. -/
theorem length_le (h : WritesBack read encoded front)
    (hcanonical : ∀ segment ∈ read, segment.Canonical) :
    ∃ bytes, encoded = some bytes ∧ bytes.length ≤ front.length := by
  obtain ⟨bytes, hencoded, hwhole, hcut⟩ := h hcanonical
  refine ⟨bytes, hencoded, ?_⟩
  by_cases hall : ∀ segment ∈ read, segment.Whole
  · rw [hwhole hall]
  · exact (hcut (by simpa using hall)).le

/-- What is written back piece by piece is written back as a whole. -/
theorem append (h : WritesBack read encoded front) (hrest : WritesBack rest encodedRest frontRest) :
    WritesBack (read ++ rest) (do return (← encoded) ++ (← encodedRest)) (front ++ frontRest) := by
  intro hcanonical
  rw [List.forall_mem_append] at hcanonical
  obtain ⟨bytes, hbytes, hle⟩ := h.length_le hcanonical.1
  obtain ⟨bytesRest, hbytesRest, hleRest⟩ := hrest.length_le hcanonical.2
  obtain ⟨_, heq, hwhole, hcut⟩ := h hcanonical.1
  obtain ⟨_, heqRest, hwholeRest, hcutRest⟩ := hrest hcanonical.2
  cases hbytes.symm.trans heq
  cases hbytesRest.symm.trans heqRest
  refine ⟨bytes ++ bytesRest, by simp [hbytes, hbytesRest], ?_, ?_⟩
  · intro hall
    rw [List.forall_mem_append] at hall
    rw [hwhole hall.1, hwholeRest hall.2]
  · rintro ⟨segment, hmem, hsegment⟩
    rw [List.length_append, List.length_append]
    rcases List.mem_append.mp hmem with hmem | hmem
    · have hless := hcut ⟨segment, hmem, hsegment⟩
      omega
    · have hless := hcutRest ⟨segment, hmem, hsegment⟩
      omega

end WritesBack

/-! ## One header -/

/-- A header byte that is accepted is the code of its format and the number of length bytes. -/
theorem header_eq {header : UInt8} {format : FormatCode}
    (hformat : FormatCode.fromByte header = some format) :
    header = format.code ||| UInt8.ofNat (lengthBits header) := by
  have hall : ∀ n : Fin 256, (FormatCode.fromByte (UInt8.ofNat n)).all fun format =>
      UInt8.ofNat n == format.code ||| UInt8.ofNat (lengthBits (UInt8.ofNat n)) := by
    decide +kernel
  have hheader := hall ⟨header.toNat, header.toNat_lt⟩
  rw [UInt8.ofNat_toNat, hformat] at hheader
  simpa using hheader

/-- A longer payload never has fewer length bytes. -/
theorem length_lengthBytes_mono {short long : Nat} (hle : short ≤ long) :
    (lengthBytes short).length ≤ (lengthBytes long).length := by
  unfold lengthBytes
  split_ifs <;> simp <;> omega

/-- A flat segment is written back from the part of its payload that the item keeps. -/
theorem writesBack_flat {segment : Segment} {item : SecsItem} {kept : Bytes}
    (hlength : lengthOf segment.length = segment.payload.length)
    (hbound : segment.payload.length ≤ maxLength)
    (hencode : segment.Canonical →
      item.encode = (· ++ kept) <$> pushHeader segment.format kept.length)
    (hwhole : segment.Canonical → segment.Whole → kept = segment.payload)
    (hcut : ¬ segment.Whole → kept.length < segment.payload.length) :
    WritesBack [segment] item.encode segment.bytes := by
  intro hcanonical
  rw [List.forall_mem_singleton] at hcanonical
  have hshortest := hcanonical.shortest
  rw [hlength] at hshortest
  have hle : kept.length ≤ segment.payload.length := by
    by_cases h : segment.Whole
    · rw [hwhole hcanonical h]
    · exact (hcut h).le
  obtain ⟨header, hheader⟩ := exists_header segment.format (hle.trans hbound)
  obtain ⟨-, hbytes⟩ := pushHeader_eq_some.mp hheader
  refine ⟨header ++ kept, by rw [hencode hcanonical, hheader]; rfl, ?_, ?_⟩
  · intro hall
    have hkept := hwhole hcanonical (hall segment (by simp))
    rw [hbytes, hkept, Segment.bytes, hshortest]
  · rintro ⟨_, hmem, hsegment⟩
    rw [List.mem_singleton] at hmem
    subst hmem
    have hless := hcut hsegment
    have hmono := length_lengthBytes_mono hle
    rw [← hshortest] at hmono
    simp only [hbytes, Segment.bytes, List.length_append, List.length_cons]
    omega

/-! ## Fixed-width payloads -/

/-- The elements of a payload are its bytes up to a rest that is not another element. -/
theorem flatMap_decodeFixed {α : Type} (word : Word α) (payload : Bytes) :
    ∃ rest, payload = (decodeFixed word payload).flatMap (word.bytes .big) ++ rest ∧
      rest.length < word.width := by
  have hwidth := word.width_pos
  induction hlength : payload.length using Nat.strong_induction_on generalizing payload with
  | _ length ih =>
      rw [decodeFixed]
      by_cases hle : word.width ≤ payload.length
      · obtain ⟨rest, hpayload, hrest⟩ :=
          ih (payload.drop word.width).length (by simp; omega) _ rfl
        have htake : (payload.take word.width).length = word.width := by
          simpa using hle
        have hfirst : word.bytes .big
            (word.ofNat (Endian.big.value (payload.take word.width))) =
              payload.take word.width := by
          have hbytes := Endian.big.bytes_value (payload.take word.width)
          rw [htake] at hbytes
          rw [Word.bytes, word.toNat_ofNat_value .big htake, hbytes]
        refine ⟨rest, ?_, hrest⟩
        rw [if_pos hle, List.flatMap_cons, hfirst, List.append_assoc, ← hpayload,
          List.take_append_drop]
      · exact ⟨payload, by rw [if_neg hle]; rfl, by omega⟩

/-- A fixed-width array is written back, short of its rest if there is one. -/
theorem writesBack_fixed {α : Type} {segment : Segment} {item : SecsItem} (word : Word α)
    (hlength : lengthOf segment.length = segment.payload.length)
    (hbound : segment.payload.length ≤ maxLength) (hwidth : segment.format.width = word.width)
    (hencode : item.encode = pushFixed segment.format word (decodeFixed word segment.payload)) :
    WritesBack [segment] item.encode segment.bytes := by
  obtain ⟨rest, hpayload, hrest⟩ := flatMap_decodeFixed word segment.payload
  have hkept := length_flatMap_bytes word (decodeFixed word segment.payload)
  have hsum := congrArg List.length hpayload
  rw [List.length_append, hkept] at hsum
  have hwhole : segment.Whole ↔ rest = [] := by
    rw [Segment.Whole, hwidth, hsum, Nat.dvd_add_right (Nat.dvd_mul_left _ _)]
    constructor
    · intro hdvd
      exact List.eq_nil_of_length_eq_zero (Nat.eq_zero_of_dvd_of_lt hdvd hrest)
    · rintro rfl
      simp
  refine writesBack_flat hlength hbound (fun _ => by rw [hencode, pushFixed, hkept]) ?_ ?_
  · intro _ h
    rw [hwhole.mp h, List.append_nil] at hpayload
    exact hpayload.symm
  · intro h
    have hpos := List.length_pos_iff.mpr (mt hwhole.mpr h)
    omega

/-- The items whose payload is kept as it is. -/
theorem writesBack_plain {segment : Segment} {item : SecsItem} {kept : Bytes}
    (hlength : lengthOf segment.length = segment.payload.length)
    (hbound : segment.payload.length ≤ maxLength) (hwidth : segment.format.width = 1)
    (hencode : segment.Canonical →
      item.encode = (· ++ kept) <$> pushHeader segment.format kept.length)
    (hkept : segment.Canonical → kept = segment.payload) :
    WritesBack [segment] item.encode segment.bytes := by
  have hwhole : segment.Whole := by
    rw [Segment.Whole, hwidth]
    exact one_dvd _
  exact writesBack_flat hlength hbound hencode (fun h _ => hkept h) (absurd hwhole)

theorem map_toUInt8_ne_zero {payload : Bytes} (h : ∀ byte ∈ payload, byte = 0 ∨ byte = 1) :
    (payload.map (· != 0)).map Bool.toUInt8 = payload := by
  induction payload with
  | nil => rfl
  | cons byte payload ih =>
      rw [List.forall_mem_cons] at h
      rw [List.map_cons, List.map_cons, ih h.2]
      rcases h.1 with rfl | rfl <;> rfl

theorem encode_bytes {format : FormatCode} {values : Bytes} {item : SecsItem}
    (hencode : item.encode = pushFixed format Word.u8 values) :
    item.encode = (· ++ values) <$> pushHeader format values.length := by
  rw [hencode, pushFixed, flatMap_u8]
  exact congrArg (fun count => (· ++ values) <$> pushHeader format count) (Nat.mul_one _)

/-- A flat item is written back from its segment. -/
theorem writesBack_flatItem {format : FormatCode} (hflat : format ≠ .list) {length payload : Bytes}
    (hlength : lengthOf length = payload.length) (hbound : payload.length ≤ maxLength) :
    WritesBack [⟨format, length, payload⟩] (flatItem format hflat payload).encode
      (Segment.bytes ⟨format, length, payload⟩) := by
  cases format with
  | list => exact absurd rfl hflat
  | binary =>
      exact writesBack_plain hlength hbound rfl (fun _ => encode_bytes rfl) fun _ => rfl
  | boolean =>
      refine writesBack_plain hlength hbound rfl (fun _ => encode_bytes rfl) fun h => ?_
      exact map_toUInt8_ne_zero (h.boolean rfl)
  | ascii =>
      refine writesBack_plain hlength hbound rfl (fun _ => rfl) fun h => ?_
      exact (asBytes_fromUtf8Lossy_iff payload).mpr (h.ascii rfl)
  | jis8 =>
      exact writesBack_plain hlength hbound rfl (fun _ => encode_bytes rfl) fun _ => rfl
  | u1 =>
      exact writesBack_plain hlength hbound rfl (fun _ => encode_bytes rfl) fun _ => rfl
  | i8 => exact writesBack_fixed Word.i64 hlength hbound rfl rfl
  | i1 => exact writesBack_fixed Word.i8 hlength hbound rfl rfl
  | i2 => exact writesBack_fixed Word.i16 hlength hbound rfl rfl
  | i4 => exact writesBack_fixed Word.i32 hlength hbound rfl rfl
  | f8 => exact writesBack_fixed Word.f64 hlength hbound rfl rfl
  | f4 => exact writesBack_fixed Word.f32 hlength hbound rfl rfl
  | u8 => exact writesBack_fixed Word.u64 hlength hbound rfl rfl
  | u2 => exact writesBack_fixed Word.u16 hlength hbound rfl rfl
  | u4 => exact writesBack_fixed Word.u32 hlength hbound rfl rfl

/-- The header of a list is written back from the number of its items. -/
theorem writesBack_list {length : Bytes} (hbound : lengthOf length ≤ maxLength) :
    WritesBack [⟨.list, length, []⟩] (pushHeader .list (lengthOf length))
      (Segment.bytes ⟨.list, length, []⟩) := by
  intro hcanonical
  rw [List.forall_mem_singleton] at hcanonical
  obtain ⟨header, hheader⟩ := exists_header .list hbound
  obtain ⟨-, hbytes⟩ := pushHeader_eq_some.mp hheader
  refine ⟨header, hheader, fun _ => ?_, ?_⟩
  · have hshortest := hcanonical.shortest
    dsimp only at hshortest
    rw [hbytes, ← hshortest, Segment.bytes, List.append_nil]
  · rintro ⟨_, hmem, hsegment⟩
    rw [List.mem_singleton] at hmem
    subst hmem
    exact absurd (one_dvd _) hsegment

/-! ## Decoded items -/

/-- An item that is decoded from the front of the bytes takes whole segments, and is
written back from them. -/
def TakesSegments (data : Bytes) : Prop :=
  ∀ item used, decodeItem data = .ok (item, used) → ∃ front rest read,
    data = front ++ rest ∧ used = front.length ∧ segments data = read ++ segments rest ∧
      WritesBack read item.encode front

/-- A list takes the segments of its items, one after the other. -/
theorem takesSegments_items {count : Nat} {cursor rest : Bytes} {items : List SecsItem}
    (htakes : ∀ data, data.length ≤ cursor.length → TakesSegments data)
    (hdecode : decodeItems count cursor = .ok (items, rest)) :
    items.length = count ∧ ∃ front read, cursor = front ++ rest ∧
      segments cursor = read ++ segments rest ∧ WritesBack read (encodeItems items) front := by
  induction count generalizing cursor items with
  | zero =>
      rw [decodeItems] at hdecode
      cases hdecode
      exact ⟨rfl, [], [], rfl, rfl, .nil⟩
  | succ count ih =>
      obtain ⟨item, used, others, hitem, hothers, rfl⟩ := decodeItems_succ_eq_ok.mp hdecode
      obtain ⟨front, behind, read, rfl, rfl, hsegments, hwrites⟩ :=
        htakes cursor le_rfl item used hitem
      rw [List.drop_left] at hothers
      have hbehind : ∀ data, data.length ≤ behind.length → TakesSegments data := by
        intro data hle
        apply htakes
        rw [List.length_append]
        omega
      obtain ⟨hcount, front', read', rfl, hsegments', hwrites'⟩ := ih hbehind hothers
      refine ⟨congrArg (· + 1) hcount, front ++ front', read ++ read',
        (List.append_assoc _ _ _).symm, ?_, hwrites.append hwrites'⟩
      rw [hsegments, hsegments', List.append_assoc]

/-- The header that a segment starts with. -/
theorem segments_header {header : UInt8} {format : FormatCode} {length body payload rest : Bytes}
    (hformat : FormatCode.fromByte header = some format)
    (hlength : length.length = lengthBits header)
    (hpayload : payload = if format = .list then [] else body.take (lengthOf length))
    (hbody : body = payload ++ rest) :
    header :: (length ++ body) = Segment.bytes ⟨format, length, payload⟩ ++ rest ∧
      segments (header :: (length ++ body)) = ⟨format, length, payload⟩ :: segments rest := by
  constructor
  · simp only [hbody, Segment.bytes, hlength, List.cons_append, List.append_assoc]
    exact congrArg (· :: _) (header_eq hformat)
  · apply segments_cons
    simp only [Segment.next, hformat, Option.map_some, ← hlength, List.take_left, List.drop_left,
      ← hpayload, Option.some.injEq, Prod.mk.injEq, true_and]
    rw [hbody, List.drop_left]

theorem lengthOf_le_maxLength {header : UInt8} {length : Bytes}
    (hlength : length.length = lengthBits header) : lengthOf length ≤ maxLength := by
  have hlt := lengthOf_take_lt header length
  rw [← hlength, List.take_length] at hlt
  rw [maxLength]
  omega

/-- Every item that is decoded is a front of the segments: by induction on the length of the bytes.
-/
theorem takesSegments (data : Bytes) : TakesSegments data := by
  -- by induction on the number of bytes, as the decoder recurses
  induction hsize : data.length using Nat.strong_induction_on generalizing data with
  | _ size ih =>
      intro item used hdecode
      cases data with
      | nil => simp [decodeItem] at hdecode
      | cons header data =>
          obtain ⟨format, length, body, hformat, rfl, hlength, -, hcases⟩ :=
            decodeItem_cases hdecode
          have hmax := lengthOf_le_maxLength hlength
          rcases hcases with ⟨rfl, items, rest, hitems, rfl, rfl⟩ | ⟨hflat, hle, rfl, rfl⟩
          · have hbody : ∀ data, data.length ≤ body.length → TakesSegments data := by
              intro data hle
              apply ih data.length _ _ rfl
              rw [List.length_cons, List.length_append] at hsize
              omega
            -- a list: its header is a segment, and the items take the segments behind it
            obtain ⟨hcount, front, read, rfl, hsegments, hwrites⟩ :=
              takesSegments_items hbody hitems
            obtain ⟨hdata, hfirst⟩ := segments_header hformat hlength (if_pos rfl).symm
              (List.nil_append (front ++ rest)).symm
            have hwritten := (writesBack_list hmax).append hwrites
            rw [← hcount] at hwritten
            refine ⟨_, rest, _, ?_, ?_, ?_, hwritten⟩
            · rw [hdata, List.append_assoc]
            · rw [hdata, ← List.append_assoc, List.length_append]
              exact Nat.add_sub_cancel _ _
            · rw [hfirst, hsegments, List.append_assoc]
              rfl
          · have hpayload : (body.take (lengthOf length)).length = lengthOf length := by
              rw [List.length_take, Nat.min_eq_left hle]
            obtain ⟨hdata, hfirst⟩ := segments_header hformat hlength (if_neg hflat).symm
              (List.take_append_drop (lengthOf length) body).symm
            refine ⟨_, body.drop (lengthOf length), _, hdata, ?_, hfirst,
              writesBack_flatItem hflat hpayload.symm (hpayload.trans_le hmax)⟩
            simp only [Segment.bytes, List.length_append, List.length_cons, hpayload]
            omega

/-! ## Whole items -/

/-- What a canonical byte string decodes to is written back to that byte string,
exactly if each array in it consists of whole elements. -/
theorem toBytes_fromBytes_iff {data : Bytes} {item : SecsItem} {consumed : Nat}
    (hdecode : SecsItem.fromBytes data = .ok (item, consumed))
    (hcanonical : ∀ segment ∈ segments data, segment.Canonical) :
    item.toBytes = some data ↔ ∀ segment ∈ segments data, segment.Whole := by
  rw [SecsItem.fromBytes] at hdecode
  cases hitem : decodeItem data with
  | error error =>
      rw [hitem] at hdecode
      simp at hdecode
  | ok result =>
      obtain ⟨item', used⟩ := result
      obtain ⟨front, rest, read, rfl, rfl, hsegments, hwrites⟩ :=
        takesSegments data item' used hitem
      rw [hitem, Reader.ok_bind] at hdecode
      dsimp only at hdecode
      split at hdecode
      · simp at hdecode
      next hall =>
        cases hdecode
        have hrest : rest = [] := by
          apply List.eq_nil_of_length_eq_zero
          rw [List.length_append] at hall
          omega
        rw [hrest, segments_nil, List.append_nil, List.append_nil] at hsegments
        rw [hrest, List.append_nil, hsegments] at hcanonical ⊢
        obtain ⟨bytes, hbytes, hwhole, hcut⟩ := hwrites hcanonical
        rw [SecsItem.toBytes, hbytes, Option.some.injEq]
        constructor
        · rintro rfl
          by_contra hnot
          exact lt_irrefl _ (hcut (by simpa using hnot))
        · exact hwhole

/-- A list of a text and of an array of three bytes, one more than its only element. -/
def raggedList : Bytes := [0x01, 2, 0x41, 1, 0x58, 0xA9, 3, 0, 1, 2]

theorem segments_raggedList : segments raggedList =
    [⟨.list, [2], []⟩, ⟨.ascii, [1], [0x58]⟩, ⟨.u2, [3], [0, 1, 2]⟩] := by
  have hlist : Segment.next raggedList =
      some (⟨.list, [2], []⟩, [0x41, 1, 0x58, 0xA9, 3, 0, 1, 2]) := by
    decide +kernel
  have hascii : Segment.next [0x41, 1, 0x58, 0xA9, 3, 0, 1, 2] =
      some (⟨.ascii, [1], [0x58]⟩, [0xA9, 3, 0, 1, 2]) := by
    decide +kernel
  have harray : Segment.next [0xA9, 3, 0, 1, 2] = some (⟨.u2, [3], [0, 1, 2]⟩, []) := by
    decide +kernel
  rw [segments_cons hlist, segments_cons hascii, segments_cons harray, segments_nil]

theorem canonical_raggedList : ∀ segment ∈ segments raggedList, segment.Canonical := by
  rw [segments_raggedList]
  simp only [List.forall_mem_cons, List.not_mem_nil, false_implies, implies_true, and_true]
  refine ⟨⟨by decide +kernel, nofun, nofun⟩, ⟨by decide +kernel, nofun, fun _ => ?_⟩,
    ⟨by decide +kernel, nofun, nofun⟩⟩
  have htext := isUtf8_asBytes "X"
  exact htext

theorem fromBytes_raggedList :
    SecsItem.fromBytes raggedList = .ok (.list [.ascii "X", .u2 [1]], 10) := by
  have htext : fromUtf8Lossy [0x58] = "X" := fromUtf8Lossy_asBytes "X"
  have harray : decodeFixed Word.u16 [0, 1, 2] = [1] := by
    rw [decodeFixed, if_pos (by decide), decodeFixed, if_neg (by decide)]
    decide +kernel
  have hfirst : decodeItem [0x41, 1, 0x58, 0xA9, 3, 0, 1, 2] = .ok (.ascii "X", 3) := by
    rw [decodeItem]
    exact congrArg (fun text => Except.ok (SecsItem.ascii text, 3)) htext
  have hsecond : decodeItem [0xA9, 3, 0, 1, 2] = .ok (.u2 [1], 5) := by
    rw [decodeItem]
    exact congrArg (fun values => Except.ok (SecsItem.u2 values, 5)) harray
  have hitems : decodeItems 2 [0x41, 1, 0x58, 0xA9, 3, 0, 1, 2] =
      .ok ([.ascii "X", .u2 [1]], []) := by
    rw [decodeItems, hfirst, Reader.ok_bind]
    dsimp only [List.drop]
    rw [decodeItems, hsecond, Reader.ok_bind]
    dsimp only [List.drop]
    rw [decodeItems]
    rfl
  have hlist : decodeItem raggedList = .ok (.list [.ascii "X", .u2 [1]], 10) := by
    rw [raggedList, decodeItem]
    change (decodeItems 2 [0x41, 1, 0x58, 0xA9, 3, 0, 1, 2] >>= _) = _
    rw [hitems]
    rfl
  rw [SecsItem.fromBytes, hlist]
  rfl

/-- The ragged array is written without the byte that fills no number. -/
theorem toBytes_fromBytes_iff_raggedList :
    (SecsItem.list [.ascii "X", .u2 [1]]).toBytes = some raggedList ↔
      ∀ segment ∈ segments raggedList, segment.Whole :=
  toBytes_fromBytes_iff fromBytes_raggedList canonical_raggedList

/-- Not every canonical byte string is written back. -/
theorem not_toBytes_raggedList :
    ¬ ∀ (data : Bytes) (item : SecsItem) (consumed : Nat),
      SecsItem.fromBytes data = .ok (item, consumed) →
        (∀ segment ∈ segments data, segment.Canonical) → item.toBytes = some data := by
  intro hall
  have hwritten := hall raggedList _ _ fromBytes_raggedList canonical_raggedList
  revert hwritten
  decide +kernel

end Secs
