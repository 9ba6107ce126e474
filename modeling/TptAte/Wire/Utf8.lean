import TptAte.Wire.Endian

/-! # Text and its bytes

Text is a sequence of Unicode scalar values, carried as UTF-8. Reading bytes
back is lossy: each maximal invalid sequence becomes one replacement character.
Bytes survive the reading exactly when they are valid UTF-8.
-/

namespace Wire

def asBytes (text : String) : Bytes := text.toByteArray.data.toList

def IsUtf8 (bytes : Bytes) : Prop := bytes.toByteArray.IsValidUTF8

instance (bytes : Bytes) : Decidable (IsUtf8 bytes) :=
  inferInstanceAs (Decidable bytes.toByteArray.IsValidUTF8)

/-- A byte of the form `10xxxxxx`. -/
def isContinuation (byte : UInt8) : Bool := byte &&& 0xC0 == 0x80

/-- Second bytes that may follow a three-byte lead. -/
def threeByteStart (lead second : UInt8) : Bool :=
  (lead == 0xE0 && 0xA0 ≤ second && second ≤ 0xBF) ||
  (0xE1 ≤ lead && lead ≤ 0xEC && 0x80 ≤ second && second ≤ 0xBF) ||
  (lead == 0xED && 0x80 ≤ second && second ≤ 0x9F) ||
  (0xEE ≤ lead && lead ≤ 0xEF && 0x80 ≤ second && second ≤ 0xBF)

/-- Second bytes that may follow a four-byte lead. -/
def fourByteStart (lead second : UInt8) : Bool :=
  (lead == 0xF0 && 0x90 ≤ second && second ≤ 0xBF) ||
  (0xF1 ≤ lead && lead ≤ 0xF3 && 0x80 ≤ second && second ≤ 0xBF) ||
  (lead == 0xF4 && 0x80 ≤ second && second ≤ 0x8F)

/-- How many bytes the invalid sequence at the front takes: the longest start
of a well-formed sequence, and at least one byte. -/
def brokenLength : Bytes → Nat
  | lead :: second :: rest =>
      if threeByteStart lead second then 2
      else if fourByteStart lead second then
        match rest with
        | third :: _ => if isContinuation third then 3 else 2
        | [] => 2
      else 1
  | _ => 1

theorem brokenLength_pos (bytes : Bytes) : 0 < brokenLength bytes := by
  unfold brokenLength
  repeat' split
  all_goals decide

/-- Decode bytes to characters, with U+FFFD for each invalid sequence. -/
def lossyChars (bytes : Bytes) : List Char :=
  match bytes with
  | [] => []
  | lead :: rest =>
      match (lead :: rest).toByteArray.utf8DecodeChar? 0 with
      | some char => char :: lossyChars ((lead :: rest).drop char.utf8Size)
      | none => '\uFFFD' :: lossyChars ((lead :: rest).drop (brokenLength (lead :: rest)))
termination_by bytes.length
decreasing_by
  · have := char.utf8Size_pos
    simp only [List.length_drop, List.length_cons]
    omega
  · have := brokenLength_pos (lead :: rest)
    simp only [List.length_drop, List.length_cons]
    omega

def fromUtf8Lossy (bytes : Bytes) : String := String.ofList (lossyChars bytes)

@[simp] theorem asBytes_empty : asBytes "" = [] := by
  simp [asBytes]

theorem asBytes_ofList (chars : List Char) :
    asBytes (String.ofList chars) = chars.flatMap String.utf8EncodeChar := by
  simp [asBytes, List.utf8Encode]

/-- Texts with the same bytes are the same. -/
theorem asBytes_injective {left right : String} (h : asBytes left = asBytes right) :
    left = right := by
  apply String.toByteArray_inj.mp
  apply ByteArray.ext
  exact Array.toList_inj.mp h

theorem isUtf8_asBytes (text : String) : IsUtf8 (asBytes text) := by
  have hbytes : (asBytes text).toByteArray = text.toByteArray := by
    apply ByteArray.ext
    simp [asBytes]
  rw [IsUtf8, hbytes]
  exact text.isValidUTF8

theorem exists_text_of_isUtf8 {bytes : Bytes} (h : IsUtf8 bytes) :
    ∃ chars : List Char, bytes = chars.flatMap String.utf8EncodeChar := by
  obtain ⟨chars, hchars⟩ := h
  exact ⟨chars, List.toByteArray_inj.mp hchars⟩

@[simp] theorem lossyChars_nil : lossyChars [] = [] := by
  rw [lossyChars]

/-- A well-formed character at the front decodes to itself. -/
theorem lossyChars_encode_append (char : Char) (rest : Bytes) :
    lossyChars (String.utf8EncodeChar char ++ rest) = char :: lossyChars rest := by
  have hdecode : (String.utf8EncodeChar char ++ rest).toByteArray.utf8DecodeChar? 0 =
      some char := by
    rw [List.toByteArray_append]
    exact ByteArray.utf8DecodeChar?_utf8EncodeChar_append
  have hdrop : (String.utf8EncodeChar char ++ rest).drop char.utf8Size = rest :=
    List.drop_left' (String.length_utf8EncodeChar char)
  cases hbytes : String.utf8EncodeChar char ++ rest with
  | nil => simp at hbytes
  | cons lead tail =>
      rw [hbytes] at hdecode hdrop
      rw [lossyChars, hdecode]
      simp only [hdrop]

/-- The characters of a text are read back from its bytes. -/
theorem lossyChars_flatMap (chars : List Char) :
    lossyChars (chars.flatMap String.utf8EncodeChar) = chars := by
  induction chars with
  | nil => simp
  | cons char rest ih => rw [List.flatMap_cons, lossyChars_encode_append, ih]

/-- Text survives its own bytes. -/
@[simp] theorem fromUtf8Lossy_asBytes (text : String) : fromUtf8Lossy (asBytes text) = text := by
  apply asBytes_injective
  obtain ⟨chars, hchars⟩ := exists_text_of_isUtf8 (isUtf8_asBytes text)
  rw [hchars, fromUtf8Lossy, lossyChars_flatMap, asBytes_ofList]

/-- Bytes survive the lossy reading exactly when they are valid UTF-8. -/
theorem asBytes_fromUtf8Lossy_iff (bytes : Bytes) :
    asBytes (fromUtf8Lossy bytes) = bytes ↔ IsUtf8 bytes := by
  constructor
  · intro h
    rw [← h]
    exact isUtf8_asBytes _
  · intro h
    obtain ⟨chars, rfl⟩ := exists_text_of_isUtf8 h
    rw [fromUtf8Lossy, lossyChars_flatMap, asBytes_ofList]

/-! ## How much a lossy reading can grow -/

theorem length_encode_le_four (char : Char) : (String.utf8EncodeChar char).length ≤ 4 := by
  rw [String.length_utf8EncodeChar]
  exact char.utf8Size_le_four

/-- What a decoded character takes from the front of the bytes. -/
theorem eq_append_of_decode {bytes : Bytes} {char : Char}
    (h : bytes.toByteArray.utf8DecodeChar? 0 = some char) :
    bytes = String.utf8EncodeChar char ++ bytes.drop char.utf8Size := by
  obtain ⟨tail, htail⟩ := ByteArray.exists_of_utf8DecodeChar?_eq_some h
  have hlist : bytes = String.utf8EncodeChar char ++ tail.data.toList := by
    have hdata := congrArg (fun array => array.data.toList) htail
    simpa using hdata
  have hdrop : bytes.drop char.utf8Size = tail.data.toList := by
    rw [hlist]
    exact List.drop_left' (String.length_utf8EncodeChar char)
  rw [hdrop]
  exact hlist

theorem brokenLength_le_three (bytes : Bytes) : brokenLength bytes ≤ 3 := by
  unfold brokenLength
  repeat' split
  all_goals decide

/-- A lossy reading never shortens the bytes, and each byte read costs at most three
bytes of text. -/
theorem length_lossy_bounds (bytes : Bytes) :
    bytes.length ≤ ((lossyChars bytes).flatMap String.utf8EncodeChar).length ∧
      ((lossyChars bytes).flatMap String.utf8EncodeChar).length ≤ 3 * bytes.length := by
  fun_induction lossyChars bytes with
  | case1 => simp
  | case2 lead rest char hdecode ih =>
      have hsplit := congrArg List.length (eq_append_of_decode hdecode)
      rw [List.length_append, String.length_utf8EncodeChar] at hsplit
      rw [List.flatMap_cons, List.length_append, String.length_utf8EncodeChar]
      omega
  | case3 lead rest hdecode ih =>
      have hpos := brokenLength_pos (lead :: rest)
      have hthree := brokenLength_le_three (lead :: rest)
      have hsize : '\uFFFD'.utf8Size = 3 := by decide
      have hlength : (lead :: rest).length = rest.length + 1 := rfl
      rw [List.flatMap_cons, List.length_append, String.length_utf8EncodeChar, hsize]
      simp only [List.length_drop] at ih
      omega

/-- A repaired text is never shorter than the bytes it was read from. -/
theorem le_length_fromUtf8Lossy (bytes : Bytes) :
    bytes.length ≤ (asBytes (fromUtf8Lossy bytes)).length := by
  rw [fromUtf8Lossy, asBytes_ofList]
  exact (length_lossy_bounds bytes).1

/-- Cutting valid UTF-8 loses all of the cut but at most one character. -/
theorem length_lossy_take_le (chars : List Char) (count : Nat) :
    ((lossyChars ((chars.flatMap String.utf8EncodeChar).take count)).flatMap
      String.utf8EncodeChar).length ≤ count + 9 := by
  induction chars generalizing count with
  | nil => simp
  | cons char rest ih =>
      rw [List.flatMap_cons, List.take_append]
      by_cases hcut : char.utf8Size ≤ count
      · have hlength := String.length_utf8EncodeChar char
        rw [List.take_of_length_le (by omega), lossyChars_encode_append, List.flatMap_cons,
          List.length_append]
        have hrest := ih (count - (String.utf8EncodeChar char).length)
        omega
      · -- the cut falls into this character, whose bytes are replaced one by one at worst
        have hlength := String.length_utf8EncodeChar char
        have hzero : count - (String.utf8EncodeChar char).length = 0 := by omega
        rw [hzero, List.take_zero, List.append_nil]
        have hbound := (length_lossy_bounds ((String.utf8EncodeChar char).take count)).2
        have hfour := length_encode_le_four char
        rw [List.length_take] at hbound
        omega

theorem length_le_of_fromUtf8Lossy_take (text : String) (count : Nat)
    (h : fromUtf8Lossy ((asBytes text).take count) = text) :
    (asBytes text).length ≤ count + 9 := by
  obtain ⟨chars, hchars⟩ := exists_text_of_isUtf8 (isUtf8_asBytes text)
  have hbound := length_lossy_take_le chars count
  rw [← hchars, ← asBytes_ofList] at hbound
  change (asBytes (fromUtf8Lossy _)).length ≤ _ at hbound
  rwa [h] at hbound

/-- Bytes that start their own lossy reading end inside its first replacement. -/
theorem length_le_of_prefix_lossyChars (bytes : Bytes)
    (h : bytes <+: (lossyChars bytes).flatMap String.utf8EncodeChar) :
    ((lossyChars bytes).flatMap String.utf8EncodeChar).length ≤ bytes.length + 4 := by
  fun_induction lossyChars bytes with
  | case1 => simp
  | case2 lead rest char hdecode ih =>
      -- a character that decodes stands in front of both, and is cut off from both
      have hsplit := eq_append_of_decode hdecode
      rw [List.flatMap_cons] at h ⊢
      have haligned : String.utf8EncodeChar char ++ (lead :: rest).drop char.utf8Size <+:
          String.utf8EncodeChar char ++ (lossyChars ((lead :: rest).drop char.utf8Size)).flatMap
            String.utf8EncodeChar := by
        rw [← hsplit]
        exact h
      have hrest := ih ((List.prefix_append_right_inj _).mp haligned)
      have hlength := congrArg List.length hsplit
      rw [List.length_append] at hlength ⊢
      omega
  | case3 lead rest hdecode ih =>
      by_cases hshort : (lead :: rest).length ≤ 2
      · have hbound := (length_lossy_bounds (lead :: rest)).2
        rw [lossyChars, hdecode] at hbound
        simp only at hbound
        omega
      · -- three bytes of a replacement character would have decoded
        exfalso
        obtain ⟨second, third, tail, hrest⟩ :
            ∃ second third tail, rest = second :: third :: tail := by
          match rest, hshort with
          | second :: third :: tail, _ => exact ⟨second, third, tail, rfl⟩
          | [_], h => simp at h
          | [], h => simp at h
        have hencode : String.utf8EncodeChar '\uFFFD' = [0xEF, 0xBF, 0xBD] := by decide
        rw [List.flatMap_cons, hencode, hrest] at h
        simp only [List.cons_append, List.nil_append, List.cons_prefix_cons] at h
        obtain ⟨rfl, rfl, rfl, -⟩ := h
        subst hrest
        have hgood := lossyChars_encode_append '\uFFFD' tail
        have hsome : ((0xEF : UInt8) :: 0xBF :: 0xBD :: tail).toByteArray.utf8DecodeChar? 0 =
            some '\uFFFD' := by
          have happend := ByteArray.utf8DecodeChar?_utf8EncodeChar_append
            (b := tail.toByteArray) (c := '\uFFFD')
          rwa [hencode, ← List.toByteArray_append] at happend
        rw [hsome] at hdecode
        exact Option.some_ne_none _ hdecode

/-- Bytes that are a front of their own repair are repaired in their last four bytes at most. -/
theorem length_le_of_prefix_fromUtf8Lossy (bytes : Bytes)
    (h : bytes <+: asBytes (fromUtf8Lossy bytes)) :
    (asBytes (fromUtf8Lossy bytes)).length ≤ bytes.length + 4 := by
  rw [fromUtf8Lossy, asBytes_ofList] at h ⊢
  exact length_le_of_prefix_lossyChars bytes h

end Wire
