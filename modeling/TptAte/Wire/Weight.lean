import TptAte.Wire.Body

/-! # Weighing bytes

Counting the bytes of one kind is additive, and a lossy reading adds only the
bytes of U+FFFD. So a count that ignores those three does not grow when a text is
read and written again. The marks, bytes from 1 to 127, are such a count that
also ignores the zeros written for defaults and small counts.
-/

namespace Wire

variable {ε α β κ : Type}

/-! ## Counts that a lossy reading does not raise -/

/-- A byte of the encoding of U+FFFD. -/
def isRepair (byte : UInt8) : Bool := byte == 0xEF || byte == 0xBF || byte == 0xBD

/-- A kind of bytes that repair does not add. -/
def Unrepaired (kind : UInt8 → Bool) : Prop := ∀ byte, isRepair byte = true → kind byte = false

theorem countP_encode_replacement {kind : UInt8 → Bool} (hkind : Unrepaired kind) :
    (String.utf8EncodeChar '\uFFFD').countP kind = 0 := by
  have hencode : String.utf8EncodeChar '\uFFFD' = [0xEF, 0xBF, 0xBD] := by decide
  rw [hencode, List.countP_eq_zero]
  intro byte hbyte
  rw [hkind byte]
  · exact Bool.false_ne_true
  · simp only [List.mem_cons, List.not_mem_nil, or_false] at hbyte
    rcases hbyte with rfl | rfl | rfl <;> decide

theorem countP_lossyChars_le {kind : UInt8 → Bool} (hkind : Unrepaired kind) (bytes : Bytes) :
    ((lossyChars bytes).flatMap String.utf8EncodeChar).countP kind ≤ bytes.countP kind := by
  fun_induction lossyChars bytes with
  | case1 => simp
  | case2 lead rest char hdecode ih =>
      have hsplit := congrArg (List.countP kind) (eq_append_of_decode hdecode)
      rw [List.countP_append] at hsplit
      rw [List.flatMap_cons, List.countP_append]
      omega
  | case3 lead rest hdecode ih =>
      rw [List.flatMap_cons, List.countP_append, countP_encode_replacement hkind, Nat.zero_add]
      exact ih.trans (List.Sublist.countP_le (List.drop_sublist _ _))

/-- Repair adds no byte of a kind that it does not write. -/
theorem countP_fromUtf8Lossy_le {kind : UInt8 → Bool} (hkind : Unrepaired kind) (bytes : Bytes) :
    (asBytes (fromUtf8Lossy bytes)).countP kind ≤ bytes.countP kind := by
  rw [fromUtf8Lossy, asBytes_ofList]
  exact countP_lossyChars_le hkind bytes

/-! ## Lossy readings of a part of a text -/

theorem isUTF8FirstByte_of_lead {lead : UInt8} (hlow : 0xE0 ≤ lead) (hhigh : lead ≤ 0xF4) :
    lead.IsUTF8FirstByte := by
  have hall : ∀ n < 21, (UInt8.ofNat (0xE0 + n)).IsUTF8FirstByte := by decide
  have hlowNat : 0xE0 ≤ lead.toNat := UInt8.le_iff_toNat_le.mp hlow
  have hhighNat : lead.toNat ≤ 0xF4 := UInt8.le_iff_toNat_le.mp hhigh
  have hlead := hall (lead.toNat - 0xE0) (by omega)
  rwa [Nat.add_sub_cancel' hlowNat, UInt8.ofNat_toNat] at hlead

theorem isUTF8FirstByte_of_threeByteStart {lead second : UInt8}
    (hstart : threeByteStart lead second = true) : lead.IsUTF8FirstByte := by
  simp only [threeByteStart, Bool.or_eq_true, Bool.and_eq_true, beq_iff_eq,
    decide_eq_true_eq] at hstart
  rcases hstart with ((⟨⟨rfl, -⟩, -⟩ | ⟨⟨⟨hlow, hhigh⟩, -⟩, -⟩) | ⟨⟨rfl, -⟩, -⟩) |
    ⟨⟨⟨hlow, hhigh⟩, -⟩, -⟩
  · decide
  · exact isUTF8FirstByte_of_lead (UInt8.le_trans (by decide) hlow)
      (UInt8.le_trans hhigh (by decide))
  · decide
  · exact isUTF8FirstByte_of_lead (UInt8.le_trans (by decide) hlow)
      (UInt8.le_trans hhigh (by decide))

theorem isUTF8FirstByte_of_fourByteStart {lead second : UInt8}
    (hstart : fourByteStart lead second = true) : lead.IsUTF8FirstByte := by
  simp only [fourByteStart, Bool.or_eq_true, Bool.and_eq_true, beq_iff_eq,
    decide_eq_true_eq] at hstart
  rcases hstart with (⟨⟨rfl, -⟩, -⟩ | ⟨⟨⟨hlow, hhigh⟩, -⟩, -⟩) | ⟨⟨rfl, -⟩, -⟩
  · decide
  · exact isUTF8FirstByte_of_lead (UInt8.le_trans (by decide) hlow)
      (UInt8.le_trans hhigh (by decide))
  · decide

theorem brokenLength_orphan {lead : UInt8} (hlead : ¬ lead.IsUTF8FirstByte) (rest : Bytes) :
    brokenLength (lead :: rest) = 1 := by
  cases rest with
  | nil => rfl
  | cons second rest =>
      change (if threeByteStart lead second = true then 2 else _) = 1
      rw [if_neg (mt isUTF8FirstByte_of_threeByteStart hlead),
        if_neg (mt isUTF8FirstByte_of_fourByteStart hlead)]

/-- A byte that cannot start a character is replaced alone. -/
theorem lossyChars_orphan {lead : UInt8} (hlead : ¬ lead.IsUTF8FirstByte) (rest : Bytes) :
    lossyChars (lead :: rest) = '\uFFFD' :: lossyChars rest := by
  have hdecode : (lead :: rest).toByteArray.utf8DecodeChar? 0 = none := by
    rw [← Option.not_isSome_iff_eq_none]
    intro hsome
    apply hlead
    simpa using ByteArray.isUTF8FirstByte_of_isSome_utf8DecodeChar? hsome
  rw [lossyChars, hdecode]
  simp only [brokenLength_orphan hlead, List.drop_one, List.tail_cons]

theorem lossyChars_orphans {orphans : Bytes} (horphans : ∀ lead ∈ orphans, ¬ lead.IsUTF8FirstByte)
    (rest : Bytes) :
    lossyChars (orphans ++ rest) = List.replicate orphans.length '\uFFFD' ++ lossyChars rest := by
  induction orphans with
  | nil => rfl
  | cons lead orphans ih =>
      rw [List.cons_append, lossyChars_orphan (horphans lead List.mem_cons_self),
        ih fun other hother => horphans other (List.mem_cons_of_mem _ hother)]
      rfl

/-- Behind a cut, valid UTF-8 goes on with at most three bytes of the cut character. -/
theorem drop_eq_orphans (chars : List Char) (count : Nat) :
    ∃ orphans chars', (chars.flatMap String.utf8EncodeChar).drop count =
        orphans ++ List.flatMap String.utf8EncodeChar chars' ∧ orphans.length ≤ 3 ∧
      ∀ lead ∈ orphans, ¬ lead.IsUTF8FirstByte := by
  induction chars generalizing count with
  | nil => exact ⟨[], [], by simp, by simp, by simp⟩
  | cons char rest ih =>
      rw [List.flatMap_cons, List.drop_append]
      by_cases hcut : count = 0
      · refine ⟨[], char :: rest, ?_, by simp, by simp⟩
        simp [hcut]
      by_cases hwhole : char.utf8Size ≤ count
      · obtain ⟨orphans, chars', hdrop, hlength, horphans⟩ :=
          ih (count - (String.utf8EncodeChar char).length)
        refine ⟨orphans, chars', ?_, hlength, horphans⟩
        rw [List.drop_of_length_le (by rw [String.length_utf8EncodeChar]; exact hwhole),
          List.nil_append, hdrop]
      · -- the cut falls into this character
        have hsize := String.length_utf8EncodeChar char
        have hfour := length_encode_le_four char
        refine ⟨(String.utf8EncodeChar char).drop count, rest, ?_, ?_, ?_⟩
        · rw [Nat.sub_eq_zero_of_le (by omega), List.drop_zero]
        · rw [List.length_drop]
          omega
        · intro lead hlead
          obtain ⟨i, hi, rfl⟩ := List.mem_iff_getElem.mp hlead
          rw [List.getElem_drop, UInt8.isUTF8FirstByte_getElem_utf8EncodeChar]
          omega

/-- A part of valid UTF-8 grows little when it is read lossily. -/
theorem length_lossyChars_part_le (chars : List Char) (start count : Nat) :
    ((lossyChars (((chars.flatMap String.utf8EncodeChar).drop start).take count)).flatMap
      String.utf8EncodeChar).length ≤ count + 15 := by
  obtain ⟨orphans, chars', hdrop, hlength, horphans⟩ := drop_eq_orphans chars start
  have htail := length_lossy_take_le chars' (count - orphans.length)
  have hsize : '\uFFFD'.utf8Size = 3 := by decide
  rw [hdrop, List.take_append,
    lossyChars_orphans fun lead hlead => horphans lead (List.mem_of_mem_take hlead)]
  rw [List.flatMap_append, List.length_append]
  have hreplaced : (List.flatMap String.utf8EncodeChar
      (List.replicate (orphans.take count).length '\uFFFD')).length =
        3 * (orphans.take count).length := by
    simp [List.flatMap_replicate, String.length_utf8EncodeChar, hsize]
    omega
  rw [hreplaced, List.length_take]
  omega

/-- A text that is the lossy reading of a part of itself is not much longer. -/
theorem length_le_of_part {text : String} {left raw right : Bytes}
    (htext : asBytes text = left ++ raw ++ right) (hread : fromUtf8Lossy raw = text) :
    (asBytes text).length ≤ raw.length + 15 := by
  obtain ⟨chars, hchars⟩ := exists_text_of_isUtf8 (isUtf8_asBytes text)
  have hraw : raw = ((chars.flatMap String.utf8EncodeChar).drop left.length).take raw.length := by
    rw [← hchars, htext, List.append_assoc, List.drop_left, List.take_left]
  have hbound := length_lossyChars_part_le chars left.length raw.length
  rw [← hraw, ← asBytes_ofList] at hbound
  change (asBytes (fromUtf8Lossy raw)).length ≤ _ at hbound
  rwa [hread] at hbound

/-! ## Marks -/

/-- A byte from 1 to 127. -/
def isMark (byte : UInt8) : Bool := 0 < byte && byte < 0x80

def marks (bytes : Bytes) : Nat := bytes.countP isMark

@[simp] theorem marks_nil : marks [] = 0 := rfl

@[simp] theorem marks_append (left right : Bytes) :
    marks (left ++ right) = marks left + marks right := List.countP_append

theorem marks_le_length (bytes : Bytes) : marks bytes ≤ bytes.length := List.countP_le_length

theorem unrepaired_isMark : Unrepaired isMark := by
  intro byte hbyte
  simp only [isRepair, Bool.or_eq_true, beq_iff_eq] at hbyte
  rcases hbyte with (rfl | rfl) | rfl <;> decide

/-- The bytes of a number read in one order, written in another. -/
theorem bytes_value_perm (order order' : Endian) (raw : Bytes) :
    (order'.bytes raw.length (order.value raw)).Perm raw := by
  have hreverse (n : Nat) : (order'.bytes raw.length n).Perm (order.bytes raw.length n) := by
    cases order <;> cases order' <;> simp [Endian.bytes, List.reverse_perm, List.perm_reverse]
  have hsame := hreverse (order.value raw)
  rwa [order.bytes_value] at hsame

/-- A number has as many marks in either byte order. -/
theorem marks_bytes_value (order order' : Endian) (raw : Bytes) :
    marks (order'.bytes raw.length (order.value raw)) = marks raw :=
  (bytes_value_perm order order' raw).countP_eq isMark

namespace Field

/-- Writing what was read, in any order, adds no mark to the bytes it was read from. -/
def KeepsMarks (F : Field ε α) : Prop :=
  ∀ ⦃order order' data value rest bytes⦄, (F.read order).run data = .ok (value, rest) →
    F.write order' value = some bytes → ∃ used, data = used ++ rest ∧ marks bytes ≤ marks used

variable {F : Field ε α} {E : Field ε β}

theorem pair_keepsMarks (hF : F.KeepsMarks) (hE : E.KeepsMarks) : (F.pair E).KeepsMarks := by
  intro order order' data value rest bytes hread hwrite
  obtain ⟨middle, hhead, htail⟩ := Reader.seq_eq_ok.mp hread
  obtain ⟨first, second, hfirst, hsecond, rfl⟩ := append_eq_some.mp hwrite
  obtain ⟨used, rfl, hused⟩ := hF hhead hfirst
  obtain ⟨used', rfl, hused'⟩ := hE htail hsecond
  refine ⟨used ++ used', (List.append_assoc _ _ _).symm, ?_⟩
  rw [marks_append, marks_append]
  exact Nat.add_le_add hused hused'

theorem word_keepsMarks (word : Word α) (eof : Nat → Nat → ε) : (word.field eof).KeepsMarks := by
  rintro order order' data value rest bytes hread ⟨⟩
  obtain ⟨raw, rfl, hraw, rfl⟩ := Word.read_eq_ok.mp hread
  refine ⟨raw, rfl, ?_⟩
  rw [Word.bytes, word.toNat_ofNat_value order hraw, ← hraw, marks_bytes_value]

/-- A one-byte count has a mark whenever a larger one has. -/
theorem marks_count_le {count : UInt8} {length : Nat} (hle : count.toNat ≤ length)
    (hlt : length < 256) (hzero : count = 0 → length = 0) :
    marks [UInt8.ofNat length] ≤ marks [count] := by
  by_cases hcount : count = 0
  · rw [hzero hcount, hcount]
    exact le_rfl
  · have hpos : 0 < count.toNat := Nat.pos_of_ne_zero fun h => hcount (UInt8.toNat_inj.mp h)
    simp only [marks, isMark, List.countP_cons, List.countP_nil, Bool.and_eq_true,
      decide_eq_true_eq, UInt8.lt_iff_toNat_lt, UInt8.toNat_ofNat']
    simp
    split <;> split <;> omega

theorem text_keepsMarks (eof : Nat → Nat → ε) :
    (Payload.text.field Word.u8 eof true).KeepsMarks := by
  intro order order' data value rest bytes hread hwrite
  obtain ⟨count, raw, rfl, hcount, hraw, rfl⟩ := Payload.read_eq_ok.mp hread
  obtain ⟨hfits, rfl⟩ := Payload.write_eq_some.mp hwrite
  obtain ⟨length, rfl⟩ := List.length_eq_one_iff.mp hcount
  have hlength : raw.length = length.toNat := by
    rw [hraw]
    cases order <;> simp [Endian.value, leValue]
  have hgrow := le_length_fromUtf8Lossy raw
  have hmarks := countP_fromUtf8Lossy_le unrepaired_isMark raw
  have hwritten (n : Nat) : Word.u8.bytes order' (Word.u8.ofNat n) = [UInt8.ofNat n] := by
    have hofNat : UInt8.ofNat (n % 256) = UInt8.ofNat n := by
      apply UInt8.toNat_inj.mp
      simp
    cases order' <;> simp [Word.bytes, Word.u8, Endian.bytes, leBytes, hofNat]
  refine ⟨[length] ++ raw, rfl, ?_⟩
  rw [marks_append, marks_append, hwritten]
  refine Nat.add_le_add (marks_count_le (hlength ▸ hgrow) (hfits rfl) fun hzero => ?_) hmarks
  have hnil : raw = [] := by
    rw [← List.length_eq_zero_iff, hlength, hzero]
    rfl
  rw [hnil]
  simp [Payload.text, fromUtf8Lossy]

theorem blob_keepsMarks (word : Word κ) (eof : Nat → Nat → ε) (strict : Bool) :
    (Payload.blob.field word eof strict).KeepsMarks := by
  intro order order' data value rest bytes hread hwrite
  obtain ⟨count, raw, rfl, hcount, hraw, rfl⟩ := Payload.read_eq_ok.mp hread
  obtain ⟨-, rfl⟩ := Payload.write_eq_some.mp hwrite
  have hlt := order.value_lt count
  refine ⟨count ++ raw, rfl, ?_⟩
  rw [marks_append, marks_append]
  refine Nat.add_le_add ?_ le_rfl
  change marks (word.bytes order' (word.ofNat raw.length)) ≤ marks count
  rw [hraw, Word.bytes, word.toNat_ofNat_value order hcount, ← hcount, marks_bytes_value]

theorem items_keepMarks (hF : F.KeepsMarks) {order order' : Endian} {count : Nat}
    {data rest bytes : Bytes} {items : List α}
    (hread : (F.readItems order count).run data = .ok (items, rest))
    (hwrite : F.writeItems order' items = some bytes) :
    ∃ used, data = used ++ rest ∧ marks bytes ≤ marks used := by
  induction count generalizing data items bytes with
  | zero =>
      cases hread
      cases hwrite
      exact ⟨[], rfl, le_rfl⟩
  | succ count ih =>
      obtain ⟨item, middle, items, hitem, hitems, rfl⟩ := readItems_succ_eq_ok.mp hread
      obtain ⟨head, tail, hhead, htail, rfl⟩ := writeItems_cons_eq_some.mp hwrite
      obtain ⟨used, rfl, hused⟩ := hF hitem hhead
      obtain ⟨used', rfl, hused'⟩ := ih hitems htail
      refine ⟨used ++ used', (List.append_assoc _ _ _).symm, ?_⟩
      rw [marks_append, marks_append]
      exact Nat.add_le_add hused hused'

theorem listOf_keepsMarks (hF : F.KeepsMarks) (word : Word κ) (eof : Nat → Nat → ε) :
    (F.listOf word eof).KeepsMarks := by
  intro order order' data items rest bytes hread hwrite
  obtain ⟨count, body, rfl, hcount, hitems⟩ := readList_eq_ok.mp hread
  obtain ⟨-, written, hwritten, rfl⟩ := writeList_eq_some.mp hwrite
  obtain ⟨used, rfl, hused⟩ := items_keepMarks hF hitems hwritten
  refine ⟨count ++ used, (List.append_assoc _ _ _).symm, ?_⟩
  rw [marks_append, marks_append, length_readItems hitems, Word.bytes,
    word.toNat_ofNat_value order hcount, ← hcount, marks_bytes_value]
  exact Nat.add_le_add_left hused _

end Field

/-! ## Marks of whole bodies -/

namespace Body

/-- Up to a last part, writing what was read from a body adds no mark. `Last`
relates the bytes the last part is read from, with all that is left over, to the
bytes written for it. -/
def KeepsMarksUpTo (B : Body ε α) (order order' : Endian) (Last : Bytes → Bytes → Prop) : Prop :=
  ∀ ⦃data value rest bytes⦄, (B.read order).run data = .ok (value, rest) →
    B.write order' value = some bytes →
    ∃ used left written last, data = used ++ left ∧ bytes = written ++ last ∧
      marks written ≤ marks used ∧ Last left last

/-- The last part writes nothing. -/
def Silent (_ last : Bytes) : Prop := last = []

variable {order order' : Endian} {Last : Bytes → Bytes → Prop} {F : Field ε α}

/-- A body that keeps marks is written with at most as many as it was read from. -/
theorem marks_le {B : Body ε α} (hB : B.KeepsMarksUpTo order order' Silent)
    {data rest bytes : Bytes} {value : α} (hread : (B.read order).run data = .ok (value, rest))
    (hwrite : B.write order' value = some bytes) : marks bytes ≤ marks data := by
  obtain ⟨used, left, written, last, rfl, rfl, hmarks, rfl⟩ := hB hread hwrite
  rw [List.append_nil, marks_append]
  exact Nat.le_add_right_of_le hmarks

theorem done_keepsMarks : (done : Body ε Unit).KeepsMarksUpTo order order' Silent := by
  rintro data value rest bytes ⟨⟩ ⟨⟩
  exact ⟨[], data, [], [], rfl, rfl, le_rfl, rfl⟩

theorem raw_keepsMarks : (raw : Body ε Bytes).KeepsMarksUpTo order order' Silent := by
  rintro data value rest bytes ⟨⟩ ⟨⟩
  exact ⟨data, [], data, [], (List.append_nil _).symm, (List.append_nil _).symm, le_rfl, rfl⟩

theorem imap_keepsMarks {B : Body ε α} {mk : α → β} {get : β → Option α}
    {hget : ∀ value, get (mk value) = some value} (hB : B.KeepsMarksUpTo order order' Last) :
    (B.imap mk get hget).KeepsMarksUpTo order order' Last := by
  intro data value rest bytes hread hwrite
  obtain ⟨parts, hparts, rfl⟩ := Reader.map_eq_ok.mp hread
  simp only [imap, hget] at hwrite
  exact hB hparts hwrite

/-- A field in front of a body that keeps marks. -/
theorem link_keepsMarks {B : Body ε β} (hF : F.KeepsMarks)
    (hB : B.KeepsMarksUpTo order order' Last) {data middle rest bytes : Bytes} {head : α} {tail : β}
    (hhead : (F.read order).run data = .ok (head, middle))
    (htail : (B.read order).run middle = .ok (tail, rest))
    (hwrite : (do return (← F.write order' head) ++ (← B.write order' tail)) = some bytes) :
    ∃ used left written last, data = used ++ left ∧ bytes = written ++ last ∧
      marks written ≤ marks used ∧ Last left last := by
  obtain ⟨first, second, hfirst, hsecond, rfl⟩ := Field.append_eq_some.mp hwrite
  obtain ⟨front, rfl, hfront⟩ := hF hhead hfirst
  obtain ⟨used, left, written, last, rfl, rfl, hmarks, hlast⟩ := hB htail hsecond
  refine ⟨front ++ used, left, first ++ written, last, (List.append_assoc _ _ _).symm,
    (List.append_assoc _ _ _).symm, ?_, hlast⟩
  rw [marks_append, marks_append]
  exact Nat.add_le_add hfront hmarks

theorem andThen_keepsMarks {G : α → Body ε β} (hF : F.KeepsMarks)
    (hG : ∀ value, (G value).KeepsMarksUpTo order order' Last) :
    (F.andThen G).KeepsMarksUpTo order order' Last := by
  intro data value rest bytes hread hwrite
  obtain ⟨middle, hhead, htail⟩ := Reader.seq_eq_ok.mp hread
  exact link_keepsMarks hF (hG value.1) hhead htail hwrite

theorem optional_keepsMarks {G : Option α → Body ε β} {present checked : Bool} (hF : F.KeepsMarks)
    (hG : ∀ value, (G value).KeepsMarksUpTo order order' Last) :
    (F.optional present checked G).KeepsMarksUpTo order order' Last := by
  intro data value rest bytes hread hwrite
  obtain ⟨head, tail⟩ := value
  rcases Field.optional_eq_ok.mp hread with ⟨hpresent, value, middle, rfl, hvalue, htail⟩ |
    ⟨_, rfl, htail⟩
  · simp only [Field.optional, hpresent.1, Bool.not_true, Bool.and_false] at hwrite
    exact link_keepsMarks hF (hG (some value)) hvalue htail hwrite
  · exact hG none htail hwrite

/-- A default that is written without a mark. -/
theorem defaulting_keepsMarks {G : α → Body ε β} {default : α} {hdefault : F.Valid default}
    (hF : F.KeepsMarks)
    (hsilent : ∀ bytes, F.write order' default = some bytes → marks bytes = 0)
    (hG : ∀ value, (G value).KeepsMarksUpTo order order' Last) :
    (F.defaulting default hdefault G).KeepsMarksUpTo order order' Last := by
  intro data value rest bytes hread hwrite
  obtain ⟨head, tail⟩ := value
  rcases Field.orDefault_eq_ok.mp hread with ⟨_, middle, hhead, htail⟩ | ⟨rfl, rfl, htail⟩
  · exact link_keepsMarks hF (hG head) hhead htail hwrite
  · obtain ⟨first, second, hfirst, hsecond, rfl⟩ := Field.append_eq_some.mp hwrite
    obtain ⟨used, left, written, last, hdata, rfl, hmarks, hlast⟩ := hG _ htail hsecond
    refine ⟨used, left, first ++ written, last, hdata, (List.append_assoc _ _ _).symm, ?_, hlast⟩
    rw [marks_append, hsilent first hfirst, Nat.zero_add]
    exact hmarks

end Body

end Wire
