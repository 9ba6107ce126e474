import TptAte.Stdf.Capacity

/-! # REC_LEN and the body

A reader finds the next record by REC_LEN, and the end of PROGRAM and TEST_LABEL by the
length written in front of them. All three counts are casts to 16 bits. The size of a
body is computed here from the fields of the record, and the casts keep it for exactly
the records whose body has at most 65535 bytes.
-/

namespace Stdf

open Wire StdfReader StdfWriter

/-! ## Parts of a known size -/

/-- A part of a body that takes the given number of bytes. -/
def Takes (size : Nat) (part : Option Bytes) : Prop := ∀ bytes ∈ part, bytes.length = size

/-- A record is as long as its parts together. -/
theorem length_emit_of_takes {sizes : List Nat} {parts : List (Option Bytes)} {bytes : Bytes}
    (htakes : List.Forall₂ Takes sizes parts) (hemit : emit parts = some bytes) :
    bytes.length = sizes.sum := by
  induction htakes generalizing bytes with
  | nil =>
      cases hemit
      rfl
  | cons hpart _ ih =>
      simp only [emit, Option.bind_eq_bind, Option.bind_eq_some_iff, Option.pure_def,
        Option.some.injEq] at hemit
      obtain ⟨written, hwritten, others, hothers, rfl⟩ := hemit
      rw [List.length_append, hpart written hwritten, ih hothers, List.sum_cons]

theorem takes_word {α : Type} (word : Word α) (value : α) :
    Takes word.width (put (word.field .unexpectedEof) value) := by
  intro bytes hbytes
  cases hbytes
  exact Word.length_bytes word .little value

theorem takes_u1 (value : UInt8) : Takes 1 (put u1 value) := takes_word Word.u8 value

theorem takes_u2 (value : UInt16) : Takes 2 (put u2 value) := takes_word Word.u16 value

theorem takes_u4 (value : UInt32) : Takes 4 (put u4 value) := takes_word Word.u32 value

theorem takes_i2 (value : Int16) : Takes 2 (put i2 value) := takes_word Word.i16 value

def cnSize (text : String) : Nat := 1 + (asBytes text).length

theorem takes_cn (text : String) : Takes (cnSize text) (put cn text) := by
  intro bytes hbytes
  obtain ⟨-, rfl⟩ := Payload.write_eq_some.mp hbytes
  rw [List.length_append, Word.length_bytes]
  rfl

def snSize (texts : List String) : Nat := 2 + (texts.map cnSize).sum

theorem length_writeItems_cn {texts : List String} {bytes : Bytes}
    (hwrite : cn.writeItems .little texts = some bytes) :
    bytes.length = (texts.map cnSize).sum := by
  induction texts generalizing bytes with
  | nil =>
      cases hwrite
      rfl
  | cons text texts ih =>
      obtain ⟨head, tail, hhead, htail, rfl⟩ := Field.writeItems_cons_eq_some.mp hwrite
      rw [List.length_append, takes_cn text head hhead, ih htail, List.map_cons, List.sum_cons]

theorem takes_sn (texts : List String) : Takes (snSize texts) (put sn texts) := by
  intro bytes hbytes
  obtain ⟨-, items, hitems, rfl⟩ := Field.writeList_eq_some.mp hbytes
  rw [List.length_append, Word.length_bytes, length_writeItems_cn hitems]
  rfl

/-! ## Texts behind a two-byte length -/

/-- The bytes of a text behind its two-byte length, which wraps. -/
def longText (text : String) : Bytes :=
  Word.u16.bytes .little (UInt16.ofNat (asBytes text).length) ++ asBytes text

theorem put_nn (text : String) : put nn text = some (longText text) := rfl

theorem length_longText (text : String) : (longText text).length = 2 + (asBytes text).length := by
  rw [longText, List.length_append, Word.length_bytes]
  rfl

def leadingCount (bytes : Bytes) : Nat := Endian.little.value (bytes.take 2)

theorem leadingCount_longText (text : String) :
    leadingCount (longText text) = (asBytes text).length % 65536 := by
  have hwidth : (Word.u16.bytes .little (UInt16.ofNat (asBytes text).length)).length = 2 :=
    Word.length_bytes Word.u16 .little _
  rw [leadingCount, longText, List.take_left' hwidth, Word.bytes,
    Endian.value_bytes _ _ _ (Word.u16.toNat_lt _)]
  exact Word.u16.toNat_ofNat _

theorem flatten_longText (texts : List String) :
    (texts.map longText).flatten.length =
      (texts.map fun text => 2 + (asBytes text).length).sum := by
  rw [List.length_flatten, List.map_map]
  exact congrArg List.sum (List.map_congr_left fun text _ => length_longText text)

/-- The texts of an FTR with a two-byte length, as far as OPT_FLAG_2 lets them be
written: PROGRAM and TEST_LABEL. -/
def Ftr.longTexts (r : Ftr) : List String :=
  match r.alarmId with
  | some _ =>
      (if r.optFlg2.all (· &&& 0x02 == 0) then r.program.toList else []) ++
        (if r.optFlg2.all (· &&& 0x04 == 0) then r.testLabel.toList else [])
  | none => []

def Record.longTexts : Record → List String
  | .ftr r => r.longTexts
  | _ => []

/-! ## The body of an FTR -/

theorem putWhen_nn (present : Bool) (value : Option String) :
    putWhen nn present value =
      some ((if present then value.toList else []).map longText).flatten := by
  cases present with
  | false => rfl
  | true =>
      cases value with
      | none => rfl
      | some text => exact (put_nn text).trans (by simp)

def Ftr.alarmSize (r : Ftr) : Nat :=
  match r.alarmId with
  | some alarmId => cnSize alarmId + 1
  | none => 0

def Ftr.frontSize (r : Ftr) : Nat := 38 + snSize r.rtnNam + snSize r.pgmNam + r.alarmSize

def Ftr.bodySize (r : Ftr) : Nat :=
  r.frontSize + (r.longTexts.map fun text => 2 + (asBytes text).length).sum

/-- The long texts are the last fields of an FTR. -/
theorem encodeFtr_eq_some {r : Ftr} {body : Bytes} (hencode : encodeFtr r = some body) :
    ∃ front, body = front ++ (r.longTexts.map longText).flatten ∧ front.length = r.frontSize := by
  obtain ⟨fixed, block, hfixed, hblock, rfl⟩ := emit_append_eq_some hencode
  have hsize : fixed.length = 38 + snSize r.rtnNam + snSize r.pgmNam := by
    have hsum : fixed.length = ([4, 1, 1, 1, 1, 4, 4, 4, 4, 2, 2, 2, 2, 2, 2, 2,
        snSize r.rtnNam, snSize r.pgmNam] : List Nat).sum := by
      apply length_emit_of_takes _ hfixed
      simp only [List.forall₂_cons, takes_u1, takes_u2, takes_u4, takes_i2, takes_sn, true_and]
      exact .nil
    simp only [List.sum_cons, List.sum_nil] at hsum
    rw [hsum]
    ring
  unfold Ftr.frontSize Ftr.alarmSize Ftr.longTexts
  cases halarm : r.alarmId with
  | none =>
      rw [halarm] at hblock
      cases hblock
      exact ⟨fixed, rfl, hsize⟩
  | some alarmId =>
      rw [halarm] at hblock
      obtain ⟨alarm, texts, halarm, htexts, rfl⟩ :=
        @emit_append_eq_some [put cn alarmId, put u1 (r.optFlg2.getD 0)] _ _ hblock
      have hlength : alarm.length = cnSize alarmId + 1 := by
        have htakes := List.Forall₂.cons (takes_cn alarmId)
          (.cons (takes_u1 (r.optFlg2.getD 0)) .nil)
        exact length_emit_of_takes htakes halarm
      refine ⟨fixed ++ alarm, ?_, by rw [List.length_append, hsize, hlength]⟩
      simp only [putWhen_nn, emit, Option.pure_def, Option.bind_eq_bind, Option.bind_some,
        Option.some.injEq] at htexts
      rw [← htexts, List.map_append, List.flatten_append, List.append_nil, List.append_assoc]

/-- The body of an FTR is as long as its fields say. -/
theorem length_encodeFtr {r : Ftr} {body : Bytes} (hencode : encodeFtr r = some body) :
    body.length = r.bodySize := by
  obtain ⟨front, rfl, hfront⟩ := encodeFtr_eq_some hencode
  rw [List.length_append, hfront, flatten_longText, Ftr.bodySize]

/-! ## Records whose body REC_LEN counts -/

/-- A reader that follows the lengths of a record lands behind it: REC_LEN counts the
bytes behind the header, and each long text is counted by the bytes in front of it. -/
structure LengthsCover (record : Record) (bytes : Bytes) : Prop where
  recLen : leadingCount bytes = (bytes.drop 4).length
  next : ∀ rest, (bytes ++ rest).drop (4 + leadingCount bytes) = rest
  longTexts : (record.longTexts.map longText).flatten <:+ bytes ∧
    ∀ text ∈ record.longTexts, leadingCount (longText text) = (asBytes text).length

/-- The body of a record fits REC_LEN. All other texts and counts are bounded by the
assertions of the codec. -/
def Record.FitsRecLen : Record → Prop
  | .ftr r => r.bodySize ≤ 65535
  | .gdr r => r.genData.length ≤ 65533
  | .unknown _ _ data => data.length ≤ 65535
  | _ => True

/-- The first two bytes of a record are the length of its body, to 16 bits. -/
theorem leadingCount_recordHeader (typ sub : UInt8) (length : Nat) (body : Bytes) :
    leadingCount (recordHeader typ sub length ++ body) = length % 65536 := by
  obtain ⟨length0, length1, hheader, hvalue⟩ := recordHeader_eq typ sub length
  rw [hheader]
  exact hvalue

theorem drop_recordHeader (typ sub : UInt8) (length : Nat) (body : Bytes) :
    (recordHeader typ sub length ++ body).drop 4 = body :=
  List.drop_left' (length_recordHeader typ sub length)

/-- The record length fits exactly if the body has at most 65535 bytes. -/
theorem fitsRecLen_iff {record : Record} {body : Bytes} (hbody : record.encodeBody = some body) :
    record.FitsRecLen ↔ body.length ≤ 65535 := by
  cases record with
  | ftr r =>
      change r.bodySize ≤ 65535 ↔ _
      rw [length_encodeFtr hbody]
  | gdr r =>
      have hlength := length_encodeGdr hbody
      change r.genData.length ≤ 65533 ↔ _
      omega
  | unknown typ sub data =>
      cases hbody
      exact Iff.rfl
  | _ =>
      refine iff_of_true trivial (length_encodeBody_le ?_ hbody)
      exact trivial

/-- The long texts of a record end its body. -/
theorem longTexts_suffix {record : Record} {body : Bytes}
    (hbody : record.encodeBody = some body) :
    (record.longTexts.map longText).flatten <:+ body := by
  cases record with
  | ftr r =>
      obtain ⟨front, hfront, -⟩ := encodeFtr_eq_some hbody
      exact ⟨front, hfront.symm⟩
  | _ => exact List.nil_suffix

/-- What the lengths of a record count is decided by the length of its body. -/
theorem lengthsCover_iff {record : Record} {body : Bytes} (hbody : record.encodeBody = some body) :
    LengthsCover record
        (recordHeader record.typeSubtype.1 record.typeSubtype.2 body.length ++ body) ↔
      body.length ≤ 65535 := by
  constructor
  · intro hcover
    have hcount := hcover.recLen
    rw [leadingCount_recordHeader, drop_recordHeader] at hcount
    omega
  · intro hle
    have hcount : body.length % 65536 = body.length := Nat.mod_eq_of_lt (by omega)
    have hsuffix := longTexts_suffix hbody
    refine ⟨?_, ?_, hsuffix.trans (List.suffix_append _ _), ?_⟩
    · rw [leadingCount_recordHeader, drop_recordHeader, hcount]
    · intro rest
      rw [leadingCount_recordHeader, hcount]
      apply List.drop_left'
      rw [List.length_append, length_recordHeader]
    · intro text htext
      -- a text in the body is not longer than the body
      have hlong : (longText text).length ≤ body.length :=
        ((List.infix_of_mem_flatten (List.mem_map_of_mem htext)).length_le).trans hsuffix.length_le
      rw [length_longText] at hlong
      rw [leadingCount_longText, Nat.mod_eq_of_lt (by omega)]

/-- The lengths in an encoded record are right exactly if its body fits REC_LEN. -/
theorem lengthsCover_encode_iff {record : Record} {bytes : Bytes}
    (hencode : record.encode = some bytes) :
    LengthsCover record bytes ↔ record.FitsRecLen := by
  obtain ⟨body, hbody, rfl⟩ := encode_eq_some.mp hencode
  exact (lengthsCover_iff hbody).trans (fitsRecLen_iff hbody).symm

/-- A functional result whose PROGRAM is written behind its alarm text. -/
def programFtr : Ftr :=
  { Ftr.pattern 7 1 3 true "SCAN" with
    optFlg := 0x01, alarmId := some "A1", optFlg2 := some 0x04, program := some "FLOW" }

/-- The FTR of the program fits its record length, and its lengths cover it. -/
theorem lengthsCover_programFtr :
    ∃ bytes, (Record.ftr programFtr).encode = some bytes ∧
      (LengthsCover (.ftr programFtr) bytes ↔ (Record.ftr programFtr).FitsRecLen) ∧
      programFtr.bodySize = 57 :=
  ⟨_, rfl, lengthsCover_encode_iff rfl, rfl⟩

/-- Generic data that fills its own length leaves no room for it in REC_LEN, which
then counts nothing of the body. -/
theorem not_lengthsCover_gdr :
    ∃ bytes, (Record.gdr ⟨List.replicate 65534 0⟩).encode = some bytes ∧
      ¬ LengthsCover (.gdr ⟨List.replicate 65534 0⟩) bytes := by
  have hbody : (Record.gdr ⟨List.replicate 65534 0⟩).encodeBody =
      some (Word.u16.bytes .little (UInt16.ofNat (List.replicate 65534 (0 : UInt8)).length) ++
        List.replicate 65534 0) :=
    encodeGdr_eq_some.mpr ⟨List.length_replicate.le.trans (by decide), rfl⟩
  refine ⟨_, encode_eq_some.mpr ⟨_, hbody, rfl⟩, ?_⟩
  rw [lengthsCover_iff hbody, length_encodeGdr hbody, List.length_replicate]
  decide

end Stdf
