import TptAte.Stdf.RoundTrip

/-! # The capacity of records

A record body has room for the texts that fit their length bytes, and REC_LEN counts
it. Generic data is counted twice, by its own length and by REC_LEN, which also counts
the first: data that fits its own length by less than two bytes is written, but the
record is then lost to a reader, which finds it too short.
-/

namespace Stdf

open Wire Body StdfReader StdfWriter

/-! ## Texts that were written -/

theorem mem_of_emit {parts : List (Option Bytes)} {bytes : Bytes} (hemit : emit parts = some bytes)
    {part : Option Bytes} (hmem : part ∈ parts) : ∃ written, part = some written := by
  induction parts generalizing bytes with
  | nil => simp at hmem
  | cons first parts ih =>
      simp only [emit, Option.bind_eq_bind, Option.bind_eq_some_iff] at hemit
      obtain ⟨written, hfirst, others, hothers, -⟩ := hemit
      rcases List.mem_cons.mp hmem with rfl | hmem
      · exact ⟨written, hfirst⟩
      · exact ih hothers hmem

theorem emit_append_eq_some {parts parts' : List (Option Bytes)} {bytes : Bytes}
    (hemit : emit (parts ++ parts') = some bytes) :
    ∃ front rest, emit parts = some front ∧ emit parts' = some rest ∧ bytes = front ++ rest := by
  induction parts generalizing bytes with
  | nil => exact ⟨[], bytes, rfl, hemit, rfl⟩
  | cons part parts ih =>
      simp only [List.cons_append, emit, Option.bind_eq_bind, Option.bind_eq_some_iff,
        Option.pure_def, Option.some.injEq] at hemit
      obtain ⟨written, hpart, others, hothers, rfl⟩ := hemit
      obtain ⟨front, rest, hfront, hrest, rfl⟩ := ih hothers
      refine ⟨written ++ front, rest, ?_, hrest, by rw [List.append_assoc]⟩
      rw [emit, hpart, hfront]
      rfl

theorem fitsCn_of_write {order : Endian} {text : String} {bytes : Bytes}
    (hwrite : cn.write order text = some bytes) : FitsCn text := by
  have hlength := (Payload.write_eq_some.mp hwrite).1 rfl
  exact Nat.lt_succ_iff.mp hlength

/-- A text of a body that could be written fits its length byte. -/
theorem fitsCn_of_emit {parts : List (Option Bytes)} {bytes : Bytes}
    (hemit : emit parts = some bytes) {text : String} (hmem : put cn text ∈ parts) :
    FitsCn text := by
  obtain ⟨written, hwrite⟩ := mem_of_emit hemit hmem
  exact fitsCn_of_write hwrite

/-- The texts of a PTR that was encoded fit. -/
theorem fitsCn_of_encodePtr {r : Ptr} {bytes : Bytes} (hencode : encodePtr r = some bytes) :
    FitsCn r.testTxt ∧ FitsCn r.units :=
  ⟨fitsCn_of_emit hencode (by simp), fitsCn_of_emit hencode (by simp)⟩

theorem fitsCn_of_encodeFtr {r : Ftr} {bytes : Bytes} (hencode : encodeFtr r = some bytes)
    {name : String} (hname : r.pgmNam = [name]) : FitsCn name := by
  have hmem : ∃ written, put sn r.pgmNam = some written := mem_of_emit hencode (by simp)
  obtain ⟨written, hwrite⟩ := hmem
  rw [hname] at hwrite
  change cn.writeList Word.u16 .little [name] = some written at hwrite
  obtain ⟨-, items, hitems, -⟩ := Field.writeList_eq_some.mp hwrite
  obtain ⟨first, -, hfirst, -⟩ := Field.writeItems_cons_eq_some.mp hitems
  exact fitsCn_of_write hfirst

/-! ## Bodies of bounded length -/

/-- A part of a body that takes at most the given number of bytes. -/
def Short (bound : Nat) (part : Option Bytes) : Prop := ∀ bytes ∈ part, bytes.length ≤ bound

/-- Parts of bounded length make a record of bounded length. -/
theorem length_emit_le {bound : Nat} {parts : List (Option Bytes)} {bytes : Bytes}
    (hshort : ∀ part ∈ parts, Short bound part) (hemit : emit parts = some bytes) :
    bytes.length ≤ bound * parts.length := by
  induction parts generalizing bytes with
  | nil =>
      cases hemit
      exact Nat.zero_le _
  | cons part parts ih =>
      simp only [emit, Option.bind_eq_bind, Option.bind_eq_some_iff, Option.pure_def,
        Option.some.injEq] at hemit
      obtain ⟨written, hpart, others, hothers, rfl⟩ := hemit
      have hwritten := hshort part List.mem_cons_self written hpart
      have hlength := ih (fun other hother => hshort other (List.mem_cons_of_mem _ hother)) hothers
      rw [List.length_append, List.length_cons, Nat.mul_succ]
      omega

theorem short_word {α : Type} (word : Word α) (hwidth : word.width ≤ 258) (value : α) :
    Short 258 (put (word.field .unexpectedEof) value) := by
  intro bytes hbytes
  cases hbytes
  rw [Word.length_bytes]
  exact hwidth

theorem short_u1 (value : UInt8) : Short 258 (put u1 value) := short_word _ (by decide) value

theorem short_u2 (value : UInt16) : Short 258 (put u2 value) := short_word _ (by decide) value

theorem short_u4 (value : UInt32) : Short 258 (put u4 value) := short_word _ (by decide) value

theorem short_i1 (value : Int8) : Short 258 (put i1 value) := short_word _ (by decide) value

theorem short_i2 (value : Int16) : Short 258 (put i2 value) := short_word _ (by decide) value

theorem short_r4 (value : F32) : Short 258 (put r4 value) := short_word _ (by decide) value

theorem length_write_cn {order : Endian} {text : String} {bytes : Bytes}
    (hwrite : cn.write order text = some bytes) : bytes.length ≤ 256 := by
  have hfits : (asBytes text).length ≤ 255 := fitsCn_of_write hwrite
  obtain ⟨-, rfl⟩ := Payload.write_eq_some.mp hwrite
  rw [List.length_append, Word.length_bytes]
  exact Nat.add_le_add (le_refl 1) hfits

theorem short_cn (text : String) : Short 258 (put cn text) :=
  fun _ hbytes => (length_write_cn hbytes).trans (by decide)

theorem short_sn {texts : List String} (htexts : texts.length ≤ 1) : Short 258 (put sn texts) := by
  intro bytes hbytes
  obtain ⟨-, items, hitems, rfl⟩ := Field.writeList_eq_some.mp hbytes
  have hwidth : Word.u16.width = 2 := rfl
  rw [List.length_append, Word.length_bytes, hwidth]
  cases texts with
  | nil =>
      cases hitems
      decide
  | cons text texts =>
      obtain rfl : texts = [] := by simpa using htexts
      obtain ⟨first, rest, hfirst, hrest, rfl⟩ := Field.writeItems_cons_eq_some.mp hitems
      cases hrest
      have hlength := length_write_cn hfirst
      simp
      omega

theorem short_putWhen {α : Type} {F : Field StdfError α} (hshort : ∀ value, Short 258 (put F value))
    (present : Bool) (value : Option α) : Short 258 (putWhen F present value) := by
  have hnil : Short 258 (some []) := by
    rintro bytes ⟨⟩
    decide
  unfold putWhen putSome
  split
  · cases value with
    | none => exact hnil
    | some value => exact hshort value
  · exact hnil

/-- A record without lists or texts of many bytes. -/
def Record.Compact : Record → Prop
  | .ftr r => r.rtnNam.length ≤ 1 ∧ r.pgmNam.length ≤ 1 ∧ r.alarmId = none
  | .gdr _ | .unknown .. => False
  | _ => True

/-- The records made of such parts fit the two bytes of the record length. -/
theorem length_emit_le_65535 {parts : List (Option Bytes)} {bytes : Bytes}
    (hshort : ∀ part ∈ parts, Short 258 part) (hcount : parts.length ≤ 38)
    (hemit : emit parts = some bytes) : bytes.length ≤ 65535 := by
  have hlength := length_emit_le hshort hemit
  omega

/-- REC_LEN counts the body of such a record. -/
theorem length_encodeBody_le {record : Record} (hcompact : record.Compact) {body : Bytes}
    (hbody : record.encodeBody = some body) : body.length ≤ 65535 := by
  cases record with
  | gdr r => exact hcompact.elim
  | unknown typ sub data => exact hcompact.elim
  | bps | eps =>
      cases hbody
      decide
  | pmr r =>
      obtain ⟨_, _, _, _, _, head, site⟩ := r
      refine length_emit_le_65535 ?_ ?_ hbody
      · cases head <;> cases site <;> simp [short_u1, short_u2, short_cn]
      · cases head <;> cases site <;> simp
  | ptr r =>
      obtain ⟨_, _, _, _, _, _, _, _, optFlg, _, _, _, _, _, _⟩ := r
      refine length_emit_le_65535 ?_ ?_ hbody
      · cases optFlg <;>
          simp [short_u1, short_u4, short_r4, short_cn, short_putWhen short_i1,
            short_putWhen short_r4]
      · cases optFlg <;> simp
  | ftr r =>
      obtain ⟨hrtn, hpgm, halarm⟩ := hcompact
      refine length_emit_le_65535 ?_ ?_ hbody
      · simp [halarm, short_u1, short_u2, short_u4, short_i2, short_sn hrtn, short_sn hpgm]
      · simp [halarm]
  | _ r =>
    refine length_emit_le_65535 ?_ ?_ hbody
    · simp [short_u1, short_u2, short_u4, short_i2, short_r4, short_cn]
    · simp

/-! ## Generic data -/

/-- A GDR is encoded exactly if its data fits, behind its length. -/
theorem encodeGdr_eq_some {data body : Bytes} :
    encodeGdr ⟨data⟩ = some body ↔
      data.length ≤ 65535 ∧ body = Word.u16.bytes .little (UInt16.ofNat data.length) ++ data := by
  have hwrite : encodeGdr ⟨data⟩ = kBytes.write .little data := by
    simp [encodeGdr, emit, put]
  rw [hwrite]
  refine Payload.write_eq_some.trans (and_congr_left' ?_)
  exact ⟨fun hlt => Nat.lt_succ_iff.mp (hlt rfl), fun hle _ => Nat.lt_succ_iff.mpr hle⟩

theorem length_encodeGdr {data body : Bytes} (hencode : encodeGdr ⟨data⟩ = some body) :
    body.length = 2 + data.length := by
  obtain ⟨-, rfl⟩ := encodeGdr_eq_some.mp hencode
  rw [List.length_append, Word.length_bytes]
  rfl

/-- A byte or less has no generic data in it. -/
theorem parse_shortGdr {body : Bytes} (hshort : body.length ≤ 1) :
    ∃ wanted had, Record.parse 20 10 body .little = .error (.unexpectedEof wanted had) := by
  match body with
  | [] => exact ⟨_, _, rfl⟩
  | [_] => exact ⟨_, _, rfl⟩

/-- A record of generic data whose length wraps to less than two cannot be read. -/
theorem nextFrame_shortGdr {length : Nat} (hlength : length % 65536 ≤ 1) {data : Bytes}
    (hdata : 2 ≤ data.length) :
    ∃ error, nextFrame .little true (recordHeader 20 10 length ++ data) = .error error := by
  obtain ⟨length0, length1, hheader, hvalue⟩ := recordHeader_eq 20 10 length
  have hshort : (data.take (length % 65536)).length ≤ 1 := by
    rw [List.length_take]
    omega
  obtain ⟨wanted, had, hparse⟩ := parse_shortGdr hshort
  refine ⟨.unexpectedEof wanted had, ?_⟩
  rw [hheader]
  simp only [List.cons_append, List.nil_append]
  have hendian : endianAfter .little 20 10 (data.take (length % 65536)) = .little := rfl
  rw [nextFrame_accepted (by decide), hvalue, if_neg (by omega), hendian, hparse]
  rfl

end Stdf
