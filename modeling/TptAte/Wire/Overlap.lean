import TptAte.Wire.Weight

/-! # Counted texts inside their own bytes

A text is read lossily and written again behind a two-byte big-endian count.
Repair can make it longer, so the bytes it was read from could in principle lie
inside the bytes written for it. They do, but then the bytes around them are
those of U+FFFD, and what is written in front of them holds at most one mark.
-/

namespace Wire

/-- The text read from some bytes, with its count in big-endian order. -/
def repaired (raw : Bytes) : Bytes :=
  Word.u16.bytes .big (Word.u16.ofNat (asBytes (fromUtf8Lossy raw)).length) ++
    asBytes (fromUtf8Lossy raw)

/-- At most two counted texts: the bytes they are read from in a byte order, with
all that follows, and the bytes written for them. -/
inductive Texts (order : Endian) : Bytes → Bytes → Prop
  | none (rest : Bytes) : Texts order rest []
  | one {count raw : Bytes} (rest : Bytes) : count.length = 2 → raw.length = order.value count →
      Texts order (count ++ raw ++ rest) (repaired raw)
  | two {count raw count' raw' : Bytes} (rest : Bytes) : count.length = 2 →
      raw.length = order.value count → count'.length = 2 → raw'.length = order.value count' →
      Texts order (count ++ raw ++ (count' ++ raw' ++ rest)) (repaired raw ++ repaired raw')

/-! ## What surrounds the bytes of a text in the text -/

theorem unrepaired_of_isRepair : Unrepaired fun byte => !isRepair byte := by
  intro byte hbyte
  show (!isRepair byte) = false
  rw [hbyte]
  rfl

theorem unrepaired_ascii : Unrepaired fun byte => decide (byte < 0x80) := by
  intro byte hbyte
  simp only [isRepair, Bool.or_eq_true, beq_iff_eq] at hbyte
  rcases hbyte with (rfl | rfl) | rfl <;> decide

theorem isRepair_bounds {byte : UInt8} (hbyte : isRepair byte = true) :
    0xBD ≤ byte.toNat ∧ byte.toNat ≤ 0xEF := by
  simp only [isRepair, Bool.or_eq_true, beq_iff_eq] at hbyte
  rcases hbyte with (rfl | rfl) | rfl <;> decide

/-- Where a text holds the bytes it is read from, all else is repair. -/
theorem isRepair_of_part {raw left right : Bytes}
    (htext : asBytes (fromUtf8Lossy raw) = left ++ raw ++ right) :
    (∀ byte ∈ left, isRepair byte = true) ∧ ∀ byte ∈ right, isRepair byte = true := by
  have hle := countP_fromUtf8Lossy_le unrepaired_of_isRepair raw
  rw [htext, List.countP_append, List.countP_append] at hle
  have hleft : left.countP (fun byte => !isRepair byte) = 0 := by omega
  have hright : right.countP (fun byte => !isRepair byte) = 0 := by omega
  rw [List.countP_eq_zero] at hleft hright
  constructor
  · intro byte hbyte
    simpa using hleft byte hbyte
  · intro byte hbyte
    simpa using hright byte hbyte

/-- No byte of a byte string is ASCII. -/
def High (bytes : Bytes) : Prop := ∀ byte ∈ bytes, 0x80 ≤ byte.toNat

theorem high_of_isRepair {bytes : Bytes} (hrepair : ∀ byte ∈ bytes, isRepair byte = true) :
    High bytes :=
  fun byte hbyte => (show 0x80 ≤ 0xBD by decide).trans (isRepair_bounds (hrepair byte hbyte)).1

theorem high_iff {bytes : Bytes} :
    High bytes ↔ bytes.countP (fun byte => decide (byte < 0x80)) = 0 := by
  rw [List.countP_eq_zero]
  simp [High, UInt8.lt_iff_toNat_lt]

theorem marks_of_high {bytes : Bytes} (hhigh : High bytes) : marks bytes = 0 := by
  rw [marks, List.countP_eq_zero]
  intro byte hbyte
  have hle := hhigh byte hbyte
  simp only [isMark, Bool.and_eq_true, decide_eq_true_eq, UInt8.lt_iff_toNat_lt]
  intro h
  exact Nat.not_lt.mpr hle h.2

/-- ASCII bytes in front of a text's own bytes show up behind the text. -/
theorem high_of_overhang {raw front gap : Bytes}
    (hgap : front ++ raw = asBytes (fromUtf8Lossy raw) ++ gap) (hhigh : High gap) : High front := by
  have hascii := congrArg (List.countP fun byte => decide (byte < 0x80)) hgap
  have hle := countP_fromUtf8Lossy_le unrepaired_ascii raw
  rw [List.countP_append, List.countP_append] at hascii
  rw [high_iff] at hhigh ⊢
  omega

/-! ## The counts -/

theorem value_pair (order : Endian) (first second : UInt8) :
    order.value [first, second] =
      match order with
      | .little => first.toNat + 256 * second.toNat
      | .big => second.toNat + 256 * first.toNat := by
  cases order <;> simp [Endian.value, leValue]

/-- The count of a text that fits it. -/
theorem repaired_eq (raw : Bytes) (hfits : (asBytes (fromUtf8Lossy raw)).length ≤ 65535) :
    ∃ high low : UInt8, repaired raw = [high, low] ++ asBytes (fromUtf8Lossy raw) ∧
      256 * high.toNat + low.toNat = (asBytes (fromUtf8Lossy raw)).length := by
  obtain ⟨high, low, hbytes⟩ := List.length_eq_two.mp
    (Word.length_bytes Word.u16 .big (Word.u16.ofNat (asBytes (fromUtf8Lossy raw)).length))
  refine ⟨high, low, by rw [repaired, hbytes], ?_⟩
  have hvalue := Endian.value_bytes .big Word.u16.width _
    (Word.u16.toNat_lt (Word.u16.ofNat (asBytes (fromUtf8Lossy raw)).length))
  change Endian.big.value (Word.u16.bytes .big _) = _ at hvalue
  rw [hbytes, Word.u16.toNat_ofNat, value_pair,
    Nat.mod_eq_of_lt (show _ < 256 ^ Word.u16.width from Nat.lt_succ_of_le hfits)] at hvalue
  dsimp only at hvalue
  omega

/-- A count that follows one without ASCII bytes has at most one mark. -/
theorem marks_count_le_one {order : Endian} {count : Bytes} {high low : UInt8}
    (hcount : count.length = 2) (hhigh : High count)
    (hle : order.value count ≤ 256 * high.toNat + low.toNat) : marks [high, low] ≤ 1 := by
  obtain ⟨first, second, rfl⟩ := List.length_eq_two.mp hcount
  have hfirst := hhigh first (by simp)
  have hsecond := hhigh second (by simp)
  have hlow := low.toNat_lt
  have hlead : High [high] := by
    intro byte hbyte
    rw [List.mem_singleton] at hbyte
    rw [hbyte]
    rw [value_pair] at hle
    cases order <;> dsimp only at hle <;> omega
  calc
    marks [high, low] = marks [high] + marks [low] := marks_append [high] [low]
    _ = marks [low] := by rw [marks_of_high hlead, Nat.zero_add]
    _ ≤ 1 := marks_le_length [low]

/-! ## What comes before the texts -/

/-- The bytes in front of a text's own bytes, from the text's count on, hold at
most one mark, if its text and its new count hold no ASCII byte there. -/
theorem marks_front_le_one {order : Endian} {count raw front : Bytes} {high low : UInt8}
    (hcount : count.length = 2) (hraw : raw.length = order.value count)
    (hsize : 256 * high.toNat + low.toNat = (asBytes (fromUtf8Lossy raw)).length)
    (hhigh : High (front ++ count)) : marks ([high, low] ++ front) ≤ 1 := by
  have hcountHigh : High count := fun byte hbyte => hhigh byte (List.mem_append_right _ hbyte)
  have hfrontHigh : High front := fun byte hbyte => hhigh byte (List.mem_append_left _ hbyte)
  have hgrow := le_length_fromUtf8Lossy raw
  rw [marks_append, marks_of_high hfrontHigh, Nat.add_zero]
  exact marks_count_le_one hcount hcountHigh (by rw [← hraw, hsize]; exact hgrow)

/-- What is at least two bytes long reaches past a count. -/
theorem eq_append_of_two_le {front tail after : Bytes} {high low : UInt8}
    (hlength : 2 ≤ front.length) (heq : [high, low] ++ tail = front ++ after) :
    ∃ front', front = [high, low] ++ front' ∧ tail = front' ++ after := by
  rcases List.append_eq_append_iff.mp heq with ⟨front', hfront, htail⟩ | ⟨cut, hcut, hafter⟩
  · exact ⟨front', hfront, htail⟩
  · have hcutNil : cut = [] := by
      have hsize := congrArg List.length hcut
      rw [List.length_append] at hsize
      apply List.eq_nil_of_length_eq_zero
      simp only [List.length_cons, List.length_nil] at hsize
      omega
    subst hcutNil
    rw [List.append_nil] at hcut
    exact ⟨[], by rw [← hcut, List.append_nil], hafter.symm⟩

/-- A second text that starts later than it is written: its old count and what
surrounds its bytes leave no ASCII byte in its new count. -/
theorem high_of_second {order : Endian} {count raw gap middle right : Bytes} {high low : UInt8}
    (hcount : count.length = 2) (hraw : raw.length = order.value count)
    (hsize : 256 * high.toNat + low.toNat = (asBytes (fromUtf8Lossy raw)).length)
    (hgap : gap ≠ []) (hmiddle : gap ++ count = [high, low] ++ middle)
    (htext : asBytes (fromUtf8Lossy raw) = middle ++ raw ++ right) : High [high, low] := by
  obtain ⟨first, second, rfl⟩ := List.length_eq_two.mp hcount
  obtain ⟨hmiddleRepair, -⟩ := isRepair_of_part htext
  have hbound := length_le_of_part htext rfl
  have hlength := congrArg List.length htext
  simp only [List.length_append] at hlength
  rw [hraw, value_pair] at hlength hbound
  have hlow := low.toNat_lt
  have hbounds : 0xBD ≤ high.toNat ∧ 0xBD ≤ low.toNat := by
    match gap, hgap, hmiddle with
    | [_], _, hmiddle =>
        -- the old count ends one byte behind the new one
        simp only [List.cons_append, List.nil_append, List.cons.injEq] at hmiddle
        obtain ⟨-, rfl, rfl⟩ := hmiddle
        have hsecond := isRepair_bounds (hmiddleRepair second (by simp))
        have hsame : high.toNat = first.toNat := by
          cases order <;> simp only [List.length_cons, List.length_nil] at hlength hbound <;> omega
        cases order <;> simp only [List.length_cons, List.length_nil] at hlength hbound <;> omega
    | _ :: _ :: gap, _, hmiddle =>
        simp only [List.cons_append, List.nil_append, List.cons.injEq] at hmiddle
        obtain ⟨-, -, rfl⟩ := hmiddle
        have hfirst := isRepair_bounds (hmiddleRepair first (by simp))
        have hsecond := isRepair_bounds (hmiddleRepair second (by simp))
        cases order <;>
          simp only [List.length_append, List.length_cons, List.length_nil] at hlength hbound <;>
          omega
  intro byte hbyte
  simp only [List.mem_cons, List.not_mem_nil, or_false] at hbyte
  rcases hbyte with rfl | rfl <;> omega

/-- What comes before such a text's count holds no ASCII byte either. -/
theorem high_of_gap {order : Endian} {count raw gap after : Bytes}
    (hfits : (asBytes (fromUtf8Lossy raw)).length ≤ 65535) (hcount : count.length = 2)
    (hraw : raw.length = order.value count) (hgap : gap ≠ [])
    (hsecond : repaired raw = gap ++ (count ++ raw ++ after)) : High gap := by
  obtain ⟨high, low, hrepaired, hsize⟩ := repaired_eq raw hfits
  rw [hrepaired, List.append_assoc count, ← List.append_assoc gap] at hsecond
  have hreach : 2 ≤ (gap ++ count).length := by
    rw [List.length_append, hcount]
    omega
  obtain ⟨middle, hmiddle, htext⟩ := eq_append_of_two_le hreach hsecond
  rw [← List.append_assoc] at htext
  have hcountHigh := high_of_second hcount hraw hsize hgap hmiddle htext
  intro byte hbyte
  have hmem : byte ∈ [high, low] ++ middle := hmiddle ▸ List.mem_append_left _ hbyte
  rcases List.mem_append.mp hmem with hcounted | hrepair
  · exact hcountHigh byte hcounted
  · exact high_of_isRepair (isRepair_of_part htext).1 byte hrepair

/-- Texts are not read from inside the bytes written for them, unless at most one
mark comes before. -/
theorem marks_before_texts {order : Endian} {left last front right : Bytes}
    (htexts : Texts order left last) (hfits : last.length ≤ 65535)
    (heq : last = front ++ (left ++ right)) : marks front ≤ 1 := by
  by_contra hmarks
  have hlength := marks_le_length front
  have hreach : 2 ≤ front.length := by omega
  cases htexts with
  | none =>
      rw [(List.append_eq_nil_iff.mp heq.symm).1] at hreach
      exact absurd hreach (by decide)
  | @one count raw rest hcount hraw =>
      rw [repaired, List.length_append] at hfits
      obtain ⟨high, low, hrepaired, hsize⟩ := repaired_eq raw (by omega)
      rw [hrepaired] at heq
      obtain ⟨front, rfl, htext⟩ := eq_append_of_two_le hreach heq
      have hpart : asBytes (fromUtf8Lossy raw) = (front ++ count) ++ raw ++ (rest ++ right) := by
        rw [htext]
        simp only [List.append_assoc]
      have hhigh := high_of_isRepair (isRepair_of_part hpart).1
      exact hmarks (marks_front_le_one hcount hraw hsize hhigh)
  | @two count raw count' raw' rest hcount hraw hcount' hraw' =>
      rw [repaired, repaired, List.length_append, List.length_append, List.length_append] at hfits
      obtain ⟨high, low, hrepaired, hsize⟩ := repaired_eq raw (by omega)
      rw [hrepaired, List.append_assoc] at heq
      obtain ⟨front, rfl, htext⟩ := eq_append_of_two_le hreach heq
      have hsplit : asBytes (fromUtf8Lossy raw) ++ repaired raw' =
          (front ++ count ++ raw) ++ (count' ++ raw' ++ (rest ++ right)) := by
        rw [htext]
        simp only [List.append_assoc]
      have hhigh : High (front ++ count) := by
        rcases List.append_eq_append_iff.mp hsplit with ⟨gap, hgap, hsecond⟩ | ⟨cut, hcut, -⟩
        · -- the first text's bytes reach to or into the second count
          apply high_of_overhang hgap
          by_cases hnil : gap = []
          · exact hnil ▸ List.forall_mem_nil _
          · exact high_of_gap (by omega) hcount' hraw' hnil hsecond
        · exact high_of_isRepair (isRepair_of_part hcut).1
      exact hmarks (marks_front_le_one hcount hraw hsize hhigh)

end Wire
