import TptAte.Secs.ItemLaws

/-! # Items as a prefix code

Decoding an item takes at least two bytes for each item in it, looks at no byte behind
those that it takes, and fails on fewer. Each slice is taken within its bytes.
-/

namespace Secs

open Wire

/-! ## Slices -/

/-- A decoder that panics where a slice is out of range; the outer `none` is the panic. -/
abbrev Checked (α : Type) := ExceptT SecsError Option α

/-- The range of a slice, or of a subtraction. -/
def inRange (start stop : Nat) : Checked Unit :=
  ExceptT.mk (if start ≤ stop then some (.ok ()) else none)

mutual

/-- `decodeItem` with the ranges of its slices and its subtraction. -/
def decodeItemChecked : Bytes → Checked (SecsItem × Nat)
  | [] => throw (.unexpectedEof 1 0)
  | header :: rest =>
      match FormatCode.fromByte header with
      | none => throw (.invalidItemHeader header)
      | some format =>
          let bits := lengthBits header
          if bits = 0 then throw (.invalidItemLengthBits 0)
          else if rest.length < bits then throw (.unexpectedEof bits rest.length)
          else do
            inRange bits rest.length
            let length := lengthOf (rest.take bits)
            let body := rest.drop bits
            if hlist : format = .list then
              let (items, cursor) ← decodeItemsChecked length body
              inRange cursor.length (header :: rest).length
              return (.list items, (header :: rest).length - cursor.length)
            else if body.length < length then throw (.itemLengthOverflow length body.length)
            else
              inRange length body.length
              return (flatItem format hlist (body.take length), 1 + bits + length)
termination_by data => stepsPerByte * data.length
decreasing_by
  have hlength : lengthOf (rest.take (lengthBits header)) < 256 ^ 3 := lengthOf_take_lt header rest
  have hsteps : 256 ^ 3 < stepsPerByte := by
    rw [stepsPerByte_eq]
    decide
  simp only [List.length_drop, List.length_cons]
  calc stepsPerByte * (rest.length - lengthBits header) +
        lengthOf (rest.take (lengthBits header)) + 1
      < stepsPerByte * rest.length + stepsPerByte := by
        have hless := Nat.mul_le_mul_left stepsPerByte (Nat.sub_le rest.length (lengthBits header))
        omega
    _ = stepsPerByte * (rest.length + 1) := by ring

def decodeItemsChecked : Nat → Bytes → Checked (List SecsItem × Bytes)
  | 0, cursor => return ([], cursor)
  | count + 1, cursor => do
      let (item, used) ← decodeItemChecked cursor
      inRange used cursor.length
      let (items, rest) ← decodeItemsChecked count (cursor.drop used)
      return (item :: items, rest)
termination_by count cursor => stepsPerByte * cursor.length + count + 1
decreasing_by
  · omega
  · have hless := Nat.mul_le_mul_left stepsPerByte (Nat.sub_le cursor.length used)
    rw [List.length_drop]
    omega

end

/-! ## Items and the bytes they take -/

mutual

def SecsItem.nodes : SecsItem → Nat
  | .list items => 1 + nodesOf items
  | _ => 1

def nodesOf : List SecsItem → Nat
  | [] => 0
  | item :: items => item.nodes + nodesOf items

end

theorem nodes_flatItem {format : FormatCode} (hflat : format ≠ .list) (payload : Bytes) :
    (flatItem format hflat payload).nodes = 1 := by
  cases format
  case list => exact absurd rfl hflat
  all_goals rfl

theorem nodes_pos (item : SecsItem) : 0 < item.nodes := by
  cases item
  case list items => exact Nat.add_pos_left one_pos _
  all_goals exact one_pos

/-- An item taken from the front: two bytes at least for each item in it, and nothing
behind them looked at. -/
structure TakesFront (data : Bytes) (item : SecsItem) (used : Nat) : Prop where
  used_le : used ≤ data.length
  nodes_le : 2 * item.nodes ≤ used
  decode_append : ∀ tail, decodeItem (data.take used ++ tail) = .ok (item, used)

/-- Items are taken from the front if each of them is. -/
theorem takesFront_items {bound : Nat}
    (hitem : ∀ cursor item used, cursor.length ≤ bound → decodeItem cursor = .ok (item, used) →
      TakesFront cursor item used)
    {count : Nat} {cursor rest : Bytes} {items : List SecsItem} (hle : cursor.length ≤ bound)
    (hdecode : decodeItems count cursor = .ok (items, rest)) :
    ∃ front, cursor = front ++ rest ∧ 2 * nodesOf items ≤ front.length ∧
      ∀ tail, decodeItems count (front ++ tail) = .ok (items, tail) := by
  induction count generalizing cursor items with
  | zero =>
      rw [decodeItems] at hdecode
      cases hdecode
      exact ⟨[], rfl, le_refl 0, fun tail => by rw [decodeItems, List.nil_append]⟩
  | succ count ih =>
      obtain ⟨item, used, others, hfirst, hothers, rfl⟩ := decodeItems_succ_eq_ok.mp hdecode
      have htakes := hitem cursor item used hle hfirst
      have hdropped : (cursor.drop used).length ≤ bound := by
        rw [List.length_drop]
        omega
      obtain ⟨front, hfront, hnodes, hfollows⟩ := ih hdropped hothers
      have hused : (cursor.take used).length = used := by
        rw [List.length_take, Nat.min_eq_left htakes.used_le]
      refine ⟨cursor.take used ++ front, ?_, ?_, fun tail => ?_⟩
      · rw [List.append_assoc, ← hfront, List.take_append_drop]
      · have hitemNodes := htakes.nodes_le
        rw [nodesOf, List.length_append, hused]
        omega
      · rw [List.append_assoc]
        refine decodeItems_succ_eq_ok.mpr ⟨item, used, others, htakes.decode_append _, ?_, rfl⟩
        rw [List.drop_left' hused]
        exact hfollows tail

/-- Whatever is decoded has been taken from the front. -/
theorem takesFront (data : Bytes) (item : SecsItem) (used : Nat)
    (hdecode : decodeItem data = .ok (item, used)) : TakesFront data item used := by
  -- by induction on the number of bytes, as the decoder recurses
  induction hsize : data.length using Nat.strong_induction_on generalizing data item used with
  | _ size ih =>
      cases data with
      | nil =>
          rw [decodeItem] at hdecode
          cases hdecode
      | cons header data =>
          obtain ⟨format, length, body, hformat, rfl, hlength, hpos, hcases⟩ :=
            decodeItem_cases hdecode
          have hagain := decodeItem_header hformat hlength hpos
          rw [List.length_cons, List.length_append] at hsize
          rcases hcases with ⟨rfl, items, rest, hitems, rfl, rfl⟩ | ⟨hflat, hle, rfl, rfl⟩
          -- a list: the hypothesis holds of the bytes behind its header
          · have hbody : ∀ cursor item used, cursor.length ≤ body.length →
                decodeItem cursor = .ok (item, used) → TakesFront cursor item used := by
              intro cursor item used hle hitem
              exact ih cursor.length (by omega) cursor item used hitem rfl
            obtain ⟨front, rfl, hnodes, hfollows⟩ := takesFront_items hbody le_rfl hitems
            have hused : (header :: (length ++ (front ++ rest))).length - rest.length =
                (header :: (length ++ front)).length := by
              simp only [List.length_cons, List.length_append]
              omega
            have htaken : (header :: (length ++ (front ++ rest))).take
                (header :: (length ++ front)).length = header :: (length ++ front) := by
              rw [← List.append_assoc]
              exact @List.take_left _ (header :: (length ++ front)) rest
            rw [hused]
            refine ⟨?_, ?_, fun tail => ?_⟩
            · simp only [List.length_cons, List.length_append]
              omega
            · simp only [SecsItem.nodes, List.length_cons, List.length_append]
              omega
            · rw [htaken, List.cons_append, List.append_assoc, hagain, dif_pos rfl, hfollows]
              simp only [Reader.ok_bind, Reader.pure_eq_ok, List.length_cons, List.length_append]
              congr 2
              omega
          -- any other item takes its payload and nothing behind it
          · have htaken : (header :: (length ++ body)).take (1 + length.length + lengthOf length) =
                header :: (length ++ body.take (lengthOf length)) := by
              rw [Nat.add_assoc, Nat.add_comm 1, List.take_succ_cons,
                List.take_length_add_append]
            refine ⟨?_, ?_, fun tail => ?_⟩
            · rw [List.length_cons, List.length_append]
              omega
            · rw [nodes_flatItem]
              omega
            · have hpayload : (body.take (lengthOf length)).length = lengthOf length := by
                rw [List.length_take, Nat.min_eq_left hle]
              rw [htaken, List.cons_append, List.append_assoc, hagain, dif_neg hflat,
                if_neg (by simp [hpayload]), List.take_left' hpayload]

/-- The decoder looks at nothing behind the bytes it takes. -/
theorem looksAtTaken_decodeItem : LooksAtTaken decodeItem := by
  intro data item used hdecode
  have htakes := takesFront data item used hdecode
  exact ⟨htakes.used_le, htakes.decode_append⟩

/-! ## No slice out of range -/

/-- A decoder that does not panic. -/
def returns {α : Type} (result : Except SecsError α) : Checked α := ExceptT.mk (some result)

theorem inRange_of_le {start stop : Nat} (hle : start ≤ stop) :
    inRange start stop = returns (.ok ()) := by
  rw [inRange, if_pos hle, returns]

@[simp] theorem returns_ok_bind {α β : Type} (value : α) (next : α → Checked β) :
    (returns (.ok value) >>= next) = next value := rfl

@[simp] theorem returns_error_bind {α β : Type} (error : SecsError) (next : α → Checked β) :
    (returns (.error error) >>= next) = returns (.error error) := rfl

/-- If no item is read out of range, no list of items is. -/
theorem decodeItemsChecked_eq {bound : Nat}
    (hitem : ∀ cursor, cursor.length ≤ bound →
      decodeItemChecked cursor = returns (decodeItem cursor))
    {count : Nat} {cursor : Bytes} (hle : cursor.length ≤ bound) :
    decodeItemsChecked count cursor = returns (decodeItems count cursor) := by
  induction count generalizing cursor with
  | zero =>
      rw [decodeItemsChecked, decodeItems]
      rfl
  | succ count ih =>
      rw [decodeItemsChecked, decodeItems, hitem cursor hle]
      cases hfirst : decodeItem cursor with
      | error error => rfl
      | ok result =>
          obtain ⟨item, used⟩ := result
          have hdropped : (cursor.drop used).length ≤ bound := by
            rw [List.length_drop]
            omega
          rw [returns_ok_bind, Reader.ok_bind]
          dsimp only
          rw [inRange_of_le (takesFront cursor item used hfirst).used_le, returns_ok_bind,
            ih hdropped]
          cases decodeItems count (cursor.drop used) <;> rfl

/-- Every slice and every subtraction of the decoder is in range. -/
theorem decodeItemChecked_eq (data : Bytes) :
    decodeItemChecked data = returns (decodeItem data) := by
  -- by induction on the number of bytes; the ranges are checked in the order in which the decoder
  -- slices
  induction hsize : data.length using Nat.strong_induction_on generalizing data with
  | _ size ih =>
      cases data with
      | nil =>
          rw [decodeItemChecked, decodeItem]
          rfl
      | cons header rest =>
          rw [decodeItemChecked, decodeItem]
          cases FormatCode.fromByte header with
          | none => rfl
          | some format =>
              dsimp only
              split
              · rfl
              split
              · rfl
              next hbits hcomplete =>
                rw [inRange_of_le (not_lt.mp hcomplete), returns_ok_bind]
                split
                next hlist =>
                  have hbody : ∀ cursor : Bytes,
                      cursor.length ≤ (rest.drop (lengthBits header)).length →
                      decodeItemChecked cursor = returns (decodeItem cursor) := by
                    intro cursor hle
                    rw [List.length_cons] at hsize
                    rw [List.length_drop] at hle
                    exact ih cursor.length (by omega) cursor rfl
                  -- a list takes its items from the bytes behind the header, which are fewer
                  rw [decodeItemsChecked_eq hbody le_rfl]
                  cases hitems : decodeItems (lengthOf (rest.take (lengthBits header)))
                      (rest.drop (lengthBits header)) with
                  | error error => rfl
                  | ok result =>
                      obtain ⟨items, cursor⟩ := result
                      -- the bytes that the items leave are a rest of those that were there
                      obtain ⟨front, hfront, -, -⟩ :=
                        takesFront_items (fun cursor item used _ => takesFront cursor item used)
                          le_rfl hitems
                      have hlength := congrArg List.length hfront
                      rw [List.length_drop, List.length_append] at hlength
                      have hle : cursor.length ≤ (header :: rest).length := by
                        rw [List.length_cons]
                        omega
                      rw [returns_ok_bind, Reader.ok_bind]
                      dsimp only
                      rw [inRange_of_le hle]
                      rfl
                next hflat =>
                  split
                  · rfl
                  next hle =>
                    rw [inRange_of_le (not_lt.mp hle)]
                    rfl

/-- No byte string makes the decoder panic, and an item that it decodes has at most half as
many items in it as bytes are taken for it. These decode to it whatever follows them, and no
fewer of them decode to anything. -/
theorem decodeItem_prefix (data : Bytes) :
    decodeItemChecked data = returns (decodeItem data) ∧
      ∀ item used, decodeItem data = .ok (item, used) →
        2 ≤ used ∧ used ≤ data.length ∧ item.nodes ≤ used / 2 ∧
          (∀ tail, decodeItem (data.take used ++ tail) = .ok (item, used)) ∧
          ∀ short < used, ∃ error, decodeItem ((data.take used).take short) = .error error := by
  refine ⟨decodeItemChecked_eq data, fun item used hdecode => ?_⟩
  have htakes := takesFront data item used hdecode
  have hnodes := htakes.nodes_le
  have hpos := nodes_pos item
  refine ⟨by omega, htakes.used_le, by omega, htakes.decode_append, fun short hshort => ?_⟩
  rw [List.take_take, Nat.min_eq_left hshort.le]
  exact looksAtTaken_decodeItem.error_of_lt hdecode hshort

end Secs
