import TptAte.Secs.Gem

/-! # Laws of the GEM transactions

The bodies that one side builds fit into a message and are what the other side
parses, so each transaction of the one side meets the call that serves it.
-/

namespace Secs

open Wire HsmsSession

/-! ## The size of a body -/

namespace SecsItem

mutual

/-- The most bytes that an item takes: all length bytes, and the elements. -/
def weight : SecsItem → Nat
  | .list items => 4 + weights items
  | item => 4 + item.lengthCount

def weights : List SecsItem → Nat
  | [] => 0
  | item :: items => item.weight + weights items

end

end SecsItem

theorem length_pushHeader {format : FormatCode} {length : Nat} {header : Bytes}
    (hheader : pushHeader format length = some header) : header.length ≤ 4 := by
  obtain ⟨-, rfl⟩ := pushHeader_eq_some.mp hheader
  have hthree := (length_lengthBytes length).2
  rw [List.length_cons]
  omega

theorem length_pushFixed {format : FormatCode} {α : Type} {word : Word α} {values : List α}
    {bytes : Bytes} (hbytes : pushFixed format word values = some bytes) :
    bytes.length ≤ 4 + values.length * word.width := by
  obtain ⟨header, hheader, rfl⟩ := Option.map_eq_some_iff.mp hbytes
  have hfour := length_pushHeader hheader
  rw [List.length_append, length_flatMap_bytes]
  omega

open SecsItem in
mutual

/-- An item takes at most as many bytes as it weighs: by recursion on the item. -/
theorem length_encode : (item : SecsItem) → {bytes : Bytes} → item.encode = some bytes →
    bytes.length ≤ item.weight
  | .list items, bytes, hbytes => by
      simp only [encode, Option.bind_eq_bind, Option.bind_eq_some_iff, Option.pure_def,
        Option.some.injEq] at hbytes
      obtain ⟨header, hheader, rest, hrest, rfl⟩ := hbytes
      have hfour := length_pushHeader hheader
      have hle := length_encodeItems items hrest
      rw [List.length_append, weight]
      omega
  | .ascii text, bytes, hbytes => by
      obtain ⟨header, hheader, rfl⟩ := Option.map_eq_some_iff.mp hbytes
      have hfour := length_pushHeader hheader
      rw [List.length_append]
      change _ ≤ 4 + (asBytes text).length
      omega
  | .boolean values, bytes, hbytes => by
      have hle := length_pushFixed hbytes
      rw [List.length_map] at hle
      exact hle.trans_eq (by simp [weight, lengthCount, Word.u8])
  | .binary values, bytes, hbytes =>
      (length_pushFixed hbytes).trans_eq (by simp [weight, lengthCount, Word.u8])
  | .jis values, bytes, hbytes =>
      (length_pushFixed hbytes).trans_eq (by simp [weight, lengthCount, Word.u8])
  | .i1 values, bytes, hbytes =>
      (length_pushFixed hbytes).trans_eq (by simp [weight, lengthCount, Word.i8, Word.map, Word.u8])
  | .u1 values, bytes, hbytes =>
      (length_pushFixed hbytes).trans_eq (by simp [weight, lengthCount, Word.u8])
  | .i8 _, _, hbytes => length_pushFixed hbytes
  | .i2 _, _, hbytes => length_pushFixed hbytes
  | .i4 _, _, hbytes => length_pushFixed hbytes
  | .f8 _, _, hbytes => length_pushFixed hbytes
  | .f4 _, _, hbytes => length_pushFixed hbytes
  | .u8 _, _, hbytes => length_pushFixed hbytes
  | .u2 _, _, hbytes => length_pushFixed hbytes
  | .u4 _, _, hbytes => length_pushFixed hbytes

theorem length_encodeItems : (items : List SecsItem) → {bytes : Bytes} →
    encodeItems items = some bytes → bytes.length ≤ weights items
  | [], bytes, hbytes => by
      cases hbytes
      exact Nat.le_refl _
  | item :: items, bytes, hbytes => by
      simp only [encodeItems, Option.bind_eq_bind, Option.bind_eq_some_iff, Option.pure_def,
        Option.some.injEq] at hbytes
      obtain ⟨first, hfirst, rest, hrest, rfl⟩ := hbytes
      have hle := length_encode item hfirst
      have hle' := length_encodeItems items hrest
      rw [List.length_append, weights]
      omega

end

/-- Short items can be the body of a message. -/
theorem fitsFrame_of_weight {item : SecsItem} (hencodable : item.Encodable)
    (hweight : item.weight < 2 ^ 32 - 10) : Program.FitsFrame item := by
  refine ⟨hencodable, fun bytes hbytes => ?_⟩
  have hle := length_encode item hbytes
  omega

/-! ## Bodies that are parsed -/

theorem parseS6f11_eventReport (dataid ceid : UInt32) (reports : List ReportEntry) :
    parseS6f11 (s6f11EventReport dataid ceid reports) = .ok (dataid, ceid, reports) := by
  have hreports : (reports.map reportItem).mapM parseReport = .ok reports := by
    induction reports with
    | nil => rfl
    | cons report reports ih =>
        rw [List.map_cons, List.mapM_cons, ih]
        rfl
  simp only [parseS6f11, s6f11EventReport, SecsItem.asList, orGem, SecsItem.oneU4, SecsItem.asU4,
    List.head?_cons, Reader.ok_bind, Reader.pure_eq_ok, hreports]

theorem parseS2f41_hostCommand (rcmd : String) (params : List (String × SecsItem)) :
    parseS2f41 (s2f41HostCommand rcmd params) = .ok (rcmd, params) := by
  have hparams : (params.map paramItem).mapM parseParam = .ok params := by
    induction params with
    | nil => rfl
    | cons param params ih =>
        rw [List.map_cons, List.mapM_cons, ih]
        rfl
  simp only [parseS2f41, s2f41HostCommand, SecsItem.asList, orGem, SecsItem.a, SecsItem.asAscii,
    Reader.ok_bind, Reader.pure_eq_ok, hparams]

/-- Both texts of an S1F2 are short enough for their items. -/
theorem fitsFrame_onlineData {model softRev : String} (hmodel : (asBytes model).length ≤ maxLength)
    (hsoftRev : (asBytes softRev).length ≤ maxLength) :
    Program.FitsFrame (s1f2OnlineData model softRev) := by
  apply fitsFrame_of_weight
  · exact ⟨(by decide : 2 ≤ maxLength), hmodel, hsoftRev, trivial⟩
  · rw [maxLength] at hmodel hsoftRev
    simp only [s1f2OnlineData, SecsItem.a, SecsItem.weight, SecsItem.weights, SecsItem.lengthCount]
    omega

theorem fitsFrame_establishCommunicationsAck :
    Program.FitsFrame (s1f14EstablishCommunicationsAck true) := by
  apply fitsFrame_of_weight
  · exact ⟨(by decide : 2 ≤ maxLength), (by decide : 1 ≤ maxLength),
      (by decide : (asBytes "Established").length ≤ maxLength), trivial⟩
  · decide

/-- The body of an acknowledge. -/
theorem fitsFrame_byte (code : UInt8) : Program.FitsFrame (.binary [code]) :=
  fitsFrame_of_weight (by decide : 1 ≤ maxLength) (by decide : 5 < 2 ^ 32 - 10)

/-! ## Transactions that are served -/

namespace Program

variable {α β γ : Type} {left : Program α} {right : Program β}
  {control control' after after' : Control} {value : α} {value' : β}

/-- What is computed behind a program does not take part in the conversation. -/
theorem Meets.then_left (h : left.Meets control right control' value after value' after')
    {next : α → Program γ} {result : γ} (hnext : next value = pure result) :
    (left >>= next).Meets control right control' result after value' after' := by
  rw [← bind_pure right]
  refine h.bind ?_
  rw [hnext]
  exact meets_pure after after' result value'

/-- A transaction whose function has seven bits, and the call that serves it. -/
theorem meets_served {stream function : UInt8} {body reply : SecsItem}
    (hselected : control.state = .selected) (hselected' : control'.state = .selected)
    (hstream : stream ≤ 127) (hfunction : function ≤ 126) (hbody : FitsFrame body)
    {makeReply : UInt8 → UInt8 → Option SecsItem → Option SecsItem}
    (hreply : makeReply stream function (some body) = some reply) (hfits : FitsFrame reply) :
    (transact stream function (some body)).Meets control (serveOne makeReply) control'
      (function + 1, some reply) control.advanced (stream, function, some body) control' := by
  have hless : function.toNat ≤ 126 := UInt8.le_iff_toNat_le.mp hfunction
  have hlow : function &&& 0x7F = function :=
    low_of_le (UInt8.le_iff_toNat_le.mpr (hless.trans (by decide)))
  have hsum : (function + 1).toNat = function.toNat + 1 := by
    rw [UInt8.toNat_add]
    change (function.toNat + 1) % 256 = _
    omega
  have hnext : function + 1 &&& 0x7F = function + 1 := by
    apply low_of_le
    rw [UInt8.le_iff_toNat_le, hsum]
    exact Nat.add_le_add_right hless 1
  have hne : function ≠ 0xFF := by
    rintro rfl
    exact absurd hfunction (by decide)
  have hmeets := @meets_transact control stream function (some body) control' hselected hselected'
    hne (fun item hitem => Option.some.inj hitem ▸ hbody) makeReply reply
    (by rw [low_of_le hstream, hlow]; exact hreply)
    (fun _ _ _ _ _ item hitem => Option.some.inj hitem ▸ hfits)
  rw [low_of_le hstream, hlow, hnext] at hmeets
  exact hmeets

end Program

namespace HostGem

open Program

variable {control control' : Control} {gem : EquipmentGem}

/-- Asked whether it is there, the equipment answers the host. -/
theorem meets_onlineData (hselected : control.state = .selected)
    (hselected' : control'.state = .selected)
    (hmodel : (asBytes gem.modelName).length ≤ maxLength)
    (hsoftRev : (asBytes gem.softRev).length ≤ maxLength) :
    onlineData.Meets control gem.serveOne control' (gem.modelName, gem.softRev) control.advanced
      (1, 1, some s1f1AreYouThere) control' :=
  (meets_served hselected hselected' (by decide) (by decide) fitsFrame_nil
    (by rfl) (fitsFrame_onlineData hmodel hsoftRev)).then_left rfl

/-- The equipment accepts the communication that the host establishes. -/
theorem meets_establishCommunications (hselected : control.state = .selected)
    (hselected' : control'.state = .selected) :
    establishCommunications.Meets control gem.serveOne control' true control.advanced
      (1, 13, some s1f13EstablishCommunicationsRequest) control' :=
  (meets_served hselected hselected' (by decide) (by decide) fitsFrame_nil
    (by rfl) fitsFrame_establishCommunicationsAck).then_left rfl

/-- An event report and the call that acknowledges it. -/
theorem meets_sendEventReport (hselected : control.state = .selected)
    (hselected' : control'.state = .selected) {dataid ceid : UInt32} {reports : List ReportEntry}
    (hfits : FitsFrame (s6f11EventReport dataid ceid reports)) :
    (EquipmentGem.sendEventReport dataid ceid reports).Meets control serveEventReports control' ()
      control.advanced (6, 11, some (s6f11EventReport dataid ceid reports)) control' :=
  (meets_served hselected hselected' (by decide) (by decide) hfits
    (by rfl) (fitsFrame_byte 0)).then_left rfl

/-- An event report and the call that receives it. -/
theorem meets_receiveEventReport (hselected : control.state = .selected)
    (hselected' : control'.state = .selected) {dataid ceid : UInt32} {reports : List ReportEntry}
    (hfits : FitsFrame (s6f11EventReport dataid ceid reports)) :
    receiveEventReport.Meets control' (EquipmentGem.sendEventReport dataid ceid reports) control
      (dataid, ceid, reports) control' () control.advanced := by
  refine Meets.loop_leaves ?_
  refine (meets_sendEventReport hselected hselected' hfits).swap.then_left ?_
  dsimp only
  rw [if_pos ⟨rfl, rfl⟩, parseS6f11_eventReport]
  rfl

end HostGem

end Secs
