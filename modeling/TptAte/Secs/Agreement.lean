import TptAte.Secs.Program

/-! # Primary and secondary

One session selects while the connected one accepts, and one makes a transaction
while the connected one serves it. Both come to agree on what was asked and
answered, as far as the header carries the function.
-/

namespace Secs

open Wire Duplex

namespace Program

open HsmsSession

/-- What an awaited message of a frame leaves behind. -/
theorem exists_received {session : HsmsSession} (hfaultless : session.Faultless) {frame : Frame}
    (hbytes : session.stream.inbound.bytes = frame.bytes) {message : HsmsMessage}
    (hdecode : frame.decode = .ok message) :
    ∃ after : HsmsSession, session.receive = (.ok message, after) ∧ after.Faultless ∧
      after.stream.inbound.bytes = [] ∧ after.stream.sent = session.stream.sent ∧
      after.control = session.control := by
  obtain ⟨after, hreceive, hafter, hrest, -⟩ :=
    receive_frame hfaultless (hbytes.trans (List.append_nil frame.bytes).symm)
  rw [Frame.result, hdecode] at hreceive
  change session.receive = (.ok message, after) at hreceive
  have hsame := (received_of_receive hreceive).same
  refine ⟨after, hreceive, hafter, hrest, ?_, ?_⟩
  · rw [(grown_receive hreceive).sent]
    simp [sentBytes]
  · rw [HsmsSession.control, hsame.state, hsame.sessionId, hsame.nextSystemBytes]
    rfl

/-- The Select transaction of two sessions, whatever their states. -/
theorem meets_select (control control' : Control) :
    select.Meets control acceptSelect control' () control.advanced.selected ()
      control'.selected := by
  obtain ⟨asked, hasked, hdecode⟩ :=
    @exists_frame_onWire (.selectReq control.nextSystemBytes) trivial
  obtain ⟨answered, hanswered, hdecode'⟩ :=
    @exists_frame_onWire (.selectRsp control.nextSystemBytes .selected) trivial
  have hcall (arrived : Bytes) : select.call control arrived =
      awaitMessage selectReaction ((control.advanced.session arrived).havingSent
        (.selectReq control.nextSystemBytes) asked.bytes) :=
    select_call_of_faultless (control.faultless_session arrived) hasked
  -- the host asks, the equipment reads and answers, and the host reads the answer
  refine .of_answer (?_ : (select.call control []).2.stream.sent = asked.bytes)
    (?_ : select.Exchanges control answered.bytes () asked.bytes _) ?_
  · have hstart : ((control.advanced.session []).havingSent
      (.selectReq control.nextSystemBytes) asked.bytes).Faultless := ⟨Source.clean_whole [], rfl⟩
    obtain ⟨after, hreceive⟩ := receive_nil hstart rfl rfl
    have hsent := (unread_receive hreceive).1.sent
    rw [List.flatMap_nil, List.append_nil] at hsent
    rw [hcall, awaitMessage_eq, hreceive]
    exact hsent
  · have hbytes : ((control.advanced.session answered.bytes).havingSent
      (.selectReq control.nextSystemBytes) asked.bytes).stream.inbound.bytes = answered.bytes :=
      Source.bytes_whole answered.bytes
    obtain ⟨after, hreceive, -, hrest, hsent, hcontrol⟩ :=
      exists_received ⟨Source.clean_whole answered.bytes, rfl⟩ hbytes hdecode'
    have hselect : select.call control answered.bytes =
        (.ok (), { after with state := .selected }) := by
      rw [hcall, awaitMessage_of_finish hreceive rfl]
      rfl
    refine ⟨by rw [hselect], by rw [hselect]; exact hsent, by rw [hselect]; exact hrest, ?_⟩
    rw [hselect]
    exact congrArg Control.selected hcontrol
  · obtain ⟨after, hreceive, hafter, hrest, hsent, hcontrol⟩ :=
      exists_received (control'.faultless_session asked.bytes) (Source.bytes_whole asked.bytes)
        hdecode
    have haccept : acceptSelect.call control' asked.bytes =
        (.ok (), { after.havingSent (.selectRsp control.nextSystemBytes .selected) answered.bytes
          with state := .selected }) := by
      change awaitMessage acceptReaction _ = _
      rw [awaitMessage_of_finish hreceive rfl, SessionM.call_bind]
      simp only [write, SessionM.call_mk, hafter.send, hanswered]
      rfl
    refine ⟨by rw [haccept], ?_, by rw [haccept]; exact hrest, ?_⟩
    · rw [haccept]
      change after.stream.sent ++ answered.bytes = answered.bytes
      rw [hsent]
      rfl
    · rw [haccept]
      exact congrArg Control.selected hcontrol

section Transaction

variable {control : Control} {stream function : UInt8} {body : Option SecsItem}

/-- The primary of a transaction. -/
def primary (control : Control) (stream function : UInt8) (body : Option SecsItem) :
    HsmsMessage :=
  .data control.sessionId stream function true control.nextSystemBytes body

/-- A transaction that gets its reply. -/
theorem exchanges_transact (hselected : control.state = .selected) (hfunction : function ≠ 0xFF)
    {written : Bytes} (hwritten : (primary control stream function body).toBytes = some written)
    {frame : Frame} {sessionId : UInt16} {stream' function' : UInt8} {wBit : Bool}
    {body' : Option SecsItem}
    (hdecode : frame.decode =
      .ok (.data sessionId stream' function' wBit control.nextSystemBytes body')) :
    (transact stream function body).Exchanges control frame.bytes (function', body') written
      control.advanced := by
  have hadvanced : (control.session frame.bytes).advanced.Faultless :=
    ⟨Source.clean_whole frame.bytes, rfl⟩
  have hstart : ((control.session frame.bytes).advanced.havingSent
      (primary control stream function body) written).stream.inbound.bytes = frame.bytes :=
    Source.bytes_whole frame.bytes
  obtain ⟨after, hreceive, -, hrest, hsent, hcontrol⟩ :=
    exists_received ⟨Source.clean_whole frame.bytes, rfl⟩ hstart hdecode
  have hreact : replyReaction control.nextSystemBytes (function + 1)
      (.data sessionId stream' function' wBit control.nextSystemBytes body') = .finish (do
        return .data (← get).sessionId 0 function' false control.nextSystemBytes body') :=
    if_pos rfl
  have hcall : (transact stream function body).call control frame.bytes =
      (.ok (function', body'), after) := by
    change (HsmsSession.transact stream function body).call (control.session frame.bytes) = _
    have hstate : (control.session frame.bytes).state = .selected := hselected
    have hprimary : (control.session frame.bytes).primary stream function body =
      primary control stream function body := rfl
    have hcounter : (control.session frame.bytes).nextSystemBytes = control.nextSystemBytes := rfl
    rw [transact_call hstate, hadvanced.send, hprimary, hwritten, hcounter]
    dsimp only
    rw [if_neg hfunction, awaitMessage_of_finish hreceive hreact]
    rfl
  refine ⟨by rw [hcall], ?_, by rw [hcall]; exact hrest, by rw [hcall]; exact hcontrol⟩
  rw [hcall]
  exact hsent

/-- Before its reply arrives a transaction has written its primary. -/
theorem sent_transact (hselected : control.state = .selected) (hfunction : function ≠ 0xFF)
    {written : Bytes} (hwritten : (primary control stream function body).toBytes = some written) :
    ((transact stream function body).call control []).2.stream.sent = written := by
  have hadvanced : (control.session []).advanced.Faultless := ⟨Source.clean_whole [], rfl⟩
  have hstart : ((control.session []).advanced.havingSent
    (primary control stream function body) written).Faultless := ⟨Source.clean_whole [], rfl⟩
  obtain ⟨after, hreceive⟩ := receive_nil hstart rfl rfl
  have hsent := (unread_receive hreceive).1.sent
  rw [List.flatMap_nil, List.append_nil] at hsent
  have hstate : (control.session []).state = .selected := hselected
  have hprimary : (control.session []).primary stream function body =
    primary control stream function body := rfl
  change ((HsmsSession.transact stream function body).call (control.session [])).2.stream.sent = _
  rw [transact_call hstate, hadvanced.send, hprimary, hwritten]
  dsimp only
  rw [if_neg hfunction, awaitMessage_eq, hreceive]
  exact hsent

/-- `serveOne` with a primary that it answers. -/
theorem exchanges_serveOne {makeReply : UInt8 → UInt8 → Option SecsItem → Option SecsItem}
    (hselected : control.state = .selected) {frame : Frame} {sessionId : UInt16}
    {systemBytes : UInt32}
    (hdecode : frame.decode = .ok (.data sessionId stream function true systemBytes body))
    (hfunction : function ≠ 0xFF) {reply : SecsItem}
    (hreply : makeReply stream function body = reply)
    {written : Bytes}
    (hwritten : (HsmsMessage.data sessionId stream (function + 1) false systemBytes
      (some reply)).toBytes = some written) :
    (serveOne makeReply).Exchanges control frame.bytes (stream, function, body) written
      control := by
  obtain ⟨after, hreceive, hafter, hrest, hsent, hcontrol⟩ :=
    exists_received (control.faultless_session frame.bytes) (Source.bytes_whole frame.bytes) hdecode
  obtain ⟨last, hreact, hlast⟩ := @serveReaction_replied makeReply sessionId stream function true
    systemBytes body reply hreply
  have hsend := hafter.send (.data sessionId stream (function + 1) false systemBytes (some reply))
  rw [hwritten] at hsend
  have hcall : (serveOne makeReply).call control frame.bytes =
      (.ok (stream, function, body), after.havingSent
        (.data sessionId stream (function + 1) false systemBytes (some reply)) written) := by
    have hstate : (control.session frame.bytes).state = .selected := hselected
    change (HsmsSession.serveOne makeReply).call (control.session frame.bytes) = _
    rw [serveOne_call hstate, awaitMessage_of_finish hreceive hreact, hlast, if_neg hfunction,
      hsend]
    rfl
  refine ⟨by rw [hcall], ?_, by rw [hcall]; exact hrest, by rw [hcall]; exact hcontrol⟩
  rw [hcall]
  change after.stream.sent ++ written = written
  rw [hsent]
  rfl

/-- A transaction and the call that serves it. -/
theorem meets_transact {control' : Control} (hselected : control.state = .selected)
    (hselected' : control'.state = .selected) (hfunction : function ≠ 0xFF)
    (hprimary : (primary control stream function body).Sendable)
    {makeReply : UInt8 → UInt8 → Option SecsItem → Option SecsItem} {reply : SecsItem}
    (hreply : makeReply (stream &&& 0x7F) (function &&& 0x7F) body = reply)
    (hsendable : ∀ sessionId stream function wBit systemBytes,
      (HsmsMessage.data sessionId stream function wBit systemBytes (some reply)).Sendable) :
    (transact stream function body).Meets control (serveOne makeReply) control'
      (((function &&& 0x7F) + 1) &&& 0x7F, some reply) control.advanced
      (stream &&& 0x7F, function &&& 0x7F, body) control' := by
  obtain ⟨asked, hasked, hdecode⟩ := exists_frame_onWire hprimary
  obtain ⟨answered, hanswered, hdecode'⟩ := exists_frame_onWire (hsendable control.sessionId
    (stream &&& 0x7F) ((function &&& 0x7F) + 1) false control.nextSystemBytes)
  have hlow : function &&& 0x7F ≠ 0xFF := by
    intro h
    have hle : (function &&& 0x7F).toNat ≤ 127 := by
      rw [UInt8.toNat_and]
      exact Nat.and_le_right
    rw [h] at hle
    exact absurd hle (by decide)
  exact .of_answer (sent_transact hselected hfunction hasked)
    (exchanges_transact hselected hfunction hasked hdecode')
    (exchanges_serveOne hselected' hdecode hlow hreply hanswered)

/-- The seven bits of a byte that the header carries. -/
theorem toNat_low (byte : UInt8) : (byte &&& 0x7F).toNat = byte.toNat % 128 := by
  rw [UInt8.toNat_and]
  exact Nat.and_two_pow_sub_one_eq_mod _ 7

theorem low_of_le {byte : UInt8} (h : byte ≤ 127) : byte &&& 0x7F = byte := by
  have hless : byte.toNat ≤ 127 := UInt8.le_iff_toNat_le.mp h
  rw [← UInt8.toNat_inj, toNat_low]
  omega

/-- An item that can be the body of a message. -/
def FitsFrame (item : SecsItem) : Prop :=
  item.Encodable ∧ ∀ bytes, item.encode = some bytes → 10 + bytes.length < 2 ^ 32

/-- A transaction and the call that serves it agree, in every run, exactly if the
function and its successor fit into the seven bits that the header carries. -/
theorem agrees_iff {control' : Control} (hselected : control.state = .selected)
    (hselected' : control'.state = .selected) (hstream : stream ≤ 127) (hodd : function % 2 = 1)
    (hle : function ≤ 253) (hbody : ∀ item ∈ body, FitsFrame item)
    {makeReply : UInt8 → UInt8 → Option SecsItem → Option SecsItem}
    (hreplies : ∀ stream function body,
      ∃ reply, makeReply stream function body = some reply ∧ FitsFrame reply) :
    Settles ((transact stream function body).process control)
        ((serveOne makeReply).process control')
        (.ok (function + 1, makeReply stream function body)) (.ok (stream, function, body)) ↔
      function ≤ 125 := by
  obtain ⟨reply, hreply, hfits⟩ := hreplies (stream &&& 0x7F) (function &&& 0x7F) body
  have hfunction : function ≠ 0xFF := by
    rintro rfl
    exact absurd hle (by decide)
  have hmeets := meets_transact hselected hselected' hfunction hbody hreply
    (fun _ _ _ _ _ item hitem => Option.some.inj hitem ▸ hfits)
  rw [low_of_le hstream] at hmeets hreply
  have hnat : function.toNat % 2 = 1 := by
    rw [← UInt8.toNat_inj, UInt8.toNat_mod] at hodd
    exact hodd
  have hsum : (function + 1).toNat = function.toNat + 1 := by
    rw [UInt8.toNat_add, Nat.mod_eq_of_lt]
    · rfl
    · exact Nat.lt_of_le_of_lt (Nat.add_le_add_right (UInt8.le_iff_toNat_le.mp hle) 1) (by decide)
  constructor
  · intro hsettles
    obtain ⟨hleft, hright⟩ := hsettles.unique hmeets.settles
    simp only [Except.ok.injEq, Prod.mk.injEq] at hleft hright
    -- the function read is the low seven bits, and the one that comes back is those of the next
    have hread := congrArg UInt8.toNat hright.2.1
    have hback := congrArg UInt8.toNat hleft.1
    rw [← hright.2.1, toNat_low, hsum] at hback
    rw [toNat_low] at hread
    rw [UInt8.le_iff_toNat_le]
    change function.toNat ≤ 125
    omega
  · intro hsmall
    have hless : function.toNat ≤ 125 := UInt8.le_iff_toNat_le.mp hsmall
    have hsame : function &&& 0x7F = function :=
      low_of_le (UInt8.le_iff_toNat_le.mpr (hless.trans (by decide)))
    have hnext : function + 1 &&& 0x7F = function + 1 := by
      rw [← UInt8.toNat_inj, toNat_low]
      omega
    have hagrees := hmeets.settles
    rw [hsame] at hagrees hreply
    rw [hnext, ← hreply] at hagrees
    exact hagrees

end Transaction

/-- A selected session that has not made a transaction yet. -/
def selectedControl : Control := ⟨.selected, 0, 1⟩

theorem fitsFrame_nil : FitsFrame (.list []) := by
  refine ⟨⟨by decide, trivial⟩, fun bytes hbytes => ?_⟩
  obtain rfl : [0x01, 0x00] = bytes := Option.some.inj hbytes
  decide

/-- A primary with function 127 is answered with function 128, of which the header
carries nothing. -/
theorem not_agrees_127 :
    ¬ Settles ((transact 1 127 none).process selectedControl)
      ((serveOne fun _ _ _ => some (.list [])).process selectedControl)
      (.ok (128, some (.list []))) (.ok (1, 127, none)) := by
  intro hsettles
  have hmeets := @meets_transact selectedControl 1 127 none selectedControl rfl rfl (by decide)
    (by simp [primary, HsmsMessage.Sendable]) (fun _ _ _ => some (.list [])) (.list []) rfl
    (fun _ _ _ _ _ item hitem => Option.some.inj hitem ▸ fitsFrame_nil)
  obtain ⟨hleft, -⟩ := hsettles.unique hmeets.settles
  simp only [Except.ok.injEq, Prod.mk.injEq] at hleft
  exact absurd hleft.1 (by decide)

/-- The reply to function 125 is function 126, and both sides return. -/
theorem agrees_iff_125 :
    Settles ((transact 1 125 none).process selectedControl)
      ((serveOne fun _ _ _ => some (.list [])).process selectedControl)
      (.ok (126, some (.list []))) (.ok (1, 125, none)) := by
  have hagrees := @agrees_iff selectedControl 1 125 none selectedControl rfl rfl (by decide) rfl
    (by decide) (by simp) (fun _ _ _ => some (.list []))
    (fun _ _ _ => ⟨_, rfl, fitsFrame_nil⟩)
  exact hagrees.mpr (by decide)

end Program

end Secs
