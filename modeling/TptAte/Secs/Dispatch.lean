import TptAte.Secs.Crossing
import TptAte.Secs.GemLaws
import TptAte.Secs.Replies

/-! # The secondary of a primary

The equipment answers the primaries of its handshake and a host command, each by the
secondary that belongs to it, and writes no other data message while it serves one.
-/

namespace Secs

open Wire HsmsSession

/-! ## Sessions whose writes succeed -/

theorem isSome_toBytes_data {item : SecsItem} (hencodable : item.Encodable)
    (sessionId : UInt16) (stream function : UInt8) (systemBytes : UInt32) :
    (HsmsMessage.data sessionId stream function false systemBytes (some item)).toBytes.isSome := by
  obtain ⟨bytes, hbytes⟩ := Option.isSome_iff_exists.mp ((isSome_encode item).mpr hencodable)
  simp [HsmsMessage.toBytes, HsmsMessage.encode, HsmsMessage.bodyBytes, hbytes]

theorem HsmsSession.writesSucceed_of_faults {session : HsmsSession}
    (hfaults : session.stream.faults = []) (count : Nat) : session.WritesSucceed count := by
  simp [WritesSucceed, hfaults]

namespace EquipmentGem

/-! ## Primaries and their secondaries -/

/-- The body of the secondary that belongs to a primary: S1F2 to S1F1, S1F14 to S1F13 and
S2F42 to S2F41. -/
def secondary (gem : EquipmentGem) (stream function : UInt8) : Option SecsItem :=
  if (stream, function) = (1, 1) then some (s1f2OnlineData gem.modelName gem.softRev)
  else if (stream, function) = (1, 13) then some (s1f14EstablishCommunicationsAck true)
  else if (stream, function) = (2, 41) then some (s2f42Hcack hcackOk)
  else none

variable {gem : EquipmentGem} {stream function : UInt8} {reply : SecsItem}

theorem answer_of_secondary (hsecondary : gem.secondary stream function = some reply)
    (body : Option SecsItem) : gem.answer stream function body = some reply := by
  unfold secondary at hsecondary
  split at hsecondary
  next hsame =>
    cases hsame
    exact hsecondary
  split at hsecondary
  next hsame =>
    cases hsame
    exact hsecondary
  split at hsecondary
  next hsame =>
    cases hsame
    exact hsecondary
  · cases hsecondary

/-- Of the functions that the equipment does not know none is answered by the service. -/
theorem answer_eq_none (hother : function ∉ [1, 13, 41]) (body : Option SecsItem) :
    gem.answer stream function body = none := by
  simp only [List.mem_cons, List.not_mem_nil, or_false, not_or] at hother
  obtain ⟨hidentify, hestablish, hcommand⟩ := hother
  rw [answer, if_neg hidentify, if_neg hestablish, if_neg hcommand]

theorem ne_of_secondary (hsecondary : gem.secondary stream function = some reply) :
    function ≠ 0xFF := by
  rintro rfl
  simp [secondary] at hsecondary

/-! ## One call of `serveOne` -/

/-- A Linktest, and behind it an S2F41 with the W-bit. -/
def testedCommand : Bytes :=
  [0, 0, 0, 10, 0, 0, 0, 0, 0, 5, 0, 0, 0, 7, 0, 0, 0, 10, 0, 0, 0x82, 41, 0, 0, 0, 0, 0, 9]

def statusRequest : Bytes := [0, 0, 0, 10, 0, 0, 0x81, 3, 0, 0, 0, 0, 0, 9]

def alarmReport : Bytes := [0, 0, 0, 10, 0, 0, 0x85, 1, 0, 0, 0, 0, 0, 9]

/-- A Select and the two primaries with which a host opens its communications. -/
def handshake : List HsmsMessage :=
  [.selectReq 1, .data 0 1 1 true 2 (some s1f1AreYouThere),
    .data 0 1 13 true 3 (some s1f13EstablishCommunicationsRequest)]

/-- The equipment accepts the handshake and is then selected. -/
theorem exists_accepted (gem : EquipmentGem) (hmodel : (asBytes gem.modelName).length ≤ maxLength)
    (hsoftRev : (asBytes gem.softRev).length ≤ maxLength) {messages : List HsmsMessage}
    {session : HsmsSession} (hframes : session.frames = handshake ++ messages)
    (hfaults : session.stream.faults = []) :
    ∃ middle, gem.accept.action.call session = (.ok (), middle) ∧
      middle.state = .selected ∧ middle.frames = messages ∧ middle.stream.faults = [] ∧
      middle.nextSystemBytes = session.nextSystemBytes := by
  -- the Select
  obtain ⟨requested, hreceive⟩ := receive_of_frames hframes
  have hreceived := received_of_receive hreceive
  have hrequested : requested.stream.faults = [] := hreceived.faults.trans hfaults
  obtain ⟨answered, hsend⟩ := @send_of_succeeds requested (.selectRsp 1 .selected)
    (writesSucceed_of_faults hrequested 1) rfl
  have hsent := sent_of_send hsend
  have haccept : acceptSelect.call session = (.ok (), { answered with state := .selected }) := by
    rw [acceptSelect_call, awaitMessage_of_finish hreceive rfl, SessionM.call_bind, write,
      SessionM.call_mk, hsend]
    rfl
  have hone : answered.stream.faults = [] := by rw [hsent.faults, hrequested]; rfl
  have hidentify : ({ answered with state := .selected } : HsmsSession).frames =
      [] ++ .data 0 1 1 true 2 (some s1f1AreYouThere) ::
        .data 0 1 13 true 3 (some s1f13EstablishCommunicationsRequest) :: messages := by
    rw [hreceived.frames, handshake] at hframes
    exact hsent.frames.trans (List.cons.inj hframes).2
  -- the two primaries
  obtain ⟨identified, hserve, hserved, hrest⟩ := @exists_served gem.answer
    { answered with state := .selected } rfl _ _ _ _ _ _ _ _ _ hidentify (by simp) (by decide) rfl
    (isSome_toBytes_data (fitsFrame_onlineData hmodel hsoftRev).1 _ _ _ _)
    (writesSucceed_of_faults hone 1)
  have htwo : identified.stream.faults = [] := by rw [hserved.faults]; simp [hone]
  obtain ⟨established, hserve', hserved', hrest'⟩ := @exists_served gem.answer
    identified hserved.same.state [] messages _ _ _ _ _ _ _ hrest (by simp) (by decide) rfl
    (isSome_toBytes_data fitsFrame_establishCommunicationsAck.1 _ _ _ _)
    (writesSucceed_of_faults htwo 1)
  have hthree : established.stream.faults = [] := by rw [hserved'.faults]; simp [htwo]
  have hnumber : established.nextSystemBytes = session.nextSystemBytes := by
    rw [hserved'.same.nextSystemBytes, hserved.same.nextSystemBytes]
    exact hsent.same.nextSystemBytes.trans hreceived.same.nextSystemBytes
  refine ⟨established, ?_, hserved'.same.state.trans hserved.same.state, hrest', hthree, hnumber⟩
  have haction : gem.accept.action = acceptSelect >>= fun _ =>
      HsmsSession.serveOne gem.answer >>= fun _ => HsmsSession.serveOne gem.answer >>= fun _ =>
        pure () := rfl
  rw [haction, SessionM.call_bind, haccept]
  dsimp only
  rw [SessionM.call_bind, hserve]
  dsimp only
  rw [SessionM.call_bind, hserve']
  rfl

end EquipmentGem

end Secs
