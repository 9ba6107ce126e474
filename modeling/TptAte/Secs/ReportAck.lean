import TptAte.Secs.Crossing
import TptAte.Secs.GemBodies

/-! # The acknowledge of an event report

Equipment and host send their event reports by the same transaction, and read the DACKN of
the reply alike unless the reply has none.
-/

namespace Secs

open Wire HsmsSession

/-! ## What both sides return -/

section

variable {dataid ceid : UInt32} {reports : List ReportEntry} {session final : HsmsSession}

/-- The equipment takes a reply without DACKN for one with DACKN 0. -/
theorem EquipmentGem.sendEventReport_eq_ok :
    (EquipmentGem.sendEventReport dataid ceid reports).action.call session = (.ok (), final) ↔
      ∃ reply, (transact 6 11 (some (s6f11EventReport dataid ceid reports))).call session =
        (.ok (12, reply), final) ∧ (firstBinary reply).getD 0 = 0 := by
  have hcall : (EquipmentGem.sendEventReport dataid ceid reports).action =
      transact 6 11 (some (s6f11EventReport dataid ceid reports)) >>= _ := rfl
  rw [hcall, SessionM.call_bind_eq_ok]
  constructor
  · rintro ⟨⟨function, reply⟩, middle, htransact, hnext⟩
    dsimp only at hnext
    split at hnext
    · cases hnext
    next hfunction =>
      obtain rfl : function = 12 := not_not.mp hfunction
      cases hcode : firstBinary reply with
      | none =>
          rw [hcode] at hnext
          cases hnext
          exact ⟨reply, htransact, by rw [hcode]; rfl⟩
      | some code =>
          rw [hcode] at hnext
          dsimp only at hnext
          split at hnext
          · cases hnext
          next haccepted =>
            cases hnext
            exact ⟨reply, htransact, by rw [hcode]; exact not_not.mp haccepted⟩
  · rintro ⟨reply, htransact, haccepted⟩
    refine ⟨(12, reply), final, htransact, ?_⟩
    dsimp only
    cases hcode : firstBinary reply with
    | none => rfl
    | some code =>
        rw [hcode] at haccepted
        obtain rfl : code = 0 := haccepted
        rfl

/-- The host takes a reply without DACKN for one with DACKN 1. -/
theorem HostGem.sendEventReport_eq_ok {gem : HostGem} {code : UInt8} :
    (gem.sendEventReport ceid reports).2.action.call session = (.ok code, final) ↔
      ∃ reply, (transact 6 11 (some (s6f11EventReport gem.nextDataid ceid reports))).call session =
        (.ok (12, reply), final) ∧ (firstBinary reply).getD 1 = code := by
  have hcall : (gem.sendEventReport ceid reports).2.action =
      transact 6 11 (some (s6f11EventReport gem.nextDataid ceid reports)) >>= _ := rfl
  rw [hcall, SessionM.call_bind_eq_ok]
  constructor
  · rintro ⟨⟨function, reply⟩, middle, htransact, hnext⟩
    dsimp only at hnext
    split at hnext
    · cases hnext
    next hfunction =>
      obtain rfl : function = 12 := not_not.mp hfunction
      cases hnext
      exact ⟨reply, htransact, rfl⟩
  · rintro ⟨reply, htransact, rfl⟩
    exact ⟨(12, reply), final, htransact, rfl⟩

end

/-! ## What both sides read -/

/-- An S6F12 with this body arrives in answer to an event report that can be sent. -/
def Replied (session : HsmsSession) (reports : List ReportEntry) (reply : Option SecsItem) :
    Prop :=
  session.state = .selected ∧ (s6f11EventReport 0 0 reports).Encodable ∧
    ∃ requests sessionId stream wBit rest,
      session.frames =
        requests ++ .data sessionId stream 12 wBit session.nextSystemBytes reply :: rest ∧
      (∀ request ∈ requests, request.IsRequest) ∧ session.WritesSucceed (requests.length + 1)

theorem isSome_toBytes_eventReport (session : HsmsSession) (dataid ceid : UInt32)
    (reports : List ReportEntry) :
    (session.primary 6 11 (some (s6f11EventReport dataid ceid reports))).toBytes.isSome ↔
      (s6f11EventReport 0 0 reports).Encodable := by
  rw [encodable_eventReport, ← @encodable_eventReport dataid ceid, ← isSome_encode]
  simp [primary, HsmsMessage.toBytes, HsmsMessage.encode, HsmsMessage.bodyBytes]

/-- The number of a report and its event do not matter to the transaction. -/
theorem replied_iff {session : HsmsSession} {dataid ceid : UInt32} {reports : List ReportEntry}
    {reply : Option SecsItem} :
    (∃ final, (transact 6 11 (some (s6f11EventReport dataid ceid reports))).call session =
        (.ok (12, reply), final)) ↔ Replied session reports reply := by
  rw [transact_returns_iff (by decide), isSome_toBytes_eventReport, Replied]

theorem replied_unique {session : HsmsSession} {reports : List ReportEntry}
    {reply reply' : Option SecsItem} (hreplied : Replied session reports reply)
    (hreplied' : Replied session reports reply') : reply = reply' := by
  obtain ⟨final, htransact⟩ := (@replied_iff session 0 0 reports reply).mpr hreplied
  obtain ⟨final', htransact'⟩ := (@replied_iff session 0 0 reports reply').mpr hreplied'
  rw [htransact] at htransact'
  cases htransact'
  rfl

/-- The equipment takes an S6F12 without a code for one with the code 0. -/
theorem EquipmentGem.sendEventReport_returns_iff (session : HsmsSession) (dataid ceid : UInt32)
    (reports : List ReportEntry) :
    ((EquipmentGem.sendEventReport dataid ceid reports).action.call session).1 = .ok () ↔
      ∃ reply, Replied session reports reply ∧ (firstBinary reply).getD 0 = 0 := by
  constructor
  · intro hok
    obtain ⟨reply, htransact, hcode⟩ := EquipmentGem.sendEventReport_eq_ok.mp (Prod.ext hok rfl)
    exact ⟨reply, replied_iff.mp ⟨_, htransact⟩, hcode⟩
  · rintro ⟨reply, hreplied, hcode⟩
    obtain ⟨final, htransact⟩ := replied_iff.mpr hreplied
    rw [EquipmentGem.sendEventReport_eq_ok.mpr ⟨reply, htransact, hcode⟩]

/-- The host does not. -/
theorem HostGem.sendEventReport_returns_iff (session : HsmsSession) (gem : HostGem) (ceid : UInt32)
    (reports : List ReportEntry) :
    ((gem.sendEventReport ceid reports).2.action.call session).1 = .ok 0 ↔
      ∃ reply, Replied session reports reply ∧ firstBinary reply = some 0 := by
  constructor
  · intro hok
    obtain ⟨reply, htransact, hcode⟩ := HostGem.sendEventReport_eq_ok.mp (Prod.ext hok rfl)
    refine ⟨reply, replied_iff.mp ⟨_, htransact⟩, ?_⟩
    cases hfirst : firstBinary reply with
    | none =>
        rw [hfirst] at hcode
        exact absurd hcode (by decide)
    | some code =>
        rw [hfirst] at hcode
        exact congrArg some hcode
  · rintro ⟨reply, hreplied, hcode⟩
    obtain ⟨final, htransact⟩ := replied_iff.mpr hreplied
    rw [HostGem.sendEventReport_eq_ok.mpr ⟨reply, htransact, rfl⟩, hcode]
    rfl

/-- An S6F12 without a body, in answer to the system bytes 2. -/
def bareAcknowledge : Bytes := [0, 0, 0, 10, 0, 0, 6, 12, 0, 0, 0, 0, 0, 2]

end Secs
