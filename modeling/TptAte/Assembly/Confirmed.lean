import TptAte.Assembly.Delivered
import TptAte.Secs.GemBodies

/-! # Confirmed positions

A call that returns a position has read the acknowledge of its host command and then an
event that reports the position for its site, and has answered what it read in between.
-/

namespace Assembly

open Secs Wire HsmsSession HostGem

/-! ## The event at which a call leaves -/

section Reports

variable {siteId : String} {placed : PointNm}

/-- A report that gives a position for a site. -/
def Positions (siteId : String) (placed : PointNm) (report : ReportEntry) : Prop :=
  ∃ x moreX y moreY, report.2 = [.ascii siteId, .u4 (x :: moreX), .u4 (y :: moreY)] ∧
    placed = ⟨x.toUInt64.toInt64, y.toUInt64.toInt64⟩

/-- A variable is taken from an event exactly if it was found there. -/
theorem orMalformed_eq_ok {α : Type} {name : String} {found : Option α} {value : α} :
    orMalformed siteId name found = .ok value ↔ found = some value := by
  cases found <;> simp [orMalformed]

/-- The position that an event gives for a site stands in one of its reports. -/
theorem positions_of_reportedPlacement {reports : List ReportEntry}
    (hplaced : reportedPlacement siteId reports = .ok (some placed)) :
    ∃ report ∈ reports, Positions siteId placed report := by
  induction reports with
  | nil => cases hplaced
  | cons report reports ih =>
      obtain ⟨rptid, vlist⟩ := report
      match vlist, hplaced with
      | [site, x, y], hplaced =>
          rw [reportedPlacement] at hplaced
          obtain ⟨reported, hsite, hrest⟩ := Reader.result_bind_eq_ok.mp hplaced
          obtain rfl := SecsItem.asAscii_eq_some.mp (orMalformed_eq_ok.mp hsite)
          split at hrest
          · obtain ⟨report, hreport, hpositions⟩ := ih hrest
            exact ⟨report, List.mem_cons_of_mem _ hreport, hpositions⟩
          next hsame =>
            obtain rfl := not_not.mp hsame
            simp only [Reader.result_bind_eq_ok] at hrest
            obtain ⟨xValue, hx, yValue, hy, hpoint⟩ := hrest
            obtain ⟨moreX, rfl⟩ := SecsItem.asU4_eq_some.mp (orMalformed_eq_ok.mp hx)
            obtain ⟨moreY, rfl⟩ := SecsItem.asU4_eq_some.mp (orMalformed_eq_ok.mp hy)
            cases hpoint
            exact ⟨_, List.mem_cons_self, xValue, moreX, yValue, moreY, rfl, rfl⟩
      | [], hplaced | [_], hplaced | [_, _], hplaced | _ :: _ :: _ :: _ :: _, hplaced =>
          cases hplaced

/-- An S6F11 of a placement, one of whose reports gives the position for the site. -/
def Confirms (siteId : String) (placed : PointNm) (event : HsmsMessage) : Prop :=
  ∃ sessionId wBit systemBytes body dataid reports,
    event = .data sessionId 6 11 wBit systemBytes (some body) ∧
    parseS6f11 body = .ok (dataid, ceidPlacementDone, reports) ∧
    ∃ report ∈ reports, Positions siteId placed report

/-- The wait for a placement leaves with a position only at an S6F11 whose reports give one for the
site. -/
theorem placementSeen_eq_ok {stream function : UInt8} {body : Option SecsItem}
    (hseen : placementSeen siteId (.ok (stream, function, body)) = .inr (.ok placed)) :
    stream = 6 ∧ function = 11 ∧ ∃ item dataid reports, body = some item ∧
      parseS6f11 item = .ok (dataid, ceidPlacementDone, reports) ∧
      reportedPlacement siteId reports = .ok (some placed) := by
  dsimp only [placementSeen] at hseen
  split at hseen
  · cases hseen
  next hprimary =>
    simp only [not_or, not_not] at hprimary
    obtain ⟨rfl, rfl⟩ := hprimary
    cases body with
    | none => cases hseen
    | some body =>
        dsimp only at hseen
        cases hparse : parseS6f11 body with
        | error error =>
            rw [hparse] at hseen
            cases hseen
        | ok parsed =>
            obtain ⟨dataid, ceid, reports⟩ := parsed
            rw [hparse] at hseen
            dsimp only at hseen
            split at hseen
            · cases hseen
            next hceid =>
              obtain rfl := not_not.mp hceid
              cases hplaced : reportedPlacement siteId reports with
              | error error =>
                  rw [hplaced] at hseen
                  cases hseen
              | ok found =>
                  rw [hplaced] at hseen
                  cases found with
                  | none => cases hseen
                  | some point =>
                      cases hseen
                      exact ⟨rfl, rfl, body, dataid, reports, rfl, hparse, hplaced⟩

/-- The wait for a placement leaves with a position at an event that confirms it. -/
theorem confirms_of_awaitedPlacement {event : HsmsMessage}
    (hleave : event.served.bind (AssemblyHost.awaitedPlacement siteId) = some (.ok (.ok placed))) :
    Confirms siteId placed event := by
  cases event with
  | data sessionId stream function wBit systemBytes body =>
      rw [HsmsMessage.served, Option.bind_some, AssemblyHost.awaitedPlacement] at hleave
      cases hseen : placementSeen siteId (.ok (stream, function, body)) with
      | inl _ =>
          rw [hseen] at hleave
          cases hleave
      | inr result =>
          rw [hseen] at hleave
          cases hleave
          obtain ⟨rfl, rfl, item, dataid, reports, rfl, hparse, hplaced⟩ :=
            placementSeen_eq_ok hseen
          exact ⟨sessionId, wBit, systemBytes, item, dataid, reports, rfl, hparse,
            positions_of_reportedPlacement hplaced⟩
  | _ => cases hleave

end Reports

namespace AssemblyHost

variable {rcmd : String} {command : PlacementCommand} {session : HsmsSession} {placed : PointNm}

/-! ## What a call has read -/

/-- The first byte of a body is there exactly if the body is binary and not empty. -/
theorem firstBinary_eq_some {reply : Option SecsItem} {code : UInt8} :
    firstBinary reply = some code ↔ ∃ more, reply = some (.binary (code :: more)) := by
  rcases reply with _ | item
  · simp [firstBinary]
  · cases item
    case binary values => simp [firstBinary, List.head?_eq_some_iff]
    all_goals simp [firstBinary]

/-- An accepting acknowledge is a binary item that begins with 0. -/
theorem exists_of_hcackOk {reply : Option SecsItem}
    (hhcack : (firstBinary reply).getD 1 = hcackOk) :
    ∃ more, reply = some (.binary (0 :: more)) := by
  cases hcode : firstBinary reply with
  | none =>
      rw [hcode] at hhcack
      exact absurd hhcack (by decide)
  | some code =>
      rw [hcode] at hhcack
      obtain rfl : code = 0 := hhcack
      exact firstBinary_eq_some.mp hcode

/-- A call that returns a position wrote its host command, answered control requests until it
read the acceptance, and then read messages up to an event that confirms the position. Behind
each of these stands its answer: one acceptance for a data message that wants one. -/
theorem confirmed_of_placeCall (hplace : (placeCall rcmd command session).1 = .ok (.ok placed)) :
    ∃ requests sessionId stream wBit more messages event,
      (placeCall rcmd command session).2.stream.log = session.stream.log ++
        .wrote (session.primary 2 41 (some (placementCommand rcmd command))) ::
          exchange (replyReaction session.nextSystemBytes 42) requests ++
        .read (.data sessionId stream 42 wBit session.nextSystemBytes
          (some (.binary (0 :: more)))) ::
          (messages ++ [event]).flatMap (answered acknowledge) ∧
      (∀ request ∈ requests, request.IsRequest) ∧
      (∀ sessionId stream function systemBytes body,
        answered acknowledge (.data sessionId stream function true systemBytes body) =
          [.read (.data sessionId stream function true systemBytes body),
            .wrote (.data sessionId stream (function + 1) false systemBytes
              (some (.binary [0])))]) ∧
      Confirms command.siteId placed event := by
  rcases placeCall_cases rcmd command session with ⟨-, hnever⟩ |
    ⟨reply, middle, hselected, htransact, hhcack⟩
  · exact (hnever placed hplace).elim
  · rw [placeCall_of_accepted htransact hhcack] at hplace ⊢
    obtain ⟨requests, sessionId, stream, wBit, hexchanged⟩ :=
      exchanged_of_transact hselected htransact
    obtain ⟨more, rfl⟩ := exists_of_hcackOk hhcack
    obtain ⟨messages, event, hlog, hleave⟩ :=
      (serves_awaitPlacementEvent command.siteId
        (hexchanged.same.state.trans hselected)).leaves
          fun stop => hplace ▸ (awaitFails_ne stop placed).symm
    rw [hplace] at hleave
    refine ⟨requests, sessionId, stream, wBit, more, messages, event, ?_,
      hexchanged.isRequest, fun _ _ _ _ _ => rfl, confirms_of_awaitedPlacement hleave⟩
    rw [hlog, hexchanged.log]
    simp

/-- The position of the site "A" is confirmed. -/
theorem confirmed_of_placeCall_promptEvents :
    ∃ requests sessionId stream wBit more messages event,
      (placeCall "PLACE_PP" placeA (arrivedSession promptEvents)).2.stream.log = [] ++
        .wrote ((arrivedSession promptEvents).primary 2 41
          (some (placementCommand "PLACE_PP" placeA))) ::
          exchange (replyReaction 2 42) requests ++
        .read (.data sessionId stream 42 wBit 2 (some (.binary (0 :: more)))) ::
          (messages ++ [event]).flatMap (answered acknowledge) ∧
      (∀ request ∈ requests, request.IsRequest) ∧
      (∀ sessionId stream function systemBytes body,
        answered acknowledge (.data sessionId stream function true systemBytes body) =
          [.read (.data sessionId stream function true systemBytes body),
            .wrote (.data sessionId stream (function + 1) false systemBytes
              (some (.binary [0])))]) ∧
      Confirms "A" ⟨1, 2⟩ event :=
  confirmed_of_placeCall (by with_unfolding_all rfl)

end AssemblyHost

end Assembly
