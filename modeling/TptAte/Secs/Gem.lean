import TptAte.Secs.Loop

/-! # GEM transactions

The stream and function transactions of the test and assembly flows over
SECS-II: status and communications, host commands and event reports, from the
equipment's side and from the host's.
-/

namespace Secs

open Wire HsmsSession

/-! ## Items -/

namespace SecsItem

def oneU4 (value : UInt32) : SecsItem := .u4 [value]

def oneU2 (value : UInt16) : SecsItem := .u2 [value]

def a (text : String) : SecsItem := .ascii text

def asU4 : SecsItem → Option UInt32
  | .u4 values => values.head?
  | _ => none

def asU2 : SecsItem → Option UInt16
  | .u2 values => values.head?
  | _ => none

def asAscii : SecsItem → Option String
  | .ascii text => some text
  | _ => none

def asList : SecsItem → Option (List SecsItem)
  | .list items => some items
  | _ => none

end SecsItem

/-- The value that a body has to have, or what it lacks. -/
def orGem {α : Type} (detail : String) : Option α → Except SecsError α
  | some value => .ok value
  | none => .error (.gem (.text detail))

def firstBinary : Option SecsItem → Option UInt8
  | some (.binary values) => values.head?
  | _ => none

/-! ## Bodies -/

namespace Ceid

def dieTested : UInt32 := 101

def waferDone : UInt32 := 102

end Ceid

def dieTestedRptid : UInt32 := 1

/-- One report of an S6F11: its RPTID and its variables. -/
abbrev ReportEntry := UInt32 × List SecsItem

def s1f1AreYouThere : SecsItem := .list []

def s1f2OnlineData (model softRev : String) : SecsItem := .list [.a model, .a softRev]

def s1f13EstablishCommunicationsRequest : SecsItem := .list []

def s1f14EstablishCommunicationsAck (accepted : Bool) : SecsItem :=
  .list [.boolean [accepted], .a (if accepted then "Established" else "Refused")]

def reportItem (report : ReportEntry) : SecsItem :=
  .list [.oneU4 report.1, .list report.2]

/-- `L,3 [DATAID U4, CEID U4, L,n [L,2 [RPTID U4, V-list]]]`. -/
def s6f11EventReport (dataid ceid : UInt32) (reports : List ReportEntry) : SecsItem :=
  .list [.oneU4 dataid, .oneU4 ceid, .list (reports.map reportItem)]

def s6f12Acknowledge (dackn : UInt8) : SecsItem := .binary [dackn]

def hcackOk : UInt8 := 0

def paramItem (param : String × SecsItem) : SecsItem := .list [.a param.1, param.2]

/-- `L,2 [RCMD A, L,n [L,2 [CPNAME A, CPVAL]]]`. -/
def s2f41HostCommand (rcmd : String) (params : List (String × SecsItem)) : SecsItem :=
  .list [.a rcmd, .list (params.map paramItem)]

def s2f42Hcack (hcack : UInt8) : SecsItem := .binary [hcack]

def parseReport (report : SecsItem) : Except SecsError ReportEntry := do
  match ← orGem "S6F11 report entry is not a list" report.asList with
  | [rptid, vlist] =>
      let rptid ← orGem "S6F11 RPTID is not U4" rptid.asU4
      let vlist ← orGem "S6F11 V-list is not a list" vlist.asList
      return (rptid, vlist)
  | pair => .error (.gem (.text s!"S6F11 report entry has {pair.length} items, expected 2"))

def parseS6f11 (body : SecsItem) : Except SecsError (UInt32 × UInt32 × List ReportEntry) := do
  match ← orGem "S6F11 body is not a list" body.asList with
  | [dataid, ceid, reports] =>
      let dataid ← orGem "S6F11 DATAID is not U4" dataid.asU4
      let ceid ← orGem "S6F11 CEID is not U4" ceid.asU4
      let reports ← (← orGem "S6F11 report list is not a list" reports.asList).mapM parseReport
      return (dataid, ceid, reports)
  | items => .error (.gem (.text s!"S6F11 body has {items.length} items, expected 3"))

def parseParam (param : SecsItem) : Except SecsError (String × SecsItem) := do
  match ← orGem "S2F41 parameter entry is not a list" param.asList with
  | [name, value] =>
      let name ← orGem "S2F41 CPNAME is not ASCII" name.asAscii
      return (name, value)
  | pair => .error (.gem (.text s!"S2F41 parameter entry has {pair.length} items, expected 2"))

def parseS2f41 (body : SecsItem) : Except SecsError (String × List (String × SecsItem)) := do
  match ← orGem "S2F41 body is not a list" body.asList with
  | [rcmd, params] =>
      let rcmd ← orGem "S2F41 RCMD is not ASCII" rcmd.asAscii
      let params ← (← orGem "S2F41 parameter list is not a list" params.asList).mapM parseParam
      return (rcmd, params)
  | items => .error (.gem (.text s!"S2F41 body has {items.length} items, expected 2"))

/-- Parse an S1F2 body into model and software revision; more items are ignored. -/
def parseOnlineData (reply : Option SecsItem) : Except SecsError (String × String) := do
  let items ← orGem "S1F2 body is not a list" (reply.bind (·.asList))
  let model ← orGem "S1F2 MDLN missing" (items[0]?.bind (·.asAscii))
  let rev ← orGem "S1F2 SOFTREV missing" (items[1]?.bind (·.asAscii))
  return (model, rev)

def parseCommack (reply : Option SecsItem) : Except SecsError Bool := do
  let items ← orGem "S1F14 body is not a list" (reply.bind (·.asList))
  orGem "S1F14 COMMACK missing" <| items.head?.bind fun
    | .boolean values => values.head?
    | _ => none

/-! ## The equipment's side -/

structure EquipmentGem where
  modelName : String
  softRev : String

namespace EquipmentGem

/-- The answer to a primary, by its function alone: S1F1, S1F13 and S2F41 get one. -/
def answer (gem : EquipmentGem) (_stream function : UInt8) (_body : Option SecsItem) :
    Option SecsItem :=
  if function = 1 then some (s1f2OnlineData gem.modelName gem.softRev)
  else if function = 13 then some (s1f14EstablishCommunicationsAck true)
  else if function = 41 then some (s2f42Hcack hcackOk)
  else none

def serveOne (gem : EquipmentGem) : Program (UInt8 × UInt8 × Option SecsItem) :=
  Program.serveOne gem.answer

/-- Accept the Select and answer whatever handshake of two primaries the host makes. -/
def accept (gem : EquipmentGem) : Program Unit := do
  Program.acceptSelect
  let _ ← gem.serveOne
  let _ ← gem.serveOne

/-- Send an event report; a reply without DACKN counts as accepted. -/
def sendEventReport (dataid ceid : UInt32) (reports : List ReportEntry) : Program Unit := do
  let (function, reply) ← Program.transact 6 11 (some (s6f11EventReport dataid ceid reports))
  if function ≠ 12 then
    Program.fail (.unexpectedStreamFunction 6 function (.text "S6F12 acknowledge"))
  else
    match firstBinary reply with
    | none => return
    | some code =>
        if code ≠ 0 then
          Program.fail (.gem (.text s!"host rejected event report, DACKN={code}"))
        else return

end EquipmentGem

/-! ## The host's side -/

structure HostGem where
  nextDataid : UInt32

namespace HostGem

def new : HostGem := ⟨1⟩

def onlineData : Program (String × String) := do
  let (_, reply) ← Program.transact 1 1 (some s1f1AreYouThere)
  .ofExcept (parseOnlineData reply)

def establishCommunications : Program Bool := do
  let (_, reply) ← Program.transact 1 13 (some s1f13EstablishCommunicationsRequest)
  .ofExcept (parseCommack reply)

/-- Send an event report and return the DACKN of the reply; one without DACKN counts as
rejected. The DATAID is used up whatever comes of the report. -/
def sendEventReport (gem : HostGem) (ceid : UInt32) (reports : List ReportEntry) :
    HostGem × Program UInt8 :=
  ({ gem with nextDataid := gem.nextDataid + 1 }, do
    let (function, reply) ←
      Program.transact 6 11 (some (s6f11EventReport gem.nextDataid ceid reports))
    if function ≠ 12 then
      Program.fail (.unexpectedStreamFunction 6 function (.text "S6F12 acknowledge"))
    else return (firstBinary reply).getD 1)

/-- Serve one primary; each is answered as an accepted event report. -/
def serveEventReports : Program (UInt8 × UInt8 × Option SecsItem) :=
  Program.serveOne fun _ _ _ => some (s6f12Acknowledge 0)

/-- Serve one primary; one that is no event report is answered and skipped. -/
def receiveRound (_ : Unit) : Program (Unit ⊕ (UInt32 × UInt32 × List ReportEntry)) := do
  let (stream, function, body) ← serveEventReports
  if stream = 6 ∧ function = 11 then
    match body with
    | none => Program.fail (.missingDataBody 6 11)
    | some body => return .inr (← .ofExcept (parseS6f11 body))
  else return .inl ()

/-- Each round of the host reads at least one message. -/
theorem reads_receiveRound (state : Unit)
    (kind : Unit ⊕ (UInt32 × UInt32 × List ReportEntry) → Prop) :
    Reads (receiveRound state).action kind := by
  refine (reads_serveOne _).bind ?_ fun _ _ _ _ _ _ => trivial
  rintro ⟨stream, function, body⟩
  dsimp only
  split
  · cases body with
    | none => exact keeps_throw _
    | some body => exact (Program.keeps_ofExcept _).bind fun _ => keeps_pure _
  · exact keeps_pure _

def receiveEventReport : Program (UInt32 × UInt32 × List ReportEntry) :=
  .loop receiveRound (fun state => reads_receiveRound state _) ()

theorem reads_receiveEventReport : Reads receiveEventReport.action fun _ => True :=
  reads_loop (fun state => reads_receiveRound state _) ()

end HostGem

end Secs
