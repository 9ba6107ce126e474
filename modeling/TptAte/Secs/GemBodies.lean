import TptAte.Secs.GemLaws

/-! # Bodies on the wire

An event report and a host command come off the wire as they were built whenever
they can be encoded, and each parser accepts the bodies of its shape and no others.
-/

namespace Secs

open Wire

/-! ## Bodies that can be encoded -/

namespace SecsItem

theorem allEncodable_iff {items : List SecsItem} :
    AllEncodable items ↔ ∀ item ∈ items, item.Encodable := by
  induction items with
  | nil => simp [AllEncodable]
  | cons item items ih => rw [AllEncodable, ih, List.forall_mem_cons]

theorem encodable_oneU4 (value : UInt32) : (oneU4 value).Encodable :=
  (by decide : 4 ≤ maxLength)

theorem encodable_list {items : List SecsItem} :
    (SecsItem.list items).Encodable ↔
      items.length ≤ maxLength ∧ ∀ item ∈ items, item.Encodable := by
  rw [SecsItem.Encodable, allEncodable_iff]

theorem encodable_pair {first second : SecsItem} :
    (SecsItem.list [first, second]).Encodable ↔ first.Encodable ∧ second.Encodable := by
  rw [encodable_list]
  simp [maxLength]

end SecsItem

open SecsItem

/-- An event report can be encoded exactly if its lists are short enough and their items can be. -/
theorem encodable_eventReport {dataid ceid : UInt32} {reports : List ReportEntry} :
    (s6f11EventReport dataid ceid reports).Encodable ↔
      reports.length ≤ maxLength ∧
        ∀ report ∈ reports, report.2.length ≤ maxLength ∧ ∀ item ∈ report.2, item.Encodable := by
  have hreport : ∀ report : ReportEntry, (reportItem report).Encodable ↔
      report.2.length ≤ maxLength ∧ ∀ item ∈ report.2, item.Encodable := by
    intro report
    rw [reportItem, encodable_pair, encodable_list, and_iff_right (encodable_oneU4 _)]
  have hthree : 3 ≤ maxLength := by decide
  rw [s6f11EventReport, encodable_list]
  simp only [List.length_cons, List.length_nil, List.forall_mem_cons, List.not_mem_nil,
    false_implies, implies_true, and_true, encodable_oneU4, true_and, encodable_list,
    List.length_map, List.forall_mem_map, hreport]
  exact and_iff_right hthree

/-- A host command can be encoded exactly if its texts and lists are short enough and their items
can be. -/
theorem encodable_hostCommand {rcmd : String} {params : List (String × SecsItem)} :
    (s2f41HostCommand rcmd params).Encodable ↔
      (asBytes rcmd).length ≤ maxLength ∧ params.length ≤ maxLength ∧
        ∀ param ∈ params, (asBytes param.1).length ≤ maxLength ∧ param.2.Encodable := by
  have hparam : ∀ param : String × SecsItem, (paramItem param).Encodable ↔
      (asBytes param.1).length ≤ maxLength ∧ param.2.Encodable := fun param => encodable_pair
  rw [s2f41HostCommand, encodable_pair, encodable_list, List.length_map, List.forall_mem_map]
  simp only [hparam]
  exact Iff.rfl

/-- What is encoded is what comes off the wire. -/
theorem fromBytes_toBytes {item : SecsItem} {bytes : Bytes} (hbytes : item.toBytes = some bytes) :
    SecsItem.fromBytes bytes = .ok (item, bytes.length) := by
  have hencodable : item.Encodable := (isSome_encode item).mp (Option.isSome_of_mem hbytes)
  obtain ⟨bytes', hbytes', -, hdecode⟩ := decodeItem_toBytes item hencodable
  rw [hbytes] at hbytes'
  cases hbytes'
  exact hdecode

/-- Both bodies are encoded exactly if no list in them and no text is too long for three
length bytes, and what is encoded is parsed as what it was built from. -/
theorem parse_fromBytes_toBytes :
    (∀ (dataid ceid : UInt32) (reports : List ReportEntry),
      ((s6f11EventReport dataid ceid reports).toBytes.isSome ↔
        reports.length ≤ maxLength ∧
          ∀ report ∈ reports, report.2.length ≤ maxLength ∧ ∀ item ∈ report.2, item.Encodable) ∧
      ∀ bytes, (s6f11EventReport dataid ceid reports).toBytes = some bytes →
        ∃ body, SecsItem.fromBytes bytes = .ok (body, bytes.length) ∧
          parseS6f11 body = .ok (dataid, ceid, reports)) ∧
    ∀ (rcmd : String) (params : List (String × SecsItem)),
      ((s2f41HostCommand rcmd params).toBytes.isSome ↔
        (asBytes rcmd).length ≤ maxLength ∧ params.length ≤ maxLength ∧
          ∀ param ∈ params, (asBytes param.1).length ≤ maxLength ∧ param.2.Encodable) ∧
      ∀ bytes, (s2f41HostCommand rcmd params).toBytes = some bytes →
        ∃ body, SecsItem.fromBytes bytes = .ok (body, bytes.length) ∧
          parseS2f41 body = .ok (rcmd, params) := by
  refine ⟨fun dataid ceid reports => ⟨?_, fun bytes hbytes => ?_⟩,
    fun rcmd params => ⟨?_, fun bytes hbytes => ?_⟩⟩
  · exact (isSome_encode _).trans encodable_eventReport
  · exact ⟨_, fromBytes_toBytes hbytes, parseS6f11_eventReport dataid ceid reports⟩
  · exact (isSome_encode _).trans encodable_hostCommand
  · exact ⟨_, fromBytes_toBytes hbytes, parseS2f41_hostCommand rcmd params⟩

/-- One report more than three length bytes can count, each of them empty. -/
def tooManyReports : List ReportEntry := List.replicate (maxLength + 1) (dieTestedRptid, [])

theorem not_parse_tooManyReports :
    (∀ report ∈ tooManyReports, ∀ item ∈ report.2, item.Encodable) ∧
      ¬ ∃ bytes body used, (s6f11EventReport 1 Ceid.dieTested tooManyReports).toBytes = some bytes ∧
        SecsItem.fromBytes bytes = .ok (body, used) ∧
        parseS6f11 body = .ok (1, Ceid.dieTested, tooManyReports) := by
  constructor
  · intro report hreport
    rw [List.eq_of_mem_replicate hreport]
    exact nofun
  · rintro ⟨bytes, -, -, hbytes, -, -⟩
    have hencodable := (isSome_encode _).mp (Option.isSome_of_mem hbytes)
    have hcount := (encodable_eventReport.mp hencodable).1
    rw [tooManyReports, List.length_replicate] at hcount
    exact Nat.not_succ_le_self _ hcount

/-! ## Bodies that are accepted -/

theorem orGem_eq_ok {α : Type} {detail : String} {found : Option α} {value : α} :
    orGem detail found = .ok value ↔ found = some value := by
  cases found <;> simp [orGem]

namespace SecsItem

theorem asU4_eq_some {item : SecsItem} {value : UInt32} :
    item.asU4 = some value ↔ ∃ more, item = .u4 (value :: more) := by
  cases item
  case u4 values => simp [asU4, List.head?_eq_some_iff]
  all_goals simp [asU4]

theorem asAscii_eq_some {item : SecsItem} {text : String} :
    item.asAscii = some text ↔ item = .ascii text := by
  cases item <;> simp [asAscii]

theorem asList_eq_some {item : SecsItem} {items : List SecsItem} :
    item.asList = some items ↔ item = .list items := by
  cases item <;> simp [asList]

end SecsItem

/-- An entry is a report exactly if it is a number and a list. -/
theorem parseReport_eq_ok {entry : SecsItem} {report : ReportEntry} :
    parseReport entry = .ok report ↔
      ∃ more, entry = .list [.u4 (report.1 :: more), .list report.2] := by
  constructor
  · intro hparse
    obtain ⟨items, hitems, hrest⟩ := Reader.result_bind_eq_ok.mp hparse
    obtain rfl := asList_eq_some.mp (orGem_eq_ok.mp hitems)
    split at hrest
    next rptid vlist =>
      simp only [Reader.result_bind_eq_ok] at hrest
      obtain ⟨id, hid, values, hvalues, hsame⟩ := hrest
      obtain ⟨more, rfl⟩ := asU4_eq_some.mp (orGem_eq_ok.mp hid)
      obtain rfl := asList_eq_some.mp (orGem_eq_ok.mp hvalues)
      cases hsame
      exact ⟨more, rfl⟩
    · cases hrest
  · rintro ⟨more, rfl⟩
    rfl

/-- The bodies that are event reports, up to what stands behind the first elements of their
identifiers. -/
theorem parseS6f11_eq_ok {body : SecsItem} {dataid ceid : UInt32} {reports : List ReportEntry} :
    parseS6f11 body = .ok (dataid, ceid, reports) ↔
      ∃ moreData moreCe entries,
        body = .list [.u4 (dataid :: moreData), .u4 (ceid :: moreCe), .list entries] ∧
          List.Forall₂ (fun entry report =>
            ∃ more, entry = .list [.u4 (report.1 :: more), .list report.2]) entries reports := by
  constructor
  · intro hparse
    obtain ⟨items, hitems, hrest⟩ := Reader.result_bind_eq_ok.mp hparse
    obtain rfl := asList_eq_some.mp (orGem_eq_ok.mp hitems)
    split at hrest
    next first second third =>
      simp only [Reader.result_bind_eq_ok] at hrest
      obtain ⟨id, hid, event, hevent, entries, hentries, parsed, hparsed, hsame⟩ := hrest
      obtain ⟨moreData, rfl⟩ := asU4_eq_some.mp (orGem_eq_ok.mp hid)
      obtain ⟨moreCe, rfl⟩ := asU4_eq_some.mp (orGem_eq_ok.mp hevent)
      obtain rfl := asList_eq_some.mp (orGem_eq_ok.mp hentries)
      cases hsame
      exact ⟨moreData, moreCe, entries, rfl,
        (Reader.mapM_eq_ok.mp hparsed).imp fun _ _ => parseReport_eq_ok.mp⟩
    · cases hrest
  · rintro ⟨moreData, moreCe, entries, rfl, hentries⟩
    have hparsed := Reader.mapM_eq_ok.mpr (hentries.imp fun _ _ => parseReport_eq_ok.mpr)
    simp only [parseS6f11, SecsItem.asList, orGem, SecsItem.asU4, List.head?_cons, Reader.ok_bind,
      Reader.pure_eq_ok, hparsed]

/-- An entry is a parameter exactly if it was built from it. -/
theorem parseParam_eq_ok {entry : SecsItem} {param : String × SecsItem} :
    parseParam entry = .ok param ↔ entry = paramItem param := by
  constructor
  · intro hparse
    obtain ⟨items, hitems, hrest⟩ := Reader.result_bind_eq_ok.mp hparse
    obtain rfl := asList_eq_some.mp (orGem_eq_ok.mp hitems)
    split at hrest
    next first value =>
      obtain ⟨name, hname, hsame⟩ := Reader.result_bind_eq_ok.mp hrest
      obtain rfl := asAscii_eq_some.mp (orGem_eq_ok.mp hname)
      cases hsame
      rfl
    · cases hrest
  · rintro rfl
    rfl

/-- A body is a host command exactly if it was built from it. -/
theorem parseS2f41_eq_ok {body : SecsItem} {rcmd : String} {params : List (String × SecsItem)} :
    parseS2f41 body = .ok (rcmd, params) ↔ body = s2f41HostCommand rcmd params := by
  constructor
  · intro hparse
    obtain ⟨items, hitems, hrest⟩ := Reader.result_bind_eq_ok.mp hparse
    obtain rfl := asList_eq_some.mp (orGem_eq_ok.mp hitems)
    split at hrest
    next first second =>
      simp only [Reader.result_bind_eq_ok] at hrest
      obtain ⟨command, hcommand, entries, hentries, parsed, hparsed, hsame⟩ := hrest
      obtain rfl := asAscii_eq_some.mp (orGem_eq_ok.mp hcommand)
      obtain rfl := asList_eq_some.mp (orGem_eq_ok.mp hentries)
      cases hsame
      have hbuilt : entries = params.map paramItem := by
        rw [← List.forall₂_eq_eq_eq, List.forall₂_map_right_iff]
        exact (Reader.mapM_eq_ok.mp hparsed).imp fun _ _ => parseParam_eq_ok.mp
      rw [hbuilt]
      rfl
    · cases hrest
  · rintro rfl
    exact parseS2f41_hostCommand rcmd params

/-- An event report is accepted exactly if it has the shape of one that is built; only the
elements behind the first of an identifier are ignored. A host command is accepted exactly if
it is one that is built. -/
theorem parseBodies_eq_ok :
    (∀ (body : SecsItem) (dataid ceid : UInt32) (reports : List ReportEntry),
      parseS6f11 body = .ok (dataid, ceid, reports) ↔
        ∃ moreData moreCe entries,
          body = .list [.u4 (dataid :: moreData), .u4 (ceid :: moreCe), .list entries] ∧
            List.Forall₂ (fun entry report =>
              ∃ more, entry = .list [.u4 (report.1 :: more), .list report.2]) entries reports) ∧
    ∀ (body : SecsItem) (rcmd : String) (params : List (String × SecsItem)),
      parseS2f41 body = .ok (rcmd, params) ↔ body = s2f41HostCommand rcmd params :=
  ⟨fun _ _ _ _ => parseS6f11_eq_ok, fun _ _ _ => parseS2f41_eq_ok⟩

/-- An event report whose DATAID has two elements. -/
def longDataid : SecsItem := .list [.u4 [1, 2], .u4 [Ceid.dieTested], .list []]

/-- The second element of the DATAID is ignored. -/
theorem parseS6f11_longDataid :
    parseS6f11 longDataid = .ok (1, Ceid.dieTested, []) ∧
      longDataid ≠ s6f11EventReport 1 Ceid.dieTested [] :=
  ⟨rfl, by simp [longDataid, s6f11EventReport, oneU4]⟩

end Secs
