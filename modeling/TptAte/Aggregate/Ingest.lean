import TptAte.Aggregate.File

/-! # Reports that are ingested

Sides write reports to files, carry the files from one place to another and ingest what
they read. Whatever they do in whatever order, it is as if whole reports lay in the
places: what is ingested was exported, with finite numbers, by a side that may share it.
-/

namespace Aggregate

open Wire Test Json Codec

/-! ## Ingestion -/

structure RecordingIngestor where
  received : List OutcomeReport

namespace RecordingIngestor

def new : RecordingIngestor := { received := [] }

def ingest (ingestor : RecordingIngestor) (report : OutcomeReport) :
    Except AggregateError Unit × RecordingIngestor :=
  (.ok (), { received := ingestor.received ++ [report] })

end RecordingIngestor

/-! ## Errands with files -/

/-- How the writing of a file fails, and what reading the file gives then, unless it is as it
was. -/
structure Fault where
  kind : ErrorKind
  left : Option (Except ErrorKind String)

/-- What is done with the files, by whatever side. -/
inductive Errand where
  | write (exchange : JsonOutcomeFile) (report : OutcomeReport) (path : String)
      (fault : Option Fault)
  | carry (source target : String)
  | remove (path : String) (kind : ErrorKind)
  | ingest (exchange : JsonOutcomeFile) (path : String)

def Errand.target : Errand → Option String
  | .write _ _ path _ => some path
  | .carry _ target => some target
  | .remove path _ => some path
  | .ingest _ _ => none

/-- The files in all places, and what was ingested. -/
structure Depot where
  files : Files
  ingestor : RecordingIngestor

namespace Depot

def put (depot : Depot) (path : String) (content : Except ErrorKind String) : Depot :=
  { depot with files := fun path' => if path' = path then content else depot.files path' }

/-- Write a report, and see what a failure leaves. -/
def write (serde : SerdeJson) (exchange : JsonOutcomeFile) (report : OutcomeReport)
    (path : String) (fault : Option Fault) (depot : Depot) :
    Except AggregateError Unit × Depot :=
  match exchange.writeOutcomeFile serde report path (fault.map (·.kind)) depot.files, fault with
  | .ok files, _ => (.ok (), { depot with files })
  | .error (.io kind), some ⟨_, some content⟩ => (.error (.io kind), depot.put path content)
  | .error error, _ => (.error error, depot)

def carry (source target : String) (depot : Depot) : Except AggregateError Unit × Depot :=
  match depot.files source with
  | .ok text => (.ok (), depot.put target (.ok text))
  | .error kind => (.error (.io kind), depot)

def ingest (serde : SerdeJson) (exchange : JsonOutcomeFile) (path : String) (depot : Depot) :
    Except AggregateError Unit × Depot :=
  match exchange.readOutcomeFile serde depot.files path with
  | .ok report =>
      let (result, ingestor) := depot.ingestor.ingest report
      (result, { depot with ingestor })
  | .error error => (.error error, depot)

def step (serde : SerdeJson) : Errand → Depot → Except AggregateError Unit × Depot
  | .write exchange report path fault => write serde exchange report path fault
  | .carry source target => carry source target
  | .remove path kind => fun depot => (.ok (), depot.put path (.error kind))
  | .ingest exchange path => ingest serde exchange path

def run (serde : SerdeJson) :
    List Errand → Depot → List (Except AggregateError Unit) × Depot
  | [], depot => ([], depot)
  | errand :: errands, depot =>
      let (result, next) := step serde errand depot
      let (results, last) := run serde errands next
      (result :: results, last)

end Depot

/-! ## Whole reports -/

/-- What lies in a place: nothing that can be read, something that is no report, or a report. -/
inductive Slot where
  | vacant (kind : ErrorKind)
  | damaged
  | holds (report : OutcomeReport)

inductive Refusal where
  | io (kind : ErrorKind)
  | malformed
  | unsupported (found supported : String)
  | forbidden (consent : ConsentScope)
  deriving DecidableEq

def AggregateError.refusal : AggregateError → Refusal
  | .io kind => .io kind
  | .malformedJson _ => .malformed
  | .unsupportedSchemaVersion found supported => .unsupported found supported
  | .consentForbidsSharing consent => .forbidden consent

/-- The reports in all places, and those that were received, as they were written. -/
structure Shelf where
  slots : String → Slot
  received : List OutcomeReport

namespace Shelf

def put (shelf : Shelf) (path : String) (slot : Slot) : Shelf :=
  { shelf with slots := fun path' => if path' = path then slot else shelf.slots path' }

/-- What a report that is taken out comes to. -/
def accept (exchange : JsonOutcomeFile) (report : OutcomeReport) : Except Refusal Unit :=
  if ¬ report.Finite then .error .malformed
  else if report.schemaVersion.isReadableBy exchange.supportedSchema then .ok ()
  else .error (.unsupported report.schemaVersion.display exchange.supportedSchema.display)

/-- A report is taken in exactly if it is finite and of a version that is understood. -/
theorem accept_eq_ok_iff {exchange : JsonOutcomeFile} {report : OutcomeReport} :
    accept exchange report = .ok () ↔ report.Finite ∧
      report.schemaVersion.isReadableBy exchange.supportedSchema = true := by
  unfold accept
  by_cases hfinite : report.Finite
  · cases report.schemaVersion.isReadableBy exchange.supportedSchema <;> simp [hfinite]
  · simp [hfinite]

def write (report : OutcomeReport) (path : String) (fault : Option Fault) (shelf : Shelf) :
    Except Refusal Unit × Shelf :=
  if report.consent = .noSharing then (.error (.forbidden report.consent), shelf)
  else
    match fault with
    | none => (.ok (), shelf.put path (.holds report))
    | some ⟨kind, none⟩ => (.error (.io kind), shelf)
    | some ⟨kind, some (.error unread)⟩ => (.error (.io kind), shelf.put path (.vacant unread))
    | some ⟨kind, some (.ok _)⟩ => (.error (.io kind), shelf.put path .damaged)

def carry (source target : String) (shelf : Shelf) : Except Refusal Unit × Shelf :=
  match shelf.slots source with
  | .vacant kind => (.error (.io kind), shelf)
  | slot => (.ok (), shelf.put target slot)

def ingest (exchange : JsonOutcomeFile) (path : String) (shelf : Shelf) :
    Except Refusal Unit × Shelf :=
  match shelf.slots path with
  | .vacant kind => (.error (.io kind), shelf)
  | .damaged => (.error .malformed, shelf)
  | .holds report =>
      match accept exchange report with
      | .ok () => (.ok (), { shelf with received := shelf.received ++ [report] })
      | .error refusal => (.error refusal, shelf)

def step : Errand → Shelf → Except Refusal Unit × Shelf
  | .write _ report path fault => write report path fault
  | .carry source target => carry source target
  | .remove path kind => fun shelf => (.ok (), shelf.put path (.vacant kind))
  | .ingest exchange path => ingest exchange path

def run : List Errand → Shelf → List (Except Refusal Unit) × Shelf
  | [], shelf => ([], shelf)
  | errand :: errands, shelf =>
      let (result, next) := step errand shelf
      let (results, last) := run errands next
      (result :: results, last)

end Shelf

/-! ## Files that hold reports -/

def SerdeJson.textOf (serde : SerdeJson) (report : OutcomeReport) : String :=
  serde.toStringPretty (serde.outcomeReport.toValue report)

/-- A file and what lies in its place. -/
inductive Shows (serde : SerdeJson) : Except ErrorKind String → Slot → Prop
  | vacant (kind : ErrorKind) : Shows serde (.error kind) (.vacant kind)
  | damaged {text : String} (hrefused : serde.fromStr text = none) :
      Shows serde (.ok text) .damaged
  | holds {report : OutcomeReport} (hserde : serde.Readable report) :
      Shows serde (.ok (serde.textOf report)) (.holds report)

/-- The files hold the reports, and what is received of a report are its numbers as they are
read. -/
structure Represents (serde : SerdeJson) (depot : Depot) (shelf : Shelf) : Prop where
  received : depot.ingestor.received = shelf.received.map serde.reread
  slots (path : String) : Shows serde (depot.files path) (shelf.slots path)

/-- No text in front of the whole text of a report is itself a text in JSON. -/
def SerdeJson.Unbroken (serde : SerdeJson) (report : OutcomeReport) : Prop :=
  ∀ text : String, text.toList <+: (serde.textOf report).toList → text ≠ serde.textOf report →
    serde.fromStr text = none

/-- The JSON library is as documented for a report that is written, and of its text a failed
writing leaves a part. -/
def Errand.Plain (serde : SerdeJson) : Errand → Prop
  | .write _ report _ fault =>
      serde.Readable report ∧ serde.Unbroken report ∧
        ∀ failed ∈ fault, ∀ text, failed.left = some (.ok text) →
          text.toList <+: (serde.textOf report).toList ∧ text ≠ serde.textOf report
  | _ => True

section Refinement

variable {serde : SerdeJson} {depot : Depot} {shelf : Shelf}

/-- The files still hold the reports when a place gets a file and a slot that go together. -/
theorem Represents.put (h : Represents serde depot shelf) (path : String)
    {content : Except ErrorKind String} {slot : Slot} (hshows : Shows serde content slot) :
    Represents serde (depot.put path content) (shelf.put path slot) := by
  refine ⟨h.received, fun path' => ?_⟩
  change Shows serde (if path' = path then content else depot.files path')
    (if path' = path then slot else shelf.slots path')
  split
  · exact hshows
  · exact h.slots path'

structure Refines (serde : SerdeJson) (done : Except AggregateError Unit × Depot)
    (done' : Except Refusal Unit × Shelf) : Prop where
  result : done.1.mapError AggregateError.refusal = done'.1
  represents : Represents serde done.2 done'.2

/-- Writing a report does with the files what it does with whole reports, also where it fails. -/
theorem refines_write (h : Represents serde depot shelf) (exchange : JsonOutcomeFile)
    {report : OutcomeReport} (path : String) {fault : Option Fault}
    (hplain : (Errand.write exchange report path fault).Plain serde) :
    Refines serde (depot.write serde exchange report path fault)
      (shelf.write report path fault) := by
  obtain ⟨hserde, hunbroken, hleft⟩ := hplain
  unfold Depot.write Shelf.write JsonOutcomeFile.writeOutcomeFile
  by_cases hconsent : report.consent = .noSharing
  · simp only [hconsent, if_true]
    exact ⟨rfl, h⟩
  · simp only [hconsent, if_false]
    cases fault with
    | none => exact ⟨rfl, h.put path (.holds hserde)⟩
    | some failed =>
        rcases failed with ⟨kind, _ | unread | text⟩
        · exact ⟨rfl, h⟩
        · exact ⟨rfl, h.put path (.vacant unread)⟩
        · obtain ⟨hfront, hne⟩ := hleft _ rfl text rfl
          exact ⟨rfl, h.put path (.damaged (hunbroken text hfront hne))⟩

/-- Carrying a file carries what lies in its place. -/
theorem refines_carry (h : Represents serde depot shelf) (source target : String) :
    Refines serde (depot.carry source target) (shelf.carry source target) := by
  have hshows := h.slots source
  unfold Depot.carry Shelf.carry
  revert hshows
  generalize depot.files source = content, shelf.slots source = slot
  intro hshows
  cases hshows with
  | vacant kind => exact ⟨rfl, h⟩
  | damaged hrefused => exact ⟨rfl, h.put target (.damaged hrefused)⟩
  | holds hserde => exact ⟨rfl, h.put target (.holds hserde)⟩

/-- Reading a file and ingesting it takes in the report that lies there, or is refused for the same
reason. -/
theorem refines_ingest (h : Represents serde depot shelf) (exchange : JsonOutcomeFile)
    (path : String) :
    Refines serde (depot.ingest serde exchange path) (shelf.ingest exchange path) := by
  have hshows := h.slots path
  unfold Depot.ingest Shelf.ingest JsonOutcomeFile.readOutcomeFile
  revert hshows
  generalize depot.files path = content, shelf.slots path = slot
  intro hshows
  cases hshows with
  | vacant kind => exact ⟨rfl, h⟩
  | damaged hrefused =>
      simp only [hrefused, Option.bind_none]
      exact ⟨rfl, h⟩
  | @holds report hserde =>
      have hread : (serde.fromStr (serde.textOf report)).bind serde.outcomeReport.fromValue =
          if report.Finite then some (serde.reread report) else none := by
        rw [SerdeJson.textOf, hserde.text, Option.bind_some]
        exact hserde.rereads.eq_ite
      simp only [hread, Shelf.accept]
      by_cases hfinite : report.Finite
      · simp only [hfinite, if_true, not_true_eq_false, if_false, schemaVersion_reread]
        by_cases hreadable : report.schemaVersion.isReadableBy exchange.supportedSchema = true
        · simp only [hreadable, if_true]
          refine ⟨rfl, ?_, h.slots⟩
          change depot.ingestor.received ++ [serde.reread report] =
            (shelf.received ++ [report]).map serde.reread
          rw [h.received, List.map_append, List.map_singleton]
        · simp only [hreadable]
          exact ⟨rfl, h⟩
      · simp only [hfinite, if_false, not_false_eq_true, if_true]
        exact ⟨rfl, h⟩

/-- Each errand with files refines the one with whole reports. -/
theorem refines_step (h : Represents serde depot shelf) {errand : Errand}
    (hplain : errand.Plain serde) :
    Refines serde (depot.step serde errand) (shelf.step errand) := by
  cases errand with
  | write exchange report path fault => exact refines_write h exchange path hplain
  | carry source target => exact refines_carry h source target
  | remove path kind => exact ⟨rfl, h.put path (.vacant kind)⟩
  | ingest exchange path => exact refines_ingest h exchange path

/-- Errands with files refine those with whole reports. -/
theorem refines_run (h : Represents serde depot shelf) {errands : List Errand}
    (hplain : ∀ errand ∈ errands, errand.Plain serde) :
    (depot.run serde errands).1.map (·.mapError AggregateError.refusal) =
        (shelf.run errands).1 ∧
      Represents serde (depot.run serde errands).2 (shelf.run errands).2 := by
  induction errands generalizing depot shelf with
  | nil => exact ⟨rfl, h⟩
  | cons errand errands ih =>
      rw [List.forall_mem_cons] at hplain
      obtain ⟨hresult, hrepresents⟩ := refines_step h hplain.1
      obtain ⟨hresults, hlast⟩ := ih hrepresents hplain.2
      exact ⟨congrArg₂ List.cons hresult hresults, hlast⟩

end Refinement

/-! ## What is received was exported -/

/-- A report was written by a side that may share it. -/
def Exported (errands : List Errand) (report : OutcomeReport) : Prop :=
  report.consent ≠ .noSharing ∧
    ∃ exchange path, Errand.write exchange report path none ∈ errands

/-- A side that understands the version of a report takes one in. -/
def Understood (errands : List Errand) (report : OutcomeReport) : Prop :=
  ∃ exchange path, Errand.ingest exchange path ∈ errands ∧
    report.schemaVersion.isReadableBy exchange.supportedSchema = true

/-- The errands so far account for all reports. -/
structure Accounted (errands : List Errand) (shelf : Shelf) : Prop where
  held : ∀ path report, shelf.slots path = .holds report → Exported errands report
  received : ∀ report ∈ shelf.received,
    Exported errands report ∧ report.Finite ∧ Understood errands report

section Accounted

variable {errands : List Errand} {shelf : Shelf} {report : OutcomeReport}

theorem Exported.mono (h : Exported errands report) (more : List Errand) :
    Exported (errands ++ more) report := by
  obtain ⟨hconsent, exchange, path, hmem⟩ := h
  exact ⟨hconsent, exchange, path, List.mem_append_left more hmem⟩

theorem Understood.mono (h : Understood errands report) (more : List Errand) :
    Understood (errands ++ more) report := by
  obtain ⟨exchange, path, hmem, hreadable⟩ := h
  exact ⟨exchange, path, List.mem_append_left more hmem, hreadable⟩

theorem Accounted.mono (h : Accounted errands shelf) (more : List Errand) :
    Accounted (errands ++ more) shelf where
  held path report hholds := (h.held path report hholds).mono more
  received report hmem := by
    obtain ⟨hexported, hfinite, hunderstood⟩ := h.received report hmem
    exact ⟨hexported.mono more, hfinite, hunderstood.mono more⟩

/-- Placing a report that was exported keeps all reports accounted for. -/
theorem Accounted.put (h : Accounted errands shelf) (path : String) {slot : Slot}
    (hslot : ∀ report, slot = .holds report → Exported errands report) :
    Accounted errands (shelf.put path slot) where
  held path' report hholds := by
    change (if path' = path then slot else shelf.slots path') = .holds report at hholds
    split at hholds
    · exact hslot report hholds
    · exact h.held path' report hholds
  received := h.received

/-- One more errand accounts for whatever it places or takes in. -/
theorem Accounted.step (h : Accounted errands shelf) (errand : Errand) :
    Accounted (errands ++ [errand]) (shelf.step errand).2 := by
  have hlater := h.mono [errand]
  cases errand with
  | write exchange report path fault =>
      change Accounted _ (shelf.write report path fault).2
      unfold Shelf.write
      split
      · exact hlater
      next hconsent =>
        -- a write that fails may leave the place as it was, empty or with a part of the text
        rcases fault with _ | ⟨kind, _ | _ | _⟩
        · apply hlater.put path
          intro report' hholds
          obtain rfl := Slot.holds.inj hholds
          exact ⟨hconsent, exchange, path, by simp⟩
        · exact hlater
        · exact hlater.put path nofun
        · exact hlater.put path nofun
  | carry source target =>
      change Accounted _ (shelf.carry source target).2
      unfold Shelf.carry
      split
      · exact hlater
      · apply hlater.put target
        intro report hholds
        exact hlater.held source report hholds
  | remove path kind => exact hlater.put path nofun
  | ingest exchange path =>
      change Accounted _ (shelf.ingest exchange path).2
      unfold Shelf.ingest
      split
      · exact hlater
      · exact hlater
      next report hholds =>
        split
        next haccept =>
          -- what is received was held at the place, and so was written by an errand
          refine ⟨hlater.held, fun report' hmem => ?_⟩
          rcases List.mem_append.mp hmem with hmem | hmem
          · exact hlater.received report' hmem
          · obtain rfl := List.mem_singleton.mp hmem
            obtain ⟨hfinite, hreadable⟩ := Shelf.accept_eq_ok_iff.mp haccept
            exact ⟨hlater.held path report' hholds, hfinite, exchange, path, by simp, hreadable⟩
        · exact hlater

/-- A run of errands accounts for all that is in the places and all that was received. -/
theorem Accounted.run (h : Accounted errands shelf) (more : List Errand) :
    Accounted (errands ++ more) (shelf.run more).2 := by
  induction more generalizing errands shelf with
  | nil => rwa [List.append_nil]
  | cons errand more ih =>
      have hrun := ih (h.step errand)
      rwa [List.append_assoc] at hrun

end Accounted

/-! ## What was exported is received -/

section Frame

variable {shelf : Shelf} {path : String}

theorem slots_put_of_ne {path' : String} (hne : path' ≠ path) (slot : Slot) :
    (shelf.put path' slot).slots path = shelf.slots path := if_neg hne.symm

/-- What lies in a place stays there until an errand changes it. -/
theorem slots_step {errand : Errand} (h : errand.target ≠ some path) :
    (shelf.step errand).2.slots path = shelf.slots path := by
  cases errand with
  | write exchange report path' fault =>
      have hne : path' ≠ path := fun heq => h (congrArg some heq)
      change (shelf.write report path' fault).2.slots path = _
      unfold Shelf.write
      split
      · rfl
      · rcases fault with _ | ⟨kind, _ | _ | _⟩
        · exact slots_put_of_ne hne _
        · rfl
        · exact slots_put_of_ne hne _
        · exact slots_put_of_ne hne _
  | carry source target =>
      have hne : target ≠ path := fun heq => h (congrArg some heq)
      change (shelf.carry source target).2.slots path = _
      unfold Shelf.carry
      split
      · rfl
      · exact slots_put_of_ne hne _
  | remove path' kind => exact slots_put_of_ne (fun heq => h (congrArg some heq)) _
  | ingest exchange path' =>
      change (shelf.ingest exchange path').2.slots path = _
      unfold Shelf.ingest
      split
      · rfl
      · rfl
      · split <;> rfl

/-- What lies in a place stays there as long as no errand has it for a target. -/
theorem slots_run {errands : List Errand} (h : ∀ errand ∈ errands, errand.target ≠ some path) :
    (shelf.run errands).2.slots path = shelf.slots path := by
  induction errands generalizing shelf with
  | nil => rfl
  | cons errand errands ih =>
      rw [List.forall_mem_cons] at h
      exact (ih h.2).trans (slots_step h.1)

theorem run_append (errands more : List Errand) :
    (shelf.run (errands ++ more)).2 = ((shelf.run errands).2.run more).2 := by
  induction errands generalizing shelf with
  | nil => rfl
  | cons errand errands ih => exact ih

/-- A report that was written lies in its place. -/
theorem slots_written {before between : List Errand} {exchange : JsonOutcomeFile}
    {report : OutcomeReport} (hconsent : report.consent ≠ .noSharing)
    (hbetween : ∀ errand ∈ between, errand.target ≠ some path) :
    (shelf.run (before ++ .write exchange report path none :: between)).2.slots path =
      .holds report := by
  rw [run_append]
  refine (slots_run hbetween).trans ?_
  change ((shelf.run before).2.write report path none).2.slots path = _
  rw [Shelf.write, if_neg hconsent]
  exact if_pos rfl

end Frame

/-- Files of which none is a text in JSON. -/
def Shelf.bare (files : Files) : Shelf :=
  { slots := fun path =>
      match files path with
      | .error kind => .vacant kind
      | .ok _ => .damaged
    received := [] }

section Bare

variable {serde : SerdeJson} {files : Files} {errands : List Errand}

/-- At the start no place holds a report. -/
theorem represents_bare (hbare : ∀ path text, files path = .ok text → serde.fromStr text = none) :
    Represents serde ⟨files, .new⟩ (.bare files) := by
  refine ⟨rfl, fun path => ?_⟩
  have hpath := hbare path
  change Shows serde (files path) (match files path with
    | .error kind => .vacant kind
    | .ok _ => .damaged)
  cases hfile : files path with
  | error kind => exact .vacant kind
  | ok text => exact .damaged (hpath text hfile)

theorem accounted_bare : Accounted [] (.bare files) where
  held path report hholds := by
    change (match files path with
      | .error kind => Slot.vacant kind
      | .ok _ => .damaged) = .holds report at hholds
    split at hholds <;> cases hholds
  received := nofun

/-- Whatever is written, carried, removed and ingested in whatever order, with failures that leave
parts of files: each errand comes to what it comes to with whole reports, and what was received
are reports that were exported by a side that may share them, whose numbers are finite and whose
version is understood where they were taken in. Of a report that is received only the numbers may
differ from what was exported, as far as the JSON library reads them as others. -/
theorem receives_exported
    (hbare : ∀ path text, files path = .ok text → serde.fromStr text = none)
    (hplain : ∀ errand ∈ errands, errand.Plain serde) :
    (Depot.run serde errands ⟨files, .new⟩).1.map (·.mapError AggregateError.refusal) =
        (Shelf.run errands (.bare files)).1 ∧
      (Depot.run serde errands ⟨files, .new⟩).2.ingestor.received =
        (Shelf.run errands (.bare files)).2.received.map serde.reread ∧
      ∀ report ∈ (Depot.run serde errands ⟨files, .new⟩).2.ingestor.received,
        ∃ written, report = serde.reread written ∧ Exported errands written ∧ written.Finite ∧
          Understood errands written := by
  obtain ⟨hresults, hrepresents⟩ := refines_run (represents_bare hbare) hplain
  refine ⟨hresults, hrepresents.received, fun report hmem => ?_⟩
  rw [hrepresents.received] at hmem
  obtain ⟨written, hwritten, rfl⟩ := List.mem_map.mp hmem
  exact ⟨written, rfl, (accounted_bare.run errands).received written hwritten⟩

/-- A report on a wafer. Its first writing leaves an empty file, and what the second one leaves is
carried to another place. -/
def carriedErrands : List Errand :=
  [.write .new (waferReport .current measuredF64) "report.json"
      (some { kind := .other 28, left := some (.ok "") }),
    .write .new (waferReport .current measuredF64) "report.json" none,
    .carry "report.json" "inbox.json"]

/-- The empty file that the failed writing leaves is a beginning of the report's text. -/
theorem plain_carriedErrands : ∀ errand ∈ carriedErrands, errand.Plain (nearSerde .current) := by
  have hreadable := readable_nearSerde .current
  have hunbroken : (nearSerde .current).Unbroken (waferReport .current measuredF64) :=
    fun text _ hne => if_neg hne
  simp only [carriedErrands, List.forall_mem_cons, List.not_mem_nil, false_implies, implies_true,
    and_true, Errand.Plain]
  refine ⟨⟨hreadable, hunbroken, ?_⟩, hreadable, hunbroken, by simp⟩
  rintro _ ⟨⟩ text ⟨⟩
  exact ⟨List.nil_prefix, by decide +kernel⟩

/-- The report is received with its measurement as the library reads it. -/
theorem receives_exported_carried :
    (Depot.run (nearSerde .current) (carriedErrands ++ [.ingest .new "inbox.json"])
        ⟨fun _ => .error (.other 2), .new⟩).2.ingestor.received =
      [waferReport .current nearF64] ∧
    ∃ written, waferReport .current nearF64 = (nearSerde .current).reread written ∧
      Exported (carriedErrands ++ [.ingest .new "inbox.json"]) written ∧ written.Finite ∧
      Understood (carriedErrands ++ [.ingest .new "inbox.json"]) written := by
  obtain ⟨-, hreceived, hall⟩ := @receives_exported (nearSerde .current)
    (fun _ => .error (.other 2)) (carriedErrands ++ [.ingest .new "inbox.json"])
    (by simp) (List.forall_mem_append.mpr ⟨plain_carriedErrands, by simp [Errand.Plain]⟩)
  have haccept : Shelf.accept .new (waferReport .current measuredF64) = .ok () :=
    Shelf.accept_eq_ok_iff.mpr ⟨(finite_waferReport_iff _ _).mpr isFinite_measuredF64, by decide⟩
  have hconsent : (waferReport .current measuredF64).consent ≠ .noSharing := by simp [waferReport]
  have hlast : (Shelf.run (carriedErrands ++ [.ingest .new "inbox.json"])
      (.bare fun _ => .error (.other 2))).2.received = [waferReport .current measuredF64] := by
    simp [carriedErrands, Shelf.run, Shelf.step, Shelf.write, Shelf.carry, Shelf.ingest,
      Shelf.put, hconsent, haccept, Shelf.bare]
  rw [hlast, List.map_singleton, reread_waferReport] at hreceived
  exact ⟨hreceived, hall _ (hreceived ▸ List.mem_singleton_self _)⟩

/-- What was exported to a place and was not changed there since is received, with its numbers as
they are read, each time that a side ingests it that understands its version, exactly if its
numbers are finite. Otherwise nothing is received and the side gets an error. -/
theorem ingests_exported_iff {before between : List Errand} {exchange : JsonOutcomeFile}
    {report : OutcomeReport} {path : String}
    (hbare : ∀ path text, files path = .ok text → serde.fromStr text = none)
    (hplain : ∀ errand ∈ before ++ .write exchange report path none :: between,
      errand.Plain serde)
    (hconsent : report.consent ≠ .noSharing)
    (hbetween : ∀ errand ∈ between, errand.target ≠ some path) (exchange' : JsonOutcomeFile)
    {depot : Depot}
    (hdepot : depot = (Depot.run serde (before ++ .write exchange report path none :: between)
      ⟨files, .new⟩).2) :
    ((depot.ingest serde exchange' path).1 = .ok () ↔
        report.Finite ∧ report.schemaVersion.isReadableBy exchange'.supportedSchema = true) ∧
      (depot.ingest serde exchange' path).2.ingestor.received = depot.ingestor.received ++
        if report.Finite ∧ report.schemaVersion.isReadableBy exchange'.supportedSchema = true then
          [serde.reread report]
        else [] := by
  have hrepresents := (refines_run (represents_bare hbare) hplain).2
  rw [← hdepot] at hrepresents
  have hslot := @slots_written (.bare files) path before between exchange report hconsent hbetween
  -- what the files do is read off what the shelf does: there the place holds the report itself
  obtain ⟨hresult, hafter⟩ := refines_ingest hrepresents exchange' path
  have hreceived := hafter.received
  rw [Shelf.ingest, hslot] at hresult hreceived
  dsimp only at hresult hreceived
  rw [hreceived, hrepresents.received]
  have hok : (depot.ingest serde exchange' path).1 = .ok () ↔
      (depot.ingest serde exchange' path).1.mapError AggregateError.refusal = .ok () := by
    cases (depot.ingest serde exchange' path).1 <;> simp [Except.mapError]
  rw [hok, hresult]
  cases haccept : Shelf.accept exchange' report with
  | ok result =>
      have haccepted := Shelf.accept_eq_ok_iff.mp haccept
      simp [haccepted]
  | error refusal =>
      have hrefused : ¬ (report.Finite ∧
          report.schemaVersion.isReadableBy exchange'.supportedSchema = true) := by
        intro haccepted
        rw [Shelf.accept_eq_ok_iff.mpr haccepted] at haccept
        cases haccept
      rw [if_neg hrefused, List.append_nil]
      exact ⟨iff_of_false nofun hrefused, rfl⟩

/-- The second writing, behind the failed one. -/
theorem ingests_exported_iff_carried :
    ∃ depot : Depot, ((depot.ingest (nearSerde .current) .new "report.json").1 = .ok () ↔
        (waferReport .current measuredF64).Finite ∧
          (waferReport .current measuredF64).schemaVersion.isReadableBy
            JsonOutcomeFile.new.supportedSchema = true) ∧
      (depot.ingest (nearSerde .current) .new "report.json").2.ingestor.received =
        depot.ingestor.received ++
          if (waferReport .current measuredF64).Finite ∧
              (waferReport .current measuredF64).schemaVersion.isReadableBy
                JsonOutcomeFile.new.supportedSchema = true then
            [(nearSerde .current).reread (waferReport .current measuredF64)]
          else [] :=
  ⟨_, @ingests_exported_iff (nearSerde .current) (fun _ => .error (.other 2))
    (carriedErrands.take 1) (carriedErrands.drop 2) .new (waferReport .current measuredF64)
    "report.json" (by simp) plain_carriedErrands (by simp [waferReport]) (by decide) .new _ rfl⟩

end Bare

end Aggregate
