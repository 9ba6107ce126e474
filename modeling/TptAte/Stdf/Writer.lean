import TptAte.Stdf.Layout

/-! # STDF writer

The writer over a byte sink whose calls may fail. Files are written
little-endian, and a file that does not begin with a FAR gets one in front.
-/

namespace Stdf

open Wire Body

/-- A byte sink: what reached it, and how its next calls answer. A call beyond
the list succeeds; a call that fails writes nothing. -/
structure Sink where
  bytes : Bytes
  faults : List (Option ErrorKind)

inductive WriteStop where
  | io (kind : ErrorKind)
  | panicked
  deriving DecidableEq, Repr

structure StdfWriter where
  inner : Sink
  wroteFar : Bool

abbrev WriteM := ExceptT WriteStop (StateM StdfWriter)

namespace StdfWriter

def new (inner : Sink) : StdfWriter := { inner, wroteFar := false }

/-- `write_all` of the sink; flushing is a call that writes no bytes. -/
def send (bytes : Bytes) : WriteM Unit := do
  let writer ← get
  match writer.inner.faults with
  | some kind :: faults =>
      set { writer with inner := { writer.inner with faults := faults } }
      throw (.io kind)
  | faults =>
      set { writer with inner := { bytes := writer.inner.bytes ++ bytes, faults := faults.tail } }

def append (record : Record) : WriteM Unit :=
  match record.encode with
  | some bytes => send bytes
  | none => throw .panicked

def farFor : Record → Far
  | .far far => far
  | _ => { cpuType := CpuType.x86, stdfVer := stdfVersionV4 }

/-- Write one record. The first call puts a FAR in front of any other record. -/
def write (record : Record) : WriteM Unit := do
  if (← get).wroteFar then
    append record
    send []
  else
    -- the flag is set before anything is written
    modify fun writer => { writer with wroteFar := true }
    append (.far (farFor record))
    match record with
    | .far _ => send []
    | _ =>
        append record
        send []

def writeAll : List Record → WriteM Unit
  | [] => return ()
  | record :: records => do
      write record
      writeAll records

/-- The file that a fresh writer produces over a sink that never fails. -/
def file (records : List Record) : Option Bytes :=
  match (writeAll records).run.run (new { bytes := [], faults := [] }) with
  | (.ok (), writer) => some writer.inner.bytes
  | (.error _, _) => none

/-! ## What a writer over a reliable sink produces -/

def reliable (bytes : Bytes) (wroteFar : Bool) : StdfWriter :=
  { inner := { bytes, faults := [] }, wroteFar }

theorem run_send (bytes sent : Bytes) (wroteFar : Bool) :
    (send sent).run.run (reliable bytes wroteFar) = (.ok (), reliable (bytes ++ sent) wroteFar) :=
  rfl

/-- A reliable sink takes every record that can be encoded. -/
theorem run_append (record : Record) (bytes : Bytes) (wroteFar : Bool) :
    (append record).run.run (reliable bytes wroteFar) =
      match record.encode with
      | some encoded => (.ok (), reliable (bytes ++ encoded) wroteFar)
      | none => (.error .panicked, reliable bytes wroteFar) := by
  unfold append
  cases record.encode <;> rfl

theorem run_bind {α β : Type} (first : WriteM α) (next : α → WriteM β) (writer : StdfWriter) :
    (first >>= next).run.run writer =
      match first.run.run writer with
      | (.ok value, writer) => (next value).run.run writer
      | (.error stop, writer) => (.error stop, writer) := by
  change StateT.run (ExceptT.run (first >>= next)) writer = _
  rw [ExceptT.run_bind, StateT.run_bind]
  rcases hfirst : first.run.run writer with ⟨_ | _, _⟩ <;> rfl

theorem run_append_flush (record : Record) (bytes : Bytes) (wroteFar : Bool) :
    (do append record; send [] : WriteM Unit).run.run (reliable bytes wroteFar) =
      (append record).run.run (reliable bytes wroteFar) := by
  rw [run_bind, run_append]
  cases record.encode with
  | none => rfl
  | some encoded => simp [run_send]

theorem run_write_wroteFar (record : Record) (bytes : Bytes) :
    (write record).run.run (reliable bytes true) = (append record).run.run (reliable bytes true) :=
  run_append_flush record bytes true

/-- Once a FAR is written, a batch sends the encodings of its records. -/
theorem run_writeAll_wroteFar (records : List Record) (bytes : Bytes) :
    match emit (records.map Record.encode) with
    | some encoded =>
        (writeAll records).run.run (reliable bytes true) =
          (.ok (), reliable (bytes ++ encoded) true)
    | none => ∃ writer, (writeAll records).run.run (reliable bytes true) =
        (.error .panicked, writer) := by
  induction records generalizing bytes with
  | nil => simp [emit, writeAll]; rfl
  | cons record records ih =>
      rw [writeAll, run_bind, run_write_wroteFar, run_append, List.map_cons, emit]
      cases record.encode with
      | none => exact ⟨_, rfl⟩
      | some encoded =>
          have hrest := ih (bytes ++ encoded)
          cases hall : emit (records.map Record.encode) with
          | none =>
              rw [hall] at hrest
              exact hrest
          | some rest =>
              rw [hall] at hrest
              simpa using hrest

/-- The records of a file: a file that does not begin with a FAR gets one. -/
def withFar : List Record → List Record
  | [] => []
  | .far far :: records => .far far :: records
  | record :: records =>
      .far { cpuType := CpuType.x86, stdfVer := stdfVersionV4 } :: record :: records

/-- The first call of a fresh writer writes the same as a call for the FAR and
then a call for the record. -/
theorem run_writeAll_first (record : Record) (records : List Record) (bytes : Bytes) :
    (writeAll (record :: records)).run.run (reliable bytes false) =
      (writeAll (withFar (record :: records))).run.run (reliable bytes true) := by
  have hwrite : (write record).run.run (reliable bytes false) =
      (do
        append (.far (farFor record))
        match record with
        | .far _ => send []
        | _ =>
            append record
            send [] : WriteM Unit).run.run (reliable bytes true) := rfl
  cases record with
  | far far => rfl
  | _ =>
    simp only [farFor] at hwrite
    rw [withFar, writeAll, writeAll, run_bind, run_bind, hwrite, run_bind, run_write_wroteFar,
      run_append]
    · cases (Record.far _).encode with
      | none => rfl
      | some encoded =>
          dsimp only
          rw [run_append_flush, writeAll, run_bind, run_write_wroteFar]
    · simp

/-- A fresh writer produces the encodings of its records behind a FAR, and
nothing at all when one of them cannot be encoded. -/
theorem file_eq (records : List Record) :
    file records = emit ((withFar records).map Record.encode) := by
  cases records with
  | nil => rfl
  | cons record records =>
      change (match (writeAll (record :: records)).run.run (reliable [] false) with
        | (.ok (), writer) => some writer.inner.bytes
        | (.error _, _) => none) = _
      rw [run_writeAll_first]
      have hrun := run_writeAll_wroteFar (withFar (record :: records)) []
      cases hall : emit ((withFar (record :: records)).map Record.encode) with
      | none =>
          rw [hall] at hrun
          obtain ⟨writer, hstop⟩ := hrun
          rw [hstop]
      | some encoded =>
          rw [hall] at hrun
          rw [hrun]
          rfl

end StdfWriter

end Stdf
