import TptAte.Stdf.Frames
import TptAte.Stdf.Writer

/-! # The first record of an STDF stream

A writer over a stream whose calls may fail, used record by record by a caller
that goes on after an error. Whether the stream begins with a FAR depends on the
first record that reaches it.
-/

namespace Stdf

open Wire

/-! ## Encodings that begin with a FAR -/

/-- If there are bytes at all, they begin with a complete FAR. -/
def StartsWithFar (bytes : Bytes) : Prop :=
  bytes ≠ [] → ∃ far encoded, (Record.far far).encode = some encoded ∧ encoded <+: bytes

/-- The encoding of a record begins with a complete FAR: it is a FAR, or it
borrows the type of one and counts two bytes of data. -/
def Record.FarShaped : Record → Prop
  | .far _ => True
  | .unknown typ sub data => typ = 0 ∧ sub = 10 ∧ data.length % 65536 = 2
  | _ => False

theorem encode_far (far : Far) :
    (Record.far far).encode = some (recordHeader 0 10 2 ++ [far.cpuType, far.stdfVer]) :=
  encode_eq_some.mpr ⟨_, encodeBody_far far, rfl⟩

/-- An encoding is a FAR's up to its header only if its header is a FAR's. -/
theorem farShaped_of_header {record : Record} {encoded rest bytes : Bytes}
    (hencode : record.encode = some encoded) (hencoded : encoded <+: bytes)
    (hfar : recordHeader 0 10 2 ++ rest <+: bytes) : record.FarShaped := by
  obtain ⟨body, hbody, rfl⟩ := encode_eq_some.mp hencode
  have hheader : recordHeader record.typeSubtype.1 record.typeSubtype.2 body.length =
      recordHeader 0 10 2 := by
    have hlength := (length_recordHeader record.typeSubtype.1 record.typeSubtype.2
      body.length).trans (length_recordHeader 0 10 2).symm
    have htook := (List.prefix_append _ _).trans hencoded
    have htook' := (List.prefix_append _ _).trans hfar
    exact (List.prefix_of_prefix_length_le htook htook' hlength.le).eq_of_length hlength
  obtain ⟨htyp, hsub, hlength⟩ := recordHeader_eq_iff.mp hheader
  cases record with
  | far far => trivial
  | unknown typ sub data =>
      cases hbody
      exact ⟨htyp, hsub, hlength⟩
  | _ => simp [Record.typeSubtype] at htyp hsub

/-- Whether a file starts with a FAR is decided by its first record. -/
theorem startsWithFar_of_first {record : Record} {encoded bytes : Bytes}
    (hencode : record.encode = some encoded) (hencoded : encoded <+: bytes) :
    StartsWithFar bytes ↔ record.FarShaped := by
  constructor
  · intro hstart
    have hne : bytes ≠ [] := by
      rintro rfl
      obtain ⟨body, -, rfl⟩ := encode_eq_some.mp hencode
      have hheader := (List.append_eq_nil_iff.mp (List.prefix_nil.mp hencoded)).1
      have hlength := length_recordHeader record.typeSubtype.1 record.typeSubtype.2 body.length
      rw [hheader] at hlength
      exact absurd hlength (by decide)
    obtain ⟨far, encodedFar, hfar, hprefix⟩ := hstart hne
    rw [encode_far, Option.some.injEq] at hfar
    subst hfar
    exact farShaped_of_header hencode hencoded hprefix
  · intro hshaped _
    cases record with
    | far far => exact ⟨far, encoded, hencode, hencoded⟩
    -- the bytes of an unknown record may be those of a FAR
    | unknown typ sub data =>
        obtain ⟨rfl, rfl, hlength⟩ := hshaped
        obtain ⟨cpuType, stdfVer, data, rfl⟩ : ∃ cpuType stdfVer data', data =
            cpuType :: stdfVer :: data' := by
          match data with
          | cpuType :: stdfVer :: data => exact ⟨cpuType, stdfVer, data, rfl⟩
          | [] | [_] => simp at hlength
        obtain ⟨body, hbody, rfl⟩ := encode_eq_some.mp hencode
        cases hbody
        refine ⟨⟨cpuType, stdfVer⟩, _, encode_far _, ?_⟩
        have hheader : recordHeader 0 10 2 = recordHeader 0 10 (data.length + 2) :=
          recordHeader_eq_iff.mpr ⟨rfl, rfl, by simpa using hlength.symm⟩
        rw [hheader]
        refine List.IsPrefix.trans ⟨data, ?_⟩ hencoded
        simp [Record.typeSubtype]
    | _ => exact hshaped.elim

namespace StdfWriter

/-- Write records one by one. A call that reports an I/O error is followed by
the next call; a record that cannot be encoded ends the sequence. -/
def writeEach : List Record → StdfWriter → StdfWriter
  | [], writer => writer
  | record :: records, writer =>
      match (write record).run.run writer with
      | (.error .panicked, writer) => writer
      | (_, writer) => writeEach records writer

/-- What the first call sends behind the FAR. -/
def behindFar : Record → WriteM Unit
  | .far _ => send []
  | record => do
      append record
      send []

theorem run_write_flagged (record : Record) (inner : Sink) :
    (write record).run.run ⟨inner, true⟩ =
      (append record >>= fun _ => send []).run.run ⟨inner, true⟩ :=
  rfl

/-- The first call sets the flag, whether or not its FAR reaches the stream. -/
theorem run_write_first (record : Record) (inner : Sink) :
    (write record).run.run ⟨inner, false⟩ =
      (append (.far (farFor record)) >>= fun _ => behindFar record).run.run ⟨inner, true⟩ := by
  cases record <;> rfl

/-! ## A writer only adds to its stream -/

/-- A program leaves what is on the stream in front. -/
def Appends {α : Type} (program : WriteM α) : Prop :=
  ∀ writer, writer.inner.bytes <+: (program.run.run writer).2.inner.bytes

section Appends

variable {α β : Type}

/-- Writes in sequence only append. -/
theorem Appends.bind {first : WriteM α} {next : α → WriteM β} (hfirst : Appends first)
    (hnext : ∀ value, Appends (next value)) : Appends (first >>= next) := by
  intro writer
  have hbytes := hfirst writer
  rw [run_bind]
  rcases hrun : first.run.run writer with ⟨stop | value, middle⟩ <;> rw [hrun] at hbytes
  · exact hbytes
  · exact hbytes.trans (hnext value middle)

theorem appends_send (sent : Bytes) : Appends (send sent) := by
  rintro ⟨⟨bytes, faults⟩, wroteFar⟩
  rcases faults with _ | ⟨_ | kind, faults⟩
  · exact List.prefix_append bytes sent
  · exact List.prefix_append bytes sent
  · exact List.prefix_refl bytes

theorem appends_append (record : Record) : Appends (append record) := by
  unfold append
  cases record.encode with
  | none => exact fun writer => List.prefix_refl _
  | some encoded => exact appends_send encoded

theorem appends_behindFar (record : Record) : Appends (behindFar record) := by
  cases record with
  | far far => exact appends_send []
  | _ => exact (appends_append _).bind fun _ => appends_send []

theorem appends_write (record : Record) : Appends (write record) := by
  rintro ⟨inner, wroteFar⟩
  cases wroteFar with
  | true =>
      rw [run_write_flagged]
      exact (appends_append record).bind (fun _ => appends_send []) ⟨inner, true⟩
  | false =>
      rw [run_write_first]
      exact (appends_append _).bind (fun _ => appends_behindFar record) ⟨inner, true⟩

/-- Whatever is written and fails, the bytes already written stay. -/
theorem prefix_writeEach (records : List Record) (writer : StdfWriter) :
    writer.inner.bytes <+: (writeEach records writer).inner.bytes := by
  induction records generalizing writer with
  | nil => exact List.prefix_refl _
  | cons record records ih =>
      have hwrite := appends_write record writer
      rw [writeEach]
      split
      next hrun =>
        rw [hrun] at hwrite
        exact hwrite
      next hrun =>
        rw [hrun] at hwrite
        exact hwrite.trans (ih _)

/-- What the first call leaves stays in front of what the later ones add. -/
theorem prefix_writeEach_cons (record : Record) (records : List Record) (writer : StdfWriter) :
    ((write record).run.run writer).2.inner.bytes <+:
      (writeEach (record :: records) writer).inner.bytes := by
  rw [writeEach]
  split
  next hrun => simp only [hrun, List.prefix_refl]
  next hrun =>
    rw [hrun]
    exact prefix_writeEach records _

end Appends

/-! ## The first record that reaches the stream -/

/-- The first record of a sequence that reaches the stream: each failing call
loses one. -/
def firstSent : List (Option ErrorKind) → List Record → Option Record
  | _, [] => none
  | faults, record :: records =>
      match record.encode, faults with
      | none, _ => none
      | some _, some _ :: faults => firstSent faults records
      | some _, _ => some record

/-- The FAR of the first call reaches the stream, or what reaches it first later
looks like one. -/
def StartSound : List (Option ErrorKind) → List Record → Prop
  | some _ :: faults, _ :: later => ∀ record ∈ firstSent faults later, record.FarShaped
  | _, _ => True

/-- The next call of the stream does not fail. -/
def Passes (faults : List (Option ErrorKind)) : Prop := ∀ kind, faults.head? ≠ some (some kind)

/-- A write that fails leaves the file as it was. -/
theorem run_append_failed {record : Record} {encoded : Bytes}
    (hencode : record.encode = some encoded) (bytes : Bytes) (kind : ErrorKind)
    (faults : List (Option ErrorKind)) (wroteFar : Bool) :
    (append record).run.run ⟨⟨bytes, some kind :: faults⟩, wroteFar⟩ =
      (.error (.io kind), ⟨⟨bytes, faults⟩, wroteFar⟩) := by
  rw [append, hencode]
  rfl

theorem run_append_passed {record : Record} {encoded : Bytes}
    (hencode : record.encode = some encoded) (bytes : Bytes) {faults : List (Option ErrorKind)}
    (hpasses : Passes faults) (wroteFar : Bool) :
    (append record).run.run ⟨⟨bytes, faults⟩, wroteFar⟩ =
      (.ok (), ⟨⟨bytes ++ encoded, faults.tail⟩, wroteFar⟩) := by
  rw [append, hencode]
  rcases faults with _ | ⟨_ | kind, faults⟩
  · rfl
  · rfl
  · exact absurd rfl (hpasses kind)

/-- A record sent to an empty stream stays its first. -/
theorem prefix_append_passed {record : Record} {encoded : Bytes}
    (hencode : record.encode = some encoded) {faults : List (Option ErrorKind)}
    (hpasses : Passes faults) {next : Unit → WriteM Unit} (hnext : Appends (next ())) :
    encoded <+: ((append record >>= next).run.run ⟨⟨[], faults⟩, true⟩).2.inner.bytes := by
  rw [run_bind, run_append_passed hencode [] hpasses]
  exact hnext ⟨⟨encoded, faults.tail⟩, true⟩

/-- With the flag set and the stream empty, the first record that reaches the
stream decides how it begins. -/
theorem startsWithFar_writeEach_flagged (records : List Record)
    (faults : List (Option ErrorKind)) :
    StartsWithFar (writeEach records ⟨⟨[], faults⟩, true⟩).inner.bytes ↔
      ∀ record ∈ firstSent faults records, record.FarShaped := by
  induction records generalizing faults with
  | nil => simp [writeEach, firstSent, StartsWithFar]
  | cons record records ih =>
      cases hencode : record.encode with
      | none =>
          have hrun : (write record).run.run ⟨⟨[], faults⟩, true⟩ =
              (.error .panicked, ⟨⟨[], faults⟩, true⟩) := by
            rw [run_write_flagged, run_bind, append, hencode]
            rfl
          rw [writeEach, hrun]
          simp [firstSent, hencode, StartsWithFar]
      | some encoded =>
          -- a failing call leaves the stream empty; any other decides how it begins
          have hpassed (hpasses : Passes faults) :=
            startsWithFar_of_first hencode
              ((prefix_append_passed hencode hpasses (appends_send [])).trans
                (prefix_writeEach_cons record records ⟨⟨[], faults⟩, true⟩))
          rcases faults with _ | ⟨_ | kind, faults⟩
          · simpa [firstSent, hencode] using hpassed (by simp [Passes])
          · simpa [firstSent, hencode] using hpassed (by simp [Passes])
          · have hrun : (write record).run.run ⟨⟨[], some kind :: faults⟩, true⟩ =
                (.error (.io kind), ⟨⟨[], faults⟩, true⟩) := by
              rw [run_write_flagged, run_bind, run_append_failed hencode]
            rw [writeEach, hrun]
            simpa [firstSent, hencode] using ih faults

/-- Records are written one by one to a stream whose calls may fail. What reaches
it begins with a FAR exactly if the FAR's own call does not fail, or no later
record reaches the stream, or the first that does is shaped like a FAR. -/
theorem startsWithFar_iff (records : List Record) (faults : List (Option ErrorKind)) :
    StartsWithFar (writeEach records (new ⟨[], faults⟩)).inner.bytes ↔
      StartSound faults records := by
  cases records with
  | nil => simp [writeEach, StartSound, StartsWithFar, new]
  | cons record later =>
      have hfar := encode_far (farFor record)
      have hpassed (hpasses : Passes faults) :
          StartsWithFar (writeEach (record :: later) (new ⟨[], faults⟩)).inner.bytes := by
        have hsent := @prefix_append_passed _ _ hfar _ hpasses (fun _ => behindFar record)
          (appends_behindFar record)
        rw [← run_write_first record ⟨[], faults⟩] at hsent
        have hfirst := hsent.trans (prefix_writeEach_cons record later (new ⟨[], faults⟩))
        exact (startsWithFar_of_first hfar hfirst).mpr trivial
      rcases faults with _ | ⟨_ | kind, faults⟩
      · simpa [StartSound] using hpassed (by simp [Passes])
      · simpa [StartSound] using hpassed (by simp [Passes])
      · have hrun : (write record).run.run (new ⟨[], some kind :: faults⟩) =
            (.error (.io kind), ⟨⟨[], faults⟩, true⟩) := by
          rw [new, run_write_first, run_bind, run_append_failed hfar]
        rw [writeEach, hrun]
        exact startsWithFar_writeEach_flagged later faults

/-- The stream refuses the FAR of the first result, and the second result becomes
the first record of the file. -/
theorem not_startsWithFar_lostFar : ¬ StartsWithFar
    (writeEach [.ptr (.verdict 1 1 1 true), .ptr (.verdict 2 1 1 true)]
      (new ⟨[], [some (.other 28)]⟩)).inner.bytes := by
  intro hstart
  obtain ⟨far, encoded, hfar, rest, hbytes⟩ := hstart (by decide +kernel)
  have htyp : (writeEach [.ptr (.verdict 1 1 1 true), .ptr (.verdict 2 1 1 true)]
      (new ⟨[], [some (.other 28)]⟩)).inner.bytes[2]? = some 15 := by decide +kernel
  have hheader : recordHeader 0 10 2 = [2, 0, 0, 10] := by decide
  rw [encode_far, Option.some.injEq] at hfar
  rw [← hbytes, ← hfar, hheader] at htyp
  exact absurd htyp (by simp)

end StdfWriter

end Stdf
