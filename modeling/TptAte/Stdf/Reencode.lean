import TptAte.Stdf.Layout

/-! # Re-encoding parsed records

A record that was parsed from some body is encoded again and parsed once more,
now in little-endian order. Whether that gives the record back is decided by the
body: the layouts say which bodies fit.
-/

namespace Stdf

open Wire Body

/-- Encoding the record does not fail, and what is encoded parses as the record. -/
def Reencodes (typ sub : UInt8) (record : Record) : Prop :=
  ∃ encoded, record.encodeBody = some encoded ∧ Record.parse typ sub encoded .little = .ok record

/-- A parsed record survives being encoded and parsed again exactly if its body
fits: the repaired texts fit their counts, and no field that the flags announce
is cut off in front of a field that is always written. -/
theorem reencodes_iff_fits {typ sub : UInt8} {endian : Endian} {body : Bytes} {record : Record}
    (hparse : Record.parse typ sub body endian = .ok record) :
    Reencodes typ sub record ↔ (recordBody typ sub).Fits endian body := by
  obtain ⟨rest, hread⟩ := Record.parse_eq_ok.mp hparse
  rw [fields_eq] at hread
  obtain ⟨htype, hnamed⟩ := type_of_read hread
  have hencode := encodeBody_eq hnamed
  rw [htype] at hencode
  rw [← (recordBody typ sub).valid_iff_fits hread, Reencodes, hencode]
  constructor
  · intro h
    obtain ⟨encoded, hwrite, hreparse⟩ := h
    obtain ⟨rest', hreread⟩ := Record.parse_eq_ok.mp hreparse
    rw [fields_eq] at hreread
    exact (recordBody typ sub).valid_of_reread hread hwrite hreread
  · intro hvalid
    obtain ⟨encoded, hwrite, hreread⟩ := (recordBody typ sub).read_write .little hvalid
    refine ⟨encoded, hwrite, Record.parse_eq_ok.mpr ⟨[], ?_⟩⟩
    rw [fields_eq]
    exact hreread

/-- A PTR body that ends behind an OPT_FLAG announcing all five optional fields. -/
def cutPtrBody : Bytes := [0, 0, 0, 0, 1, 3, 0, 0x10, 0, 0, 0, 0, 0, 0, 0]

def cutPtr : Ptr :=
  { testNum := 0, headNum := 1, siteNum := 3, testFlg := 0, parmFlg := 0x10, result := ⟨0⟩,
    testTxt := "", alarmId := "", optFlg := some 0, resScal := none, llmScal := none,
    hlmScal := none, loLimit := none, hiLimit := none, units := "" }

theorem reencodes_iff_fits_cutPtr :
    Reencodes 15 10 (.ptr cutPtr) ↔ (recordBody 15 10).Fits .big cutPtrBody :=
  reencodes_iff_fits (show Record.parse 15 10 cutPtrBody .big = .ok (.ptr cutPtr) by
    decide +kernel)

/-- Not every parsed record survives: the cut PTR is written with an empty units
text, which is read back as its first scale. -/
theorem not_reencodes_cutPtr :
    ¬ ∀ (typ sub : UInt8) (endian : Endian) (body : Bytes) (record : Record),
      body.length ≤ 65535 → Record.parse typ sub body endian = .ok record →
        Reencodes typ sub record := by
  intro hall
  obtain ⟨encoded, hencode, hreparse⟩ :=
    hall 15 10 .little cutPtrBody (.ptr cutPtr) (by decide) (by decide +kernel)
  have hencoded : (Record.ptr cutPtr).encodeBody = some (cutPtrBody ++ [0]) := by decide +kernel
  rw [hencoded] at hencode
  cases hencode
  exact absurd hreparse (by decide +kernel)

end Stdf
