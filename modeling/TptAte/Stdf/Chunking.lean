import TptAte.Stdf.Frames

/-! # Sources that deliver in chunks

The reader takes a record header in one call and treats an interruption of that
call as the end of the file, so its result can depend on how the source divides
the bytes. The condition under which it does not is a condition on where chunks
end and interruptions come, relative to the frames.
-/

namespace Stdf

open Wire StdfReader

/-- A byte string whose frames are followed by one to three stray bytes. -/
inductive EndsInStrays : Endian → Bool → Bytes → Prop where
  | strays {endian : Endian} {sawFar : Bool} {data : Bytes} (hne : data ≠ [])
      (hlength : data.length < 4) : EndsInStrays endian sawFar data
  | frame {endian endian' : Endian} {sawFar : Bool} {data rest : Bytes} {record : Record}
      (hnext : nextFrame endian sawFar data = .ok (some (record, endian', rest)))
      (hrest : EndsInStrays endian' true rest) : EndsInStrays endian sawFar data

/-- A source that does not disturb the reader. While bytes are left, no
interruption comes before a header and the header is in one chunk, unless the
reader will end at stray bytes anyway; and no interruption comes before the body
is complete. The division of bodies is free. -/
inductive Undisturbed : Endian → Bool → Source → Prop where
  | ended {endian : Endian} {sawFar : Bool} {source : Source} (hbytes : source.bytes = []) :
      Undisturbed endian sawFar source
  | strays {endian : Endian} {sawFar : Bool} {head : UInt8} {tail : Bytes} {source : Source}
      (hshort : tail.length < 3)
      (hstrays : EndsInStrays endian sawFar (head :: tail ++ Source.bytes source)) :
      Undisturbed endian sawFar (.chunk head tail :: source)
  | stopped {endian : Endian} {sawFar : Bool} {length0 length1 typ sub : UInt8} {tail : Bytes}
      {source : Source} {error : StdfError}
      (hcalm : ¬ Refused sawFar typ sub →
        (Source.whole tail ++ source).Calm (Endian.little.value [length0, length1]))
      (hnext : nextFrame endian sawFar
        (length0 :: length1 :: typ :: sub :: tail ++ Source.bytes source) = .error error) :
      Undisturbed endian sawFar (.chunk length0 (length1 :: typ :: sub :: tail) :: source)
  | frame {endian endian' : Endian} {sawFar : Bool} {length0 length1 typ sub : UInt8}
      {tail rest : Bytes} {source : Source} {record : Record}
      (hcalm : (Source.whole tail ++ source).Calm (Endian.little.value [length0, length1]))
      (hnext : nextFrame endian sawFar
        (length0 :: length1 :: typ :: sub :: tail ++ Source.bytes source) =
          .ok (some (record, endian', rest)))
      (hrest : Undisturbed endian' true
        ((Source.whole tail ++ source).skip (Endian.little.value [length0, length1]))) :
      Undisturbed endian sawFar (.chunk length0 (length1 :: typ :: sub :: tail) :: source)

/-! ## Errors of a byte string -/

theorem exists_header_rest {tail : Bytes} (hlong : 3 ≤ tail.length) :
    ∃ length1 typ sub rest, tail = length1 :: typ :: sub :: rest := by
  rcases tail with _ | ⟨length1, _ | ⟨typ, _ | ⟨sub, rest⟩⟩⟩
  · simp at hlong
  · simp at hlong
  · simp at hlong
  · exact ⟨length1, typ, sub, rest, rfl⟩

/-- Decoding stops at a refused first record, in a body, or at stray bytes. -/
theorem nextFrame_error {endian : Endian} {sawFar : Bool} {data : Bytes} {error : StdfError}
    (hnext : nextFrame endian sawFar data = .error error) :
    (∃ typ sub detail, error = .malformedRecord typ sub detail) ∨ IsEof error ∨
      error = .shortRecordHeader 0 ∧ data ≠ [] ∧ data.length < 4 := by
  unfold nextFrame at hnext
  split at hnext
  · simp at hnext
  · dsimp only at hnext
    split at hnext
    · cases hnext
      exact Or.inl ⟨_, _, _, rfl⟩
    split at hnext
    · cases hnext
      exact Or.inr (Or.inl (isEof_unexpectedEof _ _))
    refine Or.inr (Or.inl ?_)
    cases hparse : Record.parse _ _ _ _ with
    | ok record =>
        rw [hparse] at hnext
        simp at hnext
    | error error' =>
        rw [hparse] at hnext
        cases hnext
        exact isEof_of_parse hparse
  next hnil hheader =>
    cases hnext
    refine Or.inr (Or.inr ⟨rfl, hnil, ?_⟩)
    by_contra hlength
    rcases data with _ | ⟨length0, tail⟩
    · exact hnil rfl
    · simp only [List.length_cons] at hlength
      obtain ⟨length1, typ, sub, rest, rfl⟩ := exists_header_rest (by omega : 3 ≤ tail.length)
      exact hheader length0 length1 typ sub rest rfl

/-- Fewer than four bytes are no header. -/
theorem nextFrame_strays (endian : Endian) (sawFar : Bool) {data : Bytes} (hne : data ≠ [])
    (hlength : data.length < 4) :
    nextFrame endian sawFar data = .error (.shortRecordHeader 0) := by
  match data, hne, hlength with
  | [], hne, _ => exact absurd rfl hne
  | [_], _, _ | [_, _], _, _ | [_, _, _], _, _ => rfl
  | _ :: _ :: _ :: _ :: _, _, hlength =>
      simp only [List.length_cons] at hlength
      omega

/-- The errors of a file that is read in one piece are of three kinds. -/
theorem decodeAll_error {endian : Endian} {sawFar : Bool} {data : Bytes} {error : StdfError}
    (hdecode : decodeAll endian sawFar data = .error error) :
    (∃ typ sub detail, error = .malformedRecord typ sub detail) ∨ IsEof error ∨
      error = .shortRecordHeader 0 ∧ EndsInStrays endian sawFar data := by
  induction hlength : data.length using Nat.strong_induction_on generalizing endian sawFar data with
  | _ length ih =>
      rw [decodeAll_eq] at hdecode
      split at hdecode
      · simp at hdecode
      next error' hnext =>
        cases hdecode
        exact (nextFrame_error hnext).imp_right (Or.imp_right fun h => ⟨h.1, .strays h.2.1 h.2.2⟩)
      next record endian' rest hnext =>
        cases hrest : decodeAll endian' true rest with
        | ok records =>
            rw [hrest] at hdecode
            simp at hdecode
        | error error' =>
            rw [hrest] at hdecode
            cases hdecode
            exact (ih rest.length (hlength ▸ length_nextFrame hnext) hrest rfl).imp_right
              (Or.imp_right (And.imp_right (.frame hnext)))

/-- Reading in one piece never meets an error of the source. -/
theorem decodeAll_ne_io (endian : Endian) (sawFar : Bool) (data : Bytes) (kind : ErrorKind) :
    decodeAll endian sawFar data ≠ .error (.io kind) := by
  intro hdecode
  obtain ⟨_, _, _, hkind⟩ | ⟨_, _, hkind⟩ | ⟨hkind, _⟩ := decodeAll_error hdecode <;> cases hkind

/-- Only stray bytes at the end make decoding report a short header. -/
theorem endsInStrays_iff {endian : Endian} {sawFar : Bool} {data : Bytes} :
    EndsInStrays endian sawFar data ↔
      decodeAll endian sawFar data = .error (.shortRecordHeader 0) := by
  constructor
  · intro hstrays
    induction hstrays with
    | strays hne hlength =>
        rw [decodeAll_eq, nextFrame_strays _ _ hne hlength]
    | frame hnext _ ih =>
        rw [decodeAll_cons hnext, ih]
        rfl
  · intro hdecode
    obtain ⟨_, _, _, herror⟩ | ⟨_, _, herror⟩ | ⟨_, hstrays⟩ := decodeAll_error hdecode
    · cases herror
    · cases herror
    · exact hstrays

/-! ## The reader over a chunked source -/

/-- Interruptions are the only faults of a source. -/
def OnlyInterrupted (source : Source) : Prop :=
  ∀ kind, .fault kind ∈ source → kind = .interrupted

/-- A header that comes in one chunk is followed by its record. -/
theorem nextRecord_chunk (endian : Endian) (sawFar : Bool) (length0 length1 typ sub : UInt8)
    (tail : Bytes) (source : Source) :
    nextRecord { inner := .chunk length0 (length1 :: typ :: sub :: tail) :: source, endian,
                 sawFar } =
      readRecord { inner := Source.whole tail ++ source, endian, sawFar } length0 length1 typ sub :=
  rfl

/-- A header that a chunk boundary divides is reported as short. -/
theorem nextRecord_short (endian : Endian) (sawFar : Bool) {head : UInt8} {tail : Bytes}
    (hshort : tail.length < 3) (source : Source) :
    (nextRecord { inner := .chunk head tail :: source, endian, sawFar }).1 =
      .error (.shortRecordHeader 0) := by
  match tail, hshort with
  | [], _ | [_], _ | [_, _], _ => rfl

/-- Behind a refused header nothing more is read. -/
theorem undisturbed_refused {endian : Endian} {sawFar : Bool} {length0 length1 typ sub : UInt8}
    {tail : Bytes} {source : Source} (hrefused : Refused sawFar typ sub) :
    Undisturbed endian sawFar (.chunk length0 (length1 :: typ :: sub :: tail) :: source) :=
  .stopped (fun hfar => absurd hrefused hfar) (nextFrame_refused hrefused)

/-- An interruption within a body disturbs the reader. -/
theorem not_undisturbed_of_not_calm {endian : Endian} {sawFar : Bool}
    {length0 length1 typ sub : UInt8} {tail : Bytes} {source : Source}
    (hfar : ¬ Refused sawFar typ sub)
    (hcalm : ¬ (Source.whole tail ++ source).Calm (Endian.little.value [length0, length1])) :
    ¬ Undisturbed endian sawFar (.chunk length0 (length1 :: typ :: sub :: tail) :: source) := by
  intro hundisturbed
  cases hundisturbed with
  | ended hbytes => simp [Source.bytes] at hbytes
  | strays hshort => exact absurd hshort (by simp only [List.length_cons]; omega)
  | stopped hstopped => exact hcalm (hstopped hfar)
  | frame hframe => exact hcalm hframe

/-- A source that divides a header is undisturbed only before stray bytes. -/
theorem undisturbed_short_iff {endian : Endian} {sawFar : Bool} {head : UInt8} {tail : Bytes}
    {source : Source} (hshort : tail.length < 3) :
    Undisturbed endian sawFar (.chunk head tail :: source) ↔
      EndsInStrays endian sawFar (Source.bytes (.chunk head tail :: source)) := by
  constructor
  · intro hundisturbed
    cases hundisturbed with
    | ended hbytes => simp [Source.bytes] at hbytes
    | strays _ hstrays => exact hstrays
    | stopped | frame => exact absurd hshort (by simp only [List.length_cons]; omega)
  · exact .strays hshort

/-- A frame that is delivered calmly is undisturbed if what follows is. -/
theorem undisturbed_frame_iff {endian endian' : Endian} {sawFar : Bool}
    {length0 length1 typ sub : UInt8} {tail rest : Bytes} {source : Source} {record : Record}
    (hcalm : (Source.whole tail ++ source).Calm (Endian.little.value [length0, length1]))
    (hnext : nextFrame endian sawFar
      (length0 :: length1 :: typ :: sub :: tail ++ Source.bytes source) =
        .ok (some (record, endian', rest))) :
    Undisturbed endian sawFar (.chunk length0 (length1 :: typ :: sub :: tail) :: source) ↔
      Undisturbed endian' true
        ((Source.whole tail ++ source).skip (Endian.little.value [length0, length1])) := by
  constructor
  · intro hundisturbed
    cases hundisturbed with
    | ended hbytes => simp [Source.bytes] at hbytes
    | strays hshort => exact absurd hshort (by simp only [List.length_cons]; omega)
    | stopped _ hstopped =>
        rw [hnext] at hstopped
        cases hstopped
    | frame _ hframe hrest =>
        rw [hnext] at hframe
        cases hframe
        exact hrest
  · exact .frame hcalm hnext

/-- An interruption within a body is an error. -/
theorem readRecord_of_not_calm {reader : StdfReader} {length0 length1 typ sub : UInt8}
    (hfar : ¬ Refused reader.sawFar typ sub)
    (hcalm : ¬ reader.inner.Calm (Endian.little.value [length0, length1])) :
    ∃ kind, (reader.readRecord length0 length1 typ sub).1 = .error (.io kind) := by
  obtain ⟨kind, source', -, hread⟩ : ∃ kind source', _ ∧
      readBody (Endian.little.value [length0, length1]) [] reader.inner =
        (.error (.io kind), source') := Source.readExact_of_not_calm hcalm
  have hrecord : reader.readRecord length0 length1 typ sub = _ := if_neg hfar
  rw [hrecord, hread]
  exact ⟨kind, rfl⟩

theorem map_cons_eq_iff {first second : Except StdfError (List Record)} (record : Record) :
    (record :: ·) <$> first = (record :: ·) <$> second ↔ first = second := by
  cases first <;> cases second <;> simp [Functor.map, Except.map]

theorem readAll_of_error {reader : StdfReader} {error : StdfError}
    (hnext : reader.nextRecord.1 = .error error) : reader.readAll.1 = .error error := by
  rw [readAll_fst]
  split <;> simp_all

theorem onlyInterrupted_skip {tail : Bytes} {source : Source} (hfaults : OnlyInterrupted source)
    (count : Nat) : OnlyInterrupted ((Source.whole tail ++ source).skip count) := by
  intro kind hmem
  rcases List.mem_append.mp (Source.mem_skip hmem) with hwhole | hsource
  · cases tail <;> simp [Source.whole] at hwhole
  · exact hfaults kind hsource

/-- One step of the reader at a header that is in one chunk. -/
theorem readAll_chunk_iff {endian : Endian} {sawFar : Bool} {length0 length1 typ sub : UInt8}
    {tail : Bytes} {source : Source}
    {behind : Source}
    (hbehind : behind = (Source.whole tail ++ source).skip (Endian.little.value [length0, length1]))
    (ih : ∀ endian', (readAll { inner := behind, endian := endian', sawFar := true }).1 =
      decodeAll endian' true behind.bytes ↔ Undisturbed endian' true behind) :
    (readAll { inner := .chunk length0 (length1 :: typ :: sub :: tail) :: source, endian,
               sawFar }).1 =
        decodeAll endian sawFar
          (length0 :: length1 :: typ :: sub :: (Source.whole tail ++ source).bytes) ↔
      Undisturbed endian sawFar (.chunk length0 (length1 :: typ :: sub :: tail) :: source) := by
  subst hbehind
  have hnext := nextRecord_chunk endian sawFar length0 length1 typ sub tail source
  by_cases hrefused : Refused sawFar typ sub
  -- the header is refused before anything behind it is read
  · refine iff_of_true ?_ (undisturbed_refused hrefused)
    rw [readAll_fst, hnext, readRecord_refused hrefused, decodeAll_eq, nextFrame_refused hrefused]
  by_cases hcalm : (Source.whole tail ++ source).Calm (Endian.little.value [length0, length1])
  · have hrecord := @readRecord_of_calm { inner := Source.whole tail ++ source, endian, sawFar }
      length0 length1 typ sub hrefused hcalm
    have hinner : (Source.whole tail ++ source).bytes = tail ++ Source.bytes source := by
      rw [Source.bytes_append, Source.bytes_whole]
    rcases hframe : nextFrame endian sawFar
        (length0 :: length1 :: typ :: sub :: (Source.whole tail ++ source).bytes) with
      error | _ | ⟨record, endian', rest⟩
    · dsimp only at hrecord
      rw [hframe] at hrecord
      refine iff_of_true ?_ (.stopped (fun _ => hcalm) (hinner ▸ hframe))
      rw [readAll_of_error (hnext ▸ hrecord), decodeAll_eq, hframe]
    · dsimp only at hrecord
      rw [hframe] at hrecord
      exact hrecord.elim
    · dsimp only at hrecord
      rw [hframe] at hrecord
      obtain ⟨hread, hrest⟩ := hrecord
      rw [undisturbed_frame_iff hcalm (hinner ▸ hframe), readAll_fst, hnext, hread,
        decodeAll_cons hframe, ← hrest, ← ih endian']
      exact map_cons_eq_iff record
  -- an interruption or an error inside the body comes out as an error of the source
  · refine iff_of_false ?_ (not_undisturbed_of_not_calm hrefused hcalm)
    obtain ⟨kind, hio⟩ := @readRecord_of_not_calm
      { inner := Source.whole tail ++ source, endian, sawFar } length0 length1 typ sub hrefused
      hcalm
    rw [readAll_of_error (hnext ▸ hio)]
    exact (decodeAll_ne_io endian sawFar _ kind).symm

/-- A source gives the same result as one that delivers everything in one call
exactly if it does not disturb the reader. -/
theorem readAll_eq_decodeAll_iff {endian : Endian} {sawFar : Bool} {source : Source}
    (hfaults : OnlyInterrupted source) :
    (readAll { inner := source, endian, sawFar }).1 = decodeAll endian sawFar source.bytes ↔
      Undisturbed endian sawFar source := by
  -- by induction on the size of the source: each frame that is read leaves less of it
  induction hsize : source.size using Nat.strong_induction_on
    generalizing endian sawFar source with
  | _ size ih =>
      rcases source with _ | ⟨⟨head, tail⟩ | kind, source⟩
      · refine iff_of_true ?_ (.ended rfl)
        rw [readAll_fst, decodeAll_eq]
        rfl
      · -- with fewer than four bytes the chunk divides a header
        by_cases hshort : tail.length < 3
        · rw [undisturbed_short_iff hshort, endsInStrays_iff,
            readAll_of_error (nextRecord_short endian sawFar hshort source)]
          exact eq_comm
        -- the chunk holds the header, and `ih` is about the source behind its body
        obtain ⟨length1, typ, sub, tail, rfl⟩ := exists_header_rest (by omega : 3 ≤ tail.length)
        have hbytes : Source.bytes (.chunk head (length1 :: typ :: sub :: tail) :: source) =
            head :: length1 :: typ :: sub :: (Source.whole tail ++ source).bytes := by
          simp [Source.bytes, Source.bytes_append]
        rw [hbytes]
        apply readAll_chunk_iff rfl
        intro endian'
        have hless := Source.size_skip_le (Endian.little.value [head, length1])
          (Source.whole tail ++ source)
        rw [Source.size_append, Source.size_whole] at hless
        simp only [Source.size, List.length_cons] at hsize
        have hbehind : OnlyInterrupted source := fun kind hmem =>
          hfaults kind (List.mem_cons_of_mem _ hmem)
        exact ih _ (by omega) (onlyInterrupted_skip hbehind _) rfl
      · -- the reader takes an interrupted header for the end of the file
        obtain rfl := hfaults kind List.mem_cons_self
        rw [readAll_fst]
        constructor
        · intro hresult
          exact .ended (eq_nil_of_decodeAll hresult.symm)
        · intro hundisturbed
          cases hundisturbed with
          | ended hbytes =>
              rw [hbytes, decodeAll_eq]
              rfl

/-- A FAR whose header is divided after its first two bytes. -/
def dividedFar : Source := [.chunk 2 [0], .chunk 0 [10, 3, 4]]

end Stdf
