import TptAte.Wire.Reader

/-! # Byte sources

A source delivers its bytes in chunks and may report errors in between. Over a
source that is calm for long enough, reading a number of bytes gives the next
bytes of the source, however they are divided.
-/

namespace Wire

variable {ε : Type}

inductive ErrorKind where
  | interrupted
  | other (code : Nat)
  deriving DecidableEq, Repr

/-- What a byte source does next: it has some bytes to give, or it fails once. -/
inductive Delivery where
  | chunk (head : UInt8) (tail : Bytes)
  | fault (kind : ErrorKind)
  deriving DecidableEq

abbrev Source := List Delivery

namespace Source

def bytes : Source → Bytes
  | [] => []
  | .chunk head tail :: source => head :: tail ++ bytes source
  | .fault _ :: source => bytes source

/-- The number of steps in which a source can be used up. -/
def size : Source → Nat
  | [] => 0
  | .chunk _ tail :: source => tail.length + 1 + size source
  | .fault _ :: source => 1 + size source

def whole : Bytes → Source
  | [] => []
  | head :: tail => [.chunk head tail]

def read (want : Nat) : Source → Except ErrorKind Bytes × Source
  | [] => (.ok [], [])
  | .fault kind :: source => (.error kind, source)
  | .chunk head tail :: source =>
      (.ok ((head :: tail).take want), whole ((head :: tail).drop want) ++ source)

theorem size_append (source source' : Source) :
    size (source ++ source') = size source + size source' := by
  induction source with
  | nil => simp [size]
  | cons delivery source ih => cases delivery <;> simp [size, ih] <;> omega

theorem bytes_append (source source' : Source) :
    bytes (source ++ source') = bytes source ++ bytes source' := by
  induction source with
  | nil => rfl
  | cons delivery source ih => cases delivery <;> simp [bytes, ih]

@[simp] theorem size_whole (data : Bytes) : size (whole data) = data.length := by
  cases data <;> simp [whole, size]

@[simp] theorem bytes_whole (data : Bytes) : bytes (whole data) = data := by
  cases data <;> simp [whole, bytes]

theorem read_whole (want : Nat) (data : Bytes) :
    read want (whole data) = (.ok (data.take want), whole (data.drop want)) := by
  cases data <;> simp [whole, read]

/-- A call that returns bytes uses up as many, and one that fails uses up its fault. -/
theorem size_read (want : Nat) (source : Source) :
    match source.read want with
    | (.ok data, source') => source'.size + data.length = source.size
    | (.error _, source') => source'.size < source.size := by
  cases source with
  | nil => rfl
  | cons delivery source =>
      cases delivery with
      | chunk head tail =>
          simp only [read, size_append, size_whole, List.length_drop, List.length_take,
            List.length_cons, size]
          omega
      | fault kind => simp [read, size]

/-- Read from the source until `wanted` bytes are there. The callers name the
errors for a failed call and for an early end. -/
def readExact (io : ErrorKind → ε) (eof : Nat → Nat → ε) (wanted : Nat) (body : Bytes)
    (source : Source) : Except ε Bytes × Source :=
  if body.length < wanted then
    match source.read (wanted - body.length) with
    | (.error kind, source) => (.error (io kind), source)
    | (.ok data, source) =>
        -- a call that returns nothing is the end of the source
        if data = [] then (.error (eof wanted body.length), source)
        else readExact io eof wanted (body ++ data) source
  else (.ok body, source)
termination_by wanted - body.length
decreasing_by
  rename_i hdata
  have hlength := List.length_pos_iff.mpr hdata
  rw [List.length_append]
  omega

variable {io : ErrorKind → ε} {eof : Nat → Nat → ε}

theorem size_readExact (wanted : Nat) (body : Bytes) (source : Source) :
    (readExact io eof wanted body source).2.size ≤ source.size := by
  fun_induction readExact io eof wanted body source with
  | case1 body source hless kind source' hread =>
      have hsize := source.size_read (wanted - body.length)
      rw [hread] at hsize
      exact hsize.le
  | case2 body source hless source' hread =>
      have hsize := source.size_read (wanted - body.length)
      rw [hread] at hsize
      simpa using hsize.le
  | case3 body source hless data source' hread hdata ih =>
      have hsize := source.size_read (wanted - body.length)
      rw [hread] at hsize
      dsimp only at hsize
      omega
  | case4 body source hless => exact le_rfl

/-- What was read has left the source. -/
theorem size_readExact_ok {wanted : Nat} {body bytes : Bytes} {source source' : Source}
    (hread : readExact io eof wanted body source = (.ok bytes, source')) :
    wanted ≤ bytes.length ∧ source'.size + bytes.length ≤ source.size + body.length := by
  fun_induction readExact io eof wanted body source with
  | case1 | case2 => cases hread
  | case3 body source hless data source'' hdata hnext ih =>
      obtain ⟨hlength, hsize⟩ := ih hread
      have hstep := source.size_read (wanted - body.length)
      rw [hdata] at hstep
      simp only [List.length_append] at hstep hsize
      omega
  | case4 body source hless =>
      cases hread
      omega

/-! ## Calm sources -/

/-- No fault comes before the next `count` bytes or the end. -/
def Calm : Nat → Source → Prop
  | 0, _ => True
  | _ + 1, [] => True
  | _ + 1, .fault _ :: _ => False
  | count + 1, .chunk _ tail :: source => Calm (count - tail.length) source

/-- The source after `count` bytes. -/
def skip : Nat → Source → Source
  | 0, source => source
  | _ + 1, [] => []
  | count + 1, .fault _ :: source => skip (count + 1) source
  | count + 1, .chunk head tail :: source =>
      whole ((head :: tail).drop (count + 1)) ++ skip (count - tail.length) source

/-- Skipping passes over bytes, not over the chunks they come in. -/
theorem bytes_skip (count : Nat) (source : Source) :
    (source.skip count).bytes = source.bytes.drop count := by
  induction source generalizing count with
  | nil => cases count <;> simp [skip, bytes]
  | cons delivery source ih =>
      cases count with
      | zero => simp [skip]
      | succ count =>
          cases delivery with
          | fault kind => simp [skip, bytes, ih]
          | chunk head tail =>
              rw [skip, bytes_append, bytes_whole, ih, bytes, List.drop_append]
              simp

theorem mem_skip {count : Nat} {source : Source} {kind : ErrorKind}
    (hmem : .fault kind ∈ source.skip count) : .fault kind ∈ source := by
  induction source generalizing count with
  | nil => cases count <;> simp [skip] at hmem
  | cons delivery source ih =>
      cases count with
      | zero => exact hmem
      | succ count =>
          cases delivery with
          | fault kind' => exact List.mem_cons_of_mem _ (ih hmem)
          | chunk head tail =>
              rw [skip, List.mem_append] at hmem
              rcases hmem with hmem | hmem
              · cases hdrop : (head :: tail).drop (count + 1) <;>
                  simp [hdrop, whole] at hmem
              · exact List.mem_cons_of_mem _ (ih hmem)

theorem size_skip_le (count : Nat) (source : Source) : (source.skip count).size ≤ source.size := by
  induction source generalizing count with
  | nil => cases count <;> simp [skip]
  | cons delivery source ih =>
      cases count with
      | zero => exact le_rfl
      | succ count =>
          cases delivery with
          | fault kind =>
              have hrest := ih (count + 1)
              simp only [skip, size]
              omega
          | chunk head tail =>
              have hrest := ih (count - tail.length)
              simp only [skip, size, size_append, size_whole,
                List.length_drop, List.length_cons]
              omega

theorem calm_whole (count : Nat) (data : Bytes) : (whole data).Calm count := by
  cases data <;> cases count <;> simp [whole, Calm]
  next head tail count => cases count - tail.length <;> simp [Calm]

theorem skip_whole (count : Nat) (data : Bytes) :
    (whole data).skip count = whole (data.drop count) := by
  cases data with
  | nil => cases count <;> simp [whole, skip]
  | cons head tail =>
      cases count with
      | zero => rfl
      | succ count =>
          have hnil : skip (count - tail.length) [] = [] := by
            cases count - tail.length <;> rfl
          simp [whole, skip, hnil]

def Clean (source : Source) : Prop := ∀ kind, .fault kind ∉ source

theorem clean_whole (data : Bytes) : (whole data).Clean := by
  intro kind hmem
  cases data <;> simp [whole] at hmem

theorem Clean.skip {source : Source} (hclean : source.Clean) (count : Nat) :
    (source.skip count).Clean :=
  fun kind hmem => hclean kind (mem_skip hmem)

theorem Clean.append {source source' : Source} (hfirst : source.Clean) (hsecond : source'.Clean) :
    (source ++ source').Clean := by
  intro kind hmem
  rcases List.mem_append.mp hmem with hmem | hmem
  · exact hfirst kind hmem
  · exact hsecond kind hmem

/-- A source without errors is calm for any count. -/
theorem Clean.calm {source : Source} (hclean : source.Clean) (count : Nat) :
    source.Calm count := by
  induction source generalizing count with
  | nil => cases count <;> trivial
  | cons delivery source ih =>
      have hrest : Clean source := fun kind hmem => hclean kind (List.mem_cons_of_mem _ hmem)
      cases count with
      | zero => trivial
      | succ count =>
          cases delivery with
          | chunk head tail => exact ih hrest _
          | fault kind => exact (hclean kind List.mem_cons_self).elim

theorem readExact_of_le {wanted : Nat} {body : Bytes} (hle : wanted ≤ body.length)
    (source : Source) :
    readExact io eof wanted body source = (.ok body, source) := by
  rw [readExact, if_neg (Nat.not_lt.mpr hle)]

/-- A chunk that is longer than what is wanted completes the body. -/
theorem readExact_chunk_of_le {wanted : Nat} {body tail : Bytes} {head : UInt8} {source : Source}
    (hless : body.length < wanted) (hle : wanted - body.length ≤ tail.length + 1) :
    readExact io eof wanted body (.chunk head tail :: source) =
      (.ok (body ++ (head :: tail).take (wanted - body.length)),
        whole ((head :: tail).drop (wanted - body.length)) ++ source) := by
  have hne : (head :: tail).take (wanted - body.length) ≠ [] := by
    simp only [ne_eq, List.take_eq_nil_iff, reduceCtorEq, or_false]
    omega
  rw [readExact, if_pos hless]
  simp only [read, if_neg hne]
  exact readExact_of_le (by simp; omega) _

/-- A shorter chunk is taken whole. -/
theorem readExact_chunk_of_lt {wanted : Nat} {body tail : Bytes} {head : UInt8} {source : Source}
    (hlt : tail.length + 1 < wanted - body.length) :
    readExact io eof wanted body (.chunk head tail :: source) =
      readExact io eof wanted (body ++ head :: tail) source := by
  have htake : (head :: tail).take (wanted - body.length) = head :: tail :=
    List.take_of_length_le (by simp; omega)
  have hdrop : (head :: tail).drop (wanted - body.length) = [] :=
    List.drop_of_length_le (by simp; omega)
  rw [readExact, if_pos (by omega)]
  simp [read, htake, hdrop, whole]

/-- Over a calm source the body is the next bytes, if there are enough. -/
theorem readExact_of_calm {wanted : Nat} {body : Bytes} {source : Source}
    (hcalm : source.Calm (wanted - body.length)) (hle : body.length ≤ wanted) :
    readExact io eof wanted body source =
      if body.length + source.bytes.length < wanted then
        (.error (eof wanted (body.length + source.bytes.length)), [])
      else
        (.ok (body ++ source.bytes.take (wanted - body.length)),
          source.skip (wanted - body.length)) := by
  induction source generalizing body with
  | nil =>
      rcases hle.eq_or_lt with heq | hless
      · rw [readExact_of_le heq.ge, heq]
        simp [bytes, skip]
      · rw [readExact]
        simp [hless, read, bytes]
  | cons delivery source ih =>
      rcases hle.eq_or_lt with heq | hless
      · rw [readExact_of_le heq.ge, heq]
        simp [skip]
      obtain ⟨count, hcount⟩ : ∃ count, wanted - body.length = count + 1 :=
        ⟨wanted - body.length - 1, by omega⟩
      cases delivery with
      | fault kind =>
          rw [hcount] at hcalm
          exact hcalm.elim
      | chunk head tail =>
          rw [hcount, Calm] at hcalm
          -- the chunk completes the body, or it is taken whole and the rest follows by `ih`
          by_cases hshort : wanted - body.length ≤ tail.length + 1
          · have hzero : count - tail.length = 0 := by omega
            rw [readExact_chunk_of_le hless hshort, if_neg (by simp [bytes]; omega), hcount,
              skip, hzero, skip, bytes, List.take_append_of_le_length]
            simp
            omega
          · have hrest : wanted - (body ++ head :: tail).length = count - tail.length := by
              simp
              omega
            rw [readExact_chunk_of_lt (by omega), ih (hrest ▸ hcalm) (by simp; omega), hrest]
            have hdrop : (head :: tail).drop (count + 1) = [] :=
              List.drop_of_length_le (by simp; omega)
            have htake : (head :: tail ++ bytes source).take (count + 1) =
                head :: tail ++ (bytes source).take (count - tail.length) := by
              rw [List.take_append, List.take_of_length_le (by simp; omega)]
              simp
            have hlength : (body ++ head :: tail).length + (bytes source).length =
                body.length + (bytes (.chunk head tail :: source)).length := by
              simp [bytes]
              omega
            rw [hlength, hcount, skip, hdrop, bytes, htake]
            simp [whole]

/-- From a calm source a read gets its bytes or meets the end. -/
theorem readExact_nil_of_calm {wanted : Nat} {source : Source} (hcalm : source.Calm wanted) :
    readExact io eof wanted [] source =
      if source.bytes.length < wanted then
        (.error (eof wanted source.bytes.length), [])
      else (.ok (source.bytes.take wanted), source.skip wanted) := by
  have hbody : readExact io eof wanted [] source = _ := readExact_of_calm hcalm (Nat.zero_le wanted)
  simpa using hbody

/-- A fault that comes too early is reported. -/
theorem readExact_of_not_calm {wanted : Nat} {body : Bytes} {source : Source}
    (hcalm : ¬ source.Calm (wanted - body.length)) :
    ∃ kind source', .fault kind ∈ source ∧
      readExact io eof wanted body source = (.error (io kind), source') := by
  induction source generalizing body with
  | nil => cases hcount : wanted - body.length <;> simp [hcount, Calm] at hcalm
  | cons delivery source ih =>
      obtain ⟨count, hcount⟩ : ∃ count, wanted - body.length = count + 1 := by
        cases hcount : wanted - body.length with
        | zero => simp [hcount, Calm] at hcalm
        | succ count => exact ⟨count, rfl⟩
      cases delivery with
      | fault kind =>
          refine ⟨kind, source, List.mem_cons_self, ?_⟩
          rw [readExact, if_pos (by omega)]
          rfl
      | chunk head tail =>
          rw [hcount, Calm] at hcalm
          -- otherwise this chunk would end the read before any fault
          have hlt : tail.length + 1 < wanted - body.length := by
            by_contra hnot
            have hzero : count - tail.length = 0 := by omega
            simp [hzero, Calm] at hcalm
          have hrest : wanted - (body ++ head :: tail).length = count - tail.length := by
            simp
            omega
          obtain ⟨kind, source', hmem, hread⟩ := ih (hrest ▸ hcalm)
          exact ⟨kind, source', List.mem_cons_of_mem _ hmem,
            (readExact_chunk_of_lt hlt).trans hread⟩

end Source

end Wire
