import TptAte.Wire.Reader
import TptAte.Wire.Utf8

/-! # Delimited fields

A field knows where it ends: what it reads does not depend on what follows.
Besides its reader and writer it carries the conditions a format needs to
compare them. `Valid` values survive writing and reading. `Fits` says of bytes
that the value read from them is valid. `Exact` says of bytes that writing back
the value read from them reproduces them in little-endian order.
-/

namespace Wire

variable {ε α β : Type}

/-- A delimited field with its laws. -/
structure Field (ε α : Type) where
  read : Endian → Reader ε α
  write : Endian → α → Option Bytes
  Valid : α → Prop
  Fits : Endian → Bytes → Prop
  Exact : Endian → Bytes → Prop
  write_ne_nil : ∀ {order value bytes}, write order value = some bytes → bytes ≠ []
  write_size : ∀ order order' value,
    (write order value).map List.length = (write order' value).map List.length
  read_write : ∀ order {value}, Valid value → ∃ bytes, write order value = some bytes ∧
    ∀ rest, (read order).run (bytes ++ rest) = .ok (value, rest)
  valid_iff_fits : ∀ {order data value rest}, (read order).run data = .ok (value, rest) →
    (Valid value ↔ Fits order data)
  valid_of_reread : ∀ {value bytes tail rest}, write .little value = some bytes →
    (read .little).run (bytes ++ tail) = .ok (value, rest) → Valid value
  exact_iff : ∀ {order data value rest}, (read order).run data = .ok (value, rest) →
    (Exact order data ↔ ∃ bytes, write .little value = some bytes ∧ data = bytes ++ rest)
  separates : ∀ {order data value rest bytes tail more},
    (read order).run data = .ok (value, rest) → write .little value = some bytes →
    bytes ++ tail = data ++ more → tail = rest ++ more

namespace Field

variable {F : Field ε α}

/-- A valid value is read back from its bytes alone and nothing else. -/
theorem read_eq (F : Field ε α) {order : Endian} {value : α} {bytes : Bytes}
    (hvalid : F.Valid value)
    (hwrite : F.write order value = some bytes) (rest : Bytes) :
    (F.read order).run (bytes ++ rest) = .ok (value, rest) := by
  obtain ⟨bytes', hwrite', hread⟩ := F.read_write order hvalid
  rw [hwrite] at hwrite'
  cases hwrite'
  exact hread rest

/-- Written over the bytes it was read from, a field ends where it ended. -/
theorem rest_eq (F : Field ε α) {order : Endian} {data rest bytes tail : Bytes} {value : α}
    (hread : (F.read order).run data = .ok (value, rest))
    (hwrite : F.write .little value = some bytes)
    (heq : bytes ++ tail = data) : tail = rest := by
  have hmore : bytes ++ tail = data ++ [] := by rw [heq, List.append_nil]
  simpa using F.separates hread hwrite hmore

end Field

namespace Field

/-- Every error of a field's reader satisfies `P`. -/
def FailsWith (F : Field ε α) (P : ε → Prop) : Prop := ∀ order, Reader.FailsWith P (F.read order)

end Field

/-! ## Fields one after the other -/

namespace Field

variable {F : Field ε α} {E : Field ε β}

theorem append_eq_some {left right : Option Bytes} {bytes : Bytes} :
    (do return (← left) ++ (← right) : Option Bytes) = some bytes ↔
      ∃ head tail, left = some head ∧ right = some tail ∧ bytes = head ++ tail := by
  simp only [Option.bind_eq_bind, Option.bind_eq_some_iff, Option.pure_def, Option.some.injEq]
  constructor
  · intro h
    obtain ⟨head, rfl, tail, rfl, rfl⟩ := h
    exact ⟨head, tail, rfl, rfl, rfl⟩
  · intro h
    obtain ⟨head, tail, rfl, rfl, rfl⟩ := h
    exact ⟨head, rfl, tail, rfl, rfl⟩

theorem append_size {left left' right right' : Option Bytes}
    (hleft : left.map List.length = left'.map List.length)
    (hright : right.map List.length = right'.map List.length) :
    (do return (← left) ++ (← right) : Option Bytes).map List.length =
      (do return (← left') ++ (← right') : Option Bytes).map List.length := by
  cases left <;> cases left' <;> cases right <;> cases right' <;> simp_all

/-- A condition holds of the bytes that a field leaves. -/
def After (F : Field ε α) (order : Endian) (P : α → Bytes → Prop) (data : Bytes) : Prop :=
  ∀ value rest, (F.read order).run data = .ok (value, rest) → P value rest

theorem after_iff {order : Endian} {P : α → Bytes → Prop} {data rest : Bytes} {value : α}
    (hread : (F.read order).run data = .ok (value, rest)) :
    F.After order P data ↔ P value rest := by
  constructor
  · exact fun h => h value rest hread
  · intro h value' rest' hread'
    rw [hread] at hread'
    cases hread'
    exact h

def pair (F : Field ε α) (E : Field ε β) : Field ε (α × β) where
  read order := do
    let head ← F.read order
    let tail ← E.read order
    return (head, tail)
  write order value := do return (← F.write order value.1) ++ (← E.write order value.2)
  Valid value := F.Valid value.1 ∧ E.Valid value.2
  Fits order data := F.Fits order data ∧ F.After order (fun _ => E.Fits order) data
  Exact order data := F.Exact order data ∧ F.After order (fun _ => E.Exact order) data
  write_ne_nil := by
    intro order value bytes hwrite hnil
    obtain ⟨first, second, hfirst, -, rfl⟩ := append_eq_some.mp hwrite
    exact F.write_ne_nil hfirst (List.append_eq_nil_iff.mp hnil).1
  write_size order order' value :=
    append_size (F.write_size order order' value.1) (E.write_size order order' value.2)
  read_write := by
    intro order value hvalid
    obtain ⟨hhead, htail⟩ := hvalid
    obtain ⟨first, hfirst, hread⟩ := F.read_write order hhead
    obtain ⟨second, hsecond, hreads⟩ := E.read_write order htail
    refine ⟨first ++ second, append_eq_some.mpr ⟨first, second, hfirst, hsecond, rfl⟩, ?_⟩
    intro rest
    rw [List.append_assoc]
    exact Reader.seq_eq_ok.mpr ⟨second ++ rest, hread _, hreads rest⟩
  valid_iff_fits := by
    intro order data value rest hread
    obtain ⟨middle, hhead, htail⟩ := Reader.seq_eq_ok.mp hread
    rw [after_iff hhead, F.valid_iff_fits hhead, E.valid_iff_fits htail]
  valid_of_reread := by
    intro value bytes tail rest hwrite hread
    obtain ⟨first, second, hfirst, hsecond, rfl⟩ := append_eq_some.mp hwrite
    obtain ⟨middle, hhead, htail⟩ := Reader.seq_eq_ok.mp hread
    rw [List.append_assoc] at hhead
    have hvalid := F.valid_of_reread hfirst hhead
    rw [F.read_eq hvalid hfirst] at hhead
    cases hhead
    exact ⟨hvalid, E.valid_of_reread hsecond htail⟩
  exact_iff := by
    intro order data value rest hread
    obtain ⟨middle, hhead, htail⟩ := Reader.seq_eq_ok.mp hread
    rw [after_iff hhead, F.exact_iff hhead, E.exact_iff htail]
    constructor
    · intro h
      obtain ⟨⟨first, hfirst, rfl⟩, second, hsecond, rfl⟩ := h
      exact ⟨first ++ second, append_eq_some.mpr ⟨first, second, hfirst, hsecond, rfl⟩,
        (List.append_assoc _ _ _).symm⟩
    · intro h
      obtain ⟨bytes, hbytes, rfl⟩ := h
      obtain ⟨first, second, hfirst, hsecond, rfl⟩ := append_eq_some.mp hbytes
      have hmiddle := F.rest_eq hhead hfirst (List.append_assoc _ _ _).symm
      exact ⟨⟨first, hfirst, by rw [← hmiddle, List.append_assoc]⟩, second, hsecond, hmiddle.symm⟩
  separates := by
    intro order data value rest bytes tail more hread hwrite heq
    obtain ⟨middle, hhead, htail⟩ := Reader.seq_eq_ok.mp hread
    obtain ⟨first, second, hfirst, hsecond, rfl⟩ := append_eq_some.mp hwrite
    rw [List.append_assoc] at heq
    exact E.separates htail hsecond (F.separates hhead hfirst heq)

theorem pair_failsWith {P : ε → Prop} (hF : F.FailsWith P) (hE : E.FailsWith P) :
    (F.pair E).FailsWith P := fun order =>
  (hF order).bind fun head => (hE order).bind fun tail => Reader.failsWith_pure (head, tail)

end Field

/-! ## Fixed-width words -/

/-- An IEEE single, as its bits. -/
structure F32 where
  bits : UInt32
  deriving DecidableEq, Repr

def F32.zero : F32 := ⟨0⟩

def F32.one : F32 := ⟨0x3F800000⟩

/-- An IEEE double, as its bits. -/
structure F64 where
  bits : UInt64
  deriving DecidableEq, Repr

/-- A type of numbers of a fixed byte width. -/
structure Word (α : Type) where
  width : Nat
  toNat : α → Nat
  ofNat : Nat → α
  width_pos : 0 < width
  toNat_lt : ∀ value, toNat value < 256 ^ width
  ofNat_toNat : ∀ value, ofNat (toNat value) = value
  toNat_ofNat : ∀ n, toNat (ofNat n) = n % 256 ^ width

def Word.read (word : Word α) (eof : Nat → Nat → ε) (order : Endian) : Reader ε α := do
  let raw ← Reader.take eof word.width
  return word.ofNat (order.value raw)

def Word.bytes (word : Word α) (order : Endian) (value : α) : Bytes :=
  order.bytes word.width (word.toNat value)

namespace Word

variable {word : Word α} {eof : Nat → Nat → ε} {order : Endian}

@[simp] theorem length_bytes (word : Word α) (order : Endian) (value : α) :
    (word.bytes order value).length = word.width := by
  simp [bytes]

/-- A number is read from its bytes, whatever is behind them. -/
theorem run_read_append (word : Word α) (eof : Nat → Nat → ε) (order : Endian) (value : α)
    (rest : Bytes) :
    (word.read eof order).run (word.bytes order value ++ rest) = .ok (value, rest) := by
  rw [Word.read, Reader.bind_eq_ok]
  refine ⟨word.bytes order value, rest, Reader.run_take_append eof (by simp) rest, ?_⟩
  simp [bytes, order.value_bytes _ _ (word.toNat_lt value), word.ofNat_toNat]

theorem read_eq_ok {data rest : Bytes} {value : α} :
    (word.read eof order).run data = .ok (value, rest) ↔
      ∃ raw, data = raw ++ rest ∧ raw.length = word.width ∧
        word.ofNat (order.value raw) = value := by
  simp only [Word.read, Reader.bind_eq_ok, Reader.take_eq_ok, StateT.run_pure]
  constructor
  · intro h
    obtain ⟨raw, middle, ⟨rfl, hraw⟩, hvalue⟩ := h
    cases hvalue
    exact ⟨raw, rfl, hraw, rfl⟩
  · intro h
    obtain ⟨raw, rfl, hraw, rfl⟩ := h
    exact ⟨raw, rest, ⟨rfl, hraw⟩, rfl⟩

theorem toNat_ofNat_value (word : Word α) (order : Endian) {raw : Bytes}
    (hraw : raw.length = word.width) :
    word.toNat (word.ofNat (order.value raw)) = order.value raw := by
  have hlt := order.value_lt raw
  rw [hraw] at hlt
  rw [word.toNat_ofNat, Nat.mod_eq_of_lt hlt]

/-- The words of the standard integer types. -/
def u8 : Word UInt8 where
  width := 1
  toNat := UInt8.toNat
  ofNat := UInt8.ofNat
  width_pos := by decide
  toNat_lt := UInt8.toNat_lt
  ofNat_toNat value := UInt8.ofNat_toNat
  toNat_ofNat n := UInt8.toNat_ofNat'

def u16 : Word UInt16 where
  width := 2
  toNat := UInt16.toNat
  ofNat := UInt16.ofNat
  width_pos := by decide
  toNat_lt := UInt16.toNat_lt
  ofNat_toNat value := UInt16.ofNat_toNat
  toNat_ofNat n := UInt16.toNat_ofNat'

def u32 : Word UInt32 where
  width := 4
  toNat := UInt32.toNat
  ofNat := UInt32.ofNat
  width_pos := by decide
  toNat_lt := UInt32.toNat_lt
  ofNat_toNat value := UInt32.ofNat_toNat
  toNat_ofNat n := UInt32.toNat_ofNat'

/-- A word carried by a type that is in bijection with its own. -/
def map (word : Word α) (wrap : α → β) (unwrap : β → α)
    (hunwrap : ∀ value, unwrap (wrap value) = value)
    (hwrap : ∀ value, wrap (unwrap value) = value) : Word β where
  width := word.width
  toNat value := word.toNat (unwrap value)
  ofNat n := wrap (word.ofNat n)
  width_pos := word.width_pos
  toNat_lt value := word.toNat_lt (unwrap value)
  ofNat_toNat value := by rw [word.ofNat_toNat, hwrap]
  toNat_ofNat n := by rw [hunwrap, word.toNat_ofNat]

def i8 : Word Int8 := u8.map UInt8.toInt8 Int8.toUInt8 UInt8.toUInt8_toInt8 Int8.toInt8_toUInt8

def i16 : Word Int16 :=
  u16.map UInt16.toInt16 Int16.toUInt16 UInt16.toUInt16_toInt16 Int16.toInt16_toUInt16

def u64 : Word UInt64 where
  width := 8
  toNat := UInt64.toNat
  ofNat := UInt64.ofNat
  width_pos := by decide
  toNat_lt := UInt64.toNat_lt
  ofNat_toNat value := UInt64.ofNat_toNat
  toNat_ofNat n := UInt64.toNat_ofNat'

def i32 : Word Int32 :=
  u32.map UInt32.toInt32 Int32.toUInt32 UInt32.toUInt32_toInt32 Int32.toInt32_toUInt32

def i64 : Word Int64 :=
  u64.map UInt64.toInt64 Int64.toUInt64 UInt64.toUInt64_toInt64 Int64.toInt64_toUInt64

def f32 : Word F32 := u32.map F32.mk F32.bits (fun _ => rfl) (fun _ => rfl)

def f64 : Word F64 := u64.map F64.mk F64.bits (fun _ => rfl) (fun _ => rfl)

def field (word : Word α) (eof : Nat → Nat → ε) : Field ε α where
  read := word.read eof
  write order value := some (word.bytes order value)
  Valid _ := True
  Fits _ _ := True
  Exact order data := order = .little ∨ (data.take word.width).reverse = data.take word.width
  write_ne_nil := by
    rintro order value bytes ⟨⟩ hnil
    have hwidth := word.width_pos
    rw [← length_bytes word order value, hnil] at hwidth
    simp at hwidth
  write_size := by simp
  read_write := fun order value _ =>
    ⟨word.bytes order value, rfl, word.run_read_append eof order value⟩
  valid_iff_fits := by simp
  valid_of_reread := by simp
  exact_iff := by
    intro order data value rest hread
    obtain ⟨raw, rfl, hraw, rfl⟩ := read_eq_ok.mp hread
    have hexact := order.little_bytes_value_iff raw
    rw [hraw] at hexact
    simp only [Option.some.injEq, exists_eq_left', List.take_left' hraw, bytes,
      word.toNat_ofNat_value order hraw, List.append_left_inj, ← hexact]
    exact eq_comm
  separates := by
    rintro order data value rest bytes tail more hread ⟨⟩ heq
    obtain ⟨raw, rfl, hraw, rfl⟩ := read_eq_ok.mp hread
    rw [List.append_assoc] at heq
    exact (List.append_inj heq (by simp [hraw])).2

theorem field_failsWith {P : ε → Prop} (word : Word α) (heof : ∀ wanted had, P (eof wanted had)) :
    (word.field eof).FailsWith P := fun order =>
  (Reader.failsWith_take heof word.width).bind fun raw =>
    Reader.failsWith_pure (word.ofNat (order.value raw))

end Word

/-! ## Counted payloads -/

/-- Content behind a byte count. Reading may repair it, as lossy text does, and
only sound content is kept as it is. Repair never shrinks the content, and the two
bounds say how far a cut or an overhang that does not show in the bytes can reach. -/
structure Payload (α : Type) where
  decode : Bytes → α
  encode : α → Bytes
  Sound : Bytes → Prop
  decode_encode : ∀ value, decode (encode value) = value
  sound_iff : ∀ raw, encode (decode raw) = raw ↔ Sound raw
  le_length : ∀ raw, raw.length ≤ (encode (decode raw)).length
  length_of_decode_take : ∀ value count, decode ((encode value).take count) = value →
    (encode value).length ≤ count + 9
  length_of_prefix : ∀ raw, raw <+: encode (decode raw) →
    (encode (decode raw)).length ≤ raw.length + 4

/-- Bytes carried as they are. -/
def Payload.blob : Payload Bytes where
  decode := id
  encode := id
  Sound _ := True
  decode_encode _ := rfl
  sound_iff _ := iff_of_true rfl trivial
  le_length _ := le_rfl
  length_of_decode_take := by
    intro value count h
    have hlength := congrArg List.length h
    simp only [id, List.length_take] at hlength ⊢
    omega
  length_of_prefix := by simp

/-- Text carried as UTF-8 and read lossily. -/
def Payload.text : Payload String where
  decode := fromUtf8Lossy
  encode := asBytes
  Sound := IsUtf8
  decode_encode := fromUtf8Lossy_asBytes
  sound_iff := asBytes_fromUtf8Lossy_iff
  le_length := le_length_fromUtf8Lossy
  length_of_decode_take := length_le_of_fromUtf8Lossy_take
  length_of_prefix := length_le_of_prefix_fromUtf8Lossy

namespace Payload

variable {κ : Type} {payload : Payload α} {word : Word κ} {eof : Nat → Nat → ε}

/-- Read a count and then that many bytes of content. -/
def read (payload : Payload α) (word : Word κ) (eof : Nat → Nat → ε) (order : Endian) :
    Reader ε α := do
  let count ← word.read eof order
  let raw ← Reader.take eof (word.toNat count)
  return payload.decode raw

/-- The count and the content. A strict writer refuses content its count cannot
hold; the other kind lets the count wrap. -/
def write (payload : Payload α) (word : Word κ) (strict : Bool) (order : Endian) (value : α) :
    Option Bytes :=
  if strict && 256 ^ word.width ≤ (payload.encode value).length then none
  else some (word.bytes order (word.ofNat (payload.encode value).length) ++ payload.encode value)

def content (word : Word κ) (order : Endian) (data : Bytes) : Bytes :=
  (data.drop word.width).take (order.value (data.take word.width))

theorem content_append {order : Endian} {count raw rest : Bytes}
    (hcount : count.length = word.width)
    (hraw : raw.length = order.value count) : content word order (count ++ raw ++ rest) = raw := by
  rw [content, List.append_assoc, List.drop_left' hcount, List.take_left' hcount,
    List.take_left' hraw]

theorem read_eq_ok {order : Endian} {data rest : Bytes} {value : α} :
    (payload.read word eof order).run data = .ok (value, rest) ↔
      ∃ count raw, data = count ++ raw ++ rest ∧ count.length = word.width ∧
        raw.length = order.value count ∧ payload.decode raw = value := by
  simp only [Payload.read, Reader.bind_eq_ok, Word.read_eq_ok, Reader.take_eq_ok, StateT.run_pure,
    Reader.pure_eq_ok, Except.ok.injEq, Prod.mk.injEq]
  constructor
  · intro h
    obtain ⟨_, _, ⟨count, rfl, hcount, rfl⟩, raw, _, ⟨rfl, hraw⟩, rfl, rfl⟩ := h
    refine ⟨count, raw, (List.append_assoc _ _ _).symm, hcount, ?_, rfl⟩
    rw [hraw, word.toNat_ofNat_value order hcount]
  · intro h
    obtain ⟨count, raw, rfl, hcount, hraw, rfl⟩ := h
    refine ⟨_, raw ++ rest, ⟨count, List.append_assoc _ _ _, hcount, rfl⟩, raw, rest, ⟨rfl, ?_⟩,
      rfl, rfl⟩
    rw [hraw, word.toNat_ofNat_value order hcount]

theorem write_eq_some {strict : Bool} {order : Endian} {value : α} {bytes : Bytes} :
    payload.write word strict order value = some bytes ↔
      (strict = true → (payload.encode value).length < 256 ^ word.width) ∧
        bytes = word.bytes order (word.ofNat (payload.encode value).length) ++
          payload.encode value := by
  unfold write
  cases strict with
  | false => simp [eq_comm]
  | true =>
      by_cases hlarge : 256 ^ word.width ≤ (payload.encode value).length
      · simp [hlarge]
      · simp [hlarge, Nat.lt_of_not_le hlarge, eq_comm]

/-- When what was read is written over the bytes it came from, the content keeps
its length: a count that agrees modulo 255 leaves no room for an overhang. -/
theorem length_encode_eq {order : Endian} {count raw tail more : Bytes}
    (hcount : count.length = word.width) (hraw : raw.length = order.value count)
    (hsame : word.bytes .little (word.ofNat (payload.encode (payload.decode raw)).length) = count)
    (heq : payload.encode (payload.decode raw) ++ tail = raw ++ more) :
    (payload.encode (payload.decode raw)).length = raw.length := by
  have hle := payload.le_length raw
  have hinitial : raw <+: payload.encode (payload.decode raw) :=
    List.prefix_of_prefix_length_le ⟨more, heq.symm⟩ ⟨tail, rfl⟩ hle
  have hbound := payload.length_of_prefix raw hinitial
  have hlt := order.value_lt count
  have hpow := pow_256_mod_255 word.width
  have hbig : 256 ^ 1 ≤ 256 ^ word.width := Nat.pow_le_pow_right (by decide) word.width_pos
  have hmod := order.value_mod_255 count
  have hwritten : leValue count =
      (payload.encode (payload.decode raw)).length % 256 ^ word.width := by
    rw [← hsame, Word.bytes, word.toNat_ofNat]
    exact leValue_leBytes _ _ (Nat.mod_lt _ (pow_256_pos _))
  rw [hcount] at hlt
  rw [← hraw] at hmod hlt
  by_cases hfit : (payload.encode (payload.decode raw)).length < 256 ^ word.width
  · rw [Nat.mod_eq_of_lt hfit] at hwritten
    omega
  · -- an overhang past the count's range would leave a zero count behind
    exfalso
    have hwrap : (payload.encode (payload.decode raw)).length % 256 ^ word.width =
        (payload.encode (payload.decode raw)).length - 256 ^ word.width := by
      rw [Nat.mod_eq_sub_mod (by omega), Nat.mod_eq_of_lt]
      omega
    rw [hwrap] at hwritten
    have hzero : (payload.encode (payload.decode raw)).length = 256 ^ word.width := by omega
    have hcountZero : count = List.replicate word.width 0 := by
      rw [← hsame, Word.bytes, word.toNat_ofNat, hzero, Nat.mod_self, Endian.bytes,
        Endian.leBytes_zero]
    rw [hcountZero, order.value_replicate_zero] at hraw
    omega

/-- Content that is read back from its own bytes fits its count. -/
theorem length_encode_lt_of_reread {strict : Bool} {value : α} {bytes tail rest : Bytes}
    (hwrite : payload.write word strict .little value = some bytes)
    (hread : (payload.read word eof .little).run (bytes ++ tail) = .ok (value, rest)) :
    (payload.encode value).length < 256 ^ word.width := by
  obtain ⟨-, rfl⟩ := write_eq_some.mp hwrite
  -- a wrapped count cuts the content by a multiple of its range, more than repair hides
  by_contra hlarge
  obtain ⟨count, raw, heq, hcount, hraw, hvalue⟩ := read_eq_ok.mp hread
  rw [List.append_assoc, List.append_assoc] at heq
  obtain ⟨rfl, hbody⟩ := List.append_inj heq (by simp [hcount])
  have hcut : raw = (payload.encode value).take raw.length := by
    have htake := congrArg (List.take raw.length) hbody
    have hle : raw.length ≤ (payload.encode value).length := by
      rw [hraw, Word.bytes, word.toNat_ofNat,
        Endian.value_bytes _ _ _ (Nat.mod_lt _ (pow_256_pos _))]
      exact Nat.mod_le _ _
    rw [List.take_left, List.take_append_of_le_length hle] at htake
    exact htake.symm
  rw [hcut] at hvalue
  have hbound := payload.length_of_decode_take value raw.length hvalue
  have hwrap : raw.length = (payload.encode value).length % 256 ^ word.width := by
    rw [hraw, Word.bytes, word.toNat_ofNat,
      Endian.value_bytes _ _ _ (Nat.mod_lt _ (pow_256_pos _))]
  have hbig : 256 ^ 1 ≤ 256 ^ word.width := Nat.pow_le_pow_right (by decide) word.width_pos
  have hdrop := Nat.mod_eq_sub_mod (Nat.not_lt.mp hlarge)
  have hless := Nat.mod_le ((payload.encode value).length - 256 ^ word.width) (256 ^ word.width)
  omega

/-- Counted content as a field. -/
def field (payload : Payload α) (word : Word κ) (eof : Nat → Nat → ε) (strict : Bool) :
    Field ε α where
  read := payload.read word eof
  write := payload.write word strict
  Valid value := (payload.encode value).length < 256 ^ word.width
  Fits order data :=
    (payload.encode (payload.decode (content word order data))).length < 256 ^ word.width
  Exact order data :=
    (order = .little ∨ (data.take word.width).reverse = data.take word.width) ∧
      payload.Sound (content word order data)
  write_ne_nil := by
    intro order value bytes hwrite hnil
    obtain ⟨-, rfl⟩ := write_eq_some.mp hwrite
    have hlength := congrArg List.length hnil
    have hwidth := word.width_pos
    simp only [List.length_append, Word.length_bytes, List.length_nil] at hlength
    omega
  write_size := by
    intro order order' value
    unfold write
    split <;> simp
  read_write := by
    intro order value hvalid
    refine ⟨_, write_eq_some.mpr ⟨fun _ => hvalid, rfl⟩, fun rest => ?_⟩
    refine read_eq_ok.mpr ⟨_, _, rfl, by simp, ?_, payload.decode_encode value⟩
    rw [Word.bytes, word.toNat_ofNat, Nat.mod_eq_of_lt hvalid, order.value_bytes _ _ hvalid]
  valid_iff_fits := by
    intro order data value rest hread
    obtain ⟨count, raw, rfl, hcount, hraw, rfl⟩ := read_eq_ok.mp hread
    rw [content_append hcount hraw]
  valid_of_reread := length_encode_lt_of_reread
  exact_iff := by
    intro order data value rest hread
    obtain ⟨count, raw, rfl, hcount, hraw, rfl⟩ := read_eq_ok.mp hread
    have hbytes := order.little_bytes_value_iff count
    rw [content_append hcount hraw, List.append_assoc, List.take_left' hcount, ← hbytes, hcount,
      ← payload.sound_iff]
    have hlt := order.value_lt count
    rw [hcount] at hlt
    constructor
    · intro h
      obtain ⟨hsame, hkeep⟩ := h
      refine ⟨_, write_eq_some.mpr ⟨fun _ => by rw [hkeep]; omega, rfl⟩, ?_⟩
      rw [hkeep, Word.bytes, word.toNat_ofNat, hraw, Nat.mod_eq_of_lt hlt, hsame, List.append_assoc]
    · intro h
      obtain ⟨bytes, hwrite, heq⟩ := h
      obtain ⟨-, rfl⟩ := write_eq_some.mp hwrite
      rw [List.append_assoc] at heq
      obtain ⟨hsame, hbody⟩ := List.append_inj heq (by simp [hcount])
      have hkeep := List.append_cancel_right hbody
      refine ⟨?_, hkeep.symm⟩
      rw [← hkeep, Word.bytes, word.toNat_ofNat, hraw, Nat.mod_eq_of_lt hlt] at hsame
      exact hsame.symm
  separates := by
    intro order data value rest bytes tail more hread hwrite heq
    obtain ⟨count, raw, rfl, hcount, hraw, rfl⟩ := read_eq_ok.mp hread
    obtain ⟨-, rfl⟩ := write_eq_some.mp hwrite
    rw [List.append_assoc, List.append_assoc, List.append_assoc] at heq
    obtain ⟨hsame, hbody⟩ := List.append_inj heq (by simp [hcount])
    have hlength := length_encode_eq hcount hraw hsame hbody
    exact (List.append_inj hbody hlength).2

theorem field_failsWith {P : ε → Prop} (payload : Payload α) (word : Word κ)
    (heof : ∀ wanted had, P (eof wanted had)) (strict : Bool) :
    (payload.field word eof strict).FailsWith P := fun order =>
  (word.field_failsWith heof order).bind fun count =>
    (Reader.failsWith_take heof (word.toNat count)).bind fun raw =>
      Reader.failsWith_pure (payload.decode raw)

end Payload

/-! ## Counted lists of fields -/

namespace Field

variable {κ : Type} {F : Field ε α} {word : Word κ} {eof : Nat → Nat → ε} {order : Endian}

def readItems (F : Field ε α) (order : Endian) : Nat → Reader ε (List α)
  | 0 => return []
  | count + 1 => do
      let item ← F.read order
      let items ← readItems F order count
      return item :: items

def writeItems (F : Field ε α) (order : Endian) : List α → Option Bytes
  | [] => some []
  | item :: items => do
      let head ← F.write order item
      let tail ← writeItems F order items
      return head ++ tail

/-- A condition on bytes holds at the start of each of the items read from them. -/
def EachItem (F : Field ε α) (order : Endian) (P : Bytes → Prop) : Nat → Bytes → Prop
  | 0, _ => True
  | count + 1, data => P data ∧ ∀ item rest, (F.read order).run data = .ok (item, rest) →
      EachItem F order P count rest

theorem readItems_succ_eq_ok {count : Nat} {data rest : Bytes} {values : List α} :
    (F.readItems order (count + 1)).run data = .ok (values, rest) ↔
      ∃ item middle items, (F.read order).run data = .ok (item, middle) ∧
        (F.readItems order count).run middle = .ok (items, rest) ∧ values = item :: items := by
  simp only [readItems, Reader.bind_eq_ok, StateT.run_pure, Reader.pure_eq_ok, Except.ok.injEq,
    Prod.mk.injEq]
  constructor
  · intro h
    obtain ⟨item, middle, hitem, items, _, hitems, rfl, rfl⟩ := h
    exact ⟨item, middle, items, hitem, hitems, rfl⟩
  · intro h
    obtain ⟨item, middle, items, hitem, hitems, rfl⟩ := h
    exact ⟨item, middle, hitem, items, rest, hitems, rfl, rfl⟩

theorem writeItems_cons_eq_some {item : α} {items : List α} {bytes : Bytes} :
    F.writeItems order (item :: items) = some bytes ↔
      ∃ head tail, F.write order item = some head ∧ F.writeItems order items = some tail ∧
        bytes = head ++ tail := by
  simp only [writeItems, Option.bind_eq_bind, Option.bind_eq_some_iff, Option.pure_def,
    Option.some.injEq]
  constructor
  · intro h
    obtain ⟨head, hhead, tail, htail, rfl⟩ := h
    exact ⟨head, tail, hhead, htail, rfl⟩
  · intro h
    obtain ⟨head, tail, hhead, htail, rfl⟩ := h
    exact ⟨head, hhead, tail, htail, rfl⟩

theorem eachItem_succ_iff {P : Bytes → Prop} {count : Nat} {data rest : Bytes} {item : α}
    (hread : (F.read order).run data = .ok (item, rest)) :
    F.EachItem order P (count + 1) data ↔ P data ∧ F.EachItem order P count rest := by
  constructor
  · intro h
    obtain ⟨hhead, hrest⟩ := h
    exact ⟨hhead, hrest item rest hread⟩
  · intro h
    obtain ⟨hhead, hrest⟩ := h
    refine ⟨hhead, fun item' rest' hread' => ?_⟩
    rw [hread] at hread'
    cases hread'
    exact hrest

theorem length_readItems {count : Nat} {data rest : Bytes} {items : List α}
    (hread : (F.readItems order count).run data = .ok (items, rest)) : items.length = count := by
  induction count generalizing data items with
  | zero =>
      cases hread
      rfl
  | succ count ih =>
      obtain ⟨item, middle, tail, -, htail, rfl⟩ := readItems_succ_eq_ok.mp hread
      rw [List.length_cons, ih htail]

/-- The items take the same number of bytes in either order. -/
theorem writeItems_size (F : Field ε α) (order order' : Endian) (items : List α) :
    (F.writeItems order items).map List.length = (F.writeItems order' items).map List.length := by
  induction items with
  | nil => rfl
  | cons item items ih =>
      have hitem := F.write_size order order' item
      simp only [writeItems, Option.bind_eq_bind, Option.pure_def]
      cases hhead : F.write order item <;> cases hhead' : F.write order' item <;>
        cases htail : F.writeItems order items <;> cases htail' : F.writeItems order' items <;>
        simp_all

/-- Valid items are read back one after the other. -/
theorem readItems_writeItems (F : Field ε α) (order : Endian) {items : List α}
    (hvalid : ∀ item ∈ items, F.Valid item) :
    ∃ bytes, F.writeItems order items = some bytes ∧
      ∀ rest, (F.readItems order items.length).run (bytes ++ rest) = .ok (items, rest) := by
  induction items with
  | nil => exact ⟨[], rfl, fun rest => rfl⟩
  | cons item items ih =>
      obtain ⟨head, hhead, hread⟩ := F.read_write order (hvalid item List.mem_cons_self)
      obtain ⟨tail, htail, hreads⟩ := ih fun other hother =>
        hvalid other (List.mem_cons_of_mem _ hother)
      refine ⟨head ++ tail, writeItems_cons_eq_some.mpr ⟨head, tail, hhead, htail, rfl⟩, ?_⟩
      intro rest
      rw [List.length_cons, List.append_assoc]
      exact readItems_succ_eq_ok.mpr ⟨item, tail ++ rest, items, hread _, hreads rest, rfl⟩

theorem valid_items_iff {count : Nat} {data rest : Bytes} {items : List α}
    (hread : (F.readItems order count).run data = .ok (items, rest)) :
    (∀ item ∈ items, F.Valid item) ↔ F.EachItem order (F.Fits order) count data := by
  induction count generalizing data items with
  | zero =>
      cases hread
      simp [EachItem]
  | succ count ih =>
      obtain ⟨item, middle, tail, hitem, htail, rfl⟩ := readItems_succ_eq_ok.mp hread
      rw [eachItem_succ_iff hitem, ← ih htail, ← F.valid_iff_fits hitem]
      simp

theorem valid_items_of_reread {items : List α} {bytes tail rest : Bytes}
    (hwrite : F.writeItems .little items = some bytes)
    (hread : (F.readItems .little items.length).run (bytes ++ tail) = .ok (items, rest)) :
    ∀ item ∈ items, F.Valid item := by
  induction items generalizing bytes with
  | nil => simp
  | cons item items ih =>
      obtain ⟨head, more, hhead, hmore, rfl⟩ := writeItems_cons_eq_some.mp hwrite
      obtain ⟨item', middle, items', hitem, hitems, heq⟩ := readItems_succ_eq_ok.mp hread
      cases heq
      rw [List.append_assoc] at hitem
      have hvalid := F.valid_of_reread hhead hitem
      rw [F.read_eq hvalid hhead] at hitem
      cases hitem
      exact List.forall_mem_cons.mpr ⟨hvalid, ih hmore hitems⟩

theorem exact_items_iff {count : Nat} {data rest : Bytes} {items : List α}
    (hread : (F.readItems order count).run data = .ok (items, rest)) :
    F.EachItem order (F.Exact order) count data ↔
      ∃ bytes, F.writeItems .little items = some bytes ∧ data = bytes ++ rest := by
  induction count generalizing data items with
  | zero =>
      cases hread
      simp [EachItem, writeItems]
  | succ count ih =>
      obtain ⟨item, middle, tail, hitem, htail, rfl⟩ := readItems_succ_eq_ok.mp hread
      rw [eachItem_succ_iff hitem, ih htail, F.exact_iff hitem]
      constructor
      · intro h
        obtain ⟨⟨head, hhead, rfl⟩, more, hmore, rfl⟩ := h
        exact ⟨head ++ more, writeItems_cons_eq_some.mpr ⟨head, more, hhead, hmore, rfl⟩,
          (List.append_assoc _ _ _).symm⟩
      · intro h
        obtain ⟨bytes, hbytes, heq⟩ := h
        obtain ⟨head, more, hhead, hmore, rfl⟩ := writeItems_cons_eq_some.mp hbytes
        rw [List.append_assoc] at heq
        have hmiddle := F.rest_eq hitem hhead heq.symm
        rw [hmiddle] at heq
        exact ⟨⟨head, hhead, heq⟩, more, hmore, hmiddle.symm⟩

theorem separates_items {count : Nat} {data rest bytes tail more : Bytes} {items : List α}
    (hread : (F.readItems order count).run data = .ok (items, rest))
    (hwrite : F.writeItems .little items = some bytes) (heq : bytes ++ tail = data ++ more) :
    tail = rest ++ more := by
  induction count generalizing data items bytes with
  | zero =>
      cases hread
      cases hwrite
      exact heq
  | succ count ih =>
      obtain ⟨item, middle, items, hitem, hitems, rfl⟩ := readItems_succ_eq_ok.mp hread
      obtain ⟨head, after, hhead, hafter, rfl⟩ := writeItems_cons_eq_some.mp hwrite
      rw [List.append_assoc] at heq
      exact ih hitems hafter (F.separates hitem hhead heq)

/-- Read a count and then that many items. -/
def readList (F : Field ε α) (word : Word κ) (eof : Nat → Nat → ε) (order : Endian) :
    Reader ε (List α) := do
  let count ← word.read eof order
  F.readItems order (word.toNat count)

/-- The count and the items; more items than the count can hold are refused. -/
def writeList (F : Field ε α) (word : Word κ) (order : Endian) (items : List α) : Option Bytes :=
  if 256 ^ word.width ≤ items.length then none
  else (word.bytes order (word.ofNat items.length) ++ ·) <$> F.writeItems order items

theorem readList_eq_ok {data rest : Bytes} {items : List α} :
    (F.readList word eof order).run data = .ok (items, rest) ↔
      ∃ count body, data = count ++ body ∧ count.length = word.width ∧
        (F.readItems order (order.value count)).run body = .ok (items, rest) := by
  simp only [readList, Reader.bind_eq_ok, Word.read_eq_ok]
  constructor
  · intro h
    obtain ⟨_, body, ⟨count, rfl, hcount, rfl⟩, hitems⟩ := h
    rw [word.toNat_ofNat_value order hcount] at hitems
    exact ⟨count, body, rfl, hcount, hitems⟩
  · intro h
    obtain ⟨count, body, rfl, hcount, hitems⟩ := h
    refine ⟨_, body, ⟨count, rfl, hcount, rfl⟩, ?_⟩
    rwa [word.toNat_ofNat_value order hcount]

theorem writeList_eq_some {items : List α} {bytes : Bytes} :
    F.writeList word order items = some bytes ↔
      items.length < 256 ^ word.width ∧ ∃ body, F.writeItems order items = some body ∧
        bytes = word.bytes order (word.ofNat items.length) ++ body := by
  unfold writeList
  by_cases hlarge : 256 ^ word.width ≤ items.length
  · simp [hlarge]
  · simp [hlarge, Nat.lt_of_not_le hlarge, eq_comm]

/-- A count and that many items as one field. -/
def listOf (F : Field ε α) (word : Word κ) (eof : Nat → Nat → ε) : Field ε (List α) where
  read := F.readList word eof
  write := F.writeList word
  Valid items := items.length < 256 ^ word.width ∧ ∀ item ∈ items, F.Valid item
  Fits order data := F.EachItem order (F.Fits order) (order.value (data.take word.width))
    (data.drop word.width)
  Exact order data := (order = .little ∨ (data.take word.width).reverse = data.take word.width) ∧
    F.EachItem order (F.Exact order) (order.value (data.take word.width)) (data.drop word.width)
  write_ne_nil := by
    intro order items bytes hwrite hnil
    obtain ⟨-, body, -, rfl⟩ := writeList_eq_some.mp hwrite
    have hlength := congrArg List.length hnil
    have hwidth := word.width_pos
    simp only [List.length_append, Word.length_bytes, List.length_nil] at hlength
    omega
  write_size := by
    intro order order' items
    have hitems := F.writeItems_size order order' items
    unfold writeList
    split
    · rfl
    · cases hleft : F.writeItems order items <;> cases hright : F.writeItems order' items <;>
        simp_all
  read_write := by
    intro order items hvalid
    obtain ⟨body, hbody, hread⟩ := F.readItems_writeItems order hvalid.2
    refine ⟨_, writeList_eq_some.mpr ⟨hvalid.1, body, hbody, rfl⟩, fun rest => ?_⟩
    refine readList_eq_ok.mpr ⟨_, body ++ rest, List.append_assoc _ _ _, by simp, ?_⟩
    rw [Word.bytes, word.toNat_ofNat, Nat.mod_eq_of_lt hvalid.1, order.value_bytes _ _ hvalid.1]
    exact hread rest
  valid_iff_fits := by
    intro order data items rest hread
    obtain ⟨count, body, rfl, hcount, hitems⟩ := readList_eq_ok.mp hread
    have hlt := order.value_lt count
    rw [hcount, ← length_readItems hitems] at hlt
    rw [List.take_left' hcount, List.drop_left' hcount, ← valid_items_iff hitems]
    exact ⟨fun hvalid => hvalid.2, fun hvalid => ⟨hlt, hvalid⟩⟩
  valid_of_reread := by
    intro items bytes tail rest hwrite hread
    obtain ⟨hlength, body, hbody, rfl⟩ := writeList_eq_some.mp hwrite
    obtain ⟨count, after, heq, hcount, hitems⟩ := readList_eq_ok.mp hread
    rw [List.append_assoc] at heq
    obtain ⟨rfl, rfl⟩ := List.append_inj heq (by simp [hcount])
    rw [← length_readItems hitems] at hitems
    exact ⟨hlength, valid_items_of_reread hbody hitems⟩
  exact_iff := by
    intro order data items rest hread
    obtain ⟨count, body, rfl, hcount, hitems⟩ := readList_eq_ok.mp hread
    have hbytes := order.little_bytes_value_iff count
    have hlt := order.value_lt count
    rw [hcount, ← length_readItems hitems] at hlt
    have hword : word.bytes .little (word.ofNat items.length) =
        Endian.little.bytes word.width (order.value count) := by
      rw [Word.bytes, word.toNat_ofNat, Nat.mod_eq_of_lt hlt, length_readItems hitems]
    rw [List.take_left' hcount, List.drop_left' hcount, ← hbytes, hcount, exact_items_iff hitems]
    constructor
    · intro h
      obtain ⟨hsame, written, hwritten, rfl⟩ := h
      refine ⟨_, writeList_eq_some.mpr ⟨hlt, written, hwritten, rfl⟩, ?_⟩
      rw [hword, hsame, List.append_assoc]
    · intro h
      obtain ⟨bytes, hbytes, heq⟩ := h
      obtain ⟨-, written, hwritten, rfl⟩ := writeList_eq_some.mp hbytes
      rw [List.append_assoc] at heq
      obtain ⟨hsame, hbody⟩ := List.append_inj heq (by simp [hcount])
      exact ⟨by rw [← hword, ← hsame], written, hwritten, hbody⟩
  separates := by
    intro order data items rest bytes tail more hread hwrite heq
    obtain ⟨count, body, rfl, hcount, hitems⟩ := readList_eq_ok.mp hread
    obtain ⟨-, written, hwritten, rfl⟩ := writeList_eq_some.mp hwrite
    rw [List.append_assoc, List.append_assoc] at heq
    obtain ⟨-, hbody⟩ := List.append_inj heq (by simp [hcount])
    exact separates_items hitems hwritten hbody

theorem readItems_failsWith {P : ε → Prop} (hF : F.FailsWith P) (order : Endian) (count : Nat) :
    Reader.FailsWith P (F.readItems order count) := by
  induction count with
  | zero => exact Reader.failsWith_pure []
  | succ count ih => exact (hF order).bind fun item => ih.bind fun items => Reader.failsWith_pure _

theorem listOf_failsWith {P : ε → Prop} (hF : F.FailsWith P)
    (heof : ∀ wanted had, P (eof wanted had)) : (F.listOf word eof).FailsWith P := fun order =>
  (word.field_failsWith heof order).bind fun count =>
    readItems_failsWith hF order (word.toNat count)

end Field

end Wire
