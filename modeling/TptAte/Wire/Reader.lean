import Mathlib.Data.List.Forall2
import TptAte.Wire.Endian

/-! # Readers of byte strings

A reader consumes bytes from the front and either returns a value with the
bytes it left or fails. The lemmas here take sequenced readers apart, so that
a proof about a long reader never unfolds the monad.
-/

namespace Wire

variable {ε α β : Type}

/-- A reader of the front of a byte string. -/
abbrev Reader (ε : Type) := StateT Bytes (Except ε)

namespace Reader

@[simp] theorem ok_bind (value : α) (next : α → Except ε β) :
    (Except.ok value >>= next) = next value := rfl

@[simp] theorem error_bind (error : ε) (next : α → Except ε β) :
    (Except.error error >>= next) = Except.error error := rfl

@[simp] theorem ok_map (value : α) (f : α → β) :
    (f <$> (Except.ok value : Except ε α)) = Except.ok (f value) := rfl

@[simp] theorem pure_eq_ok (value : α) : (pure value : Except ε α) = Except.ok value := rfl

theorem result_bind_eq_ok {result : Except ε α} {next : α → Except ε β} {value : β} :
    (result >>= next) = .ok value ↔ ∃ first, result = .ok first ∧ next first = .ok value := by
  cases result with
  | error error => simp
  | ok first => simp

/-- All results of a list are good exactly when each is. -/
theorem mapM_eq_ok {f : α → Except ε β} {inputs : List α} {values : List β} :
    inputs.mapM f = .ok values ↔
      List.Forall₂ (fun input value => f input = .ok value) inputs values := by
  induction inputs generalizing values with
  | nil => simp [eq_comm]
  | cons input inputs ih =>
      simp only [List.mapM_cons, result_bind_eq_ok, ih, List.forall₂_cons_left_iff, pure_eq_ok,
        Except.ok.injEq]
      constructor
      · rintro ⟨first, hfirst, rest, hrest, rfl⟩
        exact ⟨first, rest, hfirst, hrest, rfl⟩
      · rintro ⟨first, rest, hfirst, hrest, rfl⟩
        exact ⟨first, hfirst, rest, hrest, rfl⟩

/-- A sequence succeeds exactly when both parts do, the second on what the
first left. -/
theorem bind_eq_ok {first : Reader ε α} {next : α → Reader ε β} {bytes rest : Bytes} {value : β} :
    (first >>= next).run bytes = .ok (value, rest) ↔
      ∃ head middle, first.run bytes = .ok (head, middle) ∧
        (next head).run middle = .ok (value, rest) := by
  rw [StateT.run_bind]
  cases hfirst : first.run bytes with
  | error error => simp
  | ok pair =>
      obtain ⟨head, middle⟩ := pair
      simp only [ok_bind, Except.ok.injEq, Prod.mk.injEq]
      constructor
      · intro hnext
        exact ⟨head, middle, ⟨rfl, rfl⟩, hnext⟩
      · intro h
        obtain ⟨_, _, ⟨rfl, rfl⟩, hnext⟩ := h
        exact hnext

theorem map_eq_ok {reader : Reader ε α} {f : α → β} {bytes rest : Bytes} {value : β} :
    (f <$> reader).run bytes = .ok (value, rest) ↔
      ∃ head, reader.run bytes = .ok (head, rest) ∧ f head = value := by
  rw [StateT.run_map]
  cases hreader : reader.run bytes with
  | error error => simp [Functor.map, Except.map]
  | ok pair =>
      obtain ⟨head, left⟩ := pair
      simp only [ok_map, Except.ok.injEq, Prod.mk.injEq]
      constructor
      · intro h
        obtain ⟨rfl, rfl⟩ := h
        exact ⟨head, ⟨rfl, rfl⟩, rfl⟩
      · intro h
        obtain ⟨_, ⟨rfl, rfl⟩, rfl⟩ := h
        exact ⟨rfl, rfl⟩

/-- Two readers in sequence read a pair exactly if each reads its part. -/
theorem seq_eq_ok {first : Reader ε α} {next : α → Reader ε β} {bytes rest : Bytes}
    {value : α × β} :
    (do
      let head ← first
      let tail ← next head
      return (head, tail) : Reader ε (α × β)).run bytes = .ok (value, rest) ↔
      ∃ middle, first.run bytes = .ok (value.1, middle) ∧
        (next value.1).run middle = .ok (value.2, rest) := by
  obtain ⟨head, tail⟩ := value
  simp only [bind_eq_ok, StateT.run_pure, pure_eq_ok, Except.ok.injEq, Prod.mk.injEq]
  constructor
  · intro h
    obtain ⟨_, middle, hhead, _, _, htail, ⟨rfl, rfl⟩, rfl⟩ := h
    exact ⟨middle, hhead, htail⟩
  · intro h
    obtain ⟨middle, hhead, htail⟩ := h
    exact ⟨head, middle, hhead, tail, rest, htail, ⟨rfl, rfl⟩, rfl⟩

/-- Take exactly `count` bytes; `eof wanted had` is the error when fewer are left. -/
def take (eof : Nat → Nat → ε) (count : Nat) : Reader ε Bytes := fun bytes =>
  if bytes.length < count then .error (eof count bytes.length)
  else .ok (bytes.take count, bytes.drop count)

def isEmpty : Reader ε Bool := fun bytes => .ok (bytes.isEmpty, bytes)

@[simp] theorem run_isEmpty (bytes : Bytes) :
    (isEmpty : Reader ε Bool).run bytes = .ok (bytes.isEmpty, bytes) := rfl

theorem run_take_append (eof : Nat → Nat → ε) {count : Nat} {raw : Bytes}
    (hraw : raw.length = count) (rest : Bytes) :
    (take eof count).run (raw ++ rest) = .ok (raw, rest) := by
  subst hraw
  simp [take, StateT.run]

/-- A take returns exactly a front of the given length. -/
theorem take_eq_ok {eof : Nat → Nat → ε} {count : Nat} {bytes raw rest : Bytes} :
    (take eof count).run bytes = .ok (raw, rest) ↔ bytes = raw ++ rest ∧ raw.length = count := by
  constructor
  · intro h
    simp only [take, StateT.run] at h
    split at h
    · simp at h
    next hlength =>
      simp only [Except.ok.injEq, Prod.mk.injEq] at h
      obtain ⟨rfl, rfl⟩ := h
      exact ⟨(List.take_append_drop count bytes).symm, by simp; omega⟩
  · intro h
    obtain ⟨rfl, hraw⟩ := h
    exact run_take_append eof hraw rest

/-! ## The errors of a reader -/

/-- Every error of a reader satisfies `P`. -/
def FailsWith (P : ε → Prop) (reader : Reader ε α) : Prop :=
  ∀ ⦃bytes error⦄, reader.run bytes = .error error → P error

variable {P : ε → Prop}

theorem failsWith_pure (value : α) : FailsWith P (pure value : Reader ε α) := by
  intro bytes error herror
  simp at herror

theorem failsWith_isEmpty : FailsWith P (isEmpty : Reader ε Bool) := by
  intro bytes error herror
  simp at herror

/-- Readers in sequence fail only as one of them does. -/
theorem FailsWith.bind {first : Reader ε α} {next : α → Reader ε β} (hfirst : FailsWith P first)
    (hnext : ∀ value, FailsWith P (next value)) : FailsWith P (first >>= next) := by
  intro bytes error herror
  rw [StateT.run_bind] at herror
  cases hrun : first.run bytes with
  | error error' =>
      rw [hrun] at herror
      cases herror
      exact hfirst hrun
  | ok pair =>
      rw [hrun] at herror
      exact hnext pair.1 herror

theorem FailsWith.map {reader : Reader ε α} (hreader : FailsWith P reader) (f : α → β) :
    FailsWith P (f <$> reader) := by
  rw [← bind_pure_comp]
  exact hreader.bind fun value => failsWith_pure (f value)

theorem failsWith_take {eof : Nat → Nat → ε} (heof : ∀ wanted had, P (eof wanted had))
    (count : Nat) : FailsWith P (take eof count) := by
  intro bytes error herror
  simp only [take, StateT.run] at herror
  split at herror
  · cases herror
    exact heof count bytes.length
  · simp at herror

end Reader

/-! ## Decoders that count what they take -/

/-- A decoder that looks at nothing behind the elements that it takes. -/
def LooksAtTaken {ε α β : Type} (decode : List α → Except ε (β × Nat)) : Prop :=
  ∀ data value used, decode data = .ok (value, used) →
    used ≤ data.length ∧ ∀ tail, decode (data.take used ++ tail) = .ok (value, used)

/-- Nothing is decoded from fewer elements than are taken. -/
theorem LooksAtTaken.error_of_lt {ε α β : Type} {decode : List α → Except ε (β × Nat)}
    (hlooks : LooksAtTaken decode) {data : List α} {value : β} {used short : Nat}
    (hdecode : decode data = .ok (value, used)) (hshort : short < used) :
    ∃ error, decode (data.take short) = .error error := by
  cases hcut : decode (data.take short) with
  | error error => exact ⟨error, rfl⟩
  | ok result =>
      obtain ⟨value', used'⟩ := result
      obtain ⟨hle, hlonger⟩ := hlooks _ _ _ hcut
      have hused : used' ≤ short := hle.trans (List.length_take_le _ _)
      have hwhole := hlonger (data.drop used')
      rw [List.take_take, Nat.min_eq_left hused, List.take_append_drop, hdecode] at hwhole
      obtain ⟨-, rfl⟩ := Prod.mk.inj (Except.ok.inj hwhole)
      exact absurd hshort (Nat.not_lt.mpr hused)

end Wire
