import TptAte.Wire.Field

/-! # Record bodies

A body is read from a byte string that holds nothing else, so it may let the end
of the string decide what is present. Bodies are chains of delimited fields; a
field of the chain may be optional under a flag, or fall back to a default when
no byte is left. The laws compare a value with the bytes of a whole body.
-/

namespace Wire

variable {ε α β : Type}

/-- A record body with its laws. `Exact` says of a body that writing back what
was read from it, in little-endian order, gives the same body. -/
structure Body (ε α : Type) where
  read : Endian → Reader ε α
  write : Endian → α → Option Bytes
  Valid : α → Prop
  Fits : Endian → Bytes → Prop
  Exact : Endian → Bytes → Prop
  write_size : ∀ order order' value,
    (write order value).map List.length = (write order' value).map List.length
  read_write : ∀ order {value}, Valid value → ∃ bytes, write order value = some bytes ∧
    (read order).run bytes = .ok (value, [])
  valid_iff_fits : ∀ {order data value rest}, (read order).run data = .ok (value, rest) →
    (Valid value ↔ Fits order data)
  valid_of_reread : ∀ {order data value rest bytes rest'},
    (read order).run data = .ok (value, rest) → write .little value = some bytes →
    (read .little).run bytes = .ok (value, rest') → Valid value
  exact_iff : ∀ {order data value rest}, (read order).run data = .ok (value, rest) →
    (Exact order data ↔ write .little value = some data)

/-- The bytes of several parts, if all could be written. -/
def emit : List (Option Bytes) → Option Bytes
  | [] => some []
  | part :: parts => do return (← part) ++ (← emit parts)

namespace Body

def GrowsBy (B : Body ε α) (bound : Nat) : Prop :=
  ∀ ⦃order data value rest more⦄, (B.read order).run data = .ok (value, rest) →
    B.write .little value = some (data ++ more) → more.length ≤ bound

/-- A body that was written is read back and nothing is left. -/
theorem read_eq (B : Body ε α) {order : Endian} {value : α} {bytes : Bytes} (hvalid : B.Valid value)
    (hwrite : B.write order value = some bytes) : (B.read order).run bytes = .ok (value, []) := by
  obtain ⟨bytes', hwrite', hread⟩ := B.read_write order hvalid
  rw [hwrite] at hwrite'
  cases hwrite'
  exact hread

theorem GrowsBy.mono {B : Body ε α} {bound bound' : Nat} (hgrow : B.GrowsBy bound)
    (hle : bound ≤ bound') : B.GrowsBy bound' :=
  fun _ _ _ _ _ hread hwrite => (hgrow hread hwrite).trans hle

/-! ## The ends of a chain -/

def done : Body ε Unit where
  read _ := return ()
  write _ _ := some []
  Valid _ := True
  Fits _ _ := True
  Exact _ data := data = []
  write_size _ _ _ := rfl
  read_write _ _ _ := ⟨[], rfl, rfl⟩
  valid_iff_fits _ := Iff.rfl
  valid_of_reread _ _ _ := trivial
  exact_iff _ := by simp [eq_comm]

theorem map_read_done (order : Endian) (mk : Unit → α) :
    mk <$> (done : Body ε Unit).read order = return (mk ()) := by
  simp only [done, map_pure]

@[simp] theorem valid_done (value : Unit) : (done : Body ε Unit).Valid value := trivial

theorem write_done (order : Endian) (value : Unit) :
    (done : Body ε Unit).write order value = some [] := rfl

theorem done_growsBy : (done : Body ε Unit).GrowsBy 0 := by
  intro order data value rest more _ hwrite
  simp only [done, Option.some.injEq] at hwrite
  have hlength := congrArg List.length hwrite
  simp only [List.length_nil, List.length_append] at hlength
  omega

def raw : Body ε Bytes where
  read _ := fun data => .ok (data, [])
  write _ data := some data
  Valid _ := True
  Fits _ _ := True
  Exact _ _ := True
  write_size _ _ _ := rfl
  read_write _ value _ := ⟨value, rfl, rfl⟩
  valid_iff_fits _ := Iff.rfl
  valid_of_reread _ _ _ := trivial
  exact_iff hread := by
    cases hread
    simp

theorem raw_growsBy : (raw : Body ε Bytes).GrowsBy 0 := by
  intro order data value rest more hread hwrite
  cases hread
  simp only [raw, Option.some.injEq] at hwrite
  have hlength := congrArg List.length hwrite
  simp only [List.length_append] at hlength
  omega

/-! ## Changing the representation -/

/-- Read a body into another type. `get` recovers the parts of a value that has them. -/
def imap (B : Body ε α) (mk : α → β) (get : β → Option α)
    (hget : ∀ value, get (mk value) = some value) :
    Body ε β where
  read order := mk <$> B.read order
  write order value := get value >>= B.write order
  Valid value := ∃ parts, value = mk parts ∧ B.Valid parts
  Fits := B.Fits
  Exact := B.Exact
  write_size := by
    intro order order' value
    cases hparts : get value with
    | none => rfl
    | some parts => exact B.write_size order order' parts
  read_write := by
    intro order value hvalid
    obtain ⟨parts, rfl, hvalid⟩ := hvalid
    obtain ⟨bytes, hwrite, hread⟩ := B.read_write order hvalid
    refine ⟨bytes, ?_, Reader.map_eq_ok.mpr ⟨parts, hread, rfl⟩⟩
    rw [hget]
    exact hwrite
  valid_iff_fits := by
    intro order data value rest hread
    obtain ⟨parts, hparts, rfl⟩ := Reader.map_eq_ok.mp hread
    rw [← B.valid_iff_fits hparts]
    constructor
    · intro h
      obtain ⟨parts', heq, hvalid⟩ := h
      have hsame := congrArg get heq
      rw [hget, hget] at hsame
      cases hsame
      exact hvalid
    · exact fun hvalid => ⟨parts, rfl, hvalid⟩
  valid_of_reread := by
    intro order data value rest bytes rest' hread hwrite hreread
    obtain ⟨parts, hparts, rfl⟩ := Reader.map_eq_ok.mp hread
    obtain ⟨parts', hparts', heq⟩ := Reader.map_eq_ok.mp hreread
    have hsame := congrArg get heq
    rw [hget, hget] at hsame
    cases hsame
    rw [hget] at hwrite
    exact ⟨parts, rfl, B.valid_of_reread hparts hwrite hparts'⟩
  exact_iff := by
    intro order data value rest hread
    obtain ⟨parts, hparts, rfl⟩ := Reader.map_eq_ok.mp hread
    rw [hget]
    exact B.exact_iff hparts

theorem read_imap {B : Body ε α} {mk : α → β} {get : β → Option α}
    {hget : ∀ value, get (mk value) = some value} (order : Endian) :
    (B.imap mk get hget).read order = mk <$> B.read order := rfl

theorem write_imap {B : Body ε α} {mk : α → β} {get : β → Option α}
    {hget : ∀ value, get (mk value) = some value} (order : Endian) (value : β) :
    (B.imap mk get hget).write order value = get value >>= B.write order := rfl

/-- A value is valid if it is put together from valid parts. -/
theorem valid_imap_of_get {B : Body ε α} {mk : α → β} {get : β → Option α}
    {hget : ∀ value, get (mk value) = some value} {value : β} {parts : α}
    (_ : get value = some parts) (hmk : mk parts = value) (hvalid : B.Valid parts) :
    (B.imap mk get hget).Valid value :=
  ⟨parts, hmk.symm, hvalid⟩

theorem imap_growsBy {B : Body ε α} {mk : α → β} {get : β → Option α}
    {hget : ∀ value, get (mk value) = some value} {bound : Nat} (hgrow : B.GrowsBy bound) :
    (B.imap mk get hget).GrowsBy bound := by
  intro order data value rest more hread hwrite
  obtain ⟨parts, hparts, rfl⟩ := Reader.map_eq_ok.mp hread
  simp only [imap, hget] at hwrite
  exact hgrow hparts hwrite

end Body

/-! ## Chains of fields -/

namespace Field

variable {F : Field ε α} {G : α → Body ε β}

/-- The part of a chain's laws that all three kinds of links share: a field was
read, and the chain goes on after it. -/
theorem link_valid_iff_fits {order : Endian} {data middle rest : Bytes} {head : α} {tail : β}
    (hhead : (F.read order).run data = .ok (head, middle))
    (htail : ((G head).read order).run middle = .ok (tail, rest)) :
    (F.Valid head ∧ (G head).Valid tail) ↔
      F.Fits order data ∧ F.After order (fun value => (G value).Fits order) data := by
  rw [after_iff hhead, F.valid_iff_fits hhead, (G head).valid_iff_fits htail]

theorem link_exact_iff {order : Endian} {data middle rest : Bytes} {head : α} {tail : β}
    (hhead : (F.read order).run data = .ok (head, middle))
    (htail : ((G head).read order).run middle = .ok (tail, rest)) :
    (F.Exact order data ∧ F.After order (fun value => (G value).Exact order) data) ↔
      (do return (← F.write .little head) ++ (← (G head).write .little tail)) = some data := by
  rw [after_iff hhead, F.exact_iff hhead, (G head).exact_iff htail, append_eq_some]
  constructor
  · intro h
    obtain ⟨⟨bytes, hbytes, rfl⟩, hmiddle⟩ := h
    exact ⟨bytes, middle, hbytes, hmiddle, rfl⟩
  · intro h
    obtain ⟨bytes, after, hbytes, hafter, rfl⟩ := h
    obtain rfl := F.rest_eq hhead hbytes rfl
    exact ⟨⟨bytes, hbytes, rfl⟩, hafter⟩

theorem link_valid_of_reread {order : Endian} {middle rest bytes middle' rest' : Bytes}
    {head : α} {tail : β} (htail : ((G head).read order).run middle = .ok (tail, rest))
    (hwrite : (do return (← F.write .little head) ++ (← (G head).write .little tail)) = some bytes)
    (hhead' : (F.read .little).run bytes = .ok (head, middle'))
    (htail' : ((G head).read .little).run middle' = .ok (tail, rest')) :
    F.Valid head ∧ (G head).Valid tail := by
  obtain ⟨first, second, hfirst, hsecond, rfl⟩ := append_eq_some.mp hwrite
  have hvalid := F.valid_of_reread hfirst hhead'
  rw [F.read_eq hvalid hfirst] at hhead'
  cases hhead'
  exact ⟨hvalid, (G head).valid_of_reread htail hsecond htail'⟩

theorem link_grow {order : Endian} {data middle rest more : Bytes} {head : α} {tail : β}
    {bound : Nat} (hgrow : (G head).GrowsBy bound)
    (hhead : (F.read order).run data = .ok (head, middle))
    (htail : ((G head).read order).run middle = .ok (tail, rest))
    (hwrite : (do return (← F.write .little head) ++ (← (G head).write .little tail)) =
      some (data ++ more)) : more.length ≤ bound := by
  obtain ⟨first, second, hfirst, hsecond, heq⟩ := append_eq_some.mp hwrite
  obtain rfl := F.separates hhead hfirst heq.symm
  exact hgrow htail hsecond

/-- A field and the rest of the body, which may depend on it. -/
def andThen (F : Field ε α) (G : α → Body ε β) : Body ε (α × β) where
  read order := do
    let head ← F.read order
    let tail ← (G head).read order
    return (head, tail)
  write order value := do
    return (← F.write order value.1) ++ (← (G value.1).write order value.2)
  Valid value := F.Valid value.1 ∧ (G value.1).Valid value.2
  Fits order data := F.Fits order data ∧ F.After order (fun value => (G value).Fits order) data
  Exact order data := F.Exact order data ∧ F.After order (fun value => (G value).Exact order) data
  write_size order order' value :=
    append_size (F.write_size order order' value.1) ((G value.1).write_size order order' value.2)
  read_write := by
    intro order value hvalid
    obtain ⟨hhead, htail⟩ := hvalid
    obtain ⟨first, hfirst, hread⟩ := F.read_write order hhead
    obtain ⟨second, hsecond, hreads⟩ := (G value.1).read_write order htail
    exact ⟨first ++ second, append_eq_some.mpr ⟨first, second, hfirst, hsecond, rfl⟩,
      Reader.seq_eq_ok.mpr ⟨second, hread second, hreads⟩⟩
  valid_iff_fits := by
    intro order data value rest hread
    obtain ⟨middle, hhead, htail⟩ := Reader.seq_eq_ok.mp hread
    exact link_valid_iff_fits hhead htail
  valid_of_reread := by
    intro order data value rest bytes rest' hread hwrite hreread
    obtain ⟨middle, -, htail⟩ := Reader.seq_eq_ok.mp hread
    obtain ⟨middle', hhead', htail'⟩ := Reader.seq_eq_ok.mp hreread
    exact link_valid_of_reread htail hwrite hhead' htail'
  exact_iff := by
    intro order data value rest hread
    obtain ⟨middle, hhead, htail⟩ := Reader.seq_eq_ok.mp hread
    exact link_exact_iff hhead htail

/-- A field and a rest of the body that does not depend on it. -/
abbrev before (F : Field ε α) (B : Body ε β) : Body ε (α × β) := F.andThen fun _ => B

theorem map_read_andThen {γ : Type} (order : Endian) (mk : α × β → γ) :
    mk <$> (F.andThen G).read order =
      (do
        let head ← F.read order
        (fun tail => mk (head, tail)) <$> (G head).read order) := by
  simp only [andThen, bind_pure_comp, map_bind, Functor.map_map]

theorem write_andThen (order : Endian) (head : α) (tail : β) :
    (F.andThen G).write order (head, tail) =
      (do return (← F.write order head) ++ (← (G head).write order tail)) := rfl

theorem valid_andThen (head : α) (tail : β) :
    (F.andThen G).Valid (head, tail) ↔ F.Valid head ∧ (G head).Valid tail := Iff.rfl

theorem andThen_growsBy {bound : Nat} (hgrow : ∀ value, (G value).GrowsBy bound) :
    (F.andThen G).GrowsBy bound := by
  intro order data value rest more hread hwrite
  obtain ⟨middle, hhead, htail⟩ := Reader.seq_eq_ok.mp hread
  exact link_grow (hgrow value.1) hhead htail hwrite

end Field

/-! ## Optional fields -/

/-- Read when `present` is set and bytes are left. -/
def Reader.whenPresent (present : Bool) (reader : Reader ε α) : Reader ε (Option α) := do
  if present && !(← Reader.isEmpty) then
    some <$> reader
  else
    return none

/-- A block that is present as a whole: its first field decides. -/
theorem Reader.whenPresent_block {γ : Type} (present : Bool) (first : Reader ε α)
    (next : α → Reader ε β) (after : Option (α × β) → Reader ε γ) :
    (do
      let block ← Reader.whenPresent present do
        let head ← first
        let tail ← next head
        return (head, tail)
      after block) =
      (do
        let head ← Reader.whenPresent present first
        match head with
        | some head => do
            let tail ← next head
            after (some (head, tail))
        | none => after none) := by
  cases present with
  | false => simp [Reader.whenPresent]
  | true =>
      simp only [Reader.whenPresent, Bool.true_and, bind_assoc]
      apply bind_congr
      intro empty
      cases empty <;> simp

namespace Field

variable {F : Field ε α} {G : Option α → Body ε β} {present : Bool}

theorem run_whenPresent_of {reader : Reader ε α} {data : Bytes}
    (hpresent : present = true ∧ data ≠ []) :
    (Reader.whenPresent present reader).run data = (some <$> reader).run data := by
  obtain ⟨rfl, hdata⟩ := hpresent
  cases data with
  | nil => exact absurd rfl hdata
  | cons byte data => simp [Reader.whenPresent]

theorem run_whenPresent_of_not {reader : Reader ε α} {data : Bytes}
    (habsent : ¬ (present = true ∧ data ≠ [])) :
    (Reader.whenPresent present reader).run data = .ok (none, data) := by
  cases present <;> cases data <;> simp_all [Reader.whenPresent]

/-- An optional field is read exactly when its flag is set and bytes are left. -/
theorem optional_eq_ok {order : Endian} {data rest : Bytes} {head : Option α} {tail : β} :
    (do
      let head ← Reader.whenPresent present (F.read order)
      let tail ← (G head).read order
      return (head, tail) : Reader ε (Option α × β)).run data = .ok ((head, tail), rest) ↔
      ((present = true ∧ data ≠ []) ∧ ∃ value middle, head = some value ∧
          (F.read order).run data = .ok (value, middle) ∧
          ((G (some value)).read order).run middle = .ok (tail, rest)) ∨
        (¬ (present = true ∧ data ≠ []) ∧ head = none ∧
          ((G none).read order).run data = .ok (tail, rest)) := by
  simp only [Reader.bind_eq_ok, StateT.run_pure, Reader.pure_eq_ok, Except.ok.injEq, Prod.mk.injEq]
  by_cases hpresent : present = true ∧ data ≠ []
  · rw [run_whenPresent_of hpresent]
    simp only [Reader.map_eq_ok]
    constructor
    · intro h
      obtain ⟨_, middle, ⟨value, hvalue, rfl⟩, _, _, htail, ⟨rfl, rfl⟩, rfl⟩ := h
      exact Or.inl ⟨hpresent, value, middle, rfl, hvalue, htail⟩
    · intro h
      rcases h with ⟨-, value, middle, rfl, hvalue, htail⟩ | ⟨habsent, -⟩
      · exact ⟨some value, middle, ⟨value, hvalue, rfl⟩, tail, rest, htail, ⟨rfl, rfl⟩, rfl⟩
      · exact absurd hpresent habsent
  · rw [run_whenPresent_of_not hpresent]
    simp only [Except.ok.injEq, Prod.mk.injEq]
    constructor
    · intro h
      obtain ⟨_, _, ⟨rfl, rfl⟩, _, _, htail, ⟨rfl, rfl⟩, rfl⟩ := h
      exact Or.inr ⟨hpresent, rfl, htail⟩
    · intro h
      rcases h with ⟨hpresent', -⟩ | ⟨-, rfl, htail⟩
      · exact absurd hpresent' hpresent
      · exact ⟨none, data, ⟨rfl, rfl⟩, tail, rest, htail, ⟨rfl, rfl⟩, rfl⟩

/-- An announced field is missing only at the end of the body, and what follows
writes nothing there exactly if no bytes are exact for it. -/
theorem silent_iff {order : Endian} {data rest : Bytes} {tail : β}
    (habsent : ¬ (present = true ∧ data ≠ []))
    (htail : ((G none).read order).run data = .ok (tail, rest)) :
    (present = true → (G none).write .little tail = some []) ↔
      (present = true → (G none).Exact order []) := by
  apply forall_congr'
  intro hpresent
  have hnil : data = [] := by
    by_contra hne
    exact habsent ⟨hpresent, hne⟩
  subst hnil
  exact ((G none).exact_iff htail).symm

/-- An optional field and the rest of the body. A flagged field may be missing
only where the rest of the body writes nothing. A `checked` writer leaves out a
field whose flag is clear; the other kind writes what it has. -/
def optional (F : Field ε α) (present checked : Bool) (G : Option α → Body ε β) :
    Body ε (Option α × β) where
  read order := do
    let head ← Reader.whenPresent present (F.read order)
    let tail ← (G head).read order
    return (head, tail)
  write order value :=
    match value with
    | (some head, tail) =>
        if checked && !present then (G (some head)).write order tail
        else do return (← F.write order head) ++ (← (G (some head)).write order tail)
    | (none, tail) => (G none).write order tail
  Valid value :=
    match value with
    | (some head, tail) => present = true ∧ F.Valid head ∧ (G (some head)).Valid tail
    | (none, tail) => (present = true → (G none).write .little tail = some []) ∧ (G none).Valid tail
  Fits order data :=
    if present = true ∧ data ≠ [] then
      F.Fits order data ∧ F.After order (fun value => (G (some value)).Fits order) data
    else (present = true → (G none).Exact order []) ∧ (G none).Fits order data
  Exact order data :=
    if present = true ∧ data ≠ [] then
      F.Exact order data ∧ F.After order (fun value => (G (some value)).Exact order) data
    else (G none).Exact order data
  write_size := by
    intro order order' hpair
    rcases hpair with ⟨_ | head, tail⟩
    · exact (G none).write_size order order' tail
    · dsimp only
      split
      · exact (G (some head)).write_size order order' tail
      · exact append_size (F.write_size order order' head)
          ((G (some head)).write_size order order' tail)
  read_write := by
    intro order value hvalid
    rcases value with ⟨_ | head, tail⟩
    · obtain ⟨bytes, hwrite, hread⟩ := (G none).read_write order hvalid.2
      refine ⟨bytes, hwrite, optional_eq_ok.mpr (Or.inr ⟨?_, rfl, hread⟩)⟩
      intro h
      obtain ⟨hpresent, hne⟩ := h
      -- bytes behind an announced but missing field would be read in its place
      have hsize := (G none).write_size order .little tail
      rw [hwrite, hvalid.1 hpresent] at hsize
      simp only [Option.map_some, Option.some.injEq, List.length_nil,
        List.length_eq_zero_iff] at hsize
      exact hne hsize
    · obtain ⟨hpresent, hhead, htail⟩ := hvalid
      obtain ⟨first, hfirst, hread⟩ := F.read_write order hhead
      obtain ⟨second, hsecond, hreads⟩ := (G (some head)).read_write order htail
      subst hpresent
      refine ⟨first ++ second, ?_, ?_⟩
      · rw [Bool.not_true, Bool.and_false]
        exact append_eq_some.mpr ⟨first, second, hfirst, hsecond, rfl⟩
      refine optional_eq_ok.mpr (Or.inl ⟨⟨rfl, ?_⟩, head, second, rfl, hread second, hreads⟩)
      simp [F.write_ne_nil hfirst]
  valid_iff_fits := by
    intro order data value rest hread
    obtain ⟨head, tail⟩ := value
    rcases optional_eq_ok.mp hread with ⟨hpresent, value, middle, rfl, hvalue, htail⟩ |
      ⟨habsent, rfl, htail⟩
    · rw [if_pos hpresent, ← link_valid_iff_fits (G := fun value => G (some value)) hvalue htail]
      simp [hpresent.1]
    · rw [if_neg habsent, ← (G none).valid_iff_fits htail]
      apply and_congr_left
      intro _
      exact silent_iff habsent htail
  valid_of_reread := by
    intro order data value rest bytes rest' hread hwrite hreread
    obtain ⟨head, tail⟩ := value
    rcases optional_eq_ok.mp hread with ⟨hpresent, value, middle, rfl, hvalue, htail⟩ |
      ⟨habsent, rfl, htail⟩
    · rcases optional_eq_ok.mp hreread with
        ⟨_, value', middle', heq, hvalue', htail'⟩ | ⟨_, hnone, _⟩
      · cases heq
        simp only [hpresent.1, Bool.not_true, Bool.and_false] at hwrite
        exact ⟨hpresent.1, link_valid_of_reread (G := fun value => G (some value)) htail hwrite
          hvalue' htail'⟩
      · exact absurd hnone (Option.some_ne_none value)
    · rcases optional_eq_ok.mp hreread with ⟨_, value', _, heq, _, _⟩ | ⟨habsent', _, htail'⟩
      · exact absurd heq.symm (Option.some_ne_none value')
      · refine ⟨fun hpresent => ?_, (G none).valid_of_reread htail hwrite htail'⟩
        have hnil : bytes = [] := by
          by_contra hne
          exact habsent' ⟨hpresent, hne⟩
        rw [← hnil]
        exact hwrite
  exact_iff := by
    intro order data value rest hread
    obtain ⟨head, tail⟩ := value
    rcases optional_eq_ok.mp hread with ⟨hpresent, value, middle, rfl, hvalue, htail⟩ |
      ⟨habsent, rfl, htail⟩
    · rw [if_pos hpresent]
      simp only [hpresent.1, Bool.not_true, Bool.and_false]
      exact link_exact_iff (G := fun value => G (some value)) hvalue htail
    · rw [if_neg habsent]
      exact (G none).exact_iff htail

theorem map_read_optional {γ : Type} {checked : Bool} (order : Endian) (mk : Option α × β → γ) :
    mk <$> (F.optional present checked G).read order =
      (do
        let head ← Reader.whenPresent present (F.read order)
        (fun tail => mk (head, tail)) <$> (G head).read order) := by
  simp only [optional, bind_pure_comp, map_bind, Functor.map_map]

/-- A value whose optional field is there exactly when its flag says so. -/
theorem valid_optional_of_isSome {checked : Bool} {head : Option α} {tail : β}
    (hpresent : head.isSome = present) (hhead : ∀ value ∈ head, F.Valid value)
    (htail : (G head).Valid tail) : (F.optional present checked G).Valid (head, tail) := by
  subst hpresent
  cases head with
  | none => exact ⟨by simp, htail⟩
  | some head => exact ⟨rfl, hhead head rfl, htail⟩

/-- What a writer puts for an optional field alone. -/
def writeOptional (F : Field ε α) (present checked : Bool) (order : Endian) (head : Option α) :
    Option Bytes :=
  match head with
  | some value => if checked && !present then some [] else F.write order value
  | none => some []

@[simp] theorem writeOptional_none {checked : Bool} (order : Endian) :
    F.writeOptional present checked order none = some [] := rfl

@[simp] theorem writeOptional_unchecked (order : Endian) (value : α) :
    F.writeOptional present false order (some value) = F.write order value := rfl

@[simp] theorem writeOptional_absent (order : Endian) (head : Option α) :
    F.writeOptional false true order head = some [] := by
  cases head <;> rfl

theorem write_optional {checked : Bool} (order : Endian) (head : Option α) (tail : β) :
    (F.optional present checked G).write order (head, tail) =
      (do return (← F.writeOptional present checked order head) ++
            (← (G head).write order tail)) := by
  have hnil (written : Option Bytes) : (do return [] ++ (← written)) = written := by
    cases written <;> rfl
  cases head with
  | none => exact (hnil _).symm
  | some head =>
      simp only [optional, writeOptional]
      split
      · exact (hnil _).symm
      · rfl

theorem optional_growsBy {checked : Bool} {bound : Nat} (hgrow : ∀ head, (G head).GrowsBy bound) :
    (F.optional present checked G).GrowsBy bound := by
  intro order data value rest more hread hwrite
  obtain ⟨head, tail⟩ := value
  rcases optional_eq_ok.mp hread with ⟨hpresent, value, middle, rfl, hvalue, htail⟩ |
    ⟨_, rfl, htail⟩
  · simp only [optional, hpresent.1, Bool.not_true, Bool.and_false] at hwrite
    exact link_grow (G := fun value => G (some value)) (hgrow (some value)) hvalue htail hwrite
  · exact hgrow none htail hwrite

end Field

/-! ## Fields with a default -/

/-- Read while bytes are left, and take a default at the end. -/
def Reader.orDefault (default : α) (reader : Reader ε α) : Reader ε α := do
  if !(← Reader.isEmpty) then reader else return default

namespace Field

variable {F : Field ε α} {G : α → Body ε β} {default : α}

theorem run_orDefault_nil {reader : Reader ε α} :
    (Reader.orDefault default reader).run [] = .ok (default, []) := by
  simp [Reader.orDefault]

theorem run_orDefault_of {reader : Reader ε α} {data : Bytes} (hdata : data ≠ []) :
    (Reader.orDefault default reader).run data = reader.run data := by
  cases data with
  | nil => exact absurd rfl hdata
  | cons byte data => simp [Reader.orDefault]

theorem orDefault_eq_ok {order : Endian} {data rest : Bytes} {head : α} {tail : β} :
    (do
      let head ← Reader.orDefault default (F.read order)
      let tail ← (G head).read order
      return (head, tail) : Reader ε (α × β)).run data = .ok ((head, tail), rest) ↔
      (data ≠ [] ∧ ∃ middle, (F.read order).run data = .ok (head, middle) ∧
          ((G head).read order).run middle = .ok (tail, rest)) ∨
        (data = [] ∧ head = default ∧ ((G head).read order).run [] = .ok (tail, rest)) := by
  simp only [Reader.bind_eq_ok, StateT.run_pure, Reader.pure_eq_ok, Except.ok.injEq, Prod.mk.injEq]
  by_cases hempty : data = []
  · subst hempty
    rw [run_orDefault_nil]
    simp only [Except.ok.injEq, Prod.mk.injEq]
    constructor
    · intro h
      obtain ⟨_, _, ⟨rfl, rfl⟩, _, _, htail, ⟨rfl, rfl⟩, rfl⟩ := h
      exact Or.inr ⟨trivial, rfl, htail⟩
    · intro h
      rcases h with ⟨hne, -⟩ | ⟨-, rfl, htail⟩
      · exact absurd rfl hne
      · exact ⟨head, [], ⟨rfl, rfl⟩, tail, rest, htail, ⟨rfl, rfl⟩, rfl⟩
  · rw [run_orDefault_of hempty]
    constructor
    · intro h
      obtain ⟨_, middle, hhead, _, _, htail, ⟨rfl, rfl⟩, rfl⟩ := h
      exact Or.inl ⟨hempty, middle, hhead, htail⟩
    · intro h
      rcases h with ⟨-, middle, hhead, htail⟩ | ⟨rfl, -⟩
      · exact ⟨head, middle, hhead, tail, rest, htail, ⟨rfl, rfl⟩, rfl⟩
      · exact absurd rfl hempty

/-- A field that may be missing at the end of the body and is always written. -/
def defaulting (F : Field ε α) (default : α) (hdefault : F.Valid default) (G : α → Body ε β) :
    Body ε (α × β) where
  read order := do
    let head ← Reader.orDefault default (F.read order)
    let tail ← (G head).read order
    return (head, tail)
  write order value := do
    return (← F.write order value.1) ++ (← (G value.1).write order value.2)
  Valid value := F.Valid value.1 ∧ (G value.1).Valid value.2
  Fits order data :=
    if data = [] then (G default).Fits order []
    else F.Fits order data ∧ F.After order (fun value => (G value).Fits order) data
  Exact order data :=
    data ≠ [] ∧ F.Exact order data ∧ F.After order (fun value => (G value).Exact order) data
  write_size order order' value :=
    append_size (F.write_size order order' value.1) ((G value.1).write_size order order' value.2)
  read_write := by
    rintro order ⟨head, tail⟩ ⟨hhead, htail⟩
    obtain ⟨first, hfirst, hread⟩ := F.read_write order hhead
    obtain ⟨second, hsecond, hreads⟩ := (G head).read_write order htail
    refine ⟨first ++ second, append_eq_some.mpr ⟨first, second, hfirst, hsecond, rfl⟩, ?_⟩
    refine orDefault_eq_ok.mpr (Or.inl ⟨?_, second, hread second, hreads⟩)
    simp [F.write_ne_nil hfirst]
  valid_iff_fits := by
    intro order data value rest hread
    obtain ⟨head, tail⟩ := value
    rcases orDefault_eq_ok.mp hread with ⟨hne, middle, hhead, htail⟩ | ⟨rfl, rfl, htail⟩
    · rw [if_neg hne, ← link_valid_iff_fits hhead htail]
    · rw [if_pos rfl, ← (G _).valid_iff_fits htail]
      exact and_iff_right hdefault
  valid_of_reread := by
    intro order data value rest bytes rest' hread hwrite hreread
    obtain ⟨head, tail⟩ := value
    -- the tail was read by the same continuation, whether or not the head was there
    have htail : ∃ middle, ((G head).read order).run middle = .ok (tail, rest) := by
      rcases orDefault_eq_ok.mp hread with ⟨_, middle, _, htail⟩ | ⟨_, _, htail⟩
      · exact ⟨middle, htail⟩
      · exact ⟨[], htail⟩
    obtain ⟨middle, htail⟩ := htail
    rcases orDefault_eq_ok.mp hreread with ⟨_, middle', hhead', htail'⟩ | ⟨rfl, _, _⟩
    · exact link_valid_of_reread htail hwrite hhead' htail'
    · obtain ⟨first, second, hfirst, _, heq⟩ := append_eq_some.mp hwrite
      exact absurd (List.append_eq_nil_iff.mp heq.symm).1 (F.write_ne_nil hfirst)
  exact_iff := by
    intro order data value rest hread
    obtain ⟨head, tail⟩ := value
    rcases orDefault_eq_ok.mp hread with ⟨hne, middle, hhead, htail⟩ | ⟨rfl, rfl, htail⟩
    · rw [← link_exact_iff hhead htail]
      exact and_iff_right hne
    · -- the writer puts a default that the body does not hold
      constructor
      · exact fun hexact => absurd rfl hexact.1
      · intro hwrite
        obtain ⟨first, second, hfirst, _, heq⟩ := append_eq_some.mp hwrite
        exact absurd (List.append_eq_nil_iff.mp heq.symm).1 (F.write_ne_nil hfirst)

theorem map_read_defaulting {γ : Type} {hdefault : F.Valid default} (order : Endian)
    (mk : α × β → γ) :
    mk <$> (F.defaulting default hdefault G).read order =
      (do
        let head ← Reader.orDefault default (F.read order)
        (fun tail => mk (head, tail)) <$> (G head).read order) := by
  simp only [defaulting, bind_pure_comp, map_bind, Functor.map_map]

theorem write_defaulting {hdefault : F.Valid default} (order : Endian) (head : α) (tail : β) :
    (F.defaulting default hdefault G).write order (head, tail) =
      (do return (← F.write order head) ++ (← (G head).write order tail)) := rfl

theorem valid_defaulting {hdefault : F.Valid default} (head : α) (tail : β) :
    (F.defaulting default hdefault G).Valid (head, tail) ↔ F.Valid head ∧ (G head).Valid tail :=
  Iff.rfl

theorem defaulting_growsBy {hdefault : F.Valid default} {bound extra : Nat}
    (hgrow : ∀ value, (G value).GrowsBy bound)
    (hextra : ∀ bytes, F.write .little default = some bytes → bytes.length ≤ extra) :
    (F.defaulting default hdefault G).GrowsBy (extra + bound) := by
  intro order data value rest more hread hwrite
  obtain ⟨head, tail⟩ := value
  rcases orDefault_eq_ok.mp hread with ⟨_, middle, hhead, htail⟩ | ⟨rfl, rfl, htail⟩
  · exact Nat.le_add_left_of_le (link_grow (hgrow head) hhead htail hwrite)
  · obtain ⟨first, second, hfirst, hsecond, heq⟩ := append_eq_some.mp hwrite
    have hfirstLength := hextra first hfirst
    have hsecondLength : second.length ≤ bound := hgrow _ htail hsecond
    rw [List.nil_append] at heq
    rw [heq, List.length_append]
    omega

end Field

/-! ## Errors -/

namespace Body

variable {F : Field ε α} {P : ε → Prop}

/-- Every error of a body's reader satisfies `P`. -/
def FailsWith (B : Body ε α) (P : ε → Prop) : Prop := ∀ order, Reader.FailsWith P (B.read order)

theorem done_failsWith : (done : Body ε Unit).FailsWith P := fun _ => Reader.failsWith_pure ()

theorem raw_failsWith : (raw : Body ε Bytes).FailsWith P := by
  rintro order bytes error ⟨⟩

theorem imap_failsWith {B : Body ε α} {mk : α → β} {get : β → Option α}
    {hget : ∀ value, get (mk value) = some value} (hB : B.FailsWith P) :
    (B.imap mk get hget).FailsWith P := fun order => (hB order).map mk

/-- A field and a body behind it fail only as their parts do. -/
theorem andThen_failsWith {G : α → Body ε β} (hF : F.FailsWith P)
    (hG : ∀ value, (G value).FailsWith P) : (F.andThen G).FailsWith P := fun order =>
  (hF order).bind fun head => (hG head order).bind fun tail => Reader.failsWith_pure (head, tail)

theorem optional_failsWith {G : Option α → Body ε β} {present checked : Bool}
    (hF : F.FailsWith P) (hG : ∀ value, (G value).FailsWith P) :
    (F.optional present checked G).FailsWith P := by
  intro order
  have hhead : Reader.FailsWith P (Reader.whenPresent present (F.read order)) := by
    refine Reader.failsWith_isEmpty.bind fun empty => ?_
    split
    · exact (hF order).map some
    · exact Reader.failsWith_pure none
  exact hhead.bind fun head => (hG head order).bind fun tail => Reader.failsWith_pure (head, tail)

theorem defaulting_failsWith {G : α → Body ε β} {default : α} {hdefault : F.Valid default}
    (hF : F.FailsWith P) (hG : ∀ value, (G value).FailsWith P) :
    (F.defaulting default hdefault G).FailsWith P := by
  intro order
  have hhead : Reader.FailsWith P (Reader.orDefault default (F.read order)) := by
    refine Reader.failsWith_isEmpty.bind fun empty => ?_
    split
    · exact hF order
    · exact Reader.failsWith_pure default
  exact hhead.bind fun head => (hG head order).bind fun tail => Reader.failsWith_pure (head, tail)

end Body

end Wire
