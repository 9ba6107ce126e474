import TptAte.Json.Codec

/-! # Values that are read back

What is read of the representation of a value need not be that value: a number may come back
as another one, and a value may be refused. Which of it happens to a structure follows from
its fields.
-/

namespace Json

variable {α β : Type}

/-- A reading gives a value if that is kept, and nothing otherwise. -/
structure Gives (read : Option α) (back : α) (kept : Prop) : Prop where
  given : kept → read = some back
  refused : ¬ kept → read = none

namespace Gives

variable {read : Option α} {back : α} {kept kept' : Prop}

theorem congr (h : Gives read back kept) (hiff : kept ↔ kept') : Gives read back kept' where
  given hkept := h.given (hiff.mpr hkept)
  refused hlost := h.refused (mt hiff.mp hlost)

/-- A reading given by a decidable condition is a case distinction. -/
theorem eq_ite [Decidable kept] (h : Gives read back kept) :
    read = if kept then some back else none := by
  split
  next hkept => exact h.given hkept
  next hlost => exact h.refused hlost

/-- Nothing but `back` is read, and that only of what is kept. -/
theorem eq_some_iff (h : Gives read back kept) : read = some back ↔ kept := by
  constructor
  · intro hread
    by_contra hlost
    rw [h.refused hlost] at hread
    cases hread
  · exact h.given

theorem map (h : Gives read back kept) (f : α → β) : Gives (read.map f) (f back) kept where
  given hkept := by rw [h.given hkept, Option.map_some]
  refused hlost := by rw [h.refused hlost, Option.map_none]

/-- One reading and then another. -/
theorem pair {others : Option β} {back' : β} (h : Gives read back kept)
    (hothers : Gives others back' kept') :
    Gives (do return (← read, ← others)) (back, back') (kept ∧ kept') where
  given hkept := by
    rw [h.given hkept.1, hothers.given hkept.2]
    rfl
  refused hlost := by
    by_cases hfirst : kept
    · -- the first is read, so what is lost is among the others
      have hrest : ¬ kept' := fun hrest => hlost ⟨hfirst, hrest⟩
      rw [h.given hfirst, hothers.refused hrest]
      rfl
    · rw [h.refused hfirst]
      rfl

end Gives

namespace Codec

/-- What is written of `value` is read as `back` if it is kept, and refused otherwise. -/
def Rereads (C : Codec α) (value back : α) (kept : Prop) : Prop :=
  Gives (C.fromValue (C.toValue value)) back kept

/-- A value as it is read back, and as it is if it is refused. -/
def reread (C : Codec α) (value : α) : α := (C.fromValue (C.toValue value)).getD value

variable {C : Codec α} {value back : α} {kept : Prop}

/-- What is read back as it was is reread unconditionally. -/
theorem Returns.rereads (h : C.Returns value) : C.Rereads value value True where
  given _ := h
  refused hlost := (hlost trivial).elim

/-- A value is returned if it is kept and comes back as itself. -/
theorem Rereads.returns_iff (h : C.Rereads value value kept) : C.Returns value ↔ kept :=
  h.eq_some_iff

/-- A number is kept if it is finite and the text of it is one of a number. -/
theorem rereads_float {isFinite : α → Bool} {text : FloatText α}
    (hparse : isFinite value = true → (text.parse (text.print value)).isSome) :
    (float isFinite text).Rereads value ((float isFinite text).reread value)
      (isFinite value = true) where
  given hfinite := by
    obtain ⟨other, hother⟩ := Option.isSome_iff_exists.mp (hparse hfinite)
    simp [reread, float, hfinite, hother]
  refused hinfinite := by simp [float, hinfinite]

/-- Where the text of every finite float parses to it, the float is reread as itself. -/
theorem reread_float_eq_self {isFinite : α → Bool} {text : FloatText α}
    (hparse : isFinite value = true → text.parse (text.print value) = some value) :
    (float isFinite text).reread value = value := by
  cases hfinite : isFinite value with
  | true => simp [reread, float, hfinite, hparse hfinite]
  | false => simp [reread, float, hfinite]

/-- A list is kept if its items are. -/
theorem rereads_list {items : List α} {back : α → α} {kept : α → Prop}
    (h : ∀ item ∈ items, C.Rereads item (back item) (kept item)) :
    (list C).Rereads items (items.map back) (∀ item ∈ items, kept item) := by
  unfold Rereads list
  dsimp only
  induction items with
  | nil => exact ⟨fun _ => rfl, fun hlost => (hlost (by simp)).elim⟩
  | cons item items ih =>
      rw [List.forall_mem_cons] at h ⊢
      have hcons := ((h.1).pair (ih h.2)).map fun (first, rest) => first :: rest
      rw [List.map_cons, List.mapM_cons]
      -- the monad reads the item and the others as the pair does
      cases hfirst : C.fromValue (C.toValue item) <;>
        cases hrest : (items.map C.toValue).mapM C.fromValue <;>
        simpa [hfirst, hrest] using hcons

/-- What is written as something else is reread through that. -/
theorem Rereads.imap {get : β → α} {mk : α → β} {value : β}
    (h : C.Rereads (get value) back kept) : (imap C mk get).Rereads value (mk back) kept :=
  h.map mk

/-- A variant with data is kept if its data is. -/
theorem Rereads.newtype {mk : α → β} (h : C.Rereads value back kept) :
    Gives (newtype C mk (some (C.toValue value))) (mk back) kept :=
  h.map mk

end Codec

namespace Fields

/-- What is written of the fields of `value`, among others, is read as `back` if it is kept, and
refused otherwise. -/
def Rereads (F : Fields α) (value back : α) (kept : Prop) : Prop :=
  ∀ entries, (entries.map Prod.fst).Nodup → (∀ entry ∈ F.write value, entry ∈ entries) →
    Gives (F.read entries) back kept

theorem rereads_nil : nil.Rereads () () True := by
  intro entries _ _
  exact ⟨fun _ => rfl, fun hlost => (hlost trivial).elim⟩

section

variable {name : String} {C : Codec α} {rest : Fields β} {others back' : β} {kept kept' : Prop}

/-- A required field adds the condition on its value. -/
theorem rereads_required {first back : α} (h : C.Rereads first back kept)
    (hrest : rest.Rereads others back' kept') :
    (required name C rest).Rereads (first, others) (back, back') (kept ∧ kept') := by
  intro entries hnodup hentries
  obtain ⟨hfirst, hothers⟩ := List.forall_mem_cons.mp hentries
  rw [required]
  dsimp only
  rw [field_of_mem hnodup hfirst]
  exact h.pair (hrest entries hnodup hothers)

/-- An optional field adds the condition on its value, if it has one. -/
theorem rereads_optional {first back : Option α} (h : C.option.Rereads first back kept)
    (hrest : rest.Rereads others back' kept') :
    (optional name C rest).Rereads (first, others) (back, back') (kept ∧ kept') := by
  intro entries hnodup hentries
  obtain ⟨hfirst, hothers⟩ := List.forall_mem_cons.mp hentries
  rw [optional]
  dsimp only
  rw [field_of_mem hnodup hfirst]
  exact h.pair (hrest entries hnodup hothers)

end

/-- A structure is kept if its fields are. -/
theorem Rereads.struct {F : Fields α} {mk : α → β} {get : β → α} {value back : β} {parts : α}
    {kept kept' : Prop} (h : F.Rereads (get value) parts kept) (hnames : F.names.Nodup)
    (hback : mk parts = back) (hiff : kept ↔ kept') :
    ((Codec.struct F).imap mk get).Rereads value back kept' := by
  rw [← hback]
  refine Gives.congr (Codec.Rereads.imap ?_) hiff
  exact h _ (F.names_write (get value) ▸ hnames) fun _ hentry => hentry

end Fields

end Json
