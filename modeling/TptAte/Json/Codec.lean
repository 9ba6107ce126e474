import Mathlib.Data.List.Nodup
import Mathlib.Tactic.Linarith

/-! # Codecs for JSON

Values of a type are written as a JSON tree and read back from one. The trees follow
the conventions of data types that derive their codecs: a structure is an object of
its fields, a variant without data its name and one with data an object of one entry,
an optional value `null` or the value. Whether a value is returned follows from its
parts.
-/

namespace Json

/-- A JSON tree. Numbers with a fraction or an exponent keep their text. -/
inductive Value where
  | null
  | bool (value : Bool)
  | integer (value : Int)
  | decimal (literal : String)
  | string (text : String)
  | array (items : List Value)
  | object (entries : List (String × Value))

/-- How the values of a type are written and read. -/
structure Codec (α : Type) where
  toValue : α → Value
  fromValue : Value → Option α

namespace Codec

variable {α β κ : Type}

/-- A value is read back as it was written. -/
def Returns (C : Codec α) (value : α) : Prop := C.fromValue (C.toValue value) = some value

/-! ## Scalars -/

def bool : Codec Bool where
  toValue := .bool
  fromValue
    | .bool value => some value
    | _ => none

theorem bool_returns (value : Bool) : bool.Returns value := rfl

def string : Codec String where
  toValue := .string
  fromValue
    | .string text => some text
    | _ => none

theorem string_returns (text : String) : string.Returns text := rfl

def integer (least greatest : Int) (toInt : α → Int) (ofInt : Int → α) : Codec α where
  toValue value := .integer (toInt value)
  fromValue
    | .integer n => if least ≤ n ∧ n ≤ greatest then some (ofInt n) else none
    | _ => none

/-- An integer within the bounds of its type is read back. -/
theorem integer_returns {least greatest : Int} {toInt : α → Int} {ofInt : Int → α} {value : α}
    (hleast : least ≤ toInt value) (hgreatest : toInt value ≤ greatest)
    (hofInt : ofInt (toInt value) = value) :
    (integer least greatest toInt ofInt).Returns value := by
  rw [Returns, integer]
  dsimp only
  rw [if_pos ⟨hleast, hgreatest⟩, hofInt]

/-- How finite floating-point numbers become decimal numbers. -/
structure FloatText (α : Type) where
  print : α → String
  parse : String → Option α
  ofInt : Int → α

/-- A number that is not finite is written as `null`, which is no number. -/
def float (isFinite : α → Bool) (text : FloatText α) : Codec α where
  toValue value := if isFinite value then .decimal (text.print value) else .null
  fromValue
    | .decimal literal => text.parse literal
    | .integer n => some (text.ofInt n)
    | _ => none

/-! ## Options, lists and maps -/

def option (C : Codec α) : Codec (Option α) where
  toValue
    | none => .null
    | some value => C.toValue value
  fromValue
    | .null => some none
    | value => some <$> C.fromValue value

theorem option_returns_none (C : Codec α) : (option C).Returns none := rfl

/-- No value that may be missing is written as `null`. -/
theorem option_returns_some {C : Codec α} {value : α} (hnull : C.toValue value ≠ .null) :
    (option C).Returns (some value) ↔ C.Returns value := by
  unfold Returns option
  cases hvalue : C.toValue value with
  | null => exact absurd hvalue hnull
  | _ => simp

def list (C : Codec α) : Codec (List α) where
  toValue items := .array (items.map C.toValue)
  fromValue
    | .array items => items.mapM C.fromValue
    | _ => none

/-- A list is read back exactly if all its items are. -/
theorem list_returns_iff {C : Codec α} {items : List α} :
    (list C).Returns items ↔ ∀ item ∈ items, C.Returns item := by
  unfold Returns list
  dsimp only
  induction items with
  | nil => simp
  | cons item items ih =>
      rw [List.map_cons, List.mapM_cons, List.forall_mem_cons, ← ih]
      cases C.fromValue (C.toValue item) with
      | none => simp
      | some item' =>
          cases (items.map C.toValue).mapM C.fromValue with
          | none => simp
          | some items' => simp

/-- A map as the list of its entries. -/
def entries [Ord κ] [Std.TransOrd κ] (C : Codec (κ × β)) : Codec (Std.ExtTreeMap κ β) where
  toValue map := (list C).toValue map.toList
  fromValue value := ((list C).fromValue value).map fun items => Std.ExtTreeMap.ofList items

/-- A map as an object, whose keys are texts. -/
def map [Ord κ] [Std.TransOrd κ] (print : κ → String) (parse : String → Option κ) (C : Codec β) :
    Codec (Std.ExtTreeMap κ β) where
  toValue map := .object (map.toList.map fun entry => (print entry.1, C.toValue entry.2))
  fromValue
    | .object entries => do
        let entries ← entries.mapM fun entry => do
          return (← parse entry.1, ← C.fromValue entry.2)
        return Std.ExtTreeMap.ofList entries
    | _ => none

section

variable [Ord κ] [Std.TransOrd κ] [Std.LawfulEqOrd κ]

/-- A map is made again from its entries. -/
theorem ofList_toList (map : Std.ExtTreeMap κ β) : Std.ExtTreeMap.ofList map.toList = map := by
  classical
  have hdistinct := Std.ExtTreeMap.distinct_keys_toList (t := map)
  apply Std.ExtTreeMap.ext_getElem?
  intro key
  cases hkey : map[key]? with
  | some value =>
      have hmem := Std.ExtTreeMap.mem_toList_iff_getElem?_eq_some.mpr hkey
      exact Std.ExtTreeMap.getElem?_ofList_of_mem Std.ReflCmp.compare_self hdistinct hmem
  | none =>
      apply Std.ExtTreeMap.getElem?_eq_none
      rw [Std.ExtTreeMap.mem_ofList]
      simpa using hkey

/-- A map written as a list of entries is read back if each entry is. -/
theorem entries_returns {C : Codec (κ × β)} {map : Std.ExtTreeMap κ β}
    (hentries : ∀ entry ∈ map.toList, C.Returns entry) : (entries C).Returns map := by
  have hlist : (list C).Returns map.toList := list_returns_iff.mpr hentries
  unfold Returns at hlist ⊢
  rw [entries]
  dsimp only
  rw [hlist, Option.map_some, ofList_toList]

/-- A map written as an object is read back if its keys can be parsed and its values are read back.
-/
theorem map_returns {print : κ → String} {parse : String → Option κ} {C : Codec β}
    {entries : Std.ExtTreeMap κ β} (hkeys : ∀ key, parse (print key) = some key)
    (hvalues : ∀ entry ∈ entries.toList, C.Returns entry.2) :
    (map print parse C).Returns entries := by
  have hread (l : List (κ × β)) (hl : ∀ entry ∈ l, C.Returns entry.2) :
      (l.map fun entry => (print entry.1, C.toValue entry.2)).mapM (fun entry => do
        return (← parse entry.1, ← C.fromValue entry.2)) = some l := by
    induction l with
    | nil => rfl
    | cons entry l ih =>
        have hentry : C.fromValue (C.toValue entry.2) = some entry.2 := hl entry List.mem_cons_self
        rw [List.map_cons, List.mapM_cons, ih fun entry hentry => hl entry (.tail _ hentry)]
        simp [hkeys, hentry]
  rw [Returns, map]
  dsimp only
  rw [hread _ hvalues]
  simp [ofList_toList]

end

/-! ## Other representations -/

/-- Values of another type, through their representation. -/
def imap (C : Codec α) (mk : α → β) (get : β → α) : Codec β where
  toValue value := C.toValue (get value)
  fromValue value := (C.fromValue value).map mk

/-- What is written as something else is read back exactly if that is. -/
theorem imap_returns_iff {C : Codec α} {mk : α → β} {get : β → α}
    (hget : ∀ parts, get (mk parts) = parts) (hmk : ∀ value, mk (get value) = value) {value : β} :
    (imap C mk get).Returns value ↔ C.Returns (get value) := by
  unfold Returns imap
  dsimp only
  rw [Option.map_eq_some_iff]
  constructor
  · rintro ⟨parts, hparts, rfl⟩
    rw [hget] at hparts ⊢
    exact hparts
  · exact fun hparts => ⟨get value, hparts, hmk value⟩

/-! ## Enumerations -/

/-- A variant is written as its name, with its data if it has any. -/
def enum (write : α → String × Option Value) (read : String → Option Value → Option α) :
    Codec α where
  toValue value :=
    match write value with
    | (name, none) => .string name
    | (name, some data) => .object [(name, data)]
  fromValue
    | .string name => read name none
    | .object [(name, data)] => read name (some data)
    | _ => none

/-- A variant is read back exactly if its tag and data give it again. -/
theorem enum_returns_iff {write : α → String × Option Value}
    {read : String → Option Value → Option α} {value : α} :
    (enum write read).Returns value ↔ read (write value).1 (write value).2 = some value := by
  unfold Returns enum
  dsimp only
  rcases write value with ⟨name, _ | data⟩ <;> rfl

/-- A variant without data may also come with `null`. -/
def unit (value : α) : Option Value → Option α
  | none | some .null => some value
  | _ => none

def newtype (C : Codec β) (mk : β → α) (data : Option Value) : Option α :=
  (data.bind C.fromValue).map mk

/-- A newtype is read back exactly if what it wraps is. -/
theorem newtype_returns_iff {C : Codec β} {mk : β → α} (hmk : Function.Injective mk)
    {data : β} : newtype C mk (some (C.toValue data)) = some (mk data) ↔ C.Returns data := by
  unfold newtype Returns
  rw [Option.bind_some, Option.map_eq_some_iff]
  constructor
  · rintro ⟨data', hdata', heq⟩
    rwa [hmk heq] at hdata'
  · exact fun hdata => ⟨data, hdata, rfl⟩

/-- An enumeration of variants without data, all of which are listed. -/
def names (name : α → String) (all : List α) : Codec α :=
  enum (fun value => (name value, none)) fun text data => do
    let value ← all.find? fun value => name value == text
    unit value data

/-- A variant without data is read back if its name is the first of that spelling. -/
theorem names_returns {name : α → String} {all : List α} {value : α}
    (hfind : all.find? (fun value' => name value' == name value) = some value) :
    (names name all).Returns value := by
  rw [names, enum_returns_iff]
  simp [hfind, unit]

end Codec

/-! ## Structures -/

/-- The value of a field: missing, given, or given more than once. -/
def field (name : String) (entries : List (String × Value)) : Option (Option Value) :=
  match entries.filter (·.1 == name) with
  | [] => some none
  | [(_, value)] => some (some value)
  | _ => none

/-- Where no name comes twice, an entry is found under its name. -/
theorem field_of_mem {name : String} {value : Value} {entries : List (String × Value)}
    (hnodup : (entries.map Prod.fst).Nodup) (hmem : (name, value) ∈ entries) :
    field name entries = some (some value) := by
  have hfilter : entries.filter (·.1 == name) = [(name, value)] := by
    induction entries with
    | nil => simp at hmem
    | cons entry entries ih =>
        rw [List.map_cons, List.nodup_cons] at hnodup
        rcases List.mem_cons.mp hmem with rfl | hmem
        · have hothers : entries.filter (·.1 == name) = [] := by
            rw [List.filter_eq_nil_iff]
            intro other hother hname
            exact hnodup.1 (List.mem_map.mpr ⟨other, hother, by simpa using hname⟩)
          rw [List.filter_cons_of_pos (by simp), hothers]
        · have hother : entry.1 ≠ name := fun hname =>
            hnodup.1 (hname ▸ List.mem_map_of_mem hmem)
          rw [List.filter_cons_of_neg (by simpa using hother), ih hnodup.2 hmem]
  rw [field, hfilter]

variable {α β : Type}

/-- The fields of a structure with their laws. They may also be read in order from a list. -/
structure Fields (α : Type) where
  names : List String
  write : α → List (String × Value)
  read : List (String × Value) → Option α
  readList : List Value → Option α
  /-- All fields are returned. -/
  Returns : α → Prop
  names_write : ∀ value, (write value).map Prod.fst = names
  read_iff : ∀ {entries value}, (entries.map Prod.fst).Nodup →
    (∀ entry ∈ write value, entry ∈ entries) → (read entries = some value ↔ Returns value)

namespace Fields

def nil : Fields Unit where
  names := []
  write _ := []
  read _ := some ()
  readList
    | [] => some ()
    | _ => none
  Returns _ := True
  names_write _ := rfl
  read_iff _ _ := by simp

/-- A field that must be there, then others. -/
def required (name : String) (C : Codec α) (rest : Fields β) : Fields (α × β) where
  names := name :: rest.names
  write value := (name, C.toValue value.1) :: rest.write value.2
  read entries := do
    let some value ← field name entries | none
    return (← C.fromValue value, ← rest.read entries)
  readList
    | [] => none
    | value :: values => do return (← C.fromValue value, ← rest.readList values)
  Returns value := C.Returns value.1 ∧ rest.Returns value.2
  names_write value := by rw [List.map_cons, rest.names_write]
  read_iff {entries value} hnodup hentries := by
    rw [List.forall_mem_cons] at hentries
    rw [field_of_mem hnodup hentries.1, ← rest.read_iff hnodup hentries.2]
    unfold Codec.Returns
    cases hread : C.fromValue (C.toValue value.1) <;> cases rest.read entries <;>
      simp [hread, Prod.ext_iff]

/-- A field that is `none` where it is missing, then others. -/
def optional (name : String) (C : Codec α) (rest : Fields β) : Fields (Option α × β) where
  names := name :: rest.names
  write value := (name, C.option.toValue value.1) :: rest.write value.2
  read entries := do
    let value ← field name entries
    return (← C.option.fromValue (value.getD .null), ← rest.read entries)
  readList
    | [] => none
    | value :: values => do return (← C.option.fromValue value, ← rest.readList values)
  Returns value := C.option.Returns value.1 ∧ rest.Returns value.2
  names_write value := by rw [List.map_cons, rest.names_write]
  read_iff {entries value} hnodup hentries := by
    rw [List.forall_mem_cons] at hentries
    rw [field_of_mem hnodup hentries.1, ← rest.read_iff hnodup hentries.2]
    unfold Codec.Returns
    cases hread : C.option.fromValue (C.option.toValue value.1) <;>
      cases rest.read entries <;> simp [hread, Prod.ext_iff]

@[simp] theorem names_nil : nil.names = [] := rfl

@[simp] theorem names_required (name : String) (C : Codec α) (rest : Fields β) :
    (required name C rest).names = name :: rest.names := rfl

@[simp] theorem names_optional (name : String) (C : Codec α) (rest : Fields β) :
    (optional name C rest).names = name :: rest.names := rfl

end Fields

def Codec.struct (F : Fields α) : Codec α where
  toValue value := .object (F.write value)
  fromValue
    | .object entries => F.read entries
    | .array values => F.readList values
    | _ => none

theorem Codec.struct_returns_iff {F : Fields α} (hnames : F.names.Nodup) {value : α} :
    (struct F).Returns value ↔ F.Returns value :=
  F.read_iff (F.names_write value ▸ hnames) fun _ hentry => hentry

/-- A structure is returned if its fields are. -/
theorem Codec.struct_imap_returns_iff {F : Fields α} {mk : α → β} {get : β → α}
    (hnames : F.names.Nodup) (hget : ∀ parts, get (mk parts) = parts)
    (hmk : ∀ value, mk (get value) = value) {value : β} :
    ((struct F).imap mk get).Returns value ↔ F.Returns (get value) :=
  (imap_returns_iff hget hmk).trans (struct_returns_iff hnames)

end Json
