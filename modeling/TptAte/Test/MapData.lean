import TptAte.Test.Recording
import TptAte.Stdf.RoundTrip

/-! # The wafer map as generic data

The payload of the GDR is decoded into the wafer id and one entry for each die, in
ascending order of the locations. A failed die in no bin cannot be told from one that
is not tested.
-/

namespace Test

open Wire Stdf

/-! ## One die -/

theorem length_encodeDie (coord : DieCoord) (state : DieState) :
    (encodeDie coord state).length = entryLength := by
  cases state <;> simp [encodeDie, Word.length_bytes] <;> rfl

/-- What a decoded map says of a die. -/
def DieState.recorded : DieState → Option DieTestOutcome
  | .tested outcome => if outcome = ⟨false, 0, 0⟩ then none else some outcome
  | _ => none

theorem ofNat_value_bytes {α : Type} (word : Word α) (value : α) :
    word.ofNat (Endian.little.value (word.bytes .little value)) = value := by
  rw [Word.bytes, Endian.value_bytes _ _ _ (word.toNat_lt value), word.ofNat_toNat]

/-- A field of an entry, between those before and those behind it. -/
theorem take_drop_append {front field : Bytes} {start width : Nat} (hfront : front.length = start)
    (hfield : field.length = width) (rest : Bytes) :
    ((front ++ field ++ rest).drop start).take width = field := by
  rw [List.append_assoc, List.drop_left' hfront, List.take_left' hfield]

/-- A die from the fields of its entry. -/
theorem decodeDie_fields (x y : Int32) (hard soft : UInt16) (passed : Bool) :
    decodeDie (Word.i32.bytes .little x ++ Word.i32.bytes .little y ++
        (Word.u16.bytes .little hard ++ Word.u16.bytes .little soft ++ [passed.toUInt8])) =
      (⟨x, y⟩, (DieState.tested ⟨passed, hard, soft⟩).recorded) := by
  have hword (value : Int32) : (Word.i32.bytes .little value).length = 4 := Word.length_bytes _ _ _
  have hbin (bin : UInt16) : (Word.u16.bytes .little bin).length = 2 := Word.length_bytes _ _ _
  have hpassed : (Endian.little.value [passed.toUInt8] != 0) = passed := by
    cases passed <;> decide
  generalize hentry : Word.i32.bytes .little x ++ Word.i32.bytes .little y ++
    (Word.u16.bytes .little hard ++ Word.u16.bytes .little soft ++ [passed.toUInt8]) = entry
  have hx : (entry.drop 0).take 4 = Word.i32.bytes .little x := by
    rw [← hentry, List.append_assoc]
    exact @take_drop_append [] _ 0 4 rfl (hword x) _
  have hy : (entry.drop 4).take 4 = Word.i32.bytes .little y := by
    rw [← hentry]
    exact take_drop_append (hword x) (hword y) _
  have hhard : (entry.drop 8).take 2 = Word.u16.bytes .little hard := by
    rw [← hentry, List.append_assoc (Word.u16.bytes .little hard), ← List.append_assoc]
    exact take_drop_append (by simp [hword]) (hbin hard) _
  have hsoft : (entry.drop 10).take 2 = Word.u16.bytes .little soft := by
    rw [← hentry, ← List.append_assoc, ← List.append_assoc]
    exact take_drop_append (by simp [hword, hbin]) (hbin soft) _
  have hverdict : (entry.drop 12).take 1 = [passed.toUInt8] := by
    have hrest := @take_drop_append (Word.i32.bytes .little x ++ Word.i32.bytes .little y ++
      (Word.u16.bytes .little hard ++ Word.u16.bytes .little soft)) [passed.toUInt8] 12 1
      (by simp [hword, hbin]) rfl []
    rwa [List.append_nil, List.append_assoc, hentry] at hrest
  simp only [decodeDie, hx, hy, hhard, hsoft, hverdict, ofNat_value_bytes, hpassed,
    DieState.recorded]
  cases passed <;> simp

/-- The entry of a site is read back as far as it is recorded. -/
theorem decodeDie_encodeDie (coord : DieCoord) (state : DieState) :
    decodeDie (encodeDie coord state) = (coord, state.recorded) := by
  cases state with
  | tested outcome => exact decodeDie_fields coord.x coord.y outcome.hardBin outcome.softBin _
  | _ => exact decodeDie_fields coord.x coord.y 0 0 false

/-! ## The dies of a map -/

theorem decodeDies_nil : decodeDies [] = [] := by
  rw [decodeDies]
  rfl

theorem decodeDies_append {entry : Bytes} (hentry : entry.length = entryLength) (rest : Bytes) :
    decodeDies (entry ++ rest) = decodeDie entry :: decodeDies rest := by
  rw [decodeDies, if_pos (by simp [hentry]), List.take_left' hentry, List.drop_left' hentry]

/-- All entries are read back, one after the other. -/
theorem decodeDies_flatMap (entries : List (DieCoord × DieState)) :
    decodeDies (entries.flatMap fun entry => encodeDie entry.1 entry.2) =
      entries.map fun entry => (entry.1, entry.2.recorded) := by
  induction entries with
  | nil => exact decodeDies_nil
  | cons entry entries ih =>
      rw [List.flatMap_cons, decodeDies_append (length_encodeDie _ _), decodeDie_encodeDie, ih,
        List.map_cons]

/-- The sites of a map are in ascending order already. -/
theorem mergeSort_dies (wafer : WaferDieMap) :
    (wafer.dies.toList.mergeSort fun a b => (compare a.1 b.1).isLE) = wafer.dies.toList := by
  apply List.mergeSort_of_pairwise
  refine Std.ExtTreeMap.ordered_keys_toList.imp ?_
  intro a b hlt
  rw [hlt]
  rfl

/-! ## The whole payload -/

/-- The map takes one entry for each site behind its name. -/
theorem length_encodeWaferMapGdr (wafer : WaferDieMap) :
    (encodeWaferMapGdr wafer).length =
      1 + (asBytes wafer.waferId).length + entryLength * wafer.dies.size := by
  have hentries : (wafer.dies.toList.map fun entry =>
      (encodeDie entry.1 entry.2).length).sum = entryLength * wafer.dies.size := by
    simp [length_encodeDie, Nat.mul_comm]
  rw [encodeWaferMapGdr, mergeSort_dies, List.cons_append, List.length_cons, List.length_append,
    List.length_flatMap, hentries]
  omega

/-- The payload of a map with an id that fits its length byte decodes to the map. -/
theorem decodeWaferMapGdr_encodeWaferMapGdr {wafer : WaferDieMap} (hid : FitsCn wafer.waferId) :
    decodeWaferMapGdr ⟨encodeWaferMapGdr wafer⟩ =
      some (some { waferId := wafer.waferId
                   dies := wafer.dies.toList.map fun entry => (entry.1, entry.2.recorded) }) := by
  have hlength : (UInt8.ofNat (asBytes wafer.waferId).length).toNat =
      (asBytes wafer.waferId).length :=
    UInt8.toNat_ofNat_of_lt' (Nat.lt_succ_iff.mpr hid)
  rw [encodeWaferMapGdr, mergeSort_dies, List.cons_append, decodeWaferMapGdr]
  simp only [hlength, List.length_append, List.take_left, List.drop_left, decodeDies_flatMap]
  rw [if_neg (by omega), fromUtf8Lossy_asBytes]

/-! ## A sorted map -/

section

variable (result : DieTestResult) (program : TestProgram) (taxonomy : BinTaxonomy)

theorem softBin_assignFail_ne_zero (softBin : UInt16) {fallback : UInt16} (hfallback : fallback ≠ 0)
    (failingTest : Option UInt32) :
    (assignFail result taxonomy softBin fallback failingTest).softBin ≠ 0 := by
  unfold assignFail
  by_cases hzero : softBin = 0
  · simpa [hzero] using hfallback
  · simp [hzero]

/-- No die is sorted into software bin zero. -/
theorem softBin_sortDie_ne_zero : (sortDie result program taxonomy).softBin ≠ 0 := by
  unfold sortDie
  split
  · exact softBin_assignFail_ne_zero result taxonomy _ (by decide) _
  split
  · exact softBin_assignFail_ne_zero result taxonomy _ (by decide) _
  split
  · exact softBin_assignFail_ne_zero result taxonomy _ (by decide) _
  · exact show (1 : UInt16) ≠ 0 by decide

variable {program taxonomy}

/-- What a sorted map says of a die is recorded: a result in no bin never comes out of
sorting. -/
theorem recorded_sortWafer {wafer : WaferDieMap} (hfresh : wafer.Fresh)
    (results : List DieTestResult) {coord : DieCoord} {state : DieState}
    (hstate : (sortWafer results wafer program taxonomy).2.dies[coord]? = some state) :
    state.recorded = state.outcome? := by
  cases state with
  | tested outcome =>
      have hbin : outcome.softBin ≠ 0 := by
        rw [getElem?_sortWafer] at hstate
        split at hstate
        · cases hlast : lastFor coord results with
          | none =>
              rw [hlast] at hstate
              exact absurd hstate (hfresh coord outcome)
          | some result =>
              rw [hlast] at hstate
              cases hstate
              exact softBin_sortDie_ne_zero result program taxonomy
        · exact absurd hstate (hfresh coord outcome)
      apply if_neg
      rintro rfl
      exact hbin rfl
  | _ => rfl

end

/-- A decoded map of a wafer: one entry for each site, in ascending order of the
locations, with the outcome where the site is tested. -/
structure WaferMapSnapshot.Shows (snapshot : WaferMapSnapshot) (wafer : WaferDieMap) : Prop where
  waferId : snapshot.waferId = wafer.waferId
  ascending : snapshot.dies.Pairwise fun a b => compare a.1 b.1 = .lt
  dies (coord : DieCoord) (found : Option DieTestOutcome) :
    (coord, found) ∈ snapshot.dies ↔ ∃ state ∈ wafer.dies[coord]?, found = state.outcome?

theorem shows_outcomes {wafer : WaferDieMap}
    (hrecorded : ∀ (coord : DieCoord) (state : DieState),
      wafer.dies[coord]? = some state → state.recorded = state.outcome?) :
    WaferMapSnapshot.Shows
      { waferId := wafer.waferId
        dies := wafer.dies.toList.map fun entry => (entry.1, entry.2.recorded) } wafer where
  waferId := rfl
  ascending := by
    rw [List.pairwise_map]
    exact Std.ExtTreeMap.ordered_keys_toList
  dies coord found := by
    rw [List.mem_map]
    constructor
    · intro hfound
      obtain ⟨⟨coord', state⟩, hmem, heq⟩ := hfound
      cases heq
      rw [Std.ExtTreeMap.mem_toList_iff_getElem?_eq_some] at hmem
      exact ⟨state, hmem, hrecorded coord' state hmem⟩
    · intro hfound
      obtain ⟨state, hstate, rfl⟩ := hfound
      refine ⟨(coord, state), Std.ExtTreeMap.mem_toList_iff_getElem?_eq_some.mpr hstate, ?_⟩
      rw [hrecorded coord state hstate]

/-- The payload that a sorted map is written to decodes to what the map shows, with the
wafer id that the map had before. -/
theorem decode_sortWafer {wafer : WaferDieMap} (hfresh : wafer.Fresh) (hid : FitsCn wafer.waferId)
    (program : TestProgram) (taxonomy : BinTaxonomy) (results : List DieTestResult) :
    ∃ snapshot : WaferMapSnapshot,
      decodeWaferMapGdr ⟨encodeWaferMapGdr (sortWafer results wafer program taxonomy).2⟩ =
        some (some snapshot) ∧
      snapshot.waferId = wafer.waferId ∧
      snapshot.Shows (sortWafer results wafer program taxonomy).2 := by
  have hsame := @sameWafer_sortWafer program taxonomy results wafer
  have hfits : FitsCn (sortWafer results wafer program taxonomy).2.waferId := by
    rw [hsame.waferId]
    exact hid
  refine ⟨_, decodeWaferMapGdr_encodeWaferMapGdr hfits, hsame.waferId, ?_⟩
  exact shows_outcomes fun _ _ hstate => recorded_sortWafer hfresh results hstate

theorem fitsCn_twoSites : FitsCn twoSites.waferId :=
  show (asBytes "W1").length ≤ 255 by decide +kernel

/-- The map of a die that failed and of one that is excluded. -/
theorem decode_sortWafer_fourResults :
    ∃ snapshot : WaferMapSnapshot,
      decodeWaferMapGdr
          ⟨encodeWaferMapGdr (sortWafer fourResults twoSites lenientProgram .defaults).2⟩ =
        some (some snapshot) ∧
      snapshot.waferId = twoSites.waferId ∧
      snapshot.Shows (sortWafer fourResults twoSites lenientProgram .defaults).2 :=
  decode_sortWafer fresh_twoSites fitsCn_twoSites lenientProgram .defaults fourResults

/-! ## A cut payload -/

theorem entryLength_pos : 0 < entryLength := by decide

theorem decodeDies_short {data : Bytes} (hshort : data.length < entryLength) :
    decodeDies data = [] := by
  rw [decodeDies, if_neg (by omega)]

/-- Only the entries in front of the cut are decoded. -/
theorem decodeDies_take (entries : List (DieCoord × DieState)) (cut : Nat) :
    decodeDies ((entries.flatMap fun entry => encodeDie entry.1 entry.2).take cut) =
      (entries.take (cut / entryLength)).map fun entry => (entry.1, entry.2.recorded) := by
  induction entries generalizing cut with
  | nil =>
      rw [List.flatMap_nil, List.take_nil, List.take_nil]
      exact decodeDies_nil
  | cons entry entries ih =>
      have hlength := length_encodeDie entry.1 entry.2
      rw [List.flatMap_cons]
      by_cases hcut : entryLength ≤ cut
      · have hcount : cut / entryLength = (cut - entryLength) / entryLength + 1 :=
          Nat.div_eq_sub_div entryLength_pos hcut
        rw [List.take_append, List.take_of_length_le (by omega), hlength,
          decodeDies_append hlength, decodeDie_encodeDie, ih, hcount, List.take_succ_cons,
          List.map_cons]
      · have hshort : ((encodeDie entry.1 entry.2 ++
            entries.flatMap fun entry => encodeDie entry.1 entry.2).take cut).length <
              entryLength := by
          rw [List.length_take]
          omega
        rw [decodeDies_short hshort, Nat.div_eq_of_lt (by omega)]
        rfl

/-- The payload of a map, cut anywhere: nothing is refused but the empty payload, a cut
within the wafer id panics, and behind it the dies that are cut off are left out. -/
theorem decodeWaferMapGdr_take {wafer : WaferDieMap} (hid : FitsCn wafer.waferId) (cut : Nat) :
    decodeWaferMapGdr ⟨(encodeWaferMapGdr wafer).take cut⟩ =
      if cut = 0 then some none
      else if cut ≤ (asBytes wafer.waferId).length then none
      else
        some (some
          { waferId := wafer.waferId
            dies := (wafer.dies.toList.take
              ((cut - 1 - (asBytes wafer.waferId).length) / entryLength)).map fun entry =>
                (entry.1, entry.2.recorded) }) := by
  have hlength : (UInt8.ofNat (asBytes wafer.waferId).length).toNat =
      (asBytes wafer.waferId).length :=
    UInt8.toNat_ofNat_of_lt' (Nat.lt_succ_iff.mpr hid)
  rw [encodeWaferMapGdr, mergeSort_dies, List.cons_append]
  cases cut with
  | zero => rfl
  | succ cut =>
      rw [List.take_succ_cons, decodeWaferMapGdr, if_neg (Nat.succ_ne_zero cut)]
      dsimp only
      rw [hlength]
      -- cut inside the name the map is refused; behind it the whole entries are read
      by_cases hcut : cut + 1 ≤ (asBytes wafer.waferId).length
      · rw [if_pos hcut, if_pos]
        rw [List.length_take]
        omega
      · rw [if_neg hcut, if_neg]
        · have hid : (asBytes wafer.waferId).take cut = asBytes wafer.waferId :=
            List.take_of_length_le (by omega)
          rw [List.take_append, hid, List.take_left, List.drop_left, decodeDies_take,
            fromUtf8Lossy_asBytes, Nat.add_sub_cancel]
        · rw [List.length_take, List.length_append]
          omega

/-- A part of the payload from its start is refused exactly if it is empty. -/
theorem refused_iff_nil {wafer : WaferDieMap} (hid : FitsCn wafer.waferId) {cut : Bytes}
    (hcut : cut <+: encodeWaferMapGdr wafer) :
    decodeWaferMapGdr ⟨cut⟩ = some none ↔ cut = [] := by
  rw [List.prefix_iff_eq_take.mp hcut, decodeWaferMapGdr_take hid,
    ← List.prefix_iff_eq_take.mp hcut, ← List.length_eq_zero_iff]
  by_cases hnil : cut.length = 0
  · simp [hnil]
  · rw [if_neg hnil]
    split <;> simp [hnil]

theorem take_twoSites_ne {cut : Nat} (hcut : cut < 29) :
    (encodeWaferMapGdr twoSites).take cut ≠ encodeWaferMapGdr twoSites := by
  have hlength : (encodeWaferMapGdr twoSites).length = 29 := by
    rw [length_encodeWaferMapGdr]
    decide +kernel
  intro heq
  have htake := congrArg List.length heq
  rw [List.length_take, hlength] at htake
  omega

/-- A payload that ends behind its first die. -/
theorem refused_iff_nil_twoSites :
    decodeWaferMapGdr ⟨(encodeWaferMapGdr twoSites).take 16⟩ = some none ↔
      (encodeWaferMapGdr twoSites).take 16 = [] :=
  refused_iff_nil fitsCn_twoSites (List.take_prefix 16 _)

/-- A payload that is cut within the id panics; one that is cut behind a die is taken
for the map of a smaller wafer. -/
theorem not_refused_twoSites :
    decodeWaferMapGdr ⟨(encodeWaferMapGdr twoSites).take 2⟩ = none ∧
      decodeWaferMapGdr ⟨(encodeWaferMapGdr twoSites).take 16⟩ =
        some (some { waferId := "W1", dies := [(⟨0, 0⟩, none)] }) ∧
      ¬ ∀ (wafer : WaferDieMap) (cut : Bytes), FitsCn wafer.waferId →
        cut <+: encodeWaferMapGdr wafer → cut ≠ encodeWaferMapGdr wafer →
          decodeWaferMapGdr ⟨cut⟩ = some none := by
  have hlength : (asBytes twoSites.waferId).length = 2 := by decide +kernel
  refine ⟨?_, ?_, ?_⟩
  · rw [decodeWaferMapGdr_take fitsCn_twoSites, hlength]
    rfl
  · rw [decodeWaferMapGdr_take fitsCn_twoSites, hlength]
    decide +kernel
  · intro hall
    have hrefused := hall twoSites ((encodeWaferMapGdr twoSites).take 2) fitsCn_twoSites
      (List.take_prefix 2 _) (take_twoSites_ne (by decide))
    rw [decodeWaferMapGdr_take fitsCn_twoSites, hlength] at hrefused
    cases hrefused

end Test
