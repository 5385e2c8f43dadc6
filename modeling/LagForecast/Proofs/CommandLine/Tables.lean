import LagForecast.CommandLine.Input
import LagForecast.Proofs.CommandLine.Numbering
import LagForecast.Proofs.Json.Faithful
import LagForecast.Proofs.Number.Spelling
import LagForecast.Proofs.Text.Csv

/-!
# Observations in tables

A table whose columns are called `period` and `value` gives the observations that its rows hold,
however their numbers are spelled.  A table without a column of periods gives the values of its
rows at the periods 1, 2, 3 and so on.
-/

set_option autoImplicit false

namespace LagForecast

open String (utf8EncodeChar)

namespace Table

private theorem texts?_bytes (l : List String) : Csv.texts? (l.map Text.bytes) = some l := by
  induction l with
  | nil => rfl
  | cons s rest ih =>
    have hrest : (rest.map Text.bytes).mapM Text.ofBytes? = some rest := ih
    rw [Csv.texts?, List.map_cons, List.mapM_cons, Text.ofBytes?_bytes, hrest]
    rfl

private theorem rowValue_eq_ok {row : Nat} {raw : Option String} {v : Float} :
    rowValue row raw = .ok v ↔ readFloat (Text.trim (raw.getD "")) = .ok v := by
  rw [rowValue]
  by_cases hempty : Text.trim (raw.getD "") = ""
  · rw [if_pos hempty, hempty]
    exact ⟨nofun, nofun⟩
  · rw [if_neg hempty]
    exact mapError_eq_ok

def rowObservation (width value : Nat) (period : Option Nat) (row : Nat)
    (fields : List (List UInt8)) : Except LoadError Observation :=
  match if fields.length = width then Csv.texts? fields else none with
  | none => .error .record
  | some texts => do
    let v ← rowValue row texts[value]?
    let p ← rowPeriod row (period.bind fun i => texts[i]?)
    return ⟨p, v⟩

def RowValue (width column : Nat) (fields : List (List UInt8)) (v : Float) : Prop :=
  fields.length = width ∧ ∃ texts, Csv.texts? fields = some texts ∧
    readFloat (Text.trim (texts[column]?.getD "")) = .ok v

theorem rowValue_of_rowObservation {width value row : Nat} {period : Option Nat}
    {fields : List (List UInt8)} {o : Observation}
    (h : rowObservation width value period row fields = .ok o) :
    RowValue width value fields o.value := by
  rw [rowObservation] at h
  split at h
  · cases h
  · next texts htexts =>
    obtain ⟨hwidth, htexts⟩ := Option.ite_none_right_eq_some.1 htexts
    obtain ⟨v, hv, h⟩ := bind_eq_ok.1 h
    obtain ⟨p, -, h⟩ := bind_eq_ok.1 h
    cases h
    exact ⟨hwidth, texts, htexts, rowValue_eq_ok.1 hv⟩

private theorem rows_eq_readInOrder (width value : Nat) (period : Option Nat) (row : Nat)
    (lines : List (List (List UInt8))) :
    rows width value period row lines =
      readInOrder (rowObservation width value period) row lines := by
  induction lines generalizing row with
  | nil => rfl
  | cons fields lines ih =>
    rw [rows, readInOrder, rowObservation, ih]
    cases (if fields.length = width then Csv.texts? fields else none) with
    | none => rfl
    | some texts =>
      dsimp only
      cases rowValue row texts[value]? with
      | error e => rfl
      | ok v => cases rowPeriod row (period.bind fun i => texts[i]?) <;> rfl

private theorem observations_eq {names : List String} {column : Option String} {value : Nat}
    {bs : List UInt8} {first : List (List UInt8)} {lines : List (List (List UInt8))}
    (hbytes : Csv.records bs = first :: lines) (hnames : Csv.texts? first = some names)
    (hvalue : valueColumn names column = .ok value) :
    observations column bs =
      (readInOrder (rowObservation names.length value (periodColumn names)) 1 lines >>=
        refuseEmpty .noRows) := by
  rw [observations, hbytes]
  dsimp only
  rw [hnames]
  dsimp only
  rw [hvalue, ← rows_eq_readInOrder]
  change (rows names.length value (periodColumn names) 1 lines >>= _) = _
  congr 1
  funext l
  cases l <;> rfl

theorem exists_of_observations {column : Option String} {bs : List UInt8} {l : List Observation}
    (h : observations column bs = .ok l) :
    ∃ first lines names value, Csv.records bs = first :: lines ∧ Csv.texts? first = some names ∧
      valueColumn names column = .ok value ∧ l ≠ [] ∧
      readInOrder (rowObservation names.length value (periodColumn names)) 1 lines = .ok l := by
  cases hbytes : Csv.records bs with
  | nil =>
    rw [observations, hbytes] at h
    obtain ⟨value, -, h⟩ := bind_eq_ok.1 h
    cases h
  | cons first lines =>
    cases hnames : Csv.texts? first with
    | none =>
      rw [observations, hbytes] at h
      dsimp only at h
      rw [hnames] at h
      cases h
    | some names =>
      cases hvalue : valueColumn names column with
      | error e =>
        rw [observations, hbytes] at h
        dsimp only at h
        rw [hnames] at h
        dsimp only at h
        rw [hvalue] at h
        cases h
      | ok value =>
        rw [observations_eq hbytes hnames hvalue, refuseEmpty_eq_ok] at h
        exact ⟨first, lines, names, value, rfl, hnames, hvalue, h⟩

def header : List (List UInt8) := ["period", "value"].map Text.bytes

/-- A row whose fields are read as the period and the value of an observation. -/
def RowHolds (fields : List (List UInt8)) (o : Observation) : Prop :=
  ∃ period value : String, fields = [period, value].map Text.bytes ∧
    readInt 0x7FFFFFFFFFFFFFFF (Text.trim period) = .ok o.period ∧
    readFloat (Text.trim value) = .ok o.value

private theorem rowObservation_of_holds {fields : List (List UInt8)} {o : Observation}
    (h : RowHolds fields o) (row : Nat) : rowObservation 2 1 (some 0) row fields = .ok o := by
  obtain ⟨period, value, rfl, hperiod, hvalue⟩ := h
  have hp : rowPeriod row (some period) = .ok o.period := mapError_eq_ok.2 hperiod
  have hv : rowValue row (some value) = .ok o.value := rowValue_eq_ok.2 hvalue
  rw [rowObservation, if_pos (by rfl), texts?_bytes]
  change (rowValue row (some value) >>= fun v => rowPeriod row (some period) >>= fun p =>
    Except.ok (Observation.mk p v)) = _
  rw [hv, hp]
  rfl

theorem observations_of_rows {column : Option String} (hcolumn : column.getD "value" = "value")
    {bs : List UInt8} {lines : List (List (List UInt8))} {l : List Observation}
    (hbytes : Csv.records bs = header :: lines) (h : List.Forall₂ RowHolds lines l) :
    observations column bs = if l = [] then .error .noRows else .ok l := by
  have hcolumns : valueColumn ["period", "value"] column = .ok 1 := by
    cases column with
    | none => rfl
    | some name =>
      obtain rfl : name = "value" := hcolumn
      rfl
  have hperiods : periodColumn ["period", "value"] = some 0 := rfl
  have hread : readInOrder (rowObservation ["period", "value"].length 1 (some 0)) 1 lines = .ok l :=
    readInOrder_of_forall₂ (h.imp fun _ _ hrow row => rowObservation_of_holds hrow row) 1
  rw [observations_eq hbytes (texts?_bytes _) hcolumns, hperiods, hread]
  cases l <;> rfl

private theorem rowObservation_unnumbered {width column row : Nat} {fields : List (List UInt8)}
    {o : Observation} :
    rowObservation width column none row fields = .ok o ↔
      ∃ v, RowValue width column fields v ∧ o = ⟨row, v⟩ := by
  constructor
  · intro h
    have hvalue := rowValue_of_rowObservation h
    rw [rowObservation] at h
    split at h
    · cases h
    · obtain ⟨v, -, h⟩ := bind_eq_ok.1 h
      obtain ⟨p, hp, h⟩ := bind_eq_ok.1 h
      cases h
      cases hp
      exact ⟨v, hvalue, rfl⟩
  · rintro ⟨v, ⟨hwidth, texts, htexts, hv⟩, rfl⟩
    rw [rowObservation, if_pos hwidth, htexts]
    dsimp only
    rw [rowValue_eq_ok.2 hv]
    rfl

theorem observations_unnumbered {names : List String} {column : Option String} {value : Nat}
    {bs : List UInt8} {first : List (List UInt8)} {lines : List (List (List UInt8))}
    (hbytes : Csv.records bs = first :: lines) (hnames : Csv.texts? first = some names)
    (hperiods : periodColumn names = none) (hvalue : valueColumn names column = .ok value)
    (l : List Observation) :
    observations column bs = .ok l ↔
      l ≠ [] ∧ ∃ values, List.Forall₂ (RowValue names.length value) lines values ∧
        l = History.consecutive 1 values := by
  have hrows : ∀ fields ∈ lines, ∀ row o,
      rowObservation names.length value none row fields = .ok o ↔
        ∃ v, RowValue names.length value fields v ∧ o = ⟨row, v⟩ :=
    fun _ _ _ _ => rowObservation_unnumbered
  rw [observations_eq hbytes hnames hvalue, hperiods, refuseEmpty_eq_ok,
    readInOrder_eq_consecutive hrows]
  rfl

def row (o : Observation) : List (List UInt8) :=
  [String.ofList (Numeral.ofInt o.period).chars,
    String.ofList (Numeral.ofFloat o.value).chars].map Text.bytes

def written (eol : List UInt8) (l : List Observation) : List UInt8 :=
  (header :: l.map row).flatMap (Csv.line eol)

theorem rowHolds_row {o : Observation} (hp : Json.Int64 o.period)
    (hv : o.value.isFinite = true) : RowHolds (row o) o := by
  refine ⟨_, _, rfl, ?_, ?_⟩
  · rw [Numeral.trim_chars]
    exact readInt_ofInt (by unfold Json.Int64 at hp; omega) hp.2
  · rw [Numeral.trim_chars, Numeral.readFloat_chars (Numeral.wellFormed_ofFloat o.value),
      Numeral.toFloat_ofFloat hv]

private theorem plainField_ofList {cs : List Char} (hne : cs ≠ [])
    (h : ∀ c ∈ cs, c.toNat < 0x80 ∧ Csv.Plain c.toNat.toUInt8) :
    Csv.PlainField (Text.bytes (String.ofList cs)) := by
  have hbytes : Text.bytes (String.ofList cs) = cs.map fun c => c.toNat.toUInt8 := by
    rw [Text.bytes_ofList, List.map_eq_flatMap]
    exact List.flatMap_congr fun c hc => Text.utf8EncodeChar_of_ascii (h c hc).1
  rw [hbytes]
  refine ⟨by simpa using hne, fun b hb => ?_⟩
  obtain ⟨c, hc, rfl⟩ := List.mem_map.1 hb
  exact (h c hc).2

private theorem plainField_numeral {n : Numeral} (hn : n.WellFormed) :
    Csv.PlainField (Text.bytes (String.ofList n.chars)) := by
  have hmarks : ∀ c ∈ ['-', '+', '.', 'e'], c.toNat < 0x80 ∧ Csv.Plain c.toNat.toUInt8 := by
    simp [Csv.Plain]
  have hdigits : ∀ d : Digit, d.char.toNat < 0x80 ∧ Csv.Plain d.char.toNat.toUInt8 := by decide
  have hne : n.chars ≠ [] := by
    rw [Json.chars_eq_unsignedChars, Json.unsignedChars]
    simp [hn.whole_ne_nil]
  apply plainField_ofList hne
  intro c hc
  rcases NumeralChar.of_mem_chars hc with hmark | ⟨d, rfl⟩
  · exact hmarks c hmark
  · exact hdigits d

theorem records_written {eol : List UInt8} (heol : eol ∈ Csv.lineEnds) (l : List Observation) :
    Csv.records (written eol l) = header :: l.map row := by
  apply Csv.records_lines heol
  · have hchars : ∀ name ∈ ["period", "value"], name.toList ≠ [] ∧
        ∀ c ∈ name.toList, c.toNat < 0x80 ∧ Csv.Plain c.toNat.toUInt8 := by
      simp [Csv.Plain]
    have hheader : ∀ f ∈ header, Csv.PlainField f := by
      intro f hf
      obtain ⟨name, hname, rfl⟩ := List.mem_map.1 hf
      obtain ⟨hne, hplain⟩ := hchars name hname
      rw [← String.ofList_toList (s := name)]
      exact plainField_ofList hne hplain
    intro fields hfields
    rcases List.mem_cons.1 hfields with rfl | hfields
    · exact ⟨List.cons_ne_nil _ _, hheader⟩
    · obtain ⟨o, -, rfl⟩ := List.mem_map.1 hfields
      refine ⟨List.cons_ne_nil _ _, ?_⟩
      intro f hf
      rcases List.mem_cons.1 hf with rfl | hf
      · exact plainField_numeral (Json.wellFormed_ofInt o.period)
      · rw [List.mem_singleton.1 hf]
        exact plainField_numeral (Numeral.wellFormed_ofFloat o.value)
  · exact fun h => absurd (Option.some.inj h) (by decide)

end Table

end LagForecast
