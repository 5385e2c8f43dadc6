import LagForecast.CommandLine.Input
import LagForecast.History.Basic
import LagForecast.Proofs.CommandLine.Numbering
import LagForecast.Proofs.Json.Faithful

/-!
# Observations in JSON texts

An array of objects with a period and a value gives the observations that they hold.  An array of
which no item has a period gives the values of its items at the periods 1, 2, 3 and so on.
-/

set_option autoImplicit false

namespace LagForecast

namespace Json

private theorem entryObservations_eq_readInOrder (name : String) (place : Nat) (items : List Json) :
    entryObservations name place items = readInOrder (entryObservation name) place items := by
  induction items generalizing place with
  | nil => rfl
  | cons item items ih =>
    rw [entryObservations, readInOrder]
    simp only [ih]

private theorem observations_eq {column : Option String} {bs : List UInt8} {v : Json}
    {items : List Json}
    (hbytes : readExpanded? bs = some v) (hitems : observationArray v = .ok items) :
    observations column bs =
      (readInOrder (entryObservation (column.getD "value")) 1 items >>=
        refuseEmpty .noNumbers) := by
  rw [observations, hbytes]
  dsimp only
  rw [hitems, ← entryObservations_eq_readInOrder]
  change (entryObservations (column.getD "value") 1 items >>= _) = _
  congr 1
  funext l
  cases l <;> rfl

/-- An object whose entries are read as the period and the value of an observation. -/
def ItemHolds (item : Json) (o : Observation) : Prop :=
  ∃ entries period value, item = .object entries ∧
    lastEntry? "period" entries = some (.number period) ∧ period.toInt? = some o.period ∧
    lastEntry? "value" entries = some (.number value) ∧ value.toFloat = o.value

private theorem entryObservation_of_holds {item : Json} {o : Observation} (h : ItemHolds item o)
    (hp : Int64 o.period) (place : Nat) :
    entryObservation "value" place item = .ok o := by
  obtain ⟨entries, period, value, rfl, hperiod, hinteger, hvalue, hfloat⟩ := h
  have hwithin : -0x8000000000000000 ≤ o.period ∧ o.period ≤ lastPossiblePeriod := hp
  have hentry : entryPeriod place entries = .ok o.period := by
    rw [entryPeriod, hperiod]
    dsimp only
    rw [hinteger]
    exact if_pos hwithin
  have hnumber : entryNumber "value" entries = some o.value := by
    rw [entryNumber, hvalue, ← hfloat]
  simp only [entryObservation, hentry, hnumber]
  rfl

theorem observations_of_items {column : Option String} (hcolumn : column.getD "value" = "value")
    {bs : List UInt8} {entries : List (Option String × Json)} {items : List Json}
    {l : List Observation} (hbytes : readExpanded? bs = some (.object entries))
    (hitems : lastEntry? "observations" entries = some (.array items))
    (h : List.Forall₂ ItemHolds items l) (hl : ∀ o ∈ l, Int64 o.period) :
    observations column bs = if l = [] then .error .noNumbers else .ok l := by
  have harray : observationArray (.object entries) = .ok items := by
    rw [observationArray, arrayNames, List.findSome?_cons, hitems]
  have hread : readInOrder (entryObservation "value") 1 items = .ok l := by
    apply readInOrder_of_forall₂
    rw [List.forall₂_iff_zip] at h ⊢
    refine ⟨h.1, fun {item o} hmem => ?_⟩
    exact entryObservation_of_holds (h.2 hmem) (hl o (List.of_mem_zip hmem).2)
  rw [observations_eq hbytes harray, hcolumn, hread]
  cases l <;> rfl

def ItemValue (name : String) (item : Json) (v : Float) : Prop :=
  (∃ n, item = .number n ∧ n.toFloat = v) ∨
    ∃ entries, item = .object entries ∧ entryNumber name entries = some v

def Periodless (item : Json) : Prop :=
  ∀ entries, item = .object entries → lastEntry? "period" entries = none

private theorem entryObservation_periodless {name : String} {item : Json} (hitem : Periodless item)
    {place : Nat} {o : Observation} :
    entryObservation name place item = .ok o ↔
      ∃ v, ItemValue name item v ∧ o = ⟨place, v⟩ := by
  cases item with
  | number n =>
    constructor
    · intro h
      cases h
      exact ⟨n.toFloat, Or.inl ⟨n, rfl, rfl⟩, rfl⟩
    · rintro ⟨v, ⟨m, hm, rfl⟩ | ⟨entries, hentries, -⟩, rfl⟩
      · cases hm
        rfl
      · cases hentries
  | object entries =>
    have hperiod : entryPeriod place entries = .ok place := by
      rw [entryPeriod, hitem entries rfl]
    constructor
    · intro h
      rw [entryObservation, hperiod] at h
      obtain ⟨p, hp, h⟩ := bind_eq_ok.1 h
      cases hp
      cases hv : entryNumber name entries with
      | none =>
        rw [hv] at h
        cases h
      | some v =>
        rw [hv] at h
        cases h
        exact ⟨v, Or.inr ⟨entries, rfl, hv⟩, rfl⟩
    · rintro ⟨v, ⟨m, hm, -⟩ | ⟨entries', hentries, hv⟩, rfl⟩
      · cases hm
      · cases hentries
        simp only [entryObservation, hperiod, hv]
        rfl
  | null | bool | string | array | broken =>
    constructor
    · intro h
      cases h
    · rintro ⟨v, ⟨m, hm, -⟩ | ⟨entries, hentries, -⟩, -⟩
      · cases hm
      · cases hentries

theorem observations_periodless {column : Option String} {bs : List UInt8} {v : Json}
    {items : List Json} (hbytes : readExpanded? bs = some v)
    (hitems : observationArray v = .ok items) (l : List Observation) :
    ((∀ item ∈ items, Periodless item) →
      (observations column bs = .ok l ↔
        l ≠ [] ∧ ∃ values, List.Forall₂ (ItemValue (column.getD "value")) items values ∧
          l = History.consecutive 1 values)) ∧
    (observations column bs = .ok l → ∀ (i : Nat) (item : Json), items[i]? = some item →
      Periodless item → ∃ v, ItemValue (column.getD "value") item v ∧ l[i]? = some ⟨i + 1, v⟩) := by
  rw [observations_eq hbytes hitems, refuseEmpty_eq_ok]
  constructor
  · intro hperiods
    have hitems : ∀ item ∈ items, ∀ place o,
        entryObservation (column.getD "value") place item = .ok o ↔
          ∃ v, ItemValue (column.getD "value") item v ∧ o = ⟨place, v⟩ :=
      fun item hmem _ _ => entryObservation_periodless (hperiods item hmem)
    rw [readInOrder_eq_consecutive hitems]
    rfl
  · rintro ⟨-, hread⟩ i item hi hitem
    obtain ⟨o, ho, hplace⟩ := getElem?_readInOrder hread hi
    obtain ⟨v, hv, rfl⟩ := (entryObservation_periodless hitem).1 ho
    refine ⟨v, hv, ?_⟩
    rw [hplace, Nat.add_comm]
    rfl

private theorem mapM_eq_some_self {α : Type} {f : α → Option α} {l : List α}
    (h : ∀ a ∈ l, f a = some a) : l.mapM f = some l := by
  rw [mapM_eq_some_map h, List.map_id']

private theorem expand_array {fuel : Nat} {items : List Json}
    (h : ∀ v ∈ items, expand fuel v = some v) :
    expand (fuel + 1) (.array items) = some (.array items) := by
  rw [expand, mapM_eq_some_self h]
  rfl

private theorem expand_record {fuel : Nat} {name : String} {v : Json}
    {entries : List (String × Json)}
    (hname : name ≠ embeddedName) (h : ∀ e ∈ (name, v) :: entries, expand fuel e.2 = some e.2) :
    expand (fuel + 1) (.record ((name, v) :: entries)) = some (.record ((name, v) :: entries)) := by
  have hembeds : embeds (((name, v) :: entries).map fun e => (some e.1, e.2)) = false := by
    change (some name == some embeddedName) = false
    simpa using hname
  unfold record expand
  rw [hembeds, if_neg Bool.false_ne_true, mapM_eq_some_self]
  · rfl
  · intro e he
    obtain ⟨p, hp, rfl⟩ := List.mem_map.1 he
    dsimp only
    rw [h p hp]
    rfl

def listing (l : List Observation) : Json :=
  .record [("observations", .array (l.map Observation.toJson))]

theorem itemHolds_toJson {o : Observation} (hv : o.value.isFinite = true) :
    ItemHolds o.toJson o := by
  have hvalue : float o.value = .number (.ofFloat o.value) := if_pos hv
  refine ⟨_, .ofInt o.period, .ofFloat o.value, rfl, rfl, Numeral.toInt?_ofInt o.period, ?_,
    Numeral.toFloat_ofFloat hv⟩
  rw [← hvalue]
  rfl

private theorem sound_toJson {o : Observation} (hp : Int64 o.period) (hv : o.value.isFinite = true)
    (room : Nat) : o.toJson.sound (room + 1) = true := by
  apply sound_record
  simp [sound_int64 hp, sound_float hv]

private theorem expand_toJson {o : Observation} (hv : o.value.isFinite = true) (fuel : Nat) :
    expand (fuel + 2) o.toJson = some o.toJson := by
  have hvalue : float o.value = .number (.ofFloat o.value) := if_pos hv
  apply expand_record (by decide)
  simp [hvalue, int, expand]

private theorem printable_listing (l : List Observation) : Printable (listing l) := by
  apply printable_record
  have hitems : Printable (.array (l.map Observation.toJson)) := by
    apply printable_array_map
    intro o
    apply printable_record
    simp [printable_int, printable_float]
  simpa using hitems

theorem readExpanded_listing {l : List Observation} (hp : ∀ o ∈ l, Int64 o.period)
    (hv : ∀ o ∈ l, o.value.isFinite = true) :
    readExpanded? (Text.bytes (listing l).compact) = some (listing l) := by
  have hsound : (listing l).sound depthLimit = true := by
    have hitems : (Json.array (l.map Observation.toJson)).sound 126 = true := by
      apply sound_array
      intro v hmem
      obtain ⟨o, ho, rfl⟩ := List.mem_map.1 hmem
      exact sound_toJson (hp o ho) (hv o ho) 124
    apply sound_record
    simpa using hitems
  have hwhole : readWhole? (printed (listing l)) = some (listing l) := by
    rw [readWhole?, read_printed (printable_listing l)]
    dsimp only
    rw [hsound]
    rfl
  -- The braces and the colon make room for the four levels of the tree.
  obtain ⟨fuel, hfuel⟩ : ∃ fuel, (printed (listing l)).length + 1 = fuel + 4 := by
    refine ⟨(printed (listing l)).length - 3, ?_⟩
    have hlength : 3 ≤ (printed (listing l)).length := by
      rw [listing, record, List.map_cons, List.map_nil, printed_object, printedEntries_singleton]
      simp only [List.length_cons, List.length_append, List.length_nil]
      omega
    omega
  have hitems : expand (fuel + 3) (.array (l.map Observation.toJson)) =
      some (.array (l.map Observation.toJson)) := by
    apply expand_array
    intro v hmem
    obtain ⟨o, ho, rfl⟩ := List.mem_map.1 hmem
    exact expand_toJson (hv o ho) fuel
  have hexpand : expand (fuel + 4) (listing l) = some (listing l) := by
    apply expand_record (by decide)
    simpa using hitems
  rw [bytes_compact, readExpanded?, hwhole, hfuel]
  exact hexpand

end Json

end LagForecast
