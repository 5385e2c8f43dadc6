import LagForecast.Proofs.Json.Records
import LagForecast.Proofs.Json.Values
import LagForecast.Proofs.Number.Whole

/-!
# Values that are read back from what is printed for them

A type has a faithful form if whatever of its values can be written is read back from its tree, and
only such values are read.  The form of a record follows from those of its fields, also where a
field that is not required is left out, and the form of a tagged value from that of its kind.
-/

set_option autoImplicit false

namespace LagForecast

namespace Json

variable {ε α ρ : Type}

/-- What is printed for a value is a tree of which the value is read, if the value can be written,
and what is read of any tree can be written. -/
structure Faithful (dec : Json → Decoded ε α) (toJson : α → Json) (writable : α → Prop) : Prop where
  printable : ∀ a, Printable (toJson a)
  read_back : ∀ a, writable a → dec (toJson a) = .ok a
  writable_of_read : ∀ v a, dec v = .ok a → writable a

def Int64 (i : Int) : Prop := -0x8000000000000000 ≤ i ∧ i ≤ 0x7FFFFFFFFFFFFFFF

def Nat64 (n : Nat) : Prop := n ≤ 0xFFFFFFFFFFFFFFFF

private theorem toIntWithin_eq_ok {least greatest i : Int} {v : Json}
    (h : (toIntWithin least greatest v : Decoded ε Int) = .ok i) : least ≤ i ∧ i ≤ greatest := by
  cases v with
  | number n =>
    rw [toIntWithin] at h
    split at h
    · split at h
      · cases h
        assumption
      · cases h
    · cases h
  | null | bool | string | array | object | broken => cases h

theorem faithful_int64 : Faithful (toInt64 : Json → Decoded ε Int) int Int64 where
  printable := printable_int
  read_back _ hi := toInt64_int hi.1 hi.2
  writable_of_read _ _ := toIntWithin_eq_ok

theorem faithful_nat64 :
    Faithful (toNat64 : Json → Decoded ε Nat) (fun n => int n) Nat64 where
  printable n := printable_int n
  read_back n hn := by
    have hwithin : (toIntWithin 0 0xFFFFFFFFFFFFFFFF (.int n) : Decoded ε Int) = .ok n := by
      rw [int, toIntWithin, Numeral.toInt?_ofInt]
      exact if_pos ⟨Int.natCast_nonneg n, by unfold Nat64 at hn; omega⟩
    rw [toNat64, hwithin]
    rfl
  writable_of_read v n h := by
    obtain ⟨i, hi, rfl⟩ := map_eq_ok.1 h
    have hbounds := toIntWithin_eq_ok hi
    unfold Nat64
    omega

theorem faithful_float :
    Faithful (toFloat : Json → Decoded ε Float) float fun x => x.isFinite = true where
  printable := printable_float
  read_back _ := toFloat_float
  writable_of_read v x h := by
    cases v with
    | number n =>
      rw [toFloat] at h
      split at h
      · cases h
        assumption
      · cases h
    | null | bool | string | array | object | broken => cases h

section Composite

variable {dec : Json → Decoded ε α} {toJson : α → Json} {writable : α → Prop}

theorem mem_of_decodeAll {items : List Json} {l : List α} (h : decodeAll dec items = .ok l)
    {a : α} (ha : a ∈ l) : ∃ v ∈ items, dec v = .ok a := by
  induction items generalizing l with
  | nil =>
    cases h
    exact absurd ha List.not_mem_nil
  | cons v rest ih =>
    rw [decodeAll] at h
    obtain ⟨b, hb, h⟩ := bind_eq_ok.1 h
    obtain ⟨others, hothers, h⟩ := bind_eq_ok.1 h
    cases h
    rcases List.mem_cons.1 ha with rfl | ha
    · exact ⟨v, List.mem_cons_self, hb⟩
    · obtain ⟨w, hw, hwa⟩ := ih hothers ha
      exact ⟨w, List.mem_cons_of_mem v hw, hwa⟩

theorem Faithful.list (h : Faithful dec toJson writable) :
    Faithful (toList dec) (fun l => .array (l.map toJson)) fun l => ∀ a ∈ l, writable a where
  printable := printable_array_map h.printable
  read_back l hl := decodeAll_map fun a ha => h.read_back a (hl a ha)
  writable_of_read v l hl a ha := by
    cases v with
    | array items =>
      obtain ⟨w, -, hw⟩ := mem_of_decodeAll hl ha
      exact h.writable_of_read w a hw
    | null | bool | number | string | object | broken => cases hl

theorem toOption_of_ne_null {v : Json} (hv : v ≠ .null) :
    toOption dec v = (dec v).map some := by
  cases v with
  | null => exact absurd rfl hv
  | bool | number | string | array | object | broken => rfl

/-- A value or none, where `null` is not what any value is written as. -/
theorem Faithful.option (h : Faithful dec toJson writable)
    (hne : ∀ a, writable a → toJson a ≠ .null) :
    Faithful (toOption dec) (fun o => o.elim .null toJson) fun o =>
      ∀ a, o = some a → writable a where
  printable o := by
    cases o with
    | none => exact .null
    | some a => exact h.printable a
  read_back o ho := by
    cases o with
    | none => rfl
    | some a =>
      have ha := ho a rfl
      rw [Option.elim_some, toOption_of_ne_null (hne a ha), h.read_back a ha]
      rfl
  writable_of_read v o ho a ha := by
    subst ha
    by_cases hv : v = .null
    · subst hv
      cases ho
    · rw [toOption_of_ne_null hv] at ho
      obtain ⟨b, hb, hba⟩ := map_eq_ok.1 ho
      obtain rfl := Option.some.inj hba
      exact h.writable_of_read v _ hb

end Composite

theorem float_ne_null {x : Float} (hx : x.isFinite = true) : float x ≠ .null := by
  rw [float, if_pos hx]
  intro h
  cases h

/-- The entries of the fields for which something is written. -/
def written (slots : List (Field ε ρ × Option Json)) : List (String × Json) :=
  slots.filterMap fun p => p.2.map fun v => (p.1.name, v)

def storeAll : List (Field ε ρ × Option Json) → ρ → Decoded ε ρ
  | [], r => .ok r
  | (_, none) :: rest, r => storeAll rest r
  | (f, some v) :: rest, r => do
    let r ← f.store v r
    storeAll rest r

private theorem readFields_written {fields done : List (Field ε ρ)}
    {slots : List (Field ε ρ × Option Json)} {seen : List String} {r : ρ}
    (hdistinct : (fieldNames fields).Nodup) (hfields : fields = done ++ slots.map Prod.fst)
    (hrequired : ∀ p ∈ slots, p.1.required = true → p.2.isSome = true)
    (hseen : ∀ name ∈ seen, name ∈ fieldNames done)
    (hdone : ∀ name ∈ requiredNames done, name ∈ seen) :
    readFields fields seen r ((written slots).map fun e => (some e.1, e.2)) =
      storeAll slots r := by
  -- The fields that have been passed grow at the end, and those with an entry have been seen.
  induction slots generalizing done seen r with
  | nil =>
    rw [List.map_nil, List.append_nil] at hfields
    subst hfields
    exact readFields_nil hdone
  | cons p rest ih =>
    obtain ⟨f, v⟩ := p
    have hsplit : fields = (done ++ [f]) ++ rest.map Prod.fst := by rw [hfields]; simp
    have hnew : f.name ∉ fieldNames done := by
      intro hmem
      rw [hfields, fieldNames, List.map_append, List.nodup_append] at hdistinct
      exact hdistinct.2.2 f.name hmem f.name List.mem_cons_self rfl
    have hrest : ∀ p ∈ rest, p.1.required = true → p.2.isSome = true := fun p hp =>
      hrequired p (List.mem_cons_of_mem _ hp)
    have hnames : fieldNames (done ++ [f]) = fieldNames done ++ [f.name] := List.map_append
    cases v with
    | none =>
      have hoptional : ¬ f.required = true := fun hf =>
        Bool.false_ne_true (hrequired (f, none) List.mem_cons_self hf)
      have hrequiredNames : requiredNames (done ++ [f]) = requiredNames done := by
        rw [requiredNames, List.filter_append, List.filter_cons_of_neg hoptional, List.filter_nil,
          List.append_nil, requiredNames]
      have hwritten : written ((f, none) :: rest) = written rest := rfl
      rw [hwritten, storeAll]
      apply ih hsplit hrest
      · intro name hname
        rw [hnames]
        exact List.mem_append_left _ (hseen name hname)
      · rw [hrequiredNames]
        exact hdone
    | some v =>
      have hfield : field? fields f.name = some f := by
        have hnone : done.find? (fun g => g.name == f.name) = none := field?_eq_none.2 hnew
        rw [hfields, field?, List.find?_append, hnone, Option.none_or]
        exact List.find?_cons_of_pos (by simp)
      have hwritten : written ((f, some v) :: rest) = (f.name, v) :: written rest := rfl
      rw [hwritten, List.map_cons, readFields_known hfield fun hmem => hnew (hseen f.name hmem),
        storeAll]
      congr 1
      funext s
      apply ih hsplit hrest
      · intro name hname
        rw [hnames, List.mem_append, List.mem_singleton]
        rcases List.mem_cons.1 hname with rfl | hname
        · exact Or.inr rfl
        · exact Or.inl (hseen name hname)
      · intro name hname
        rw [requiredNames, List.filter_append, fieldNames, List.map_append,
          List.mem_append] at hname
        rcases hname with hname | hname
        · exact List.mem_cons_of_mem _ (hdone name hname)
        · obtain ⟨g, hg, rfl⟩ := List.mem_map.1 hname
          rw [List.mem_singleton.1 (List.mem_of_mem_filter hg)]
          exact List.mem_cons_self

/-- An object with its fields in their order is read field by field; those that are not required
may be left out. -/
theorem toRecord_written {fields : List (Field ε ρ)} {values : List (Option Json)} (start : ρ)
    (hdistinct : (fieldNames fields).Nodup) (hlength : fields.length ≤ values.length)
    (hrequired : ∀ p ∈ fields.zip values, p.1.required = true → p.2.isSome = true) :
    (record (written (fields.zip values))).toRecord fields start =
      storeAll (fields.zip values) start := by
  have hfields : fields = [] ++ (fields.zip values).map Prod.fst :=
    (List.map_fst_zip hlength).symm
  exact readFields_written hdistinct hfields hrequired (List.forall_mem_nil _)
    (List.forall_mem_nil _)

section Invariant

variable {fields : List (Field ε ρ)} {P : ρ → Prop}

private theorem of_readFields
    (hstore : ∀ f ∈ fields, ∀ v r r', P r → f.store v r = .ok r' → P r')
    {entries : List (Option String × Json)} {seen : List String} {r r' : ρ} (hr : P r)
    (h : readFields fields seen r entries = .ok r') : P r' := by
  induction entries generalizing seen r with
  | nil =>
    rw [readFields] at h
    split at h
    · cases h
      exact hr
    · cases h
  | cons e rest ih =>
    obtain ⟨key, v⟩ := e
    cases key with
    | none => cases h
    | some key =>
      rcases readFields_cons h with ⟨-, -, hrest⟩ | ⟨f, s, hfield, -, hs, hrest⟩
      · exact ih hr hrest
      · exact ih (hstore f (mem_of_field? hfield).1 v r s hr hs) hrest

private theorem of_readPositions {fields : List (Field ε ρ)}
    (hstore : ∀ f ∈ fields, ∀ v r r', P r → f.store v r = .ok r' → P r') {items : List Json}
    {r r' : ρ} (hr : P r) (h : readPositions fields r items = .ok r') : P r' := by
  induction items generalizing fields r with
  | nil =>
    rw [readPositions] at h
    split at h
    · cases h
      exact hr
    · cases h
  | cons v rest ih =>
    cases fields with
    | nil => cases h
    | cons f fields =>
      rw [readPositions] at h
      obtain ⟨s, hs, hrest⟩ := bind_eq_ok.1 h
      have hs' := hstore f List.mem_cons_self v r s hr hs
      exact ih (fun g hg => hstore g (List.mem_cons_of_mem f hg)) hs' hrest

/-- What holds to begin with and is kept by every field holds of a record that is read. -/
theorem of_toRecord {start r : ρ} {v : Json} (h : v.toRecord fields start = .ok r)
    (hstart : P start) (hstore : ∀ f ∈ fields, ∀ v r r', P r → f.store v r = .ok r' → P r') :
    P r := by
  cases v with
  | object entries => exact of_readFields hstore hstart h
  | array items => exact of_readPositions hstore hstart h
  | null | bool | number | string | broken => cases h

theorem kept_of_set {dec : Json → Decoded ε α} {set : ρ → α → ρ}
    (h : ∀ v r a, P r → dec v = .ok a → P (set r a)) (v : Json) (r r' : ρ) (hr : P r)
    (hset : (do return set r (← dec v)) = .ok r') : P r' := by
  obtain ⟨a, ha, hset⟩ := bind_eq_ok.1 hset
  cases hset
  exact h v r a hr ha

end Invariant

theorem sound_text (s : String) (room : Nat) : (text s).sound room = true := rfl

theorem sound_int64 {i : Int} (hi : Int64 i) (room : Nat) : (int i).sound room = true :=
  Numeral.isFinite_toFloat_ofInt (by unfold Int64 at hi; omega)

theorem sound_nat64 {n : Nat} (hn : Nat64 n) (room : Nat) : (int n).sound room = true :=
  Numeral.isFinite_toFloat_ofInt hn

theorem sound_float {x : Float} (hx : x.isFinite = true) (room : Nat) :
    (float x).sound room = true := by
  rw [float, if_pos hx, sound, Numeral.toFloat_ofFloat hx]
  exact hx

theorem sound_record {entries : List (String × Json)} {room : Nat}
    (h : ∀ e ∈ entries, e.2.sound room = true) : (record entries).sound (room + 1) = true := by
  rw [record, sound]
  change allEntriesSound room (entries.map fun e => (some e.1, e.2)) = true
  induction entries with
  | nil => rfl
  | cons e rest ih =>
    have hrest := ih fun e he => h e (List.mem_cons_of_mem _ he)
    rw [List.map_cons, allEntriesSound, h e List.mem_cons_self, hrest]
    rfl

theorem sound_array {items : List Json} {room : Nat} (h : ∀ v ∈ items, v.sound room = true) :
    (array items).sound (room + 1) = true := by
  change allSound room items = true
  induction items with
  | nil => rfl
  | cons v rest ih =>
    have hrest := ih fun v hv => h v (List.mem_cons_of_mem _ hv)
    rw [allSound, h v List.mem_cons_self, hrest]
    rfl

theorem toTagged_record {tag kind : String} {room : Nat} {entries : List (String × Json)}
    {kinds : List (String × (Json → Decoded ε α))} {dec : Json → Decoded ε α}
    (hsound : ∀ e ∈ entries, e.2.sound room = true) (hnames : ∀ e ∈ entries, e.1 ≠ tag)
    (hkind : kinds.lookup kind = some dec) :
    (record ((tag, .text kind) :: entries)).toTagged tag (room + 1) kinds =
      dec (record entries) := by
  have hall : (record ((tag, .text kind) :: entries)).sound (room + 1) = true :=
    sound_record (List.forall_mem_cons.2 ⟨rfl, hsound⟩)
  have hothers : (entries.map fun e => (some e.1, e.2)).partition (fun e => e.1 == some tag) =
      (([] : List (Option String × Json)), entries.map fun e => (some e.1, e.2)) := by
    rw [List.partition_eq_filter_filter, Prod.mk.injEq, List.filter_eq_nil_iff,
      List.filter_eq_self]
    constructor
    · intro e he
      obtain ⟨p, hp, rfl⟩ := List.mem_map.1 he
      simpa using hnames p hp
    · intro e he
      obtain ⟨p, hp, rfl⟩ := List.mem_map.1 he
      simpa using hnames p hp
  have hpartition : ((some tag, text kind) :: entries.map fun e => (some e.1, e.2)).partition
      (fun e => e.1 == some tag) =
      ([(some tag, text kind)], entries.map fun e => (some e.1, e.2)) := by
    rw [List.partition_eq_filter_filter] at hothers ⊢
    rw [Prod.mk.injEq] at hothers
    rw [List.filter_cons_of_pos (by simp), List.filter_cons_of_neg (by simp), hothers.1, hothers.2]
  unfold toTagged
  rw [if_pos hall]
  simp only [record, List.map_cons]
  rw [hpartition]
  change (present (kinds.lookup kind) >>= fun decode => decode (record entries)) = _
  rw [hkind]
  rfl

theorem exists_of_toTagged {tag : String} {room : Nat}
    {kinds : List (String × (Json → Decoded ε α))} {v : Json} {a : α}
    (h : v.toTagged tag room kinds = .ok a) : ∃ p ∈ kinds, ∃ w, p.2 w = .ok a := by
  have found {name : String} {w : Json}
      (hread : (present (kinds.lookup name) >>= fun decode => decode w) = .ok a) :
      ∃ p ∈ kinds, ∃ w, p.2 w = .ok a := by
    obtain ⟨dec, hdec, ha⟩ := bind_eq_ok.1 hread
    cases hlookup : kinds.lookup name with
    | none =>
      rw [hlookup] at hdec
      cases hdec
    | some dec' =>
      rw [hlookup] at hdec
      cases hdec
      obtain ⟨before, after, rfl, -⟩ := List.lookup_eq_some_iff.1 hlookup
      exact ⟨(name, dec), by simp, w, ha⟩
  unfold toTagged at h
  split at h
  · split at h
    · split at h
      · obtain ⟨name, -, hread⟩ := bind_eq_ok.1 h
        exact found hread
      · cases h
    · obtain ⟨name, -, hread⟩ := bind_eq_ok.1 h
      exact found hread
    · cases h
  · cases h

end Json

end LagForecast
