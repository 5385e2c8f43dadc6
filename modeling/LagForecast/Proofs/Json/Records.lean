import LagForecast.Json.Decoder
import LagForecast.Proofs.Outcome
import Mathlib.Tactic.ByContra

/-!
# Records taken from objects

Whether the entries of an object fit a record depends on their names only: each field stands at most
once, those that are required do stand, and the rest can be read.  A record is read from entries
that fit when each field takes what is written for it, and then each field holds what it took.
-/

set_option autoImplicit false

namespace LagForecast

namespace Json

variable {ε α β ρ : Type}

theorem refuse_eq_ok_iff {x : Except ε α} {a : α} : refuse x = .ok a ↔ x = .ok a := by
  cases x with
  | error e => exact ⟨nofun, nofun⟩
  | ok b => exact ⟨fun h => congrArg Except.ok (Except.ok.inj h), fun h =>
      congrArg Except.ok (Except.ok.inj h)⟩

theorem lastEntry_cons (name : String) (e : Option String × Json)
    (entries : List (Option String × Json)) :
    lastEntry? name (e :: entries) =
      ( lastEntry? name entries).or (if e.1 = some name then some e.2 else none) := by
  rw [ lastEntry?, List.reverse_cons, List.find?_append, Option.map_or, lastEntry?]
  congr 1
  by_cases h : e.1 = some name
  · simp [h]
  · simp [h]

/-- Entries that fit a record with fields of some names, of which some are required, after fields
that have been seen. -/
def Fits (names required : List String) : List String → List (Option String × Json) → Prop
  | seen, [] => ∀ name ∈ required, name ∈ seen
  | _, (none, _) :: _ => False
  | seen, (some name, v) :: rest =>
    if name ∈ names then name ∉ seen ∧ Fits names required (name :: seen) rest
    else v.readable = true ∧ Fits names required seen rest

/-- A field stands at most once, so what is written for it last is what is written for it. -/
theorem Fits.lastEntry_eq {names required seen : List String}
    {entries : List (Option String × Json)} (h : Fits names required seen entries) {name : String}
    (hname : name ∈ names) :
    (name ∈ seen → lastEntry? name entries = none) ∧
      ∀ v, (some name, v) ∈ entries → lastEntry? name entries = some v := by
  induction entries generalizing seen with
  | nil => exact ⟨fun _ => rfl, fun v hv => absurd hv (List.not_mem_nil)⟩
  | cons e rest ih =>
    obtain ⟨key, w⟩ := e
    cases key with
    | none => exact absurd h (by simp [Fits])
    | some key =>
      rw [Fits] at h
      rw [lastEntry_cons]
      by_cases hkey : key = name
      · subst hkey
        rw [if_pos hname] at h
        obtain ⟨hseen, hfits⟩ := h
        have hrest := (ih hfits).1 List.mem_cons_self
        refine ⟨fun hmem => absurd hmem hseen, fun v hv => ?_⟩
        rcases List.mem_cons.1 hv with heq | hmem
        · rw [hrest, if_pos rfl, Option.none_or, (Prod.mk.inj heq).2]
        · have hlast := (ih hfits).2 v hmem
          rw [hrest] at hlast
          cases hlast
      · have hor : (if (some key : Option String) = some name then some w else none) = none :=
          if_neg fun heq => hkey (Option.some.inj heq)
        have hrest : (name ∈ seen → lastEntry? name rest = none) ∧
            ∀ v, (some name, v) ∈ rest → lastEntry? name rest = some v := by
          by_cases hmem : key ∈ names
          · rw [if_pos hmem] at h
            have hstep := ih h.2
            exact ⟨fun hs => hstep.1 (List.mem_cons_of_mem key hs), hstep.2⟩
          · rw [if_neg hmem] at h
            exact ih h.2
        rw [hor, Option.or_none]
        refine ⟨hrest.1, fun v hv => ?_⟩
        rcases List.mem_cons.1 hv with heq | hmem
        · exact absurd (Option.some.inj (Prod.mk.inj heq).1).symm hkey
        · exact hrest.2 v hmem

theorem Fits.exists_of_required {names required seen : List String}
    {entries : List (Option String × Json)} (h : Fits names required seen entries) {name : String}
    (hname : name ∈ required) (hseen : name ∉ seen) : ∃ v, (some name, v) ∈ entries := by
  induction entries generalizing seen with
  | nil => exact absurd (h name hname) hseen
  | cons e rest ih =>
    obtain ⟨key, w⟩ := e
    cases key with
    | none => exact absurd h (by simp [Fits])
    | some key =>
      by_cases hkey : key = name
      · exact ⟨w, hkey ▸ List.mem_cons_self⟩
      · rw [Fits] at h
        have hrest : ∃ v, (some name, v) ∈ rest := by
          by_cases hmem : key ∈ names
          · rw [if_pos hmem] at h
            refine ih h.2 ?_
            rw [List.mem_cons, not_or]
            exact ⟨fun heq => hkey heq.symm, hseen⟩
          · rw [if_neg hmem] at h
            exact ih h.2 hseen
        obtain ⟨v, hv⟩ := hrest
        exact ⟨v, List.mem_cons_of_mem _ hv⟩

theorem fits_congr {names names' required seen : List String}
    {entries : List (Option String × Json)}
    (h : ∀ e ∈ entries, ∀ name, e.1 = some name → (name ∈ names ↔ name ∈ names')) :
    Fits names required seen entries ↔ Fits names' required seen entries := by
  induction entries generalizing seen with
  | nil => exact Iff.rfl
  | cons e rest ih =>
    obtain ⟨key, v⟩ := e
    have hrest : ∀ seen, Fits names required seen rest ↔ Fits names' required seen rest :=
      fun seen => ih fun e he => h e (List.mem_cons_of_mem _ he)
    cases key with
    | none => exact Iff.rfl
    | some key =>
      have hkey := h (some key, v) List.mem_cons_self key rfl
      rw [Fits, Fits]
      by_cases hmem : key ∈ names
      · rw [if_pos hmem, if_pos (hkey.1 hmem), hrest]
      · rw [if_neg hmem, if_neg fun hmem' => hmem (hkey.2 hmem'), hrest]

def fieldNames (fields : List (Field ε ρ)) : List String := fields.map Field.name

def requiredNames (fields : List (Field ε ρ)) : List String :=
  fieldNames (fields.filter Field.required)

def field? (fields : List (Field ε ρ)) (name : String) : Option (Field ε ρ) :=
  fields.find? fun f => f.name == name

theorem field?_eq_none {fields : List (Field ε ρ)} {name : String} :
    field? fields name = none ↔ name ∉ fieldNames fields := by
  simp [field?, fieldNames]

theorem mem_of_field? {fields : List (Field ε ρ)} {name : String} {f : Field ε ρ}
    (h : field? fields name = some f) : f ∈ fields ∧ f.name = name :=
  ⟨List.mem_of_find?_eq_some h, by simpa using List.find?_some h⟩

theorem mem_fieldNames_of_field? {fields : List (Field ε ρ)} {name : String} {f : Field ε ρ}
    (h : field? fields name = some f) : name ∈ fieldNames fields := by
  obtain ⟨hmem, hname⟩ := mem_of_field? h
  exact hname ▸ List.mem_map_of_mem hmem

section Steps

variable {fields : List (Field ε ρ)} {seen : List String} {name : String} {v : Json} {r r' : ρ}
  {rest : List (Option String × Json)}

theorem readFields_nil (h : ∀ name ∈ requiredNames fields, name ∈ seen) :
    readFields fields seen r [] = .ok r := by
  rw [readFields, if_pos]
  rw [List.all_eq_true]
  intro f hf
  by_cases hrequired : f.required = true
  · have hmem : f.name ∈ requiredNames fields :=
      List.mem_map_of_mem (List.mem_filter.2 ⟨hf, hrequired⟩)
    simp [h f.name hmem]
  · simp [hrequired]

private theorem readFields_unknown (hname : name ∉ fieldNames fields) (hv : v.readable = true) :
    readFields fields seen r ((some name, v) :: rest) = readFields fields seen r rest := by
  have hfind : fields.find? (fun f => f.name == name) = none := field?_eq_none.2 hname
  rw [readFields, hfind]
  exact if_pos hv

theorem readFields_known {f : Field ε ρ} (hfield : field? fields name = some f)
    (hseen : name ∉ seen) :
    readFields fields seen r ((some name, v) :: rest) =
      (f.store v r >>= fun r => readFields fields (name :: seen) r rest) := by
  have hfind : fields.find? (fun f => f.name == name) = some f := hfield
  rw [readFields, hfind]
  exact if_neg (by simpa using hseen)

private theorem readFields_stored {f : Field ε ρ} (hfield : field? fields name = some f)
    (hseen : name ∉ seen) (hstore : f.store v r = .ok r') :
    readFields fields seen r ((some name, v) :: rest) =
      readFields fields (name :: seen) r' rest := by
  rw [readFields_known hfield hseen, hstore]
  rfl

private theorem readFields_repeated {f : Field ε ρ} (hfield : field? fields name = some f)
    (hseen : name ∈ seen) :
    readFields fields seen r ((some name, v) :: rest) = unreadable := by
  have hfind : fields.find? (fun f => f.name == name) = some f := hfield
  rw [readFields, hfind]
  exact if_pos (by simpa using hseen)

theorem readFields_cons (h : readFields fields seen r ((some name, v) :: rest) = .ok r') :
    (name ∉ fieldNames fields ∧ v.readable = true ∧ readFields fields seen r rest = .ok r') ∨
      ∃ f s, field? fields name = some f ∧ name ∉ seen ∧ f.store v r = .ok s ∧
        readFields fields (name :: seen) s rest = .ok r' := by
  cases hfield : field? fields name with
  | none =>
    have hname := field?_eq_none.1 hfield
    by_cases hv : v.readable = true
    · rw [readFields_unknown hname hv] at h
      exact Or.inl ⟨hname, hv, h⟩
    · have hfind : fields.find? (fun f => f.name == name) = none := hfield
      rw [readFields, hfind] at h
      cases (if_neg hv).symm.trans h
  | some f =>
    by_cases hseen : name ∈ seen
    · rw [readFields_repeated hfield hseen] at h
      cases h
    · rw [readFields_known hfield hseen] at h
      obtain ⟨s, hstore, hrest⟩ := bind_eq_ok.1 h
      exact Or.inr ⟨f, s, rfl, hseen, hstore, hrest⟩

end Steps

theorem fits_of_readFields {fields : List (Field ε ρ)} {seen : List String} {r r' : ρ}
    {entries : List (Option String × Json)} (h : readFields fields seen r entries = .ok r') :
    Fits (fieldNames fields) (requiredNames fields) seen entries := by
  induction entries generalizing seen r with
  | nil =>
    intro name hname
    obtain ⟨f, hf, rfl⟩ := List.mem_map.1 hname
    obtain ⟨hmem, hrequired⟩ := List.mem_filter.1 hf
    rw [readFields] at h
    by_contra hseen
    rw [if_neg] at h
    · cases h
    · rw [List.all_eq_true]
      intro hall
      have hf := hall f hmem
      rw [hrequired] at hf
      exact hseen (by simpa using hf)
  | cons e rest ih =>
    obtain ⟨key, v⟩ := e
    cases key with
    | none => cases h
    | some key =>
      rw [Fits]
      rcases readFields_cons h with ⟨hname, hv, hrest⟩ | ⟨f, s, hfield, hseen, -, hrest⟩
      · rw [if_neg hname]
        exact ⟨hv, ih hrest⟩
      · rw [if_pos (mem_fieldNames_of_field? hfield)]
        exact ⟨hseen, ih hrest⟩

theorem exists_readFields {fields : List (Field ε ρ)} {seen : List String} {r : ρ}
    {entries : List (Option String × Json)}
    (hfits : Fits (fieldNames fields) (requiredNames fields) seen entries)
    (hstore : ∀ name v f, (some name, v) ∈ entries → field? fields name = some f →
      ∀ r, ∃ r', f.store v r = .ok r') : ∃ r', readFields fields seen r entries = .ok r' := by
  induction entries generalizing seen r with
  | nil => exact ⟨r, readFields_nil hfits⟩
  | cons e rest ih =>
    obtain ⟨key, v⟩ := e
    have hrest := fun name w f hmem => hstore name w f (List.mem_cons_of_mem (key, v) hmem)
    cases key with
    | none => exact absurd hfits (by simp [Fits])
    | some key =>
      rw [Fits] at hfits
      cases hfield : field? fields key with
      | none =>
        have hname := field?_eq_none.1 hfield
        rw [if_neg hname] at hfits
        rw [readFields_unknown hname hfits.1]
        exact ih hfits.2 hrest
      | some f =>
        rw [if_pos (mem_fieldNames_of_field? hfield)] at hfits
        obtain ⟨s, hs⟩ := hstore key v f List.mem_cons_self hfield r
        rw [readFields_stored hfield hfits.1 hs]
        exact ih hfits.2 hrest

/-- Entries that are all the fields still to come, in their order, are read as positions. -/
private theorem readFields_eq_readPositions {fields done rest : List (Field ε ρ)}
    {entries : List (String × Json)} {seen : List String} {r : ρ}
    (hdistinct : (fieldNames fields).Nodup) (hfields : fields = done ++ rest)
    (hnames : entries.map Prod.fst = fieldNames rest)
    (hseen : ∀ name, name ∈ seen ↔ name ∈ fieldNames done) :
    readFields fields seen r (entries.map fun e => (some e.1, e.2)) =
      readPositions rest r (entries.map Prod.snd) := by
  -- The fields that have been read grow at the end while those to come shrink at the front.
  induction rest generalizing done entries seen r with
  | nil =>
    rw [List.map_eq_nil_iff.1 hnames]
    apply readFields_nil
    intro name hname
    rw [hseen, ← List.append_nil done, ← hfields]
    obtain ⟨f, hf, rfl⟩ := List.mem_map.1 hname
    exact List.mem_map_of_mem (List.mem_filter.1 hf).1
  | cons f rest ih =>
    obtain ⟨e, others, rfl, hname, hothers⟩ := List.map_eq_cons_iff.1 hnames
    have hnew : f.name ∉ fieldNames done := by
      intro hmem
      rw [hfields, fieldNames, List.map_append, List.nodup_append] at hdistinct
      exact hdistinct.2.2 f.name hmem f.name List.mem_cons_self rfl
    have hfield : field? fields e.1 = some f := by
      have hnone : done.find? (fun g => g.name == f.name) = none := field?_eq_none.2 hnew
      rw [hfields, field?, List.find?_append, hname, hnone, Option.none_or]
      exact List.find?_cons_of_pos (by simp)
    have hunseen : e.1 ∉ seen := by
      rw [hseen, hname]
      exact hnew
    rw [List.map_cons, List.map_cons, readFields_known hfield hunseen, readPositions]
    congr 1
    funext s
    apply @ih (done ++ [f])
    · rw [hfields, List.append_assoc]
      rfl
    · exact hothers
    · intro name
      rw [List.mem_cons, hseen, hname, fieldNames, fieldNames, List.map_append, List.mem_append,
        List.map_singleton, List.mem_singleton, or_comm]

theorem toRecord_record {fields : List (Field ε ρ)} {start : ρ} {entries : List (String × Json)}
    (hnames : entries.map Prod.fst = fieldNames fields) (hdistinct : (fieldNames fields).Nodup) :
    (record entries).toRecord fields start =
      readPositions fields start (entries.map Prod.snd) :=
  @readFields_eq_readPositions _ _ fields [] fields entries [] start hdistinct rfl hnames
    fun _ => Iff.rfl

section Fields

variable {fields : List (Field ε ρ)} {f : Field ε ρ} {get : ρ → α} {dec : Json → Decoded ε α}
  {r r' : ρ} {entries : List (Option String × Json)}

/-- Nothing but its own entry changes what a field holds. -/
private theorem kept_of_readFields {seen : List String}
    (hkeep : ∀ name g, field? fields name = some g → name ≠ f.name →
      ∀ v r r', g.store v r = .ok r' → get r' = get r)
    (hseen : f.name ∈ seen) (h : readFields fields seen r entries = .ok r') : get r' = get r := by
  induction entries generalizing seen r with
  | nil =>
    rw [readFields] at h
    split at h
    · cases h; rfl
    · cases h
  | cons e rest ih =>
    obtain ⟨key, v⟩ := e
    cases key with
    | none => cases h
    | some key =>
      rcases readFields_cons h with ⟨-, -, hrest⟩ | ⟨g, s, hfield, hnew, hstore, hrest⟩
      · exact ih hseen hrest
      · have hne : key ≠ f.name := by
          rintro rfl
          exact hnew hseen
        rw [ih (List.mem_cons_of_mem key hseen) hrest, hkeep key g hfield hne v r s hstore]

/-- A field holds what is written for it, or what it held. -/
theorem stored_of_readFields {seen : List String} (hfield : field? fields f.name = some f)
    (hstore : ∀ v r r', f.store v r = .ok r' → dec v = .ok (get r'))
    (hkeep : ∀ name g, field? fields name = some g → name ≠ f.name →
      ∀ v r r', g.store v r = .ok r' → get r' = get r)
    (hseen : f.name ∉ seen) (h : readFields fields seen r entries = .ok r') :
    ( lastEntry? f.name entries = none ∧ get r' = get r) ∨
      ∃ v, lastEntry? f.name entries = some v ∧ dec v = .ok (get r') := by
  induction entries generalizing seen r with
  | nil =>
    rw [readFields] at h
    split at h
    · cases h
      exact Or.inl ⟨rfl, rfl⟩
    · cases h
  | cons e rest ih =>
    obtain ⟨key, v⟩ := e
    cases key with
    | none => cases h
    | some key =>
      rw [lastEntry_cons]
      by_cases hkey : key = f.name
      · subst hkey
        rcases readFields_cons h with ⟨hname, -, -⟩ | ⟨g, s, hg, -, hs, hrest⟩
        · exact absurd (mem_fieldNames_of_field? hfield) hname
        · obtain rfl : f = g := Option.some.inj (hfield.symm.trans hg)
          have hnone : lastEntry? f.name rest = none :=
            ((fits_of_readFields hrest).lastEntry_eq (mem_fieldNames_of_field? hfield)).1
              List.mem_cons_self
          have hget := kept_of_readFields hkeep List.mem_cons_self hrest
          rw [hnone, if_pos rfl, Option.none_or]
          exact Or.inr ⟨v, rfl, hget ▸ hstore v r s hs⟩
      · rw [if_neg fun heq => hkey (Option.some.inj heq), Option.or_none]
        rcases readFields_cons h with ⟨-, -, hrest⟩ | ⟨g, s, hg, -, hs, hrest⟩
        · exact ih hseen hrest
        · have hnew : f.name ∉ key :: seen := by
            rw [List.mem_cons, not_or]
            exact ⟨fun heq => hkey heq.symm, hseen⟩
          rw [← hkeep key g hg hkey v r s hs]
          exact ih hnew hrest

end Fields

end Json

end LagForecast
