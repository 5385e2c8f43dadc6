import LagForecast.CommandLine.Input
import LagForecast.Proofs.Json.RoundTrip
import Mathlib.Data.List.Infix

/-!
# The ends of JSON texts

A reader hands on what follows the bytes that it has read, so this is an end of what it was given.
For arrays and objects the byte in front of it is the closing bracket or brace; so a text from which
observations are taken ends with one, up to white space.
-/

set_option autoImplicit false

namespace LagForecast

namespace Json

variable {bs rest : List UInt8}

private theorem skipSpaces_suffix (bs : List UInt8) :
    skipSpaces bs <:+ bs := List.dropWhile_suffix _

private theorem suffix_of_skipSpaces {b : UInt8} (h : skipSpaces bs = b :: rest) :
    b :: rest <:+ bs := by
  rw [← h]
  exact skipSpaces_suffix bs

private theorem exists_of_consBytes {half : Option Nat} {bytes : List UInt8}
    {content : Option (List UInt8)} {x : Option (Option (List UInt8) × List UInt8)}
    (h : consBytes half bytes x = some (content, rest)) : ∃ inner, x = some (inner, rest) := by
  obtain ⟨⟨inner, after⟩, hx, hp⟩ := Option.map_eq_some_iff.1 h
  cases hp
  exact ⟨inner, hx⟩

private theorem suffix_of_readString {half : Option Nat} {content : Option (List UInt8)}
    (h : readString half bs = some (content, rest)) : rest <:+ bs := by
  fun_induction readString half bs generalizing content with
  | case1 | case3 | case4 | case9 | case10 | case12 => cases h
  | case2 =>
    cases h
    exact List.suffix_cons _ _
  | case6 _ _ _ _ after _ _ _ _ ih =>
    obtain ⟨⟨inner, _⟩, hinner, hp⟩ := Option.map_eq_some_iff.1 h
    cases hp
    exact (ih hinner).trans (List.suffix_append [_, _, _, _, _, _] after)
  | case5 _ _ _ _ after =>
    rename_i ih
    obtain ⟨inner, hinner⟩ := exists_of_consBytes h
    exact (ih hinner).trans (List.suffix_append [_, _, _, _, _, _] after)
  | case7 _ _ _ _ _ after _ _ _ _ _ ih | case8 _ _ _ _ _ after _ _ _ _ _ ih =>
    obtain ⟨inner, hinner⟩ := exists_of_consBytes h
    exact (ih hinner).trans (List.suffix_append [_, _, _, _, _, _] after)
  | case11 _ _ after _ _ _ _ ih =>
    obtain ⟨inner, hinner⟩ := exists_of_consBytes h
    exact (ih hinner).trans (List.suffix_append [_, _] after)
  | case13 _ _ after _ _ _ ih =>
    obtain ⟨inner, hinner⟩ := exists_of_consBytes h
    exact (ih hinner).trans (List.suffix_cons _ after)

private theorem leadingDigits_suffix {α : Type} (digit? : α → Option Digit) (l : List α) :
    (leadingDigits digit? l).2 <:+ l := by
  induction l with
  | nil => exact List.suffix_rfl
  | cons a rest ih =>
    rw [leadingDigits]
    split
    · exact List.suffix_rfl
    · exact ih.trans (List.suffix_cons a rest)

private theorem suffix_of_leadingDigits {ds : List Digit}
    (h : leadingDigits byteDigit? bs = (ds, rest)) : rest <:+ bs := by
  have hsuffix := leadingDigits_suffix byteDigit? bs
  rw [h] at hsuffix
  exact hsuffix

private theorem suffix_of_readFraction {ds : List Digit} (h : readFraction bs = some (ds, rest)) :
    rest <:+ bs := by
  cases bs with
  | nil =>
    cases h
    exact List.suffix_rfl
  | cons b after =>
    rw [readFraction] at h
    split at h
    · split at h
      · cases h
      · next hdigits =>
        cases h
        exact (suffix_of_leadingDigits hdigits).trans (List.suffix_cons b after)
    · cases h
      exact List.suffix_rfl

private theorem suffix_of_readPower {minus : Bool} {e : Option (Bool × List Digit)}
    (h : readPower minus bs = some (e, rest)) : rest <:+ bs := by
  rw [readPower] at h
  split at h
  · cases h
  · next hdigits =>
    cases h
    exact suffix_of_leadingDigits hdigits

private theorem suffix_of_readExponent {e : Option (Bool × List Digit)}
    (h : readExponent bs = some (e, rest)) : rest <:+ bs := by
  cases bs with
  | nil =>
    cases h
    exact List.suffix_rfl
  | cons b tail =>
    rw [readExponent.eq_def] at h
    dsimp only at h
    split at h
    · cases tail with
      | nil => cases h
      | cons c after =>
        dsimp only at h
        split_ifs at h
        · exact (suffix_of_readPower h).trans (List.suffix_append [b, c] after)
        · exact (suffix_of_readPower h).trans (List.suffix_append [b, c] after)
        · exact (suffix_of_readPower h).trans (List.suffix_cons b (c :: after))
    · cases h
      exact List.suffix_rfl

private theorem suffix_of_readUnsigned {negative : Bool} {n : Numeral}
    (h : readUnsigned negative bs = some (n, rest)) : rest <:+ bs := by
  rw [readUnsigned] at h
  split at h
  · cases h
  · next hwhole =>
    split at h
    · cases h
    · split at h
      · cases h
      · next hfraction =>
        split at h
        · cases h
        · next hexponent =>
          cases h
          exact ((suffix_of_readExponent hexponent).trans
            (suffix_of_readFraction hfraction)).trans (suffix_of_leadingDigits hwhole)

private theorem suffix_of_readNumeral {n : Numeral} (h : readNumeral bs = some (n, rest)) :
    rest <:+ bs := by
  cases bs with
  | nil => cases h
  | cons b after =>
    rw [readNumeral] at h
    split at h
    · exact (suffix_of_readUnsigned h).trans (List.suffix_cons b after)
    · exact suffix_of_readUnsigned h

private theorem suffix_of_afterWord? {word : String} (h : afterWord? word bs = some rest) :
    rest <:+ bs := by
  rw [afterWord?] at h
  split at h
  · cases h
    exact List.drop_suffix _ bs
  · cases h

private theorem suffix_of_readPlain (h : (readPlain bs).rest = some rest) : rest <:+ bs := by
  rw [readPlain] at h
  split at h
  · next hword =>
    cases h
    exact suffix_of_afterWord? hword
  · next hword _ =>
    cases h
    exact suffix_of_afterWord? hword
  · next hword _ _ =>
    cases h
    exact suffix_of_afterWord? hword
  · split at h
    · next hnumeral =>
      cases h
      exact suffix_of_readNumeral hnumeral
    · cases h

def IsPlain (v : Json) : Prop := (∀ items, v ≠ .array items) ∧ ∀ entries, v ≠ .object entries

private theorem isPlain_readPlain (bs : List UInt8) : IsPlain (readPlain bs).value := by
  rw [readPlain]
  split
  · simp [IsPlain]
  · simp [IsPlain]
  · simp [IsPlain]
  · split <;> simp [IsPlain, stuck]

def closers : List UInt8 := [ascii ']', ascii '\x7d']

/-- A reading of a value leaves an end of the text, in front of which an array or an object has been
closed. -/
structure Leaves (bs : List UInt8) (r : Reading Json) : Prop where
  suffix {rest : List UInt8} (h : r.rest = some rest) : rest <:+ bs
  closed {rest : List UInt8} (h : r.rest = some rest) (hv : ¬ IsPlain r.value) :
    ∃ c ∈ closers, c :: rest <:+ bs

private theorem leaves_stuck : Leaves bs stuck where
  suffix h := by cases h
  closed h := by cases h

private theorem leaves_of_closed {v : Json} {after : Option (List UInt8)}
    (h : ∀ rest, after = some rest → ∃ c ∈ closers, c :: rest <:+ bs) : Leaves bs ⟨v, after⟩ where
  suffix {rest} hrest := by
    obtain ⟨c, -, hc⟩ := h rest hrest
    exact (List.suffix_cons c rest).trans hc
  closed {rest} hrest _ := h rest hrest

private theorem leaves_bracket {close c : UInt8} {after : List UInt8} (hclose : close ∈ closers)
    (hafter : c :: after <:+ bs) {empty v : Json} {rest? : Option (List UInt8)}
    (h : ∀ rest, rest? = some rest → close :: rest <:+ c :: after) :
    Leaves bs (if c = close then ⟨empty, some after⟩ else ⟨v, rest?⟩) := by
  split_ifs with hfirst
  · refine leaves_of_closed fun rest hrest => ⟨c, hfirst ▸ hclose, ?_⟩
    cases hrest
    exact hafter
  · exact leaves_of_closed fun rest hrest => ⟨close, hclose, (h rest hrest).trans hafter⟩

private theorem leaves_readValue {fuel : Nat}
    (hitems : ∀ {bs rest}, (readItems fuel bs).rest = some rest → ascii ']' :: rest <:+ bs)
    (hentries : ∀ {bs rest}, (readEntries fuel bs).rest = some rest →
      ascii '\x7d' :: rest <:+ bs) (bs : List UInt8) : Leaves bs (readValue (fuel + 1) bs) := by
  rw [readValue]
  split
  · exact leaves_stuck
  · next b tail hspaces =>
    have htail : tail <:+ bs := (List.suffix_cons b tail).trans (suffix_of_skipSpaces hspaces)
    split_ifs
    · split
      · next hstring =>
        exact ⟨fun h => by cases h; exact (suffix_of_readString hstring).trans htail,
          fun _ hv => absurd (by simp [IsPlain]) hv⟩
      · exact leaves_stuck
    · split
      · exact leaves_of_closed fun _ hrest => absurd hrest.symm (Option.some_ne_none _)
      · next hfirst =>
        exact leaves_bracket (by simp [closers]) ((suffix_of_skipSpaces hfirst).trans htail)
          fun _ => hitems
    · split
      · exact leaves_of_closed fun _ hrest => absurd hrest.symm (Option.some_ne_none _)
      · next hfirst =>
        exact leaves_bracket (by simp [closers]) ((suffix_of_skipSpaces hfirst).trans htail)
          fun _ => hentries
    · exact ⟨fun h => (suffix_of_readPlain h).trans (suffix_of_skipSpaces hspaces),
        fun _ hv => absurd (isPlain_readPlain _) hv⟩

private theorem suffix_of_readItems {fuel : Nat} (hvalue : ∀ bs, Leaves bs (readValue fuel bs))
    (hitems : ∀ {bs rest}, (readItems fuel bs).rest = some rest → ascii ']' :: rest <:+ bs)
    (h : (readItems (fuel + 1) bs).rest = some rest) : ascii ']' :: rest <:+ bs := by
  rw [readItems] at h
  dsimp only at h
  split at h
  · cases h
  · next after hfirst =>
    have hafter := (hvalue bs).suffix hfirst
    split at h
    · cases h
    · next b tail hspaces =>
      have htail := (suffix_of_skipSpaces hspaces).trans hafter
      split_ifs at h with hclose hcomma
      · cases h
        rw [← hclose]
        exact htail
      · exact (hitems h).trans ((List.suffix_cons b tail).trans htail)

private theorem suffix_of_readEntries {fuel : Nat} (hvalue : ∀ bs, Leaves bs (readValue fuel bs))
    (hentries : ∀ {bs rest}, (readEntries fuel bs).rest = some rest →
      ascii '\x7d' :: rest <:+ bs)
    (h : (readEntries (fuel + 1) bs).rest = some rest) : ascii '\x7d' :: rest <:+ bs := by
  rw [readEntries] at h
  split at h
  · cases h
  · next q name hquote =>
    have hname := (List.suffix_cons q name).trans (suffix_of_skipSpaces hquote)
    split_ifs at h
    split at h
    · cases h
    · next content mark hstring =>
      have hmark := (suffix_of_readString hstring).trans hname
      dsimp only at h
      split at h
      · cases h
      · next c value hcolon =>
        have hvalues := (List.suffix_cons c value).trans
          ((suffix_of_skipSpaces hcolon).trans hmark)
        split_ifs at h
        split at h
        · cases h
        · next after hfirst =>
          have hafter := ((hvalue value).suffix hfirst).trans hvalues
          split at h
          · cases h
          · next b tail hspaces =>
            have htail := (suffix_of_skipSpaces hspaces).trans hafter
            split_ifs at h with hclose hcomma
            · cases h
              rw [← hclose]
              exact htail
            · exact (hentries h).trans ((List.suffix_cons b tail).trans htail)

/-- The three readers call each other with one step less, so all are followed at once. -/
theorem ends_of_fuel (fuel : Nat) :
    (∀ bs, Leaves bs (readValue fuel bs)) ∧
      (∀ {bs rest}, (readItems fuel bs).rest = some rest → ascii ']' :: rest <:+ bs) ∧
      ∀ {bs rest}, (readEntries fuel bs).rest = some rest → ascii '\x7d' :: rest <:+ bs := by
  induction fuel with
  | zero =>
    refine ⟨fun bs => ?_, fun h => ?_, fun h => ?_⟩
    · rw [readValue]
      exact leaves_stuck
    · rw [readItems] at h
      cases h
    · rw [readEntries] at h
      cases h
  | succ fuel ih =>
    obtain ⟨hvalue, hitems, hentries⟩ := ih
    exact ⟨leaves_readValue hitems hentries, suffix_of_readItems hvalue hitems,
      suffix_of_readEntries hvalue hentries⟩

/-- Bytes that end with a closing bracket or brace, up to white space. -/
def Closed (bs : List UInt8) : Prop :=
  ∃ front, ∃ c ∈ closers, ∃ spaces : List UInt8,
    bs = front ++ c :: spaces ∧ ∀ b ∈ spaces, isSpace b = true

private theorem closed_of_readWhole? {v : Json} (h : readWhole? bs = some v) (hv : ¬ IsPlain v) :
    Closed bs := by
  obtain ⟨hwhole, hvalue⟩ := Option.ite_none_right_eq_some.1 h
  obtain rfl := Option.some.inj hvalue
  obtain ⟨hcomplete, -⟩ := Bool.and_eq_true_iff.1 hwhole
  obtain ⟨spaces, hrest, hspaces⟩ : ∃ spaces, (read bs).rest = some spaces ∧
      spaces.all isSpace = true := (Option.any_eq_true _ _).1 hcomplete
  obtain ⟨c, hc, front, hfront⟩ := ((ends_of_fuel _).1 bs).closed hrest hv
  exact ⟨front, c, hc, spaces, hfront.symm, List.all_eq_true.1 hspaces⟩

private theorem IsPlain.not_observations {v w : Json} (hv : IsPlain v) {fuel : Nat}
    (h : expand fuel v = some w) {items : List Json} : observationArray w ≠ .ok items := by
  obtain ⟨harray, hobject⟩ := hv
  cases fuel with
  | zero => cases h
  | succ fuel =>
    cases v with
    | array items => exact absurd rfl (harray items)
    | object entries => exact absurd rfl (hobject entries)
    | null | bool | number | string | broken =>
      cases h
      simp [observationArray]

private theorem exists_whole_of_observations {column : Option String} {l : List Observation}
    (h : observations column bs = .ok l) : ∃ v, readWhole? bs = some v ∧ ¬ IsPlain v := by
  cases hbytes : readExpanded? bs with
  | none =>
    rw [observations, hbytes] at h
    cases h
  | some v =>
    cases hitems : observationArray v with
    | error e =>
      rw [observations, hbytes] at h
      dsimp only at h
      rw [hitems] at h
      cases h
    | ok items =>
      obtain ⟨w, hwhole, hexpand⟩ := Option.bind_eq_some_iff.1 hbytes
      exact ⟨w, hwhole, fun hplain => hplain.not_observations hexpand hitems⟩

/-- A text from which observations are taken is closed at its end. -/
theorem closed_of_observations {column : Option String} {l : List Observation}
    (h : observations column bs = .ok l) : Closed bs := by
  obtain ⟨v, hwhole, hv⟩ := exists_whole_of_observations h
  exact closed_of_readWhole? hwhole hv

theorem head_ne_of_observations {column : Option String} {l : List Observation}
    (h : observations column bs = .ok l) : bs.head? ≠ some 0xEF := by
  obtain ⟨v, hwhole, -⟩ := exists_whole_of_observations h
  intro hhead
  obtain ⟨rest, rfl⟩ := List.head?_eq_some_iff.1 hhead
  have hnumeral : readNumeral (0xEF :: rest) = none := rfl
  have hplain : readPlain (0xEF :: rest) = stuck := by
    rw [readPlain, afterWord?_of_head_ne rfl (by decide), afterWord?_of_head_ne rfl (by decide),
      afterWord?_of_head_ne rfl (by decide), hnumeral]
  have hread : read (0xEF :: rest) = stuck :=
    (readValue_plain (by decide) (by decide) (by decide) (by decide) _ rest).trans hplain
  rw [readWhole?, hread] at hwhole
  cases hwhole

end Json

end LagForecast
