import LagForecast.Json.Reader
import LagForecast.Proofs.Text.Encoding

/-!
Numerals read back.  A numeral is written so that none of its parts is empty and no zero stands in
front of other digits; it is read to its end if nothing that could go on with it follows.
-/

set_option autoImplicit false

namespace LagForecast

open String (utf8EncodeChar)

/-- A numeral as it may be written: it has a digit before the point, which is no zero in front of
others, and a power of ten has digits. -/
structure Numeral.WellFormed (n : Numeral) : Prop where
  whole_ne_nil : n.whole ≠ []
  no_leading_zero : ∀ ds, n.whole = Digit.zero :: ds → ds = []
  power_ne_nil : ∀ e, n.exponent = some e → e.2 ≠ []

namespace Json

/-- Bytes with which no numeral that ends before them could go on. -/
def EndsNumeral (rest : List UInt8) : Prop :=
  ∀ b ∈ rest.head?, byteDigit? b = none ∧ b ≠ ascii '.' ∧ b ≠ ascii 'e' ∧ b ≠ ascii 'E'

def digitByte (d : Digit) : UInt8 := ascii d.char

private theorem byteDigit?_digitByte (d : Digit) : byteDigit? (digitByte d) = some d := by
  revert d
  decide

private theorem flatMap_digits (ds : List Digit) :
    (ds.map Digit.char).flatMap utf8EncodeChar = ds.map digitByte := by
  have digit : ∀ d : Digit, utf8EncodeChar d.char = [digitByte d] := by decide
  induction ds with
  | nil => rfl
  | cons d ds ih => rw [List.map_cons, List.flatMap_cons, digit, ih]; rfl

private theorem leadingDigits_digits (ds : List Digit) {rest : List UInt8}
    (h : ∀ b ∈ rest.head?, byteDigit? b = none) :
    leadingDigits byteDigit? (ds.map digitByte ++ rest) = (ds, rest) :=
  leadingDigits_map_append byteDigit?_digitByte ds rest h

def powerChars : Option (Bool × List Digit) → List Char
  | none => []
  | some (minus, ds) => 'e' :: (if minus then '-' else '+') :: ds.map Digit.char

private theorem readPower_digits (minus : Bool) {ds : List Digit} (hds : ds ≠ [])
    {rest : List UInt8} (h : EndsNumeral rest) :
    readPower minus (ds.map digitByte ++ rest) = some (some (minus, ds), rest) := by
  rw [readPower, leadingDigits_digits ds fun b hb => (h b hb).1]
  cases ds with
  | nil => exact absurd rfl hds
  | cons d ds => rfl

private theorem readExponent_powerChars {e : Option (Bool × List Digit)}
    (he : ∀ p, e = some p → p.2 ≠ []) {rest : List UInt8} (h : EndsNumeral rest) :
    readExponent ((powerChars e).flatMap utf8EncodeChar ++ rest) = some (e, rest) := by
  cases e with
  | none =>
    cases rest with
    | nil => rfl
    | cons b rest =>
      obtain ⟨-, -, he, hE⟩ := h b (by simp)
      simp [powerChars, readExponent, he, hE]
  | some p =>
    obtain ⟨minus, ds⟩ := p
    have hread := readPower_digits minus (he _ rfl) h
    have hmark : utf8EncodeChar 'e' = [ascii 'e'] := rfl
    rw [powerChars, List.flatMap_cons, List.flatMap_cons, flatMap_digits, hmark]
    cases minus with
    | true => exact hread
    | false => exact hread

private theorem head_powerChars (e : Option (Bool × List Digit)) {rest : List UInt8}
    (h : EndsNumeral rest) :
    ∀ b ∈ ((powerChars e).flatMap utf8EncodeChar ++ rest).head?,
      byteDigit? b = none ∧ b ≠ ascii '.' := by
  intro b hb
  cases e with
  | none =>
    obtain ⟨hdigit, hpoint, -, -⟩ := h b hb
    exact ⟨hdigit, hpoint⟩
  | some p =>
    have hmark : ascii 'e' = b := Option.some.inj hb
    subst hmark
    exact ⟨by decide, by decide⟩

def fractionChars (ds : List Digit) : List Char :=
  if ds = [] then [] else '.' :: ds.map Digit.char

private theorem readFraction_fractionChars (ds : List Digit) {rest : List UInt8}
    (h : ∀ b ∈ rest.head?, byteDigit? b = none ∧ b ≠ ascii '.') :
    readFraction ((fractionChars ds).flatMap utf8EncodeChar ++ rest) = some (ds, rest) := by
  cases ds with
  | nil =>
    cases rest with
    | nil => rfl
    | cons b rest =>
      obtain ⟨-, hpoint⟩ := h b (by simp)
      exact if_neg hpoint
  | cons d ds =>
    have hdigits := leadingDigits_digits (d :: ds) fun b hb => (h b hb).1
    have hpoint : utf8EncodeChar '.' = [ascii '.'] := rfl
    rw [fractionChars, if_neg (List.cons_ne_nil d ds), List.flatMap_cons, flatMap_digits, hpoint,
      List.singleton_append, List.cons_append, readFraction, if_pos rfl, hdigits]

private theorem head_fractionChars (ds : List Digit) {rest : List UInt8}
    (h : ∀ b ∈ rest.head?, byteDigit? b = none ∧ b ≠ ascii '.') :
    ∀ b ∈ ((fractionChars ds).flatMap utf8EncodeChar ++ rest).head?, byteDigit? b = none := by
  intro b hb
  cases ds with
  | nil => exact (h b hb).1
  | cons d ds =>
    have hpoint : ascii '.' = b := Option.some.inj hb
    subst hpoint
    decide

def unsignedChars (n : Numeral) : List Char :=
  n.whole.map Digit.char ++ fractionChars n.fraction ++ powerChars n.exponent

theorem chars_eq_unsignedChars (n : Numeral) :
    n.chars = (if n.negative then ['-'] else []) ++ unsignedChars n := by
  obtain ⟨negative, whole, fraction, exponent⟩ := n
  cases exponent <;>
    simp only [Numeral.chars, unsignedChars, fractionChars, powerChars, List.append_assoc]

private theorem readUnsigned_unsignedChars {n : Numeral} (hn : n.WellFormed) {rest : List UInt8}
    (h : EndsNumeral rest) :
    readUnsigned n.negative ((unsignedChars n).flatMap utf8EncodeChar ++ rest) =
      some (n, rest) := by
  obtain ⟨negative, whole, fraction, exponent⟩ := n
  obtain ⟨hne, hzero, hpower⟩ := hn
  have hfollow := head_powerChars exponent h
  have hdigits := leadingDigits_digits whole (head_fractionChars fraction hfollow)
  have hfraction := readFraction_fractionChars fraction hfollow
  have hexponent := readExponent_powerChars hpower h
  simp only [unsignedChars, List.flatMap_append, flatMap_digits, List.append_assoc]
  rw [readUnsigned, hdigits]
  cases whole with
  | nil => exact absurd rfl hne
  | cons d ds =>
    have hlead : ¬ (d = .zero ∧ ds ≠ []) := by
      rintro ⟨rfl, hds⟩
      exact hds (hzero ds rfl)
    simp only [hlead, if_false, hfraction, hexponent]

theorem exists_unsignedChars_eq_cons {n : Numeral} (hn : n.WellFormed) (rest : List UInt8) :
    ∃ d bs, (unsignedChars n).flatMap utf8EncodeChar ++ rest = digitByte d :: bs := by
  cases hwhole : n.whole with
  | nil => exact absurd hwhole hn.whole_ne_nil
  | cons d ds =>
    simp only [unsignedChars, List.flatMap_append, flatMap_digits, hwhole, List.append_assoc]
    exact ⟨d, _, rfl⟩

/-- A numeral is read back from its characters if nothing goes on with it. -/
theorem readNumeral_chars {n : Numeral} (hn : n.WellFormed) {rest : List UInt8}
    (h : EndsNumeral rest) :
    readNumeral (n.chars.flatMap utf8EncodeChar ++ rest) = some (n, rest) := by
  have hread := readUnsigned_unsignedChars hn h
  rw [chars_eq_unsignedChars]
  cases hsign : n.negative with
  | true =>
    rw [hsign] at hread
    exact hread
  | false =>
    rw [hsign] at hread
    obtain ⟨d, bs, hbytes⟩ := exists_unsignedChars_eq_cons hn rest
    have hminus : ∀ d, digitByte d ≠ ascii '-' := by decide
    rw [if_neg (by simp), List.nil_append, hbytes, readNumeral, if_neg (hminus d), ← hbytes]
    exact hread

end Json

end LagForecast
