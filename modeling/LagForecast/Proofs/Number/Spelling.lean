import LagForecast.Number.Real
import LagForecast.Number.Whole
import LagForecast.Proofs.Number.Shortest
import LagForecast.Text.Basic

/-!
# Numerals as texts

The numeral of a number is read back where a text holds nothing else, as a whole number or as any
number, and it has neither blank characters nor any that a table gives a meaning.
-/

set_option autoImplicit false

namespace LagForecast

open Json (unsignedChars fractionChars powerChars chars_eq_unsignedChars)

def NumeralChar (c : Char) : Prop := c ∈ ['-', '+', '.', 'e'] ∨ ∃ d : Digit, c = d.char

namespace NumeralChar

private theorem of_mem_digits {ds : List Digit} {c : Char} (h : c ∈ ds.map Digit.char) :
    NumeralChar c := by
  obtain ⟨d, -, rfl⟩ := List.mem_map.1 h
  exact Or.inr ⟨d, rfl⟩

theorem of_mem_chars {n : Numeral} {c : Char} (h : c ∈ n.chars) : NumeralChar c := by
  have sign {c : Char} (hc : c ∈ ['-', '+', '.', 'e']) : NumeralChar c := Or.inl hc
  rw [chars_eq_unsignedChars, unsignedChars, List.mem_append, List.mem_append, List.mem_append] at h
  rcases h with h | (h | h) | h
  · split at h
    · rw [List.mem_singleton.1 h]
      exact sign (by decide)
    · exact absurd h List.not_mem_nil
  · exact of_mem_digits h
  · rw [fractionChars] at h
    split at h
    · exact absurd h List.not_mem_nil
    · rcases List.mem_cons.1 h with rfl | h
      · exact sign (by decide)
      · exact of_mem_digits h
  · cases hpower : n.exponent with
    | none =>
      rw [hpower] at h
      exact absurd h List.not_mem_nil
    | some p =>
      obtain ⟨minus, ds⟩ := p
      rw [hpower] at h
      rcases List.mem_cons.1 h with rfl | h
      · exact sign (by decide)
      · rcases List.mem_cons.1 h with rfl | h
        · cases minus <;> exact sign (by decide)
        · exact of_mem_digits h

variable {c : Char}

private theorem isBlank (h : NumeralChar c) : Text.isBlank c = false := by
  have hmarks : ∀ c ∈ ['-', '+', '.', 'e'], Text.isBlank c = false := by
    simp [Text.isBlank, Text.blankRanges]
  have hdigits : ∀ d : Digit, Text.isBlank d.char = false := by decide
  rcases h with h | ⟨d, rfl⟩
  · exact hmarks c h
  · exact hdigits d

end NumeralChar

private theorem Text.trim_of_no_blank {s : String} (h : ∀ c ∈ s.toList, isBlank c = false) :
    trim s = s := by
  have keep {l : List Char} (hl : ∀ c ∈ l, isBlank c = false) : l.dropWhile isBlank = l := by
    cases l with
    | nil => rfl
    | cons c rest => exact List.dropWhile_cons_of_neg (by simp [hl c List.mem_cons_self])
  rw [trim, keep h, keep fun c hc => h c (List.mem_reverse.1 hc), List.reverse_reverse,
    String.ofList_toList]

/-- Trimming a text leaves its last character that is not blank at the end. -/
theorem Text.exists_trim_of_append {s : String} {cs blanks : List Char} {c : Char}
    (h : s.toList = cs ++ c :: blanks) (hc : isBlank c = false)
    (hblanks : ∀ b ∈ blanks, isBlank b = true) : ∃ front, (trim s).toList = front ++ [c] := by
  have hdrop : ∃ front, s.toList.dropWhile isBlank = front ++ c :: blanks := by
    rw [h, List.dropWhile_append]
    split
    · exact ⟨[], List.dropWhile_cons_of_neg (by simp [hc])⟩
    · exact ⟨cs.dropWhile isBlank, rfl⟩
  obtain ⟨front, hfront⟩ := hdrop
  refine ⟨front, ?_⟩
  rw [trim, hfront, String.toList_ofList, List.reverse_append, List.reverse_cons, List.append_assoc,
    List.dropWhile_append_of_pos fun b hb => hblanks b (List.mem_reverse.1 hb),
    List.singleton_append, List.dropWhile_cons_of_neg (by simp [hc]), List.reverse_cons,
    List.reverse_reverse]

theorem Numeral.trim_chars (n : Numeral) :
    Text.trim (String.ofList n.chars) = String.ofList n.chars := by
  apply Text.trim_of_no_blank
  intro c hc
  rw [String.toList_ofList] at hc
  exact (NumeralChar.of_mem_chars hc).isBlank

private theorem le_valueFrom (start : Nat) (ds : List Digit) : start ≤ valueFrom start ds := by
  induction ds generalizing start with
  | nil => exact Nat.le_refl start
  | cons d ds ih =>
    have hrest := ih (10 * start + d.val)
    change start ≤ valueFrom (10 * start + d.val) ds
    omega

/-- Digits of a number within the bound: no number on the way to it passes the bound. -/
theorem boundedDigits_map_char {bound : Nat} (excess : WholeFault) {start : Nat} {ds : List Digit}
    (h : valueFrom start ds ≤ bound) :
    boundedDigits bound excess start (ds.map Digit.char) = .ok (valueFrom start ds) := by
  induction ds generalizing start with
  | nil => rfl
  | cons d ds ih =>
    have hrest : valueFrom (10 * start + d.val) ds ≤ bound := h
    have hstart := le_valueFrom (10 * start + d.val) ds
    rw [List.map_cons, boundedDigits, Digit.ofChar?_char]
    dsimp only
    rw [if_neg (by omega), ih hrest]
    rfl

private theorem someDigits_digits {bound : Nat} (excess : WholeFault) {n : Nat} (h : n ≤ bound) :
    someDigits bound excess ((digits n).map Digit.char) = .ok n := by
  have hread : boundedDigits bound excess 0 ((digits n).map Digit.char) =
      .ok (valueFrom 0 (digits n)) := boundedDigits_map_char excess ((value_digits n).trans_le h)
  cases hdigits : digits n with
  | nil => exact absurd hdigits (digits_ne_nil n)
  | cons d ds =>
    rw [hdigits] at hread
    have hvalue : valueFrom 0 (d :: ds) = n := by rw [← hdigits]; exact value_digits n
    rw [hvalue] at hread
    exact hread

theorem readInt_ofInt {bound : Nat} {i : Int} (hlow : -(bound + 1 : Int) ≤ i) (hhigh : i ≤ bound) :
    readInt bound (String.ofList (Numeral.ofInt i).chars) = .ok i := by
  have hchars : (Numeral.ofInt i).chars =
      (if i < 0 then ['-'] else []) ++ (digits i.natAbs).map Digit.char := by
    simp [Numeral.chars, Numeral.ofInt]
  rw [readInt, String.toList_ofList, hchars]
  by_cases hneg : i < 0
  · have hread : someDigits (bound + 1) .tooSmall ((digits i.natAbs).map Digit.char) =
        .ok i.natAbs := someDigits_digits _ (by omega)
    rw [if_pos hneg]
    change Except.map (fun n : Int => -n)
      (someDigits (bound + 1) .tooSmall ((digits i.natAbs).map Digit.char) >>=
        fun n => pure (n : Int)) = _
    rw [hread]
    exact congrArg Except.ok (by change -(i.natAbs : Int) = i; omega)
  · have hread : someDigits bound .tooLarge ((digits i.natAbs).map Digit.char) = .ok i.natAbs :=
      someDigits_digits _ (by omega)
    rw [if_neg hneg, List.nil_append]
    have hsigns : ∀ d : Digit, d.char ≠ '+' ∧ d.char ≠ '-' := by decide
    cases hdigits : digits i.natAbs with
    | nil => exact absurd hdigits (digits_ne_nil _)
    | cons d ds =>
      obtain ⟨hplus, hminus⟩ := hsigns d
      rw [hdigits, List.map_cons] at hread
      rw [List.map_cons]
      split
      · next h => cases h
      · next h => exact absurd (List.cons.inj h).1 hplus
      · next h => exact absurd (List.cons.inj h).1 hminus
      · rw [hread]
        exact congrArg Except.ok (by change (i.natAbs : Int) = i; omega)

private theorem leadingDigits_chars (ds : List Digit) {rest : List Char}
    (h : ∀ c ∈ rest.head?, Digit.ofChar? c = none) :
    leadingDigits Digit.ofChar? (ds.map Digit.char ++ rest) = (ds, rest) :=
  leadingDigits_map_append Digit.ofChar?_char ds rest h

namespace Numeral

variable {n : Numeral}

private theorem exponentPart_powerChars (hn : n.WellFormed) :
    exponentPart (powerChars n.exponent) = some n.power := by
  cases hpower : n.exponent with
  | none => rw [powerChars, exponentPart, power, hpower]
  | some p =>
    obtain ⟨minus, ds⟩ := p
    have hne : ds ≠ [] := hn.power_ne_nil _ hpower
    have hread : leadingDigits Digit.ofChar? (ds.map Digit.char ++ []) = (ds, []) :=
      leadingDigits_chars ds (by simp)
    rw [List.append_nil] at hread
    cases ds with
    | nil => exact absurd rfl hne
    | cons d ds =>
      rw [List.map_cons] at hread
      rw [power, hpower]
      cases minus with
      | true =>
        have hchars : powerChars (some (true, d :: ds)) =
            'e' :: '-' :: d.char :: ds.map Digit.char := rfl
        rw [hchars]
        unfold exponentPart
        simp only [true_or, if_true, hread]
      | false =>
        have hchars : powerChars (some (false, d :: ds)) =
            'e' :: '+' :: d.char :: ds.map Digit.char := rfl
        rw [hchars]
        unfold exponentPart
        simp only [true_or, if_true, hread]
        rfl

private theorem head_powerChars (e : Option (Bool × List Digit)) :
    ∀ c ∈ (powerChars e).head?, Digit.ofChar? c = none ∧ c ≠ '.' := by
  intro c hc
  cases e with
  | none => cases hc
  | some p =>
    cases hc
    decide

private theorem unsignedDecimal_unsignedChars (hn : n.WellFormed) :
    unsignedDecimal n.negative (unsignedChars n) = some n.toDecimal := by
  have hpower := exponentPart_powerChars hn
  have hhead := head_powerChars n.exponent
  have hpoint : ∀ c ∈ (fractionChars n.fraction ++ powerChars n.exponent).head?,
      Digit.ofChar? c = none := by
    intro c hc
    rw [fractionChars] at hc
    split at hc
    · exact (hhead c hc).1
    · cases hc
      decide
  have hwhole := leadingDigits_chars n.whole hpoint
  have hfraction := leadingDigits_chars n.fraction fun c hc => (hhead c hc).1
  rw [unsignedChars, List.append_assoc, unsignedDecimal, hwhole, toDecimal]
  dsimp only
  cases hdigits : n.fraction with
  | nil =>
    have hrest : fractionChars ([] : List Digit) ++ powerChars n.exponent =
        powerChars n.exponent := rfl
    rw [hrest]
    split
    · next rest hcs =>
      have hpoint := (hhead '.' (by rw [hcs]; rfl)).2
      exact absurd rfl hpoint
    · rw [if_neg fun h => hn.whole_ne_nil h.1, hpower]
      rfl
  | cons d ds =>
    rw [hdigits] at hfraction
    have hrest : fractionChars (d :: ds) ++ powerChars n.exponent =
        '.' :: ((d :: ds).map Digit.char ++ powerChars n.exponent) := rfl
    simp only [hrest, hfraction]
    rw [if_neg fun h => hn.whole_ne_nil h.1, hpower]
    rfl

private theorem name_ne {d : Digit} {cs : List Char} {name : String}
    (h : name ∈ ["inf", "infinity", "nan"]) :
    String.ofList ((d.char :: cs).map Char.toLower) ≠ name := by
  have hhead : ∀ name ∈ ["inf", "infinity", "nan"], ∀ d : Digit,
      name.toList.head? ≠ some d.char.toLower := by decide
  rintro rfl
  exact hhead _ h d (by rw [String.toList_ofList]; rfl)

theorem readFloat_chars (hn : n.WellFormed) :
    readFloat (String.ofList n.chars) = .ok n.toFloat := by
  have hread := unsignedDecimal_unsignedChars hn
  obtain ⟨d, cs, hcs⟩ : ∃ (d : Digit) (cs : List Char), unsignedChars n = d.char :: cs := by
    cases hwhole : n.whole with
    | nil => exact absurd hwhole hn.whole_ne_nil
    | cons d ds => exact ⟨d, _, by rw [unsignedChars, hwhole]; rfl⟩
  have hinf : String.ofList ((unsignedChars n).map Char.toLower) ≠ "inf" := by
    rw [hcs]
    exact name_ne (by simp)
  have hinfinity : String.ofList ((unsignedChars n).map Char.toLower) ≠ "infinity" := by
    rw [hcs]
    exact name_ne (by simp)
  have hnan : String.ofList ((unsignedChars n).map Char.toLower) ≠ "nan" := by
    rw [hcs]
    exact name_ne (by simp)
  have hsigns : ∀ d : Digit, ¬ d.char = '-' ∧ ¬ d.char = '+' := by decide
  obtain ⟨hminus, hplus⟩ := hsigns d
  rw [readFloat, String.toList_ofList, chars_eq_unsignedChars]
  cases hsign : n.negative with
  | true =>
    rw [hsign] at hread
    simp only [if_true, List.cons_append, List.nil_append, true_or, decide_true, hinf, hinfinity,
      hnan, or_self, if_false, hread]
    rfl
  | false =>
    rw [if_neg Bool.false_ne_true, List.nil_append]
    rw [hsign] at hread
    rw [hcs] at hinf hinfinity hnan hread ⊢
    simp only [hminus, hplus, or_self, if_false, decide_false, hinf, hinfinity, hnan, hread]
    rfl

end Numeral

/-- A character with which no number ends. -/
structure NoRealEnd (c : Char) : Prop where
  digit : Digit.ofChar? c = none
  mark : c ∉ ['.', '+', '-']
  letter : c.toLower ∉ ['f', 'y', 'n']

variable {c : Char}

private theorem leadingDigits_concat {α : Type} {digit? : α → Option Digit} {a : α}
    (h : digit? a = none)
    (l : List α) : ∃ ds rest, leadingDigits digit? (l ++ [a]) = (ds, rest ++ [a]) := by
  induction l with
  | nil => exact ⟨[], [], by simp [leadingDigits, h]⟩
  | cons b l ih =>
    obtain ⟨ds, rest, hread⟩ := ih
    rw [List.cons_append, leadingDigits]
    cases digit? b with
    | none => exact ⟨[], b :: l, rfl⟩
    | some d =>
      rw [hread]
      exact ⟨d :: ds, rest, rfl⟩

private theorem exists_concat_of_cons {a : Char} {cs rest : List Char} (h : cs ++ [c] = a :: rest)
    (hc : c ≠ a) : ∃ front, rest = front ++ [c] := by
  cases cs with
  | nil => exact absurd (List.cons.inj h).1 hc
  | cons b cs => exact ⟨cs, (List.cons.inj h).2.symm⟩

private theorem exponentPart_concat (h : NoRealEnd c) (cs : List Char) :
    exponentPart (cs ++ [c]) = none := by
  have hminus : c ≠ '-' := fun heq => h.mark (by simp [heq])
  have hplus : c ≠ '+' := fun heq => h.mark (by simp [heq])
  have hleft (front : List Char) (ds : List Digit) :
      leadingDigits Digit.ofChar? (front ++ [c]) ≠ (ds, []) := by
    obtain ⟨_, rest, hdigits⟩ := leadingDigits_concat h.digit front
    rw [hdigits]
    simp
  cases cs with
  | nil =>
    rw [List.nil_append, exponentPart.eq_def]
    dsimp only
    split <;> rfl
  | cons mark cs =>
    rw [List.cons_append, exponentPart.eq_def]
    dsimp only
    split
    · split
      · next hdigits =>
        split at hdigits
        · next hcs =>
          obtain ⟨front, rfl⟩ := exists_concat_of_cons hcs hminus
          exact absurd hdigits (hleft front _)
        · next hcs =>
          obtain ⟨front, rfl⟩ := exists_concat_of_cons hcs hplus
          exact absurd hdigits (hleft front _)
        · exact absurd hdigits (hleft cs _)
      · rfl
    · rfl

private theorem unsignedDecimal_concat (h : NoRealEnd c) (negative : Bool) (cs : List Char) :
    unsignedDecimal negative (cs ++ [c]) = none := by
  have hpoint : c ≠ '.' := fun heq => h.mark (by simp [heq])
  have hpower (whole : List Digit) (p : List Digit × List Char) (hp : ∃ front, p.2 = front ++ [c]) :
      (if whole = [] ∧ p.1 = [] then none
        else (exponentPart p.2).map fun e =>
          (⟨negative, value (whole ++ p.1), e - p.1.length⟩ : Decimal)) = none := by
    obtain ⟨front, hfront⟩ := hp
    rw [hfront, exponentPart_concat h]
    split <;> rfl
  obtain ⟨whole, rest, hwhole⟩ := leadingDigits_concat h.digit cs
  rw [unsignedDecimal, hwhole]
  apply hpower
  split
  · next hrest =>
    obtain ⟨front, rfl⟩ := exists_concat_of_cons hrest hpoint
    obtain ⟨ds, after, hdigits⟩ := leadingDigits_concat h.digit front
    rw [hdigits]
    exact ⟨after, rfl⟩
  · exact ⟨rest, rfl⟩

private theorem lowered_ne (h : NoRealEnd c) (cs : List Char) {name : String}
    (hname : name ∈ ["inf", "infinity", "nan"]) :
    String.ofList ((cs ++ [c]).map Char.toLower) ≠ name := by
  have hlast : ∀ name ∈ ["inf", "infinity", "nan"], ∃ l ∈ ['f', 'y', 'n'],
      name.toList.getLast? = some l := by simp
  rintro rfl
  obtain ⟨l, hl, hend⟩ := hlast _ hname
  rw [String.toList_ofList, List.map_append, List.map_singleton, List.getLast?_concat] at hend
  exact h.letter (Option.some.inj hend ▸ hl)

theorem readFloat_of_noRealEnd (h : NoRealEnd c) {s : String} {cs : List Char}
    (hs : s.toList = cs ++ [c]) : readFloat s = .error .invalid := by
  have hminus : c ≠ '-' := fun heq => h.mark (by simp [heq])
  have hplus : c ≠ '+' := fun heq => h.mark (by simp [heq])
  obtain ⟨a, tail, hcons⟩ : ∃ a tail, cs ++ [c] = a :: tail := by
    cases cs with
    | nil => exact ⟨c, [], rfl⟩
    | cons a cs => exact ⟨a, cs ++ [c], rfl⟩
  obtain ⟨front, hfront⟩ : ∃ front, (if a = '-' ∨ a = '+' then tail else a :: tail) =
      front ++ [c] := by
    split
    · next hsign =>
      rcases hsign with rfl | rfl
      · exact exists_concat_of_cons hcons hminus
      · exact exists_concat_of_cons hcons hplus
    · exact ⟨cs, hcons.symm⟩
  rw [readFloat, hs, hcons]
  dsimp only
  rw [hfront, if_neg, if_neg (lowered_ne h front (by simp)), unsignedDecimal_concat h]
  rintro (hname | hname)
  · exact lowered_ne h front (by simp) hname
  · exact lowered_ne h front (by simp) hname

end LagForecast
