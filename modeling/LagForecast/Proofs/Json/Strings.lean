import LagForecast.Json.Printer
import LagForecast.Json.Reader
import LagForecast.Proofs.Text.Encoding

/-!
Strings read back.  Each character of a text is read from what stands for it, an escape or its own
bytes, and no character but the closing quotation mark ends a string.
-/

set_option autoImplicit false

namespace LagForecast

namespace Json

open String (utf8EncodeChar)
open Text (hexDigit hexDigits)

private theorem ascii_inj {c d : Char} (hc : c.toNat < 0x100) (hd : d.toNat < 0x100)
    (h : ascii c = ascii d) : c = d := by
  have hnat : c.toNat % 0x100 = d.toNat % 0x100 := congrArg UInt8.toNat h
  rw [Nat.mod_eq_of_lt hc, Nat.mod_eq_of_lt hd] at hnat
  exact Char.toNat_inj.1 hnat

private theorem readString_quote (rest : List UInt8) :
    readString none (ascii '"' :: rest) = some (some [], rest) := by
  rw [readString.eq_def]
  rfl

private theorem readString_plain {b : UInt8} (hquote : b ≠ ascii '"') (hslash : b ≠ ascii '\\')
    (hcontrol : ¬ b < 0x20) (bs : List UInt8) :
    readString none (b :: bs) = consBytes none [b] (readString none bs) := by
  rw [readString.eq_def]
  simp only [hquote, hslash, hcontrol, if_false]

private theorem readString_letter {e x : UInt8} (hu : e ≠ ascii 'u') (h : unescaped? e = some x)
    (bs : List UInt8) :
    readString none (ascii '\\' :: e :: bs) = consBytes none [x] (readString none bs) := by
  rw [readString.eq_def]
  have hquote : ascii '\\' ≠ ascii '"' := by decide
  simp [hquote, hu, h]

private theorem readString_unit {h₁ h₂ h₃ h₄ : UInt8} {unit : Nat}
    (h : hexUnit? h₁ h₂ h₃ h₄ = some unit) (hunit : unit < 0xD800) (bs : List UInt8) :
    readString none (ascii '\\' :: ascii 'u' :: h₁ :: h₂ :: h₃ :: h₄ :: bs) =
      consBytes none (utf8EncodeChar (Char.ofNat unit)) (readString none bs) := by
  rw [readString.eq_def]
  have hquote : ascii '\\' ≠ ascii '"' := by decide
  have hlow : ¬ (0xDC00 ≤ unit ∧ unit < 0xE000) := by omega
  have hhigh : ¬ (0xD800 ≤ unit ∧ unit < 0xDC00) := by omega
  simp [hquote, h, hlow, hhigh]

private theorem consBytes_nil (x : Option (Option (List UInt8) × List UInt8)) :
    consBytes none [] x = x := by
  cases x with
  | none => rfl
  | some p =>
    obtain ⟨content, rest⟩ := p
    cases content <;> rfl

private theorem consBytes_consBytes (a b : List UInt8)
    (x : Option (Option (List UInt8) × List UInt8)) :
    consBytes none a (consBytes none b x) = consBytes none (a ++ b) x := by
  cases x with
  | none => rfl
  | some p =>
    obtain ⟨content, rest⟩ := p
    cases content <;> simp [consBytes]

private theorem readString_append {content : List UInt8}
    (h : ∀ b ∈ content, b ≠ ascii '"' ∧ b ≠ ascii '\\' ∧ ¬ b < 0x20) (bs : List UInt8) :
    readString none (content ++ bs) = consBytes none content (readString none bs) := by
  induction content with
  | nil => rw [List.nil_append, consBytes_nil]
  | cons b content ih =>
    obtain ⟨hquote, hslash, hcontrol⟩ := h b (by simp)
    rw [List.cons_append, readString_plain hquote hslash hcontrol,
      ih fun c hc => h c (by simp [hc]), consBytes_consBytes, List.singleton_append]

def letterEscapes : List Char := ['"', '\\', '\x08', '\x0c', '\n', '\r', '\t']

private theorem escapedChar_of_mem {c : Char} (h : c ∈ letterEscapes) :
    ∃ e x, (escapedChar c).flatMap utf8EncodeChar = [ascii '\\', e] ∧ e ≠ ascii 'u' ∧
      unescaped? e = some x ∧ utf8EncodeChar c = [x] := by
  simp only [letterEscapes, List.mem_cons, List.not_mem_nil, or_false] at h
  rcases h with rfl | rfl | rfl | rfl | rfl | rfl | rfl <;>
    exact ⟨_, _, rfl, by decide, rfl, rfl⟩

private theorem escapedChar_of_control {c : Char} (h : c ∉ letterEscapes) (hc : c.toNat < 0x20) :
    escapedChar c = '\\' :: 'u' :: hexDigits 4 c.toNat := by
  simp only [letterEscapes, List.mem_cons, List.not_mem_nil, or_false, not_or] at h
  simp [escapedChar, h, hc]

private theorem escapedChar_of_plain {c : Char} (h : c ∉ letterEscapes) (hc : ¬ c.toNat < 0x20) :
    escapedChar c = [c] := by
  simp only [letterEscapes, List.mem_cons, List.not_mem_nil, or_false, not_or] at h
  simp [escapedChar, h, hc]

private theorem hexUnit?_hexDigits {n : Nat} (h : n < 0x20) :
    (hexDigits 4 n).flatMap utf8EncodeChar =
        [0x30, 0x30, ascii (hexDigit (n / 16)), ascii (hexDigit (n % 16))] ∧
      hexUnit? 0x30 0x30 (ascii (hexDigit (n / 16))) (ascii (hexDigit (n % 16))) = some n := by
  have table : ∀ i : Fin 0x20, (hexDigits 4 i.val).flatMap utf8EncodeChar =
        [0x30, 0x30, ascii (hexDigit (i.val / 16)), ascii (hexDigit (i.val % 16))] ∧
      hexUnit? 0x30 0x30 (ascii (hexDigit (i.val / 16))) (ascii (hexDigit (i.val % 16))) =
        some i.val := by
    decide
  exact table ⟨n, h⟩

private theorem bytes_stand_for_themselves {c : Char} (h : c ∉ letterEscapes)
    (hc : ¬ c.toNat < 0x20) :
    ∀ b ∈ utf8EncodeChar c, b ≠ ascii '"' ∧ b ≠ ascii '\\' ∧ ¬ b < 0x20 := by
  intro b hb
  by_cases hascii : c.toNat < 0x80
  · rw [Text.utf8EncodeChar_of_ascii hascii, List.mem_singleton] at hb
    subst hb
    simp only [letterEscapes, List.mem_cons, List.not_mem_nil, or_false, not_or] at h
    refine ⟨?_, ?_, ?_⟩
    · intro hb
      exact h.1 (ascii_inj (by omega) (by decide) hb)
    · intro hb
      exact h.2.1 (ascii_inj (by omega) (by decide) hb)
    · intro hlt
      rw [UInt8.lt_iff_toNat_lt] at hlt
      have hval : c.toNat.toUInt8.toNat = c.toNat := Nat.mod_eq_of_lt (by omega)
      rw [hval] at hlt
      exact hc hlt
  · have hhigh := Text.le_of_mem_utf8EncodeChar (Nat.not_lt.1 hascii) b hb
    refine ⟨?_, ?_, ?_⟩
    · rintro rfl
      exact absurd hhigh (by decide)
    · rintro rfl
      exact absurd hhigh (by decide)
    · intro hlt
      exact absurd (UInt8.lt_of_le_of_lt hhigh hlt) (by decide)

private theorem readString_escapedChar (c : Char) (bs : List UInt8) :
    readString none ((escapedChar c).flatMap utf8EncodeChar ++ bs) =
      consBytes none (utf8EncodeChar c) (readString none bs) := by
  by_cases hletter : c ∈ letterEscapes
  · obtain ⟨e, x, hbytes, hu, hx, hc⟩ := escapedChar_of_mem hletter
    rw [hbytes, hc]
    exact readString_letter hu hx bs
  by_cases hcontrol : c.toNat < 0x20
  · obtain ⟨hdigits, hunit⟩ := hexUnit?_hexDigits hcontrol
    rw [escapedChar_of_control hletter hcontrol, List.flatMap_cons, List.flatMap_cons, hdigits]
    have hread := readString_unit hunit (by omega) bs
    rw [Char.ofNat_toNat] at hread
    exact hread
  · rw [escapedChar_of_plain hletter hcontrol, List.flatMap_singleton]
    exact readString_append (bytes_stand_for_themselves hletter hcontrol) bs

/-- A text is read back from what stands for it in a string. -/
theorem readString_stringChars (s : String) (rest : List UInt8) :
    ∃ bs, (stringChars (some s)).flatMap utf8EncodeChar = ascii '"' :: bs ∧
      readString none (bs ++ rest) = some (some (Text.bytes s), rest) := by
  have content (cs : List Char) :
      readString none ((cs.flatMap escapedChar).flatMap utf8EncodeChar ++ ascii '"' :: rest) =
        some (some (cs.flatMap utf8EncodeChar), rest) := by
    induction cs with
    | nil => exact readString_quote rest
    | cons c cs ih =>
      rw [List.flatMap_cons, List.flatMap_append, List.append_assoc, readString_escapedChar, ih]
      rfl
  refine ⟨(s.toList.flatMap escapedChar).flatMap utf8EncodeChar ++ [ascii '"'], ?_, ?_⟩
  · have hquote : utf8EncodeChar '"' = [ascii '"'] := rfl
    rw [stringChars, List.cons_append, List.flatMap_cons, List.flatMap_append,
      List.flatMap_singleton, hquote]
    rfl
  · rw [List.append_assoc, Text.bytes_eq_flatMap]
    exact content s.toList

end Json

end LagForecast
