import LagForecast.Json.Decoder
import LagForecast.Proofs.Json.Numerals
import LagForecast.Proofs.Json.Strings

/-!
# What is printed is read back

A printed value is read back as itself, whatever follows it, and nothing of it is left over.  The
reader is given two steps for every byte of a text, and a printed value needs fewer: every array
and object takes one step for itself and one for each of its members, and each member has a byte
of its own.
-/

set_option autoImplicit false

namespace LagForecast

namespace Json

open String (utf8EncodeChar)

/-- Values of which every part can be written so that it is read back. -/
inductive Printable : Json → Prop
  | null : Printable .null
  | bool (b : Bool) : Printable (.bool b)
  | number {n : Numeral} (hn : n.WellFormed) : Printable (.number n)
  | text (s : String) : Printable (.text s)
  | array {items : List Json} (h : ∀ v ∈ items, Printable v) : Printable (.array items)
  | object {entries : List (Option String × Json)} (hnames : ∀ e ∈ entries, e.1.isSome = true)
      (h : ∀ e ∈ entries, Printable e.2) : Printable (.object entries)

private theorem afterWord?_append (word : String) (rest : List UInt8) :
    afterWord? word (Text.bytes word ++ rest) = some rest := by
  simp [afterWord?]

theorem afterWord?_of_head_ne {word : String} {w b : UInt8} {ws bs : List UInt8}
    (hword : Text.bytes word = w :: ws) (h : b ≠ w) : afterWord? word (b :: bs) = none := by
  simp [afterWord?, hword, h]

private theorem readPlain_null (rest : List UInt8) :
    readPlain (Text.bytes "null" ++ rest) = ⟨.null, some rest⟩ := by
  simp only [readPlain, afterWord?_append]

private theorem readPlain_true (rest : List UInt8) :
    readPlain (Text.bytes "true" ++ rest) = ⟨.bool true, some rest⟩ := by
  have hnull : afterWord? "null" (Text.bytes "true" ++ rest) = none :=
    afterWord?_of_head_ne rfl (by decide)
  simp only [readPlain, hnull, afterWord?_append]

private theorem readPlain_false (rest : List UInt8) :
    readPlain (Text.bytes "false" ++ rest) = ⟨.bool false, some rest⟩ := by
  have hnull : afterWord? "null" (Text.bytes "false" ++ rest) = none :=
    afterWord?_of_head_ne rfl (by decide)
  have htrue : afterWord? "true" (Text.bytes "false" ++ rest) = none :=
    afterWord?_of_head_ne rfl (by decide)
  simp only [readPlain, hnull, htrue, afterWord?_append]

private theorem exists_numeral_eq_cons {n : Numeral} (hn : n.WellFormed) (rest : List UInt8) :
    ∃ b bs, n.chars.flatMap utf8EncodeChar ++ rest = b :: bs ∧
      (b = ascii '-' ∨ ∃ d, b = digitByte d) := by
  rw [chars_eq_unsignedChars]
  cases n.negative with
  | true => exact ⟨_, _, rfl, Or.inl rfl⟩
  | false =>
    obtain ⟨d, bs, hbytes⟩ := exists_unsignedChars_eq_cons hn rest
    exact ⟨_, bs, hbytes, Or.inr ⟨d, rfl⟩⟩

private theorem numeral_head_ne {b : UInt8} (h : b = ascii '-' ∨ ∃ d, b = digitByte d) :
    b ≠ ascii 'n' ∧ b ≠ ascii 't' ∧ b ≠ ascii 'f' ∧ b ≠ ascii '"' ∧ b ≠ ascii '[' ∧
      b ≠ ascii '\x7b' ∧ isSpace b = false := by
  rcases h with rfl | ⟨d, rfl⟩
  · decide
  · revert d
    decide

private theorem readPlain_number {n : Numeral} (hn : n.WellFormed) {rest : List UInt8}
    (h : EndsNumeral rest) :
    readPlain (n.chars.flatMap utf8EncodeChar ++ rest) = ⟨.number n, some rest⟩ := by
  have hread := readNumeral_chars hn h
  obtain ⟨b, bs, hbytes, hhead⟩ := exists_numeral_eq_cons hn rest
  obtain ⟨hn, ht, hf, -⟩ := numeral_head_ne hhead
  rw [hbytes] at hread ⊢
  have hnull : afterWord? "null" (b :: bs) = none := afterWord?_of_head_ne rfl hn
  have htrue : afterWord? "true" (b :: bs) = none := afterWord?_of_head_ne rfl ht
  have hfalse : afterWord? "false" (b :: bs) = none := afterWord?_of_head_ne rfl hf
  simp only [readPlain, hnull, htrue, hfalse, hread]

private theorem skipSpaces_cons {b : UInt8} (h : isSpace b = false) (bs : List UInt8) :
    skipSpaces (b :: bs) = b :: bs := by
  rw [skipSpaces, List.dropWhile_cons_of_neg (by simp [h])]

theorem readValue_plain {b : UInt8} (hspace : isSpace b = false) (hquote : b ≠ ascii '"')
    (hbracket : b ≠ ascii '[') (hbrace : b ≠ ascii '\x7b') (fuel : Nat) (bs : List UInt8) :
    readValue (fuel + 1) (b :: bs) = readPlain (b :: bs) := by
  rw [readValue, skipSpaces_cons hspace]
  simp only [hquote, hbracket, hbrace, if_false]

private theorem readValue_string (s : String) (fuel : Nat) (rest : List UInt8) :
    readValue (fuel + 1) ((stringChars (some s)).flatMap utf8EncodeChar ++ rest) =
      ⟨.text s, some rest⟩ := by
  obtain ⟨bs, hbytes, hread⟩ := readString_stringChars s rest
  rw [hbytes, List.cons_append, readValue, skipSpaces_cons (by decide)]
  simp only [if_true, hread, Option.bind_some, Text.ofBytes?_bytes]
  rfl

private theorem readValue_array (fuel : Nat) {b : UInt8} (hspace : isSpace b = false)
    (hclose : b ≠ ascii ']') (bs : List UInt8) :
    readValue (fuel + 1) (ascii '[' :: b :: bs) =
      ⟨.array (readItems fuel (b :: bs)).value, (readItems fuel (b :: bs)).rest⟩ := by
  have hquote : ascii '[' ≠ ascii '"' := by decide
  rw [readValue, skipSpaces_cons (by decide)]
  simp only [hquote, if_false, if_true, skipSpaces_cons hspace, hclose]

private theorem readValue_object (fuel : Nat) {b : UInt8} (hspace : isSpace b = false)
    (hclose : b ≠ ascii '\x7d') (bs : List UInt8) :
    readValue (fuel + 1) (ascii '\x7b' :: b :: bs) =
      ⟨.object (readEntries fuel (b :: bs)).value, (readEntries fuel (b :: bs)).rest⟩ := by
  have hquote : ascii '\x7b' ≠ ascii '"' := by decide
  have hbracket : ascii '\x7b' ≠ ascii '[' := by decide
  rw [readValue, skipSpaces_cons (by decide)]
  simp only [hquote, hbracket, if_false, if_true, skipSpaces_cons hspace, hclose]

private theorem readItems_last {fuel : Nat} {bs rest : List UInt8} {v : Json}
    (h : readValue fuel bs = ⟨v, some (ascii ']' :: rest)⟩) :
    readItems (fuel + 1) bs = ⟨[v], some rest⟩ := by
  rw [readItems, h]
  rfl

private theorem readItems_cons {fuel : Nat} {bs rest after : List UInt8} {v : Json}
    {items : List Json} (h : readValue fuel bs = ⟨v, some (ascii ',' :: rest)⟩)
    (hrest : readItems fuel rest = ⟨items, some after⟩) :
    readItems (fuel + 1) bs = ⟨v :: items, some after⟩ := by
  have hclose : ascii ',' ≠ ascii ']' := by decide
  rw [readItems, h]
  dsimp only
  rw [skipSpaces_cons (by decide)]
  simp only [hclose, if_false, if_true, hrest]

private theorem readEntries_last {fuel : Nat} {name : String} {bs rest : List UInt8} {v : Json}
    (h : readValue fuel bs = ⟨v, some (ascii '\x7d' :: rest)⟩) :
    readEntries (fuel + 1) ((stringChars (some name)).flatMap utf8EncodeChar ++ ascii ':' :: bs) =
      ⟨[(some name, v)], some rest⟩ := by
  obtain ⟨cs, hbytes, hread⟩ := readString_stringChars name (ascii ':' :: bs)
  rw [hbytes, List.cons_append, readEntries, skipSpaces_cons (by decide)]
  simp only [if_true, hread, Option.bind_some, Text.ofBytes?_bytes]
  rw [skipSpaces_cons (by decide)]
  simp only [if_true, h]
  rw [skipSpaces_cons (by decide)]
  simp only [if_true]

private theorem readEntries_cons {fuel : Nat} {name : String} {bs rest after : List UInt8}
    {v : Json} {entries : List (Option String × Json)}
    (h : readValue fuel bs = ⟨v, some (ascii ',' :: rest)⟩)
    (hrest : readEntries fuel rest = ⟨entries, some after⟩) :
    readEntries (fuel + 1) ((stringChars (some name)).flatMap utf8EncodeChar ++ ascii ':' :: bs) =
      ⟨(some name, v) :: entries, some after⟩ := by
  have hclose : ascii ',' ≠ ascii '\x7d' := by decide
  obtain ⟨cs, hbytes, hread⟩ := readString_stringChars name (ascii ':' :: bs)
  rw [hbytes, List.cons_append, readEntries, skipSpaces_cons (by decide)]
  simp only [if_true, hread, Option.bind_some, Text.ofBytes?_bytes]
  rw [skipSpaces_cons (by decide)]
  simp only [if_true, h]
  rw [skipSpaces_cons (by decide)]
  simp only [hclose, if_false, if_true, hrest]

def printed (v : Json) : List UInt8 := v.chars.flatMap utf8EncodeChar

def printedItems (items : List Json) : List UInt8 := (itemChars items).flatMap utf8EncodeChar

def printedEntries (entries : List (Option String × Json)) : List UInt8 :=
  (entryChars entries).flatMap utf8EncodeChar

theorem bytes_compact (v : Json) : Text.bytes v.compact = printed v := Text.bytes_ofList v.chars

private theorem printed_array (items : List Json) :
    printed (.array items) = ascii '[' :: (printedItems items ++ [ascii ']']) := by
  rw [printed, chars, List.cons_append, List.flatMap_cons, List.flatMap_append]
  rfl

private theorem printedItems_cons_cons (v w : Json) (items : List Json) :
    printedItems (v :: w :: items) = printed v ++ ascii ',' :: printedItems (w :: items) := by
  rw [printedItems, itemChars, List.flatMap_append, List.flatMap_cons]
  · rfl
  · exact List.cons_ne_nil w items

theorem printed_object (entries : List (Option String × Json)) :
    printed (.object entries) = ascii '\x7b' :: (printedEntries entries ++ [ascii '\x7d']) := by
  rw [printed, chars, List.cons_append, List.flatMap_cons, List.flatMap_append]
  rfl

theorem printedEntries_singleton (name : Option String) (v : Json) :
    printedEntries [(name, v)] =
      (stringChars name).flatMap utf8EncodeChar ++ ascii ':' :: printed v := by
  rw [printedEntries, entryChars, List.flatMap_append, List.flatMap_cons]
  rfl

private theorem printedEntries_cons_cons (name : Option String) (v : Json)
    (e : Option String × Json) (entries : List (Option String × Json)) :
    printedEntries ((name, v) :: e :: entries) = (stringChars name).flatMap utf8EncodeChar ++
      ascii ':' :: (printed v ++ ascii ',' :: printedEntries (e :: entries)) := by
  rw [printedEntries, entryChars, List.flatMap_append, List.flatMap_cons, List.flatMap_append,
    List.flatMap_cons]
  · rfl
  · exact List.cons_ne_nil e entries

private theorem exists_printed_eq_cons {v : Json} (hv : Printable v) :
    ∃ b bs, printed v = b :: bs ∧ isSpace b = false ∧ b ≠ ascii ']' := by
  cases hv with
  | null => exact ⟨_, _, rfl, by decide, by decide⟩
  | bool b => cases b <;> exact ⟨_, _, rfl, by decide, by decide⟩
  | text s => exact ⟨_, _, rfl, by decide, by decide⟩
  | array h => exact ⟨_, _, printed_array _, by decide, by decide⟩
  | object hnames h => exact ⟨_, _, printed_object _, by decide, by decide⟩
  | @number n hn =>
    obtain ⟨b, bs, hbytes, hhead⟩ := exists_numeral_eq_cons hn []
    rw [List.append_nil] at hbytes
    have hdigit : ∀ d, isSpace (digitByte d) = false ∧ digitByte d ≠ ascii ']' := by decide
    refine ⟨b, bs, hbytes, ?_⟩
    rcases hhead with rfl | ⟨d, rfl⟩
    · decide
    · exact hdigit d

private theorem exists_printedItems_eq_cons {v : Json} (hv : Printable v) (items : List Json) :
    ∃ b bs, printedItems (v :: items) = b :: bs ∧ isSpace b = false ∧ b ≠ ascii ']' := by
  obtain ⟨b, bs, hbytes, hhead⟩ := exists_printed_eq_cons hv
  cases items with
  | nil => exact ⟨b, bs, hbytes, hhead⟩
  | cons w items =>
    refine ⟨b, bs ++ ascii ',' :: printedItems (w :: items), ?_, hhead⟩
    rw [printedItems_cons_cons, hbytes, List.cons_append]

private theorem exists_printedEntries_eq_cons (e : Option String × Json)
    (entries : List (Option String × Json)) :
    ∃ bs, printedEntries (e :: entries) = ascii '"' :: bs := by
  obtain ⟨name, v⟩ := e
  cases entries with
  | nil => exact ⟨_, printedEntries_singleton name v⟩
  | cons e entries => exact ⟨_, printedEntries_cons_cons name v e entries⟩

private theorem endsNumeral_cons {b : UInt8} (h : b = ascii ',' ∨ b = ascii ']' ∨ b = ascii '\x7d')
    (rest : List UInt8) : EndsNumeral (b :: rest) := by
  intro c hc
  have hcb : b = c := Option.some.inj hc
  subst hcb
  rcases h with rfl | rfl | rfl <;> decide

/-- What is read of a printed value, whatever follows it and however many steps are left. -/
def ReadsBack (v : Json) : Prop :=
  ∀ (fuel : Nat) (rest : List UInt8), EndsNumeral rest → 2 * (printed v).length ≤ fuel →
    readValue fuel (printed v ++ rest) = ⟨v, some rest⟩

private theorem readItems_printed {items : List Json} (hne : items ≠ [])
    (h : ∀ v ∈ items, ReadsBack v)
    (fuel : Nat) (rest : List UInt8) (hfuel : 2 * (printedItems items).length < fuel) :
    readItems fuel (printedItems items ++ ascii ']' :: rest) = ⟨items, some rest⟩ := by
  induction items generalizing fuel with
  | nil => exact absurd rfl hne
  | cons v items ih =>
    have hv := h v (by simp)
    obtain ⟨fuel, rfl⟩ : ∃ n, fuel = n + 1 := ⟨fuel - 1, by omega⟩
    cases items with
    | nil =>
      have hend := endsNumeral_cons (Or.inr (Or.inl rfl)) rest
      exact readItems_last (hv fuel _ hend (Nat.le_of_lt_succ hfuel))
    | cons w items =>
      have hend := endsNumeral_cons (Or.inl rfl) (printedItems (w :: items) ++ ascii ']' :: rest)
      rw [printedItems_cons_cons, List.length_append, List.length_cons] at hfuel
      rw [printedItems_cons_cons, List.append_assoc, List.cons_append]
      refine readItems_cons (hv fuel _ hend (by omega)) ?_
      exact ih (List.cons_ne_nil w items) (fun x hx => h x (List.mem_cons_of_mem v hx)) fuel
        (by omega)

private theorem readEntries_printed {entries : List (Option String × Json)} (hne : entries ≠ [])
    (hnames : ∀ e ∈ entries, e.1.isSome = true) (h : ∀ e ∈ entries, ReadsBack e.2)
    (fuel : Nat) (rest : List UInt8) (hfuel : 2 * (printedEntries entries).length < fuel) :
    readEntries fuel (printedEntries entries ++ ascii '\x7d' :: rest) = ⟨entries, some rest⟩ := by
  induction entries generalizing fuel with
  | nil => exact absurd rfl hne
  | cons e entries ih =>
    obtain ⟨name, v⟩ := e
    have hv : ReadsBack v := h (name, v) (by simp)
    obtain ⟨s, rfl⟩ : ∃ s, name = some s := Option.isSome_iff_exists.1 (hnames (name, v) (by simp))
    obtain ⟨fuel, rfl⟩ : ∃ n, fuel = n + 1 := ⟨fuel - 1, by omega⟩
    cases entries with
    | nil =>
      have hend := endsNumeral_cons (Or.inr (Or.inr rfl)) rest
      rw [printedEntries_singleton, List.length_append, List.length_cons] at hfuel
      rw [printedEntries_singleton, List.append_assoc, List.cons_append]
      exact readEntries_last (hv fuel _ hend (by omega))
    | cons e entries =>
      have hend := endsNumeral_cons (Or.inl rfl)
        (printedEntries (e :: entries) ++ ascii '\x7d' :: rest)
      rw [printedEntries_cons_cons, List.length_append, List.length_cons, List.length_append,
        List.length_cons] at hfuel
      rw [printedEntries_cons_cons, List.append_assoc, List.cons_append, List.append_assoc,
        List.cons_append]
      refine readEntries_cons (hv fuel _ hend (by omega)) ?_
      exact ih (List.cons_ne_nil e entries) (fun x hx => hnames x (List.mem_cons_of_mem _ hx))
        (fun x hx => h x (List.mem_cons_of_mem _ hx)) fuel (by omega)

/-- A value has at least one byte, so there is a step left to read it. -/
private theorem readsBack_of_succ {v : Json} (hv : Printable v)
    (h : ∀ (fuel : Nat) (rest : List UInt8), EndsNumeral rest →
      2 * (printed v).length ≤ fuel + 1 →
        readValue (fuel + 1) (printed v ++ rest) = ⟨v, some rest⟩) : ReadsBack v := by
  intro fuel rest hrest hfuel
  obtain ⟨b, bs, hbytes, -⟩ := exists_printed_eq_cons hv
  have hpos : 0 < (printed v).length := by rw [hbytes]; exact Nat.succ_pos _
  obtain ⟨fuel, rfl⟩ : ∃ n, fuel = n + 1 := ⟨fuel - 1, by omega⟩
  exact h fuel rest hrest hfuel

private theorem readsBack_of_printable {v : Json} (hv : Printable v) : ReadsBack v := by
  induction hv with
  | null =>
    apply readsBack_of_succ .null
    intro fuel rest _ _
    exact (readValue_plain (by decide) (by decide) (by decide) (by decide) fuel _).trans
      (readPlain_null rest)
  | bool b =>
    apply readsBack_of_succ (.bool b)
    intro fuel rest _ _
    cases b with
    | true =>
      exact (readValue_plain (by decide) (by decide) (by decide) (by decide) fuel _).trans
        (readPlain_true rest)
    | false =>
      exact (readValue_plain (by decide) (by decide) (by decide) (by decide) fuel _).trans
        (readPlain_false rest)
  | text s =>
    apply readsBack_of_succ (.text s)
    intro fuel rest _ _
    exact readValue_string s fuel rest
  | @number n hn =>
    apply readsBack_of_succ (.number hn)
    intro fuel rest hrest _
    have hread := readPlain_number hn hrest
    obtain ⟨b, bs, hbytes, hhead⟩ := exists_numeral_eq_cons hn rest
    obtain ⟨-, -, -, hquote, hbracket, hbrace, hspace⟩ := numeral_head_ne hhead
    rw [hbytes] at hread
    have hstep := (readValue_plain hspace hquote hbracket hbrace fuel bs).trans hread
    rw [← hbytes] at hstep
    exact hstep
  | @array items h ih =>
    apply readsBack_of_succ (.array h)
    intro fuel rest _ hfuel
    cases items with
    | nil => rfl
    | cons v items =>
      rw [printed_array, List.length_cons, List.length_append] at hfuel
      have hitems := readItems_printed (List.cons_ne_nil v items) ih fuel rest (by omega)
      obtain ⟨b, bs, hbytes, hspace, hclose⟩ := exists_printedItems_eq_cons (h v (by simp)) items
      rw [printed_array, List.cons_append, List.append_assoc, List.singleton_append, hbytes,
        List.cons_append, readValue_array fuel hspace hclose, ← List.cons_append, ← hbytes, hitems]
  | @object entries hnames h ih =>
    apply readsBack_of_succ (.object hnames h)
    intro fuel rest _ hfuel
    cases entries with
    | nil => rfl
    | cons e entries =>
      rw [printed_object, List.length_cons, List.length_append] at hfuel
      have hentries := readEntries_printed (List.cons_ne_nil e entries) hnames ih fuel rest
        (by omega)
      obtain ⟨bs, hbytes⟩ := exists_printedEntries_eq_cons e entries
      rw [printed_object, List.cons_append, List.append_assoc, List.singleton_append, hbytes,
        List.cons_append, readValue_object fuel (by decide) (by decide), ← List.cons_append,
        ← hbytes, hentries]

theorem read_printed {v : Json} (hv : Printable v) : read (printed v) = ⟨v, some []⟩ := by
  have hread := readsBack_of_printable hv (2 * (printed v).length + 1) [] (by simp [EndsNumeral])
    (by omega)
  rw [List.append_nil] at hread
  exact hread

variable {ε α : Type} {decoder : Json → Decoded ε α}

theorem decode_compact {v : Json} (hv : Printable v) :
    decode decoder (Text.bytes v.compact) = decoder v := by
  rw [bytes_compact, decode, read_printed hv]
  change (decoder v >>= fun a => pure a) = decoder v
  cases decoder v <;> rfl

end Json

end LagForecast
