import LagForecast.Proofs.Json.RoundTrip
import LagForecast.Proofs.Number.Shortest

/-!
# Printed values and what is taken from them

Numbers, records and lists are printable whatever they are made of, and numbers and lists are taken
from what was written for them.  A number that is not finite is written as `null`, of which no
number is taken.
-/

set_option autoImplicit false

namespace LagForecast

namespace Json

variable {ε α : Type}

theorem wellFormed_ofInt (i : Int) : (Numeral.ofInt i).WellFormed := by
  refine ⟨digits_ne_nil i.natAbs, ?_, nofun⟩
  intro ds hds
  change digits i.natAbs = Digit.zero :: ds at hds
  by_cases hi : i.natAbs = 0
  · rw [hi, digits_zero] at hds
    exact (List.cons.inj hds).2.symm
  · obtain ⟨d, rest, hdigits, hd⟩ := digits_head i.natAbs hi
    rw [hdigits] at hds
    exact absurd (List.cons.inj hds).1 hd

theorem printable_int (i : Int) : Printable (.int i) := .number (wellFormed_ofInt i)

theorem printable_float (x : Float) : Printable (.float x) := by
  rw [float]
  by_cases h : x.isFinite = true
  · rw [if_pos h]
    exact .number (Numeral.wellFormed_ofFloat x)
  · rw [if_neg h]
    exact .null

theorem printable_record {entries : List (String × Json)} (h : ∀ e ∈ entries, Printable e.2) :
    Printable (.record entries) := by
  apply Printable.object
  · intro e he
    obtain ⟨p, -, rfl⟩ := List.mem_map.1 he
    rfl
  · intro e he
    obtain ⟨p, hp, rfl⟩ := List.mem_map.1 he
    exact h p hp

theorem printable_array_map {toJson : α → Json} (h : ∀ a, Printable (toJson a)) (l : List α) :
    Printable (.array (l.map toJson)) := by
  apply Printable.array
  intro v hv
  obtain ⟨a, -, rfl⟩ := List.mem_map.1 hv
  exact h a

theorem record_inj {entries others : List (String × Json)} (h : record entries = record others) :
    entries = others := by
  have hentry : Function.Injective fun e : String × Json => (some e.1, e.2) := by
    rintro ⟨name, v⟩ ⟨name', v'⟩ he
    cases he
    rfl
  exact List.map_injective_iff.2 hentry (Json.object.inj h)

theorem toText_eq_ok {v : Json} {s : String} :
    (toText v : Decoded ε String) = .ok s ↔ v = .text s := by
  constructor
  · intro h
    cases v with
    | string t =>
      cases t with
      | none => cases h
      | some t => cases h; rfl
    | null => cases h
    | bool b => cases h
    | number n => cases h
    | array items => cases h
    | object entries => cases h
    | broken => cases h
  · rintro rfl
    rfl

theorem toInt64_int {i : Int} (hleast : -0x8000000000000000 ≤ i)
    (hgreatest : i ≤ 0x7FFFFFFFFFFFFFFF) :
    (toInt64 (.int i) : Decoded ε Int) = .ok i := by
  rw [toInt64, int, toIntWithin, Numeral.toInt?_ofInt]
  exact if_pos ⟨hleast, hgreatest⟩

theorem toFloat_float {x : Float} (h : x.isFinite = true) :
    (toFloat (.float x) : Decoded ε Float) = .ok x := by
  rw [float, if_pos h, toFloat, Numeral.toFloat_ofFloat h]
  exact if_pos h

theorem toFloat_float_of_nonFinite {x : Float} (h : x.isFinite = false) :
    (toFloat (.float x) : Decoded ε Float) = unreadable := by
  rw [float, if_neg (by rw [h]; exact Bool.false_ne_true)]
  rfl

private theorem decodeAll_cons {dec : Json → Decoded ε α} {v : Json} {a : α} (h : dec v = .ok a)
    (rest : List Json) :
    decodeAll dec (v :: rest) = (decodeAll dec rest >>= fun others => .ok (a :: others)) := by
  rw [decodeAll, h]
  rfl

theorem decodeAll_map_of {β : Type} {dec : Json → Decoded ε β} {toJson : α → Json} {g : α → β}
    {l : List α} (h : ∀ a ∈ l, dec (toJson a) = .ok (g a)) :
    decodeAll dec (l.map toJson) = .ok (l.map g) := by
  induction l with
  | nil => rfl
  | cons a l ih =>
    have hrest := ih fun b hb => h b (List.mem_cons_of_mem a hb)
    rw [List.map_cons, decodeAll_cons (h a List.mem_cons_self), hrest]
    rfl

theorem decodeAll_map {dec : Json → Decoded ε α} {toJson : α → Json} {l : List α}
    (h : ∀ a ∈ l, dec (toJson a) = .ok a) : decodeAll dec (l.map toJson) = .ok l := by
  rw [decodeAll_map_of (g := id) h, List.map_id]

theorem decodeAll_map_unreadable {β : Type} {dec : Json → Decoded ε β} {toJson : α → Json}
    {l : List α} (h : ∀ a ∈ l, (∃ b, dec (toJson a) = .ok b) ∨ dec (toJson a) = unreadable)
    (hbad : ∃ a ∈ l, dec (toJson a) = unreadable) :
    decodeAll dec (l.map toJson) = unreadable := by
  induction l with
  | nil =>
    obtain ⟨a, ha, -⟩ := hbad
    exact absurd ha List.not_mem_nil
  | cons a l ih =>
    rw [List.map_cons]
    rcases h a List.mem_cons_self with ⟨b, hok⟩ | hun
    · have hrest : decodeAll dec (l.map toJson) = unreadable := by
        apply ih fun b hb => h b (List.mem_cons_of_mem a hb)
        obtain ⟨c, hc, hun⟩ := hbad
        rcases List.mem_cons.1 hc with rfl | hc
        · cases hok.symm.trans hun
        · exact ⟨c, hc, hun⟩
      rw [decodeAll_cons hok, hrest]
      rfl
    · rw [decodeAll, hun]
      rfl

theorem decode_eq_ok {dec : Json → Decoded ε α} {text : List UInt8} {a : α} :
    decode dec text = .ok a ↔ dec (read text).value = .ok a ∧ (read text).complete = true := by
  rw [decode]
  cases hdec : dec (read text).value with
  | error fault =>
    constructor
    · intro h
      cases h
    · rintro ⟨h, -⟩
      cases h
  | ok b =>
    change (if (read text).complete = true then Except.ok b else unreadable) = .ok a ↔ _
    by_cases h : (read text).complete = true
    · rw [if_pos h]
      exact ⟨fun heq => ⟨heq, h⟩, fun heq => heq.1⟩
    · rw [if_neg h]
      constructor
      · intro heq
        cases heq
      · rintro ⟨-, hcomplete⟩
        exact absurd hcomplete h

end Json

end LagForecast
