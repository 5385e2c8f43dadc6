import LagForecast.Text.Csv
import Mathlib.Init

/-!
# Lines of fields read back

Fields without quotation marks, commas and ends of lines among their bytes may be written as they
are.  The reader passes over such a line as over one step that adds a record.
-/

set_option autoImplicit false

namespace LagForecast

namespace Csv

def Plain (b : UInt8) : Prop := b ≠ 0x2C ∧ b ≠ 0x22 ∧ b ≠ 0x0A ∧ b ≠ 0x0D

instance (b : UInt8) : Decidable (Plain b) :=
  inferInstanceAs (Decidable (_ ∧ _ ∧ _ ∧ _))

/-- A field that may be written without quotation marks. -/
structure PlainField (bs : List UInt8) : Prop where
  ne_nil : bs ≠ []
  plain : ∀ b ∈ bs, Plain b

def lineEnds : List (List UInt8) := [[0x0A], [0x0D, 0x0A]]

def line (eol : List UInt8) : List (List UInt8) → List UInt8
  | [] => eol
  | [f] => f ++ eol
  | f :: fields => f ++ 0x2C :: line eol fields

namespace State

variable {b : UInt8} {bs eol : List UInt8} {fields : List (List UInt8)}
  {records : List (List (List UInt8))}

theorem outside_plain (h : Plain b) (s : State) : s.outside b = s.push .plain b := by
  obtain ⟨hcomma, -, hfeed, hreturn⟩ := h
  rw [outside, if_neg hcomma, if_neg (by simp [hfeed, hreturn])]

private theorem foldl_plain (h : ∀ b ∈ bs, Plain b) (start : List UInt8) :
    bs.foldl step ⟨.plain, start, fields, records⟩ =
      ⟨.plain, bs.reverse ++ start, fields, records⟩ := by
  induction bs generalizing start with
  | nil => rfl
  | cons b bs ih =>
    have hstep : step ⟨.plain, start, fields, records⟩ b =
        ⟨.plain, b :: start, fields, records⟩ := outside_plain (h b List.mem_cons_self) _
    rw [List.foldl_cons, hstep, ih fun b hb => h b (List.mem_cons_of_mem _ hb),
      List.reverse_cons, List.append_assoc, List.singleton_append]

theorem foldl_field {place : Place} (hplace : place = .record ∨ place = .field)
    (h : PlainField bs) :
    bs.foldl step ⟨place, [], fields, records⟩ = ⟨.plain, bs.reverse, fields, records⟩ := by
  obtain ⟨hne, hplain⟩ := h
  cases bs with
  | nil => exact absurd rfl hne
  | cons b bs =>
    have hb := hplain b List.mem_cons_self
    have hrest : bs.foldl step ⟨.plain, [b], fields, records⟩ =
        ⟨.plain, bs.reverse ++ [b], fields, records⟩ :=
      foldl_plain (fun b hb => hplain b (List.mem_cons_of_mem _ hb)) [b]
    have hopening (s : State) : s.opening b = s.push .plain b := by
      rw [opening, if_neg hb.2.1, outside_plain hb]
    have hstep : step ⟨place, [], fields, records⟩ b = ⟨.plain, [b], fields, records⟩ := by
      rcases hplace with rfl | rfl
      · rw [step]
        dsimp only
        rw [if_neg (by simp [hb.2.2]), hopening]
        rfl
      · rw [step]
        dsimp only
        rw [hopening]
        rfl
    rw [List.foldl_cons, hstep, hrest, List.reverse_cons]

private theorem foldl_lineEnd (heol : eol ∈ lineEnds) (last : List UInt8) :
    eol.foldl step ⟨.plain, last.reverse, fields, records⟩ =
      ⟨.record, [], [], (fields.reverse ++ [last]) :: records⟩ := by
  have hrecord : ((last.reverse.reverse :: fields).reverse :: records) =
      (fields.reverse ++ [last]) :: records := by
    rw [List.reverse_reverse, List.reverse_cons]
  rw [← hrecord]
  rcases List.mem_cons.1 heol with rfl | heol
  · rfl
  · rw [List.mem_singleton.1 heol]
    rfl

private theorem foldl_line (heol : eol ∈ lineEnds) {l : List (List UInt8)} (hne : l ≠ [])
    (hl : ∀ f ∈ l, PlainField f) {place : Place} (hplace : place = .record ∨ place = .field) :
    (line eol l).foldl step ⟨place, [], fields, records⟩ =
      ⟨.record, [], [], (fields.reverse ++ l) :: records⟩ := by
  induction l generalizing place fields with
  | nil => exact absurd rfl hne
  | cons f rest ih =>
    have hfield : f.foldl step ⟨place, [], fields, records⟩ =
        ⟨.plain, f.reverse, fields, records⟩ := foldl_field hplace (hl f List.mem_cons_self)
    cases rest with
    | nil => rw [line, List.foldl_append, hfield, foldl_lineEnd heol]
    | cons g rest =>
      have hcomma : step ⟨.plain, f.reverse, fields, records⟩ 0x2C =
          ⟨.field, [], f :: fields, records⟩ := by
        change State.mk .field [] (f.reverse.reverse :: fields) records = _
        rw [List.reverse_reverse]
      have hrest : (line eol (g :: rest)).foldl step ⟨.field, [], f :: fields, records⟩ =
          ⟨.record, [], [], ((f :: fields).reverse ++ g :: rest) :: records⟩ :=
        ih (List.cons_ne_nil g rest) (fun f hf => hl f (List.mem_cons_of_mem _ hf)) (Or.inr rfl)
      rw [List.reverse_cons, List.append_assoc, List.singleton_append] at hrest
      rw [line, List.foldl_append, hfield, List.foldl_cons, hcomma, hrest]
      exact List.cons_ne_nil g rest

private theorem foldl_lines (heol : eol ∈ lineEnds) {lines : List (List (List UInt8))}
    (h : ∀ l ∈ lines, l ≠ [] ∧ ∀ f ∈ l, PlainField f) :
    (lines.flatMap (line eol)).foldl step ⟨.record, [], [], records⟩ =
      ⟨.record, [], [], lines.reverse ++ records⟩ := by
  induction lines generalizing records with
  | nil => rfl
  | cons l lines ih =>
    obtain ⟨hne, hl⟩ := h l List.mem_cons_self
    rw [List.flatMap_cons, List.foldl_append, foldl_line heol hne hl (Or.inl rfl),
      ih fun l hl => h l (List.mem_cons_of_mem _ hl), List.reverse_cons, List.append_assoc]
    rfl

end State

/-- A text that does not begin like a byte order mark is read from its first byte on. -/
theorem records_eq_finish {bs : List UInt8} (h : bs.head? ≠ some 0xEF) :
    records bs = (bs.foldl State.step .start).finish := by
  rw [records]
  intro rest hbytes
  rw [hbytes] at h
  exact h rfl

/-- Lines are read back as they were written, unless they begin like a byte order mark. -/
theorem records_lines {eol : List UInt8} (heol : eol ∈ lineEnds) {lines : List (List (List UInt8))}
    (h : ∀ l ∈ lines, l ≠ [] ∧ ∀ f ∈ l, PlainField f)
    (hmark : (lines.flatMap (line eol)).head? ≠ some 0xEF) :
    records (lines.flatMap (line eol)) = lines := by
  have hfold : (lines.flatMap (line eol)).foldl State.step ⟨.record, [], [], []⟩ =
      ⟨.record, [], [], lines.reverse ++ []⟩ := State.foldl_lines heol h
  rw [List.append_nil] at hfold
  rw [records_eq_finish hmark, State.start, hfold]
  exact List.reverse_reverse lines

end Csv

end LagForecast
