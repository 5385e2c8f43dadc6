import LagForecast.Proofs.CommandLine.Agreement
import LagForecast.Proofs.Json.Ends

/-!
# Formats told apart by reading

A file whose extension names no format is read as a table first.  A JSON text with observations ends
with a bracket or a brace, which no number does; so the last field of the last record of such a text
is no number, and the text is a table only if it has several columns and the values stand in another
than the last.  A text on one line, or with a first line of one field, is no such table.
-/

set_option autoImplicit false

namespace LagForecast

open Json (isSpace closers Closed)

namespace Csv

/-- A field of white space only, or with a closing bracket or brace in front of its white space. -/
def Dangling (f : List UInt8) : Prop :=
  ∃ front spaces : List UInt8, f = front ++ spaces ∧ (∀ c ∈ front.getLast?, c ∈ closers) ∧
    ∀ b ∈ spaces, isSpace b = true

variable {f bs : List UInt8} {b c : UInt8}

private theorem dangling_nil : Dangling [] := ⟨[], [], rfl, by simp, by simp⟩

private theorem dangling_concat (hc : c ∈ closers) (bs : List UInt8) : Dangling (bs ++ [c]) := by
  refine ⟨bs ++ [c], [], (List.append_nil _).symm, ?_, by simp⟩
  rintro c' hc'
  rw [List.getLast?_concat] at hc'
  cases hc'
  exact hc

private theorem Dangling.concat (h : Dangling f) (hb : isSpace b = true) : Dangling (f ++ [b]) := by
  obtain ⟨front, spaces, rfl, hfront, hspaces⟩ := h
  refine ⟨front, spaces ++ [b], List.append_assoc _ _ _, hfront, ?_⟩
  intro b' hb'
  rcases List.mem_append.1 hb' with hb' | hb'
  · exact hspaces b' hb'
  · rw [List.mem_singleton.1 hb']
    exact hb

private theorem isSpace_iff : isSpace b = true ↔ b ∈ [0x20, 0x09, 0x0A, 0x0D] := by
  simp [isSpace, or_assoc]

private theorem ascii_of_isSpace (hb : isSpace b = true) :
    b < 0x80 ∧ Text.isBlank (Char.ofNat b.toNat) = true := by
  have hspaces : ∀ b ∈ [0x20, 0x09, 0x0A, 0x0D], b < (0x80 : UInt8) ∧
      Text.isBlank (Char.ofNat b.toNat) = true := by
    simp [Text.isBlank, Text.blankRanges]
  exact hspaces b (isSpace_iff.1 hb)

private theorem ascii_of_closer (hc : c ∈ closers) :
    c < 0x80 ∧ Text.isBlank (Char.ofNat c.toNat) = false ∧ NoRealEnd (Char.ofNat c.toNat) := by
  rcases List.mem_cons.1 hc with rfl | hc
  · exact ⟨by decide, by decide, by decide, by decide, by decide⟩
  · rw [List.mem_singleton.1 hc]
    exact ⟨by decide, by decide, by decide, by decide, by decide⟩

private theorem Dangling.readFloat_ne_ok (h : Dangling f) {s : String}
    (hs : Text.ofBytes? f = some s) (v : Float) : readFloat (Text.trim s) ≠ .ok v := by
  obtain ⟨front, spaces, rfl, hfront, hspaces⟩ := h
  have hlow : ∀ b ∈ spaces, b < 0x80 := fun b hb => (ascii_of_isSpace (hspaces b hb)).1
  have hblank : ∀ c ∈ spaces.map fun b => Char.ofNat b.toNat, Text.isBlank c = true := by
    intro c hc
    obtain ⟨b, hb, rfl⟩ := List.mem_map.1 hc
    exact (ascii_of_isSpace (hspaces b hb)).2
  have hbytes := Text.bytes_of_ofBytes? hs
  rcases List.eq_nil_or_concat front with rfl | ⟨init, c, rfl⟩
  · obtain ⟨cs, hcs, hnil⟩ := Text.exists_append_of_bytes hlow hbytes
    obtain rfl : cs = [] := by
      rw [List.flatMap_eq_nil_iff] at hnil
      exact List.eq_nil_iff_forall_not_mem.2 fun c hc => String.utf8EncodeChar_ne_nil (hnil c hc)
    have hempty : Text.trim s = "" := (Text.trim_eq_empty_iff s).2 fun c hc => by
      rw [hcs] at hc
      exact hblank c hc
    rw [hempty]
    intro hread
    cases hread
  · rw [List.concat_eq_append] at hfront hbytes
    obtain ⟨hlow', hnot, hend⟩ := ascii_of_closer (hfront c List.getLast?_concat)
    rw [List.append_assoc, List.singleton_append] at hbytes
    obtain ⟨cs, hcs, -⟩ :=
      Text.exists_append_of_bytes (List.forall_mem_cons.2 ⟨hlow', hlow⟩) hbytes
    obtain ⟨rest, hrest⟩ := Text.exists_trim_of_append hcs hnot hblank
    rw [readFloat_of_noRealEnd hend hrest]
    simp

namespace State

variable {s : State}

/-- The field that is being read, or the last one of the record read last, dangles. -/
inductive Dangles : State → Prop
  | present {place : Place} {bytes : List UInt8} {fields : List (List UInt8)}
      {records : List (List (List UInt8))} (hplace : place = .plain ∨ place = .quoted)
      (h : Dangling bytes.reverse) : Dangles ⟨place, bytes, fields, records⟩
  | past {fields : List (List UInt8)} {f : List UInt8} {records : List (List (List UInt8))}
      (h : Dangling f) : Dangles ⟨.record, [], [], (fields ++ [f]) :: records⟩

private theorem closer_ne (hc : c ∈ closers) : c ≠ 0x2C ∧ c ≠ 0x22 ∧ c ≠ 0x0A ∧ c ≠ 0x0D := by
  have hplain : ∀ c ∈ closers, Plain c := by
    intro c hc
    rcases List.mem_cons.1 hc with rfl | hc
    · decide
    · rw [List.mem_singleton.1 hc]
      decide
  exact hplain c hc

private theorem dangles_push {place : Place} (hplace : place = .plain ∨ place = .quoted)
    (h : Dangling (s.bytes.reverse ++ [b])) : Dangles (s.push place b) :=
  .present hplace (by rwa [List.reverse_cons])

private theorem dangles_step_closer (hc : c ∈ closers) (s : State) : Dangles (s.step c) := by
  have hplain : Plain c := closer_ne hc
  have hpush {place : Place} (hplace : place = .plain ∨ place = .quoted) :
      Dangles (s.push place c) := dangles_push hplace (dangling_concat hc _)
  have houtside : Dangles (s.outside c) := by
    rw [outside_plain hplain]
    exact hpush (.inl rfl)
  have hopening : Dangles (s.opening c) := by
    rw [opening, if_neg hplain.2.1]
    exact houtside
  rw [step]
  split
  · rw [if_neg (by simp [hplain.2.2])]
    exact hopening
  · exact hopening
  · exact houtside
  · rw [if_neg hplain.2.1]
    exact hpush (.inr rfl)
  · rw [if_neg hplain.2.1]
    exact houtside

private theorem Dangles.step (h : Dangles s) (hb : isSpace b = true) : Dangles (s.step b) := by
  have hspace : ∀ b ∈ [0x20, 0x09, 0x0A, 0x0D], b ≠ (0x22 : UInt8) ∧ b ≠ 0x2C := by simp
  obtain ⟨hquote, hcomma⟩ := hspace b (isSpace_iff.1 hb)
  cases h with
  | @past fields f records hf =>
    rw [State.step]
    dsimp only
    split
    · exact .past hf
    · next hend =>
      rw [opening, if_neg hquote, outside, if_neg hcomma, if_neg hend]
      exact dangles_push (.inl rfl) (dangling_nil.concat hb)
  | @present place bytes fields records hplace hf =>
    rcases hplace with rfl | rfl
    · rw [State.step]
      dsimp only
      rw [outside, if_neg hcomma]
      split
      · rw [endRecord, List.reverse_cons]
        exact .past hf
      · exact dangles_push (.inl rfl) (hf.concat hb)
    · rw [State.step]
      dsimp only
      rw [if_neg hquote]
      exact dangles_push (.inr rfl) (hf.concat hb)

private theorem Dangles.foldl (h : Dangles s) (hbs : ∀ b ∈ bs, isSpace b = true) :
    Dangles (bs.foldl State.step s) := by
  induction bs generalizing s with
  | nil => exact h
  | cons b bs ih =>
    exact ih (h.step (hbs b List.mem_cons_self)) fun b hb => hbs b (List.mem_cons_of_mem _ hb)

private theorem Dangles.finish (h : Dangles s) :
    ∃ records fields f, s.finish = records ++ [fields ++ [f]] ∧ Dangling f := by
  cases h with
  | @past fields f records hf => exact ⟨records.reverse, fields, f, List.reverse_cons, hf⟩
  | @present place bytes fields records hplace hf =>
    have hne : place ≠ .record := by rcases hplace with rfl | rfl <;> decide
    refine ⟨records.reverse, fields.reverse, bytes.reverse, ?_, hf⟩
    rw [State.finish, if_neg hne, endRecord, List.reverse_cons, List.reverse_cons]

end State

/-- The last field of a text that ends with a closing bracket or brace dangles. -/
theorem exists_records_of_closed (h : Closed bs) (hmark : bs.head? ≠ some 0xEF) :
    ∃ lines fields f, records bs = lines ++ [fields ++ [f]] ∧ Dangling f := by
  obtain ⟨front, c, hc, spaces, rfl, hspaces⟩ := h
  rw [records_eq_finish hmark, List.foldl_append, List.foldl_cons]
  exact ((State.dangles_step_closer hc _).foldl hspaces).finish

def EndsLine (b : UInt8) : Prop := b = 0x0A ∨ b = 0x0D

def OneLine (bs : List UInt8) : Prop :=
  ∃ front ends : List UInt8, bs = front ++ ends ∧ (∀ b ∈ front, ¬ EndsLine b) ∧
    ∀ b ∈ ends, EndsLine b

namespace State

private theorem records_step (hb : ¬ EndsLine b) (s : State) : (s.step b).records = s.records := by
  have hend : ¬ (b = 0x0A || b = 0x0D) = true := by simpa [EndsLine] using hb
  have houtside : (s.outside b).records = s.records := by
    rw [outside, if_neg hend]
    split <;> rfl
  have hopening : (s.opening b).records = s.records := by
    rw [opening]
    split
    · rfl
    · exact houtside
  rw [step]
  split
  · rw [if_neg hend]
    exact hopening
  · exact hopening
  · exact houtside
  · split <;> rfl
  · split
    · rfl
    · exact houtside

private theorem records_foldl (h : ∀ b ∈ bs, ¬ EndsLine b) (s : State) :
    (bs.foldl step s).records = s.records := by
  induction bs generalizing s with
  | nil => rfl
  | cons b bs ih =>
    rw [List.foldl_cons, ih (fun b hb => h b (List.mem_cons_of_mem _ hb)),
      records_step (h b List.mem_cons_self)]

/-- The end of a line ends the record that was begun, except between quotation marks. -/
theorem step_of_endsLine (hb : EndsLine b) (s : State) :
    s.step b = if s.place = .record then s else
      if s.place = .quoted then s.push .quoted b else s.endRecord := by
  have hend : (b = 0x0A || b = 0x0D) = true := by simpa [EndsLine] using hb
  have houtside : s.outside b = s.endRecord := by rcases hb with rfl | rfl <;> rfl
  have hopening : s.opening b = s.endRecord := by rcases hb with rfl | rfl <;> rfl
  have hquote : b ≠ 0x22 := by rcases hb with rfl | rfl <;> decide
  rw [step]
  cases s.place with
  | record => exact if_pos hend
  | field => exact hopening
  | plain => exact houtside
  | quoted => exact if_neg hquote
  | mark => exact (if_neg hquote).trans houtside

private theorem length_finish_step (hb : EndsLine b) (s : State) :
    (s.step b).finish.length = s.finish.length := by
  rw [step_of_endsLine hb]
  split_ifs with hrecord hquoted
  · rfl
  · simp [finish, push, endRecord, hquoted]
  · simp [finish, endRecord, hrecord]

private theorem length_finish_foldl (h : ∀ b ∈ bs, EndsLine b) (s : State) :
    (bs.foldl step s).finish.length = s.finish.length := by
  induction bs generalizing s with
  | nil => rfl
  | cons b bs ih =>
    rw [List.foldl_cons, ih (fun b hb => h b (List.mem_cons_of_mem _ hb)),
      length_finish_step (h b List.mem_cons_self)]

private theorem suffix_records_step (s : State) (b : UInt8) : s.records <:+ (s.step b).records := by
  by_cases hb : EndsLine b
  · rw [step_of_endsLine hb]
    split_ifs
    · exact List.suffix_rfl
    · exact List.suffix_rfl
    · exact List.suffix_cons _ _
  · rw [records_step hb]

private theorem suffix_records_foldl (bs : List UInt8) (s : State) :
    s.records <:+ (bs.foldl step s).records := by
  induction bs generalizing s with
  | nil => exact List.suffix_rfl
  | cons b bs ih => exact (suffix_records_step s b).trans (ih (s.step b))

private theorem prefix_finish (s : State) : s.records.reverse <+: s.finish := by
  rw [finish, List.reverse_prefix]
  split
  · exact List.suffix_rfl
  · exact List.suffix_cons _ _

end State

private theorem length_records_of_oneLine (h : OneLine bs) (hmark : bs.head? ≠ some 0xEF) :
    (records bs).length ≤ 1 := by
  obtain ⟨front, ends, rfl, hfront, hends⟩ := h
  rw [records_eq_finish hmark, List.foldl_append, State.length_finish_foldl hends, State.finish,
    List.length_reverse]
  have hrecords : (front.foldl State.step .start).records = [] := State.records_foldl hfront _
  split
  · rw [hrecords]
    exact Nat.zero_le 1
  · rw [State.endRecord, hrecords]
    exact Nat.le_refl 1

/-- A line without commas and quotation marks is a record of one field. -/
theorem head?_records_of_line {first rest : List UInt8} (hfirst : PlainField first)
    (hb : EndsLine b) (hmark : (first ++ b :: rest).head? ≠ some 0xEF) :
    (records (first ++ b :: rest)).head? = some [first] := by
  have hline : (first ++ [b]).foldl State.step .start = ⟨.record, [], [], [[first]]⟩ := by
    rw [List.foldl_append, State.start, State.foldl_field (.inl rfl) hfirst]
    rcases hb with rfl | rfl <;> simp [State.step, State.outside, State.endRecord]
  rw [records_eq_finish hmark, ← List.singleton_append, ← List.append_assoc, List.foldl_append,
    hline]
  have hkept := State.suffix_records_foldl rest ⟨.record, [], [], [[first]]⟩
  obtain ⟨more, hmore⟩ := (List.reverse_prefix.2 hkept).trans (State.prefix_finish _)
  rw [← hmore]
  rfl

end Csv

namespace Table

open Csv (Dangling)

variable {column : Option String} {bs : List UInt8} {t : List Observation}

/-- A text that is a table of several columns and rows, with the values in another column than the
last. -/
def IsWide (column : Option String) (bs : List UInt8) : Prop :=
  ∃ header lines names value, Csv.records bs = header :: lines ∧ lines ≠ [] ∧
    Csv.texts? header = some names ∧ valueColumn names column = .ok value ∧
    value + 1 < header.length ∧ ∀ fields ∈ lines, fields.length = header.length

private theorem lt_of_rowValue {width value : Nat} {fields : List (List UInt8)} {f : List UInt8}
    {v : Float} (hf : Dangling f) (h : RowValue width value (fields ++ [f]) v) :
    value + 1 < width := by
  obtain ⟨hwidth, texts, htexts, hv⟩ := h
  obtain ⟨hlength, hall⟩ := List.forall₂_iff_get.1 (forall₂_of_mapM htexts)
  by_contra hlast
  rw [List.length_append, List.length_singleton] at hwidth hlength
  by_cases hvalue : value = fields.length
  · have hlt : value < texts.length := by omega
    have hfield := hall value (by simp [hvalue]) hlt
    simp only [hvalue, List.get_eq_getElem, List.getElem_concat_length] at hfield
    rw [List.getElem?_eq_getElem hlt] at hv
    subst hvalue
    exact hf.readFloat_ne_ok hfield v hv
  · rw [List.getElem?_eq_none (by omega)] at hv
    cases hv

private theorem isWide_of_observations (hclosed : Closed bs) (hmark : bs.head? ≠ some 0xEF)
    (h : observations column bs = .ok t) : IsWide column bs := by
  obtain ⟨header, lines, names, value, hbytes, hnames, hvalue, hne, hread⟩ :=
    exists_of_observations h
  have hwidth : header.length = names.length :=
    (forall₂_of_mapM hnames).length_eq
  have hrows : ∀ fields ∈ lines, ∃ v, RowValue names.length value fields v := by
    intro fields hfields
    obtain ⟨i, hi⟩ := List.mem_iff_getElem?.1 hfields
    obtain ⟨o, ho, -⟩ := getElem?_readInOrder hread hi
    exact ⟨o.value, rowValue_of_rowObservation ho⟩
  have hlines : lines ≠ [] := by
    rintro rfl
    cases hread
    exact hne rfl
  obtain ⟨before, fields, f, hlast, hf⟩ := Csv.exists_records_of_closed hclosed hmark
  have hmem : fields ++ [f] ∈ lines := by
    have hend : (header :: lines).getLast? = some (fields ++ [f]) := by
      rw [← hbytes, hlast, List.getLast?_concat]
    obtain ⟨line, rest, rfl⟩ := List.exists_cons_of_ne_nil hlines
    rw [List.getLast?_cons_cons] at hend
    exact List.mem_of_getLast? hend
  obtain ⟨v, hv⟩ := hrows _ hmem
  refine ⟨header, lines, names, value, hbytes, hlines, hnames, hvalue, ?_, ?_⟩
  · rw [hwidth]
    exact lt_of_rowValue hf hv
  · intro fields hfields
    obtain ⟨v, hv⟩ := hrows fields hfields
    exact hv.1.trans hwidth.symm

/-- A text of one line is no table: its only record is taken for the names of the columns. -/
theorem not_isWide_of_oneLine (h : Csv.OneLine bs) (hmark : bs.head? ≠ some 0xEF) :
    ¬ IsWide column bs := by
  rintro ⟨header, lines, names, value, hbytes, hlines, -⟩
  have hlength := Csv.length_records_of_oneLine h hmark
  have hpos := List.length_pos_of_ne_nil hlines
  rw [hbytes, List.length_cons] at hlength
  omega

private theorem not_isWide_of_line {first rest : List UInt8} {b : UInt8}
    (hfirst : Csv.PlainField first)
    (hb : Csv.EndsLine b) (hmark : (first ++ b :: rest).head? ≠ some 0xEF) :
    ¬ IsWide column (first ++ b :: rest) := by
  rintro ⟨header, lines, names, value, hbytes, -, -, -, hvalue, -⟩
  have hhead := Csv.head?_records_of_line hfirst hb hmark
  rw [hbytes] at hhead
  obtain rfl := Option.some.inj hhead
  rw [List.length_singleton] at hvalue
  omega

end Table

/-- A JSON text with observations is read as such under every name that does not tell its format,
unless it is also a table of several columns and rows with the values in another column than the
last.  No such table is a text that stands on one line, or that has neither commas nor quotation
marks on its first. -/
theorem json_detected_unless_wide_table {files : FileView} {path : String}
    {column : Option String} {bs : List UInt8} {l : List Observation}
    (hpath : extension path ∉ ["csv", "json"]) (hfile : files path = .ok bs)
    (hjson : loadJson files path column = .ok l) :
    (loadObservations files path column = .ok l ∨
      Table.IsWide column bs ∧ ∃ t, loadTable files path column = .ok t ∧
        loadObservations files path column = .ok t) ∧
    (Csv.OneLine bs → loadObservations files path column = .ok l) ∧
    ∀ first b rest, bs = first ++ b :: rest → Csv.PlainField first → Csv.EndsLine b →
      loadObservations files path column = .ok l := by
  obtain ⟨hcsv, hother⟩ : extension path ≠ "csv" ∧ extension path ≠ "json" := by
    simpa using hpath
  have hread : Json.observations column bs = .ok l := by
    rw [← loadJson_eq hfile]
    exact hjson
  have hmark := Json.head_ne_of_observations hread
  have hload : loadObservations files path column = .ok l ∨
      Table.IsWide column bs ∧ ∃ t, loadTable files path column = .ok t ∧
        loadObservations files path column = .ok t := by
    rw [loadObservations, if_neg hcsv, if_neg hother]
    cases htable : loadTable files path column with
    | error e => exact .inl hjson
    | ok t =>
      rw [loadTable_eq hfile] at htable
      exact .inr ⟨Table.isWide_of_observations (Json.closed_of_observations hread) hmark htable,
        t, rfl, rfl⟩
  refine ⟨hload, fun hline => ?_, ?_⟩
  · exact hload.resolve_right fun hwide => Table.not_isWide_of_oneLine hline hmark hwide.1
  · rintro first b rest rfl hfirst hb
    exact hload.resolve_right fun hwide => Table.not_isWide_of_line hfirst hb hmark hwide.1

instance : DecidableEq Observation := fun o p =>
  decidable_of_iff (o.period = p.period ∧ o.value = p.value) (by cases o; cases p; simp)

/-- An object over several lines, of which the first is its opening brace. -/
theorem json_detected_unless_wide_table_of_opening_line :
    let rest := "  \"data\": [1, 2,\n    3, 4.5]\n\x7d\n"
    let files : FileView := fun _ => .ok (Text.bytes ("\x7b\n" ++ rest))
    loadObservations files "history.txt" none = .ok [⟨1, 1⟩, ⟨2, 2⟩, ⟨3, 3⟩, ⟨4, 4.5⟩] := by
  intro rest files
  have hjson : loadJson files "history.txt" none = .ok [⟨1, 1⟩, ⟨2, 2⟩, ⟨3, 3⟩, ⟨4, 4.5⟩] :=
    toOption_eq_some.1 (by decide +kernel)
  have hopening : Text.bytes ("\x7b\n" ++ rest) = [0x7B] ++ 0x0A :: Text.bytes rest := by
    rw [Text.bytes_append]
    rfl
  obtain ⟨-, -, hline⟩ := json_detected_unless_wide_table (by decide) rfl hjson
  exact hline [0x7B] 0x0A _ hopening ⟨by decide, by simp [Csv.Plain]⟩ (.inl rfl)

/-- An array whose lines break after a comma is read as a table: the first line is taken for the
names of three columns, of which the second line has a number in the first. -/
theorem not_every_json_text_detected :
    ¬ ∀ (files : FileView) (path : String) (column : Option String) (l : List Observation),
      extension path ∉ ["csv", "json"] → loadJson files path column = .ok l →
        loadObservations files path column = .ok l := by
  intro h
  let files : FileView := fun _ => .ok (Text.bytes "[1,2,\n3,4,5]")
  have hjson : loadJson files "history.txt" none =
      .ok [⟨1, 1⟩, ⟨2, 2⟩, ⟨3, 3⟩, ⟨4, 4⟩, ⟨5, 5⟩] := toOption_eq_some.1 (by decide +kernel)
  have htable : loadObservations files "history.txt" none = .ok [⟨1, 3⟩] :=
    toOption_eq_some.1 (by decide +kernel)
  have hsame := h files "history.txt" none _ (by decide) hjson
  rw [htable] at hsame
  exact absurd (congrArg List.length (Except.ok.inj hsame)) (by simp)

end LagForecast
