import LagForecast.Text.Basic
import Mathlib.Data.List.Basic
import Mathlib.Data.List.Induction
import Mathlib.Tactic.SplitIfs
import Mathlib.Tactic.Tauto

/-!
Texts as bytes, character by character.  A character below U+0080 is one byte of its own number, and
no byte of another character is that low; texts are ordered as their bytes are.
-/

set_option autoImplicit false

namespace LagForecast.Text

open String (utf8EncodeChar)

theorem bytes_ofList (cs : List Char) : bytes (String.ofList cs) = cs.flatMap utf8EncodeChar := by
  rw [bytes, String.toByteArray_ofList, List.utf8Encode]
  simp

theorem bytes_eq_flatMap (s : String) : bytes s = s.toList.flatMap utf8EncodeChar := by
  rw [← bytes_ofList, String.ofList_toList]

theorem utf8EncodeChar_of_ascii {c : Char} (h : c.toNat < 0x80) :
    utf8EncodeChar c = [c.toNat.toUInt8] := by
  have hle : c.val.toNat ≤ 0x7f := Nat.le_of_lt_succ h
  rw [utf8EncodeChar]
  exact if_pos hle

theorem le_of_mem_utf8EncodeChar {c : Char} (h : 0x80 ≤ c.toNat) :
    ∀ b ∈ utf8EncodeChar c, 0x80 ≤ b := by
  have hval : ¬ c.val.toNat ≤ 0x7f := Nat.not_le.2 h
  intro b hb
  rw [utf8EncodeChar] at hb
  simp only [hval, if_false] at hb
  rw [UInt8.le_iff_toNat_le]
  split_ifs at hb
  · simp only [List.mem_cons, List.not_mem_nil, or_false] at hb
    rcases hb with rfl | rfl <;> simp <;> omega
  · simp only [List.mem_cons, List.not_mem_nil, or_false] at hb
    rcases hb with rfl | rfl | rfl <;> simp <;> omega
  · simp only [List.mem_cons, List.not_mem_nil, or_false] at hb
    rcases hb with rfl | rfl | rfl | rfl <;> simp <;> omega

private theorem exists_concat_of_flatMap {cs : List Char} {front : List UInt8} {b : UInt8}
    (hb : b < 0x80) (h : cs.flatMap utf8EncodeChar = front ++ [b]) :
    ∃ init, cs = init ++ [Char.ofNat b.toNat] ∧ init.flatMap utf8EncodeChar = front := by
  rcases List.eq_nil_or_concat cs with rfl | ⟨init, c, rfl⟩
  · simp at h
  · rw [List.concat_eq_append] at h ⊢
    rw [List.flatMap_append, List.flatMap_singleton] at h
    by_cases hc : c.toNat < 0x80
    · rw [utf8EncodeChar_of_ascii hc] at h
      obtain ⟨hfront, hlast⟩ := List.append_inj' h rfl
      obtain rfl := List.singleton_inj.1 hlast
      have hmod : c.toNat % 256 = c.toNat := Nat.mod_eq_of_lt (by omega)
      refine ⟨init, ?_, hfront⟩
      rw [Nat.toUInt8, UInt8.toNat_ofNat', hmod, Char.ofNat_toNat]
    · have hlast : b ∈ utf8EncodeChar c := by
        have hmem := congrArg List.getLast? h
        rw [List.getLast?_append_of_ne_nil _ String.utf8EncodeChar_ne_nil,
          List.getLast?_concat] at hmem
        exact List.mem_of_getLast? hmem
      have hle := le_of_mem_utf8EncodeChar (Nat.not_lt.1 hc) b hlast
      exact absurd hb (UInt8.not_lt.2 hle)

theorem exists_append_of_bytes {s : String} {front tail : List UInt8}
    (htail : ∀ b ∈ tail, b < 0x80) (h : bytes s = front ++ tail) :
    ∃ cs, s.toList = cs ++ tail.map (fun b => Char.ofNat b.toNat) ∧
      cs.flatMap utf8EncodeChar = front := by
  rw [bytes_eq_flatMap] at h
  generalize s.toList = cs at h
  induction tail using List.reverseRecOn generalizing cs with
  | nil => exact ⟨cs, by simp, by simpa using h⟩
  | append_singleton tail b ih =>
    rw [← List.append_assoc] at h
    obtain ⟨init, rfl, hinit⟩ := exists_concat_of_flatMap (htail b (by simp)) h
    obtain ⟨rest, rfl, hrest⟩ := ih (fun b hb => htail b (by simp [hb])) init hinit
    exact ⟨rest, by simp, hrest⟩

theorem bytes_of_ofBytes? {b : List UInt8} {s : String} (h : ofBytes? b = some s) :
    bytes s = b := by
  rw [ofBytes?, String.fromUTF8?] at h
  split at h
  · cases h
    rfl
  · cases h

/-- The highest of the last four digits to the base 64 in which two numbers differ. -/
private theorem digit_lt {v w : Nat} (h : v < w) :
    v / 262144 < w / 262144 ∨
      v / 262144 = w / 262144 ∧ v / 4096 % 64 < w / 4096 % 64 ∨
      v / 4096 = w / 4096 ∧ v / 64 % 64 < w / 64 % 64 ∨ v / 64 = w / 64 ∧ v % 64 < w % 64 := by
  have low : v / 64 < w / 64 ∨ v / 64 = w / 64 ∧ v % 64 < w % 64 := by omega
  have middle : v / 64 < w / 64 →
      v / 4096 < w / 4096 ∨ v / 4096 = w / 4096 ∧ v / 64 % 64 < w / 64 % 64 := by omega
  have high : v / 4096 < w / 4096 →
      v / 262144 < w / 262144 ∨ v / 262144 = w / 262144 ∧ v / 4096 % 64 < w / 4096 % 64 := by omega
  tauto

/-- The bytes of two characters differ before either ends, whatever follows them. -/
private theorem utf8EncodeChar_append_lt {c d : Char} (h : c < d) (x y : List UInt8) :
    utf8EncodeChar c ++ x < utf8EncodeChar d ++ y := by
  have hlt : c.val.toNat < d.val.toNat := h
  have hbound : d.val.toNat < 0x110000 := by
    have hvalid := d.valid
    simp only [UInt32.isValidChar, Nat.isValidChar] at hvalid
    omega
  rw [utf8EncodeChar, utf8EncodeChar]
  generalize c.val.toNat = v at *
  generalize d.val.toNat = w at *
  -- One case for each pair of lengths; in all of them the leading bytes or those after them decide.
  rcases digit_lt hlt with h | ⟨h₁, h⟩ | ⟨h₁, h⟩ | ⟨h₁, h⟩ <;> split_ifs <;>
    simp only [List.cons_append, List.nil_append, List.cons_lt_cons_iff, UInt8.lt_iff_toNat_lt,
      ← UInt8.toNat_inj, UInt8.toNat_ofNat', Nat.reducePow] <;>
    omega

private theorem flatMap_utf8EncodeChar_lt {l m : List Char} (h : l < m) :
    l.flatMap utf8EncodeChar < m.flatMap utf8EncodeChar := by
  induction h with
  | @nil d m =>
    rw [List.flatMap_nil, List.flatMap_cons]
    cases hd : utf8EncodeChar d with
    | nil => exact absurd hd String.utf8EncodeChar_ne_nil
    | cons b bs => exact List.nil_lt_cons b _
  | rel h => exact utf8EncodeChar_append_lt h _ _
  | cons h ih => exact List.append_left_lt ih

theorem compare_eq_lt_iff {s t : String} : compare s t = .lt ↔ bytes s < bytes t := by
  have forward {s t : String} (h : s < t) : bytes s < bytes t := by
    rw [bytes_eq_flatMap, bytes_eq_flatMap]
    exact flatMap_utf8EncodeChar_lt (String.lt_iff.1 h)
  constructor
  · intro h
    exact forward (compareOfLessAndEq_eq_lt.1 h)
  · intro h
    cases hc : compare s t with
    | lt => rfl
    | eq =>
      have heq : s = t := Std.LawfulEqOrd.eq_of_compare hc
      subst heq
      exact absurd h (List.lt_irrefl _)
    | gt =>
      have hts : compare t s = .lt := Std.OrientedCmp.gt_iff_lt.1 hc
      exact absurd h (List.lt_asymm (forward (compareOfLessAndEq_eq_lt.1 hts)))

end LagForecast.Text
