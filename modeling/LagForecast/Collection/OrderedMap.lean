/-!
Finite maps listed in strictly increasing order of their keys, so that two maps with the same
bindings are the same list.  `find?_adjust` says what an update does to every look-up, and
`ext_find?` says that the look-ups determine the map.
-/

set_option autoImplicit false

namespace LagForecast

/-- A finite map whose bindings are listed in strictly increasing order of the keys. -/
structure OrderedMap (κ : Type) (β : Type) [Ord κ] where
  entries : List (κ × β)
  increasing : entries.Pairwise fun a b => compare a.1 b.1 = .lt

namespace OrderedMap

variable {κ β : Type} [Ord κ]

def findIn (k : κ) : List (κ × β) → Option β
  | [] => none
  | (a, b) :: rest => if compare k a = .eq then some b else findIn k rest

/-- Bind `k` to what `f` makes of its present value, keeping the order. -/
def adjustIn (k : κ) (f : Option β → β) : List (κ × β) → List (κ × β)
  | [] => [(k, f none)]
  | (a, b) :: rest =>
    match compare k a with
    | .lt => (k, f none) :: (a, b) :: rest
    | .eq => (a, f (some b)) :: rest
    | .gt => (a, b) :: adjustIn k f rest

private theorem key_mem_adjustIn (k : κ) (f : Option β → β) (l : List (κ × β)) {x : κ × β}
    (hx : x ∈ adjustIn k f l) : x.1 = k ∨ ∃ y ∈ l, x.1 = y.1 := by
  induction l with
  | nil =>
    simp only [adjustIn, List.mem_singleton] at hx
    exact Or.inl (by rw [hx])
  | cons p rest ih =>
    obtain ⟨a, b⟩ := p
    simp only [adjustIn] at hx
    split at hx
    · rcases List.mem_cons.1 hx with rfl | hx
      · exact Or.inl rfl
      · exact Or.inr ⟨x, hx, rfl⟩
    · rcases List.mem_cons.1 hx with rfl | hx
      · exact Or.inr ⟨(a, b), by simp, rfl⟩
      · exact Or.inr ⟨x, by simp [hx], rfl⟩
    · rcases List.mem_cons.1 hx with rfl | hx
      · exact Or.inr ⟨(a, b), by simp, rfl⟩
      · rcases ih hx with h | ⟨y, hy, h⟩
        · exact Or.inl h
        · exact Or.inr ⟨y, by simp [hy], h⟩

theorem mem_adjustIn {k : κ} {f : Option β → β} {l : List (κ × β)} {x : κ × β}
    (hx : x ∈ adjustIn k f l) :
    x ∈ l ∨ x = (k, f none) ∨ ∃ b, (x.1, b) ∈ l ∧ x.2 = f (some b) := by
  induction l with
  | nil => exact Or.inr (Or.inl (by simpa [adjustIn] using hx))
  | cons p rest ih =>
    obtain ⟨a, b⟩ := p
    simp only [adjustIn] at hx
    split at hx
    · rcases List.mem_cons.1 hx with rfl | hx
      · exact Or.inr (Or.inl rfl)
      · exact Or.inl hx
    · rcases List.mem_cons.1 hx with rfl | hx
      · exact Or.inr (Or.inr ⟨b, by simp, rfl⟩)
      · exact Or.inl (by simp [hx])
    · rcases List.mem_cons.1 hx with rfl | hx
      · exact Or.inl (by simp)
      · rcases ih hx with h | h | ⟨c, hc, h⟩
        · exact Or.inl (by simp [h])
        · exact Or.inr (Or.inl h)
        · exact Or.inr (Or.inr ⟨c, by simp [hc], h⟩)

variable [Std.TransOrd κ]

private theorem increasing_adjustIn (k : κ) (f : Option β → β) (l : List (κ × β))
    (h : l.Pairwise fun a b => compare a.1 b.1 = .lt) :
    (adjustIn k f l).Pairwise fun a b => compare a.1 b.1 = .lt := by
  induction l with
  | nil => simp [adjustIn]
  | cons p rest ih =>
    obtain ⟨a, b⟩ := p
    have hp := List.pairwise_cons.1 h
    simp only [adjustIn]
    split
    next hlt =>
      refine List.pairwise_cons.2 ⟨?_, h⟩
      intro x hx
      rcases List.mem_cons.1 hx with rfl | hx
      · exact hlt
      · exact Std.TransCmp.lt_trans hlt (hp.1 x hx)
    next => exact List.pairwise_cons.2 ⟨hp.1, hp.2⟩
    next hgt =>
      refine List.pairwise_cons.2 ⟨?_, ih hp.2⟩
      intro x hx
      rcases key_mem_adjustIn k f rest hx with hk | ⟨y, hy, hk⟩
      · simpa only [hk] using Std.OrientedCmp.gt_iff_lt.1 hgt
      · simpa only [hk] using hp.1 y hy

def empty : OrderedMap κ β := ⟨[], List.Pairwise.nil⟩

def find? (m : OrderedMap κ β) (k : κ) : Option β := findIn k m.entries

def contains (m : OrderedMap κ β) (k : κ) : Bool := (m.find? k).isSome

def adjust (m : OrderedMap κ β) (k : κ) (f : Option β → β) : OrderedMap κ β :=
  ⟨adjustIn k f m.entries, increasing_adjustIn k f m.entries m.increasing⟩

def insert (m : OrderedMap κ β) (k : κ) (v : β) : OrderedMap κ β := m.adjust k fun _ => v

def erase (m : OrderedMap κ β) (k : κ) : OrderedMap κ β :=
  ⟨m.entries.filter fun p => compare k p.1 != .eq, m.increasing.filter _⟩

def size (m : OrderedMap κ β) : Nat := m.entries.length

/-- Bind the pairs of a list; of several bindings of a key the last is kept.  The pairs are bound
from the last on, and a key that is bound stays as it is. -/
def ofList (l : List (κ × β)) : OrderedMap κ β :=
  l.foldr (fun p m => m.adjust p.1 fun b => b.getD p.2) empty

instance [DecidableEq κ] [DecidableEq β] : DecidableEq (OrderedMap κ β) := fun a b =>
  if h : a.entries = b.entries then
    .isTrue (by cases a; cases b; cases h; rfl)
  else .isFalse fun e => h (e ▸ rfl)

instance : Inhabited (OrderedMap κ β) := ⟨empty⟩

section Lookup

variable [Std.LawfulEqOrd κ]

omit [Std.TransOrd κ] [Std.LawfulEqOrd κ] in
theorem findIn_eq_none_of_lt {k : κ} {l : List (κ × β)}
    (h : ∀ p ∈ l, compare k p.1 = .lt) : findIn k l = none := by
  induction l with
  | nil => rfl
  | cons p rest ih =>
    simp [findIn, h p (by simp), ih fun q hq => h q (by simp [hq])]

private theorem findIn_adjustIn (k j : κ) (f : Option β → β) (l : List (κ × β))
    (h : l.Pairwise fun a b => compare a.1 b.1 = .lt) :
    findIn j (adjustIn k f l) = if compare j k = .eq then some (f (findIn k l)) else findIn j l := by
  induction l with
  | nil => simp [adjustIn, findIn]
  | cons p rest ih =>
    obtain ⟨a, b⟩ := p
    have hp := List.pairwise_cons.1 h
    simp only [adjustIn]
    split
    next hlt =>
      have hnone : findIn k ((a, b) :: rest) = none := by
        refine findIn_eq_none_of_lt fun q hq => ?_
        rcases List.mem_cons.1 hq with rfl | hq
        · exact hlt
        · exact Std.TransCmp.lt_trans hlt (hp.1 q hq)
      rw [hnone, findIn]
    next heq =>
      have hka : k = a := Std.LawfulEqOrd.eq_of_compare heq
      subst hka
      simp only [findIn, Std.ReflOrd.compare_self, if_true]
      split <;> rfl
    next hgt =>
      simp only [findIn, ih hp.2, hgt, reduceCtorEq, if_false]
      by_cases hja : compare j a = .eq
      · have : j = a := Std.LawfulEqOrd.eq_of_compare hja
        subst this
        have hjk : compare j k = .lt := Std.OrientedCmp.gt_iff_lt.1 hgt
        simp [hjk]
      · simp [hja]

theorem find?_adjust (m : OrderedMap κ β) (k j : κ) (f : Option β → β) :
    (m.adjust k f).find? j = if compare j k = .eq then some (f (m.find? k)) else m.find? j :=
  findIn_adjustIn k j f m.entries m.increasing

theorem find?_insert (m : OrderedMap κ β) (k j : κ) (v : β) :
    (m.insert k v).find? j = if compare j k = .eq then some v else m.find? j :=
  m.find?_adjust k j fun _ => v

theorem find?_ofList_cons (p : κ × β) (l : List (κ × β)) (j : κ) :
    (ofList (p :: l)).find? j =
      if compare j p.1 = .eq then some (((ofList l).find? p.1).getD p.2)
      else (ofList l).find? j :=
  (ofList l).find?_adjust p.1 j fun b => b.getD p.2

/-- A map made from a list holds the last value that the list gives to a key. -/
theorem find?_ofList (l : List (κ × β)) (j : κ) :
    (ofList l).find? j = ((l.filter fun p => compare j p.1 == .eq).getLast?).map Prod.snd := by
  induction l with
  | nil => rfl
  | cons p rest ih =>
    rw [find?_ofList_cons]
    by_cases h : compare j p.1 = .eq
    · have hj : j = p.1 := Std.LawfulEqOrd.eq_of_compare h
      rw [if_pos h, ← hj, ih, List.filter_cons_of_pos (by simp [h]), List.getLast?_cons]
      cases (rest.filter fun p => compare j p.1 == .eq).getLast? <;> simp
    · rw [if_neg h, ih, List.filter_cons_of_neg (by simpa using h)]

omit [Std.TransOrd κ] in
theorem find?_erase (m : OrderedMap κ β) (k j : κ) :
    (m.erase k).find? j = if compare j k = .eq then none else m.find? j := by
  obtain ⟨l, hl⟩ := m
  simp only [find?, erase]
  clear hl
  induction l with
  | nil => simp [findIn]
  | cons p rest ih =>
    by_cases hkp : compare k p.1 = .eq
    · have hk : k = p.1 := Std.LawfulEqOrd.eq_of_compare hkp
      rw [List.filter_cons_of_neg (by simp [hkp]), ih]
      by_cases hjk : compare j k = .eq
      · simp [hjk]
      · have : compare j p.1 ≠ .eq := by rw [← hk]; exact hjk
        simp [hjk, findIn, this]
    · rw [List.filter_cons_of_pos (by simpa using hkp)]
      simp only [findIn, ih]
      by_cases hjp : compare j p.1 = .eq
      · have hj : j = p.1 := Std.LawfulEqOrd.eq_of_compare hjp
        have : compare j k ≠ .eq := fun h =>
          hkp (by rw [← hj, ← Std.LawfulEqOrd.eq_of_compare h]; exact Std.ReflOrd.compare_self)
        simp [hjp, this]
      · simp [hjp]

private theorem ext_findIn {l l' : List (κ × β)}
    (h : l.Pairwise fun a b => compare a.1 b.1 = .lt)
    (h' : l'.Pairwise fun a b => compare a.1 b.1 = .lt)
    (hf : ∀ k, findIn k l = findIn k l') : l = l' := by
  induction l generalizing l' with
  | nil =>
    cases l' with
    | nil => rfl
    | cons p rest =>
      have := hf p.1
      simp [findIn, Std.ReflOrd.compare_self] at this
  | cons p rest ih =>
    cases l' with
    | nil =>
      have := hf p.1
      simp [findIn, Std.ReflOrd.compare_self] at this
    | cons q rest' =>
      have hp := List.pairwise_cons.1 h
      have hq := List.pairwise_cons.1 h'
      have hpq : compare p.1 q.1 = .eq := by
        cases hc : compare p.1 q.1 with
        | eq => rfl
        | lt =>
          have h1 := hf p.1
          have h2 : findIn p.1 (q :: rest') = none := by
            refine findIn_eq_none_of_lt fun x hx => ?_
            rcases List.mem_cons.1 hx with rfl | hx
            · exact hc
            · exact Std.TransCmp.lt_trans hc (hq.1 x hx)
          rw [h2] at h1
          simp [findIn, Std.ReflOrd.compare_self] at h1
        | gt =>
          have hc' : compare q.1 p.1 = .lt := Std.OrientedCmp.gt_iff_lt.1 hc
          have h1 := hf q.1
          have h2 : findIn q.1 (p :: rest) = none := by
            refine findIn_eq_none_of_lt fun x hx => ?_
            rcases List.mem_cons.1 hx with rfl | hx
            · exact hc'
            · exact Std.TransCmp.lt_trans hc' (hp.1 x hx)
          rw [h2] at h1
          simp [findIn, Std.ReflOrd.compare_self] at h1
      have hkey : p.1 = q.1 := Std.LawfulEqOrd.eq_of_compare hpq
      have hval : p.2 = q.2 := by
        have := hf p.1
        simpa [findIn, hpq, Std.ReflOrd.compare_self] using this
      have hrest : rest = rest' := by
        refine ih hp.2 hq.2 fun k => ?_
        by_cases hk : compare k p.1 = .eq
        · have hke : k = p.1 := Std.LawfulEqOrd.eq_of_compare hk
          rw [findIn_eq_none_of_lt fun x hx => by rw [hke]; exact hp.1 x hx,
            findIn_eq_none_of_lt fun x hx => by rw [hke, hkey]; exact hq.1 x hx]
        · have := hf k
          have hk' : compare k q.1 ≠ .eq := by rw [← hkey]; exact hk
          simpa [findIn, hk, hk'] using this
      rw [hrest, Prod.ext hkey hval]

theorem ext_find? {m m' : OrderedMap κ β} (h : ∀ k, m.find? k = m'.find? k) : m = m' := by
  obtain ⟨l, hl⟩ := m
  obtain ⟨l', hl'⟩ := m'
  have := ext_findIn hl hl' h
  subst this
  rfl

omit [Std.TransOrd κ] in
private theorem findIn_eq_some_iff {l : List (κ × β)}
    (h : l.Pairwise fun a b => compare a.1 b.1 = .lt)
    {k : κ} {v : β} : findIn k l = some v ↔ (k, v) ∈ l := by
  induction l with
  | nil => simp [findIn]
  | cons p rest ih =>
    obtain ⟨a, b⟩ := p
    have hp := List.pairwise_cons.1 h
    rw [findIn, List.mem_cons, Prod.mk.injEq, ← ih hp.2]
    by_cases hk : compare k a = .eq
    · have hka : k = a := Std.LawfulEqOrd.eq_of_compare hk
      have hrest : findIn k rest = none := findIn_eq_none_of_lt fun q hq => hka ▸ hp.1 q hq
      simp [hka, hka ▸ hrest, Std.ReflOrd.compare_self, eq_comm]
    · have hka : k ≠ a := fun heq => hk (heq ▸ Std.ReflOrd.compare_self)
      simp [hk, hka]

omit [Std.TransOrd κ] in
theorem find?_eq_some_iff {m : OrderedMap κ β} {k : κ} {v : β} :
    m.find? k = some v ↔ (k, v) ∈ m.entries := findIn_eq_some_iff m.increasing

theorem ofList_entries (m : OrderedMap κ β) : ofList m.entries = m := by
  obtain ⟨l, hl⟩ := m
  apply ext_find?
  intro k
  induction l generalizing k with
  | nil => rfl
  | cons p rest ih =>
    obtain ⟨a, b⟩ := p
    have hp := List.pairwise_cons.1 hl
    rw [find?_ofList_cons, ih hp.2 a, ih hp.2 k]
    have hnone : findIn a rest = none := findIn_eq_none_of_lt hp.1
    simp only [find?, findIn, hnone, Option.getD_none]

end Lookup

end OrderedMap

end LagForecast
