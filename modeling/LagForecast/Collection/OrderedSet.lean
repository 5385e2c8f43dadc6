/-!
Finite sets listed in strictly increasing order.  `mem_insert` says what an insertion does, and
`ext_mem` says that the members determine the set, so the order and the repetitions of a list
are lost when it is read as a set.
-/

set_option autoImplicit false

namespace LagForecast

/-- A finite set whose members are listed in strictly increasing order. -/
structure OrderedSet (α : Type) [Ord α] where
  items : List α
  increasing : items.Pairwise fun a b => compare a b = .lt

namespace OrderedSet

variable {α : Type} [Ord α]

/-- Put `x` at its place unless it is there. -/
def insertIn (x : α) : List α → List α
  | [] => [x]
  | a :: rest =>
    match compare x a with
    | .lt => x :: a :: rest
    | .eq => a :: rest
    | .gt => a :: insertIn x rest

section Membership

variable [Std.LawfulEqOrd α]

private theorem mem_insertIn {x y : α} {l : List α} : y ∈ insertIn x l ↔ y = x ∨ y ∈ l := by
  induction l with
  | nil => simp [insertIn]
  | cons a rest ih =>
    simp only [insertIn]
    split
    next => simp
    next h =>
      have : x = a := Std.LawfulEqOrd.eq_of_compare h
      simp [this]
    next =>
      simp only [List.mem_cons, ih]
      constructor
      · rintro (h | h | h) <;> simp [h]
      · rintro (h | h | h) <;> simp [h]

variable [Std.TransOrd α]

private theorem increasing_insertIn (x : α) (l : List α)
    (h : l.Pairwise fun a b => compare a b = .lt) :
    (insertIn x l).Pairwise fun a b => compare a b = .lt := by
  induction l with
  | nil => simp [insertIn]
  | cons a rest ih =>
    have hp := List.pairwise_cons.1 h
    simp only [insertIn]
    split
    next hlt =>
      refine List.pairwise_cons.2 ⟨?_, h⟩
      intro y hy
      rcases List.mem_cons.1 hy with rfl | hy
      · exact hlt
      · exact Std.TransCmp.lt_trans hlt (hp.1 y hy)
    next => exact h
    next hgt =>
      refine List.pairwise_cons.2 ⟨?_, ih hp.2⟩
      intro y hy
      rcases mem_insertIn.1 hy with rfl | hy
      · exact Std.OrientedCmp.gt_iff_lt.1 hgt
      · exact hp.1 y hy

def empty : OrderedSet α := ⟨[], List.Pairwise.nil⟩

def insert (s : OrderedSet α) (x : α) : OrderedSet α :=
  ⟨insertIn x s.items, increasing_insertIn x s.items s.increasing⟩

def ofList (l : List α) : OrderedSet α := l.foldl insert empty

@[simp] theorem mem_insert {s : OrderedSet α} {x y : α} :
    y ∈ (s.insert x).items ↔ y = x ∨ y ∈ s.items := mem_insertIn

private theorem mem_foldl_insert {l : List α} {s : OrderedSet α} {y : α} :
    y ∈ (l.foldl insert s).items ↔ y ∈ l ∨ y ∈ s.items := by
  induction l generalizing s with
  | nil => simp
  | cons a rest ih =>
    simp only [List.foldl_cons, ih, mem_insert, List.mem_cons]
    constructor
    · rintro (h | h | h) <;> simp [h]
    · rintro ((h | h) | h) <;> simp [h]

@[simp] theorem mem_ofList {l : List α} {y : α} : y ∈ (ofList l).items ↔ y ∈ l := by
  simp [ofList, mem_foldl_insert, empty]

omit [Std.LawfulEqOrd α] in
private theorem ext_items {l l' : List α}
    (h : l.Pairwise fun a b => compare a b = .lt) (h' : l'.Pairwise fun a b => compare a b = .lt)
    (hm : ∀ x, x ∈ l ↔ x ∈ l') : l = l' := by
  have irrefl : ∀ x : α, compare x x ≠ .lt := fun x hx => by
    rw [Std.ReflOrd.compare_self] at hx
    cases hx
  have asymm : ∀ x y : α, compare x y = .lt → compare y x ≠ .lt := fun x y hxy hyx =>
    irrefl x (Std.TransCmp.lt_trans hxy hyx)
  induction l generalizing l' with
  | nil =>
    cases l' with
    | nil => rfl
    | cons b rest' => exact absurd ((hm b).2 (by simp)) (by simp)
  | cons a rest ih =>
    cases l' with
    | nil => exact absurd ((hm a).1 (by simp)) (by simp)
    | cons b rest' =>
      have hp := List.pairwise_cons.1 h
      have hq := List.pairwise_cons.1 h'
      have hab : a = b := by
        rcases List.mem_cons.1 ((hm a).1 (by simp)) with hab | ha
        · exact hab
        rcases List.mem_cons.1 ((hm b).2 (by simp)) with hba | hb
        · exact hba.symm
        exact absurd (hq.1 a ha) (asymm a b (hp.1 b hb))
      subst hab
      have hrest : rest = rest' := by
        refine ih hp.2 hq.2 fun x => ?_
        constructor
        · intro hx
          rcases List.mem_cons.1 ((hm x).1 (by simp [hx])) with rfl | hx'
          · exact absurd (hp.1 x hx) (irrefl x)
          · exact hx'
        · intro hx
          rcases List.mem_cons.1 ((hm x).2 (by simp [hx])) with rfl | hx'
          · exact absurd (hq.1 x hx) (irrefl x)
          · exact hx'
      rw [hrest]

omit [Std.LawfulEqOrd α] in
theorem ext_mem {s s' : OrderedSet α} (h : ∀ x, x ∈ s.items ↔ x ∈ s'.items) : s = s' := by
  obtain ⟨l, hl⟩ := s
  obtain ⟨l', hl'⟩ := s'
  have := ext_items hl hl' h
  subst this
  rfl

end Membership

instance [DecidableEq α] : DecidableEq (OrderedSet α) := fun a b =>
  if h : a.items = b.items then
    .isTrue (by cases a; cases b; cases h; rfl)
  else .isFalse fun e => h (e ▸ rfl)

end OrderedSet

end LagForecast
