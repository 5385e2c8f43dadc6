import LagForecast.Collection.OrderedMap

/-!
Two maps read side by side.  Their join binds every key of either map to what each of the two binds
it to; `find?_join` says so of every look-up.
-/

set_option autoImplicit false

namespace LagForecast

namespace OrderedMap

variable {κ β γ : Type} [Ord κ]

/-- Join the binding of `k` and what follows it with a list; `next` joins what follows alone. -/
def joinCons (k : κ) (b : β) (next : List (κ × γ) → List (κ × (Option β × Option γ))) :
    List (κ × γ) → List (κ × (Option β × Option γ))
  | [] => (k, some b, none) :: next []
  | (j, c) :: rest =>
    match compare k j with
    | .lt => (k, some b, none) :: next ((j, c) :: rest)
    | .eq => (k, some b, some c) :: next rest
    | .gt => (j, none, some c) :: joinCons k b next rest

def joinIn : List (κ × β) → List (κ × γ) → List (κ × (Option β × Option γ))
  | [], r => r.map fun p => (p.1, none, some p.2)
  | (k, b) :: l, r => joinCons k b (joinIn l) r

/-- What two maps bind a key to, if one of them binds it. -/
def sides : Option β → Option γ → Option (Option β × Option γ)
  | none, none => none
  | b, c => some (b, c)

private theorem key_mem_joinIn (l : List (κ × β)) (r : List (κ × γ))
    {x : κ × (Option β × Option γ)} (hx : x ∈ joinIn l r) :
    (∃ y ∈ l, x.1 = y.1) ∨ ∃ y ∈ r, x.1 = y.1 := by
  induction l generalizing r with
  | nil =>
    obtain ⟨y, hy, rfl⟩ := List.mem_map.1 hx
    exact Or.inr ⟨y, hy, rfl⟩
  | cons p l ih =>
    obtain ⟨k, b⟩ := p
    have tail (r : List (κ × γ)) (h : x ∈ joinIn l r) :
        (∃ y ∈ (k, b) :: l, x.1 = y.1) ∨ ∃ y ∈ r, x.1 = y.1 :=
      (ih r h).imp (fun ⟨y, hy, e⟩ => ⟨y, by simp [hy], e⟩) id
    have head (h : x.1 = k) : ∃ y ∈ (k, b) :: l, x.1 = y.1 := ⟨(k, b), by simp, h⟩
    simp only [joinIn] at hx
    induction r with
    | nil =>
      rcases List.mem_cons.1 hx with rfl | hx
      · exact Or.inl (head rfl)
      · exact tail [] hx
    | cons q rest ihr =>
      obtain ⟨j, c⟩ := q
      simp only [joinCons] at hx
      split at hx
      · rcases List.mem_cons.1 hx with rfl | hx
        · exact Or.inl (head rfl)
        · exact tail _ hx
      · rcases List.mem_cons.1 hx with rfl | hx
        · exact Or.inl (head rfl)
        · exact (tail rest hx).imp id fun ⟨y, hy, e⟩ => ⟨y, by simp [hy], e⟩
      · rcases List.mem_cons.1 hx with rfl | hx
        · exact Or.inr ⟨(j, c), by simp, rfl⟩
        · exact (ihr hx).imp id fun ⟨y, hy, e⟩ => ⟨y, by simp [hy], e⟩

private theorem lt_key_joinIn {a : κ} {l : List (κ × β)} {r : List (κ × γ)}
    (hl : ∀ y ∈ l, compare a y.1 = .lt) (hr : ∀ y ∈ r, compare a y.1 = .lt) :
    ∀ x ∈ joinIn l r, compare a x.1 = .lt := by
  intro x hx
  rcases key_mem_joinIn l r hx with ⟨y, hy, h⟩ | ⟨y, hy, h⟩
  · rw [h]; exact hl y hy
  · rw [h]; exact hr y hy

variable [Std.TransOrd κ]

private theorem lt_cons {a : κ} {p : κ × β} {l : List (κ × β)} (h : compare a p.1 = .lt)
    (hl : ∀ y ∈ l, compare p.1 y.1 = .lt) : ∀ y ∈ p :: l, compare a y.1 = .lt := by
  intro y hy
  rcases List.mem_cons.1 hy with rfl | hy
  · exact h
  · exact Std.TransCmp.lt_trans h (hl y hy)

private theorem increasing_joinIn (l : List (κ × β)) (r : List (κ × γ))
    (hl : l.Pairwise fun a b => compare a.1 b.1 = .lt)
    (hr : r.Pairwise fun a b => compare a.1 b.1 = .lt) :
    (joinIn l r).Pairwise fun a b => compare a.1 b.1 = .lt := by
  induction l generalizing r with
  | nil => simpa [joinIn, List.pairwise_map] using hr
  | cons p l ih =>
    obtain ⟨k, b⟩ := p
    have hp := List.pairwise_cons.1 hl
    simp only [joinIn]
    induction r with
    | nil =>
      exact List.pairwise_cons.2 ⟨lt_key_joinIn hp.1 (by simp), ih [] hp.2 List.Pairwise.nil⟩
    | cons q rest ihr =>
      obtain ⟨j, c⟩ := q
      have hq := List.pairwise_cons.1 hr
      simp only [joinCons]
      split
      next hlt => exact List.pairwise_cons.2 ⟨lt_key_joinIn hp.1 (lt_cons hlt hq.1), ih _ hp.2 hr⟩
      next heq =>
        refine List.pairwise_cons.2 ⟨lt_key_joinIn hp.1 fun y hy => ?_, ih _ hp.2 hq.2⟩
        exact Std.TransCmp.lt_of_eq_of_lt heq (hq.1 y hy)
      next hgt =>
        have hjk : compare j k = .lt := Std.OrientedCmp.gt_iff_lt.1 hgt
        have hl : ∀ y ∈ (k, b) :: l, compare j y.1 = .lt := lt_cons hjk hp.1
        exact List.pairwise_cons.2 ⟨lt_key_joinIn hl hq.1, ihr hq.2⟩

/-- The map that binds every key of either map to what each of the two binds it to. -/
def join (m : OrderedMap κ β) (n : OrderedMap κ γ) : OrderedMap κ (Option β × Option γ) :=
  ⟨joinIn m.entries n.entries, increasing_joinIn _ _ m.increasing n.increasing⟩

section Lookup

variable [Std.LawfulEqOrd κ]

omit [Std.TransOrd κ] [Std.LawfulEqOrd κ] in
private theorem findIn_map (r : List (κ × γ)) (j : κ) :
    findIn j (r.map fun p => (p.1, (none : Option β), some p.2)) = sides none (findIn j r) := by
  induction r with
  | nil => rfl
  | cons q rest ih =>
    simp only [List.map_cons, findIn, ih]
    split <;> rfl

private theorem findIn_joinIn (l : List (κ × β)) (r : List (κ × γ)) (j : κ)
    (hl : l.Pairwise fun a b => compare a.1 b.1 = .lt)
    (hr : r.Pairwise fun a b => compare a.1 b.1 = .lt) :
    findIn j (joinIn l r) = sides (findIn j l) (findIn j r) := by
  induction l generalizing r with
  | nil => exact findIn_map r j
  | cons p l ih =>
    obtain ⟨k, b⟩ := p
    have hp := List.pairwise_cons.1 hl
    simp only [joinIn]
    induction r with
    | nil =>
      simp only [joinCons, findIn, ih [] hp.2 List.Pairwise.nil]
      split <;> rfl
    | cons q rest ihr =>
      obtain ⟨i, c⟩ := q
      have hq := List.pairwise_cons.1 hr
      simp only [joinCons]
      split
      next hlt =>
        rw [findIn, ih _ hp.2 hr]
        by_cases hjk : compare j k = .eq
        · have hj : j = k := Std.LawfulEqOrd.eq_of_compare hjk
          rw [if_pos hjk, findIn, if_pos hjk, hj, findIn_eq_none_of_lt (lt_cons hlt hq.1)]
          rfl
        · simp [findIn, hjk]
      next heq =>
        have hk : k = i := Std.LawfulEqOrd.eq_of_compare heq
        subst hk
        simp only [findIn, ih rest hp.2 hq.2]
        split <;> rfl
      next hgt =>
        have hik : compare i k = .lt := Std.OrientedCmp.gt_iff_lt.1 hgt
        rw [findIn, ihr hq.2]
        by_cases hji : compare j i = .eq
        · have hj : j = i := Std.LawfulEqOrd.eq_of_compare hji
          have hnone : findIn j ((k, b) :: l) = none :=
            findIn_eq_none_of_lt (hj ▸ lt_cons hik hp.1)
          rw [if_pos hji, hnone]
          simp [findIn, hji, sides]
        · simp [findIn, hji]

/-- A join binds a key exactly if one of the two maps does, to what each of them binds it to. -/
theorem find?_join (m : OrderedMap κ β) (n : OrderedMap κ γ) (j : κ) :
    (m.join n).find? j = sides (m.find? j) (n.find? j) :=
  findIn_joinIn m.entries n.entries j m.increasing n.increasing

end Lookup

end OrderedMap

end LagForecast
