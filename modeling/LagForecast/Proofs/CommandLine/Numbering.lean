import LagForecast.History.Basic
import LagForecast.Proofs.Outcome
import Mathlib.Data.List.Forall2

/-!
# Items read with their places

The rows of a table and the items of an array are read in their order, each with its place.  What
is read of the items one by one decides what is read of all of them, also where an item that has no
period takes its place for it.
-/

set_option autoImplicit false

namespace LagForecast

variable {ε α β : Type}

def readInOrder (item : Nat → α → Except ε β) : Nat → List α → Except ε (List β)
  | _, [] => .ok []
  | place, a :: rest => do
    let b ← item place a
    let others ← readInOrder item (place + 1) rest
    return b :: others

section Reading

variable {item : Nat → α → Except ε β} {place : Nat}

private theorem readInOrder_cons_eq_ok {a : α} {rest : List α} {l : List β} :
    readInOrder item place (a :: rest) = .ok l ↔
      ∃ b others, item place a = .ok b ∧ readInOrder item (place + 1) rest = .ok others ∧
        l = b :: others := by
  constructor
  · intro h
    obtain ⟨b, hb, h⟩ := bind_eq_ok.1 h
    obtain ⟨others, hothers, h⟩ := bind_eq_ok.1 h
    exact ⟨b, others, hb, hothers, (Except.ok.inj h).symm⟩
  · rintro ⟨b, others, hb, hothers, rfl⟩
    rw [readInOrder, hb]
    change (readInOrder item (place + 1) rest >>= _) = _
    rw [hothers]
    rfl

theorem readInOrder_of_forall₂ {items : List α} {l : List β}
    (h : List.Forall₂ (fun a b => ∀ place, item place a = .ok b) items l) (place : Nat) :
    readInOrder item place items = .ok l := by
  induction h generalizing place with
  | nil => rfl
  | cons hitem _ ih => exact readInOrder_cons_eq_ok.2 ⟨_, _, hitem place, ih (place + 1), rfl⟩

theorem getElem?_readInOrder {items : List α} {l : List β}
    (h : readInOrder item place items = .ok l) {i : Nat} {a : α} (hi : items[i]? = some a) :
    ∃ b, item (place + i) a = .ok b ∧ l[i]? = some b := by
  induction items generalizing place l i with
  | nil => cases hi
  | cons first rest ih =>
    obtain ⟨b, others, hb, hothers, rfl⟩ := readInOrder_cons_eq_ok.1 h
    cases i with
    | zero =>
      obtain rfl := Option.some.inj hi
      exact ⟨b, hb, rfl⟩
    | succ i =>
      obtain ⟨c, hc, hplace⟩ := ih hothers hi
      have hsum : place + (i + 1) = place + 1 + i := by omega
      rw [hsum]
      exact ⟨c, hc, hplace⟩

end Reading

/-- Items that take their places for their periods give their values at consecutive periods. -/
theorem readInOrder_eq_consecutive {item : Nat → α → Except ε Observation}
    {P : α → Float → Prop} {items : List α}
    (h : ∀ a ∈ items, ∀ place o, item place a = .ok o ↔ ∃ v, P a v ∧ o = ⟨place, v⟩)
    {place : Nat} {l : List Observation} :
    readInOrder item place items = .ok l ↔
      ∃ values, List.Forall₂ P items values ∧ l = History.consecutive place values := by
  induction items generalizing place l with
  | nil =>
    constructor
    · intro hread
      cases hread
      exact ⟨[], .nil, rfl⟩
    · rintro ⟨values, hvalues, rfl⟩
      cases hvalues
      rfl
  | cons a rest ih =>
    have ha := h a List.mem_cons_self
    have hrest := fun b hb => h b (List.mem_cons_of_mem a hb)
    rw [readInOrder_cons_eq_ok]
    constructor
    · rintro ⟨o, others, ho, hothers, rfl⟩
      obtain ⟨v, hv, rfl⟩ := (ha place o).1 ho
      obtain ⟨values, hvalues, rfl⟩ := (ih hrest).1 hothers
      exact ⟨v :: values, .cons hv hvalues, rfl⟩
    · rintro ⟨values, hvalues, rfl⟩
      cases hvalues with
      | @cons _ v _ values hv hvalues =>
        have ho := (ha place ⟨place, v⟩).2 ⟨v, hv, rfl⟩
        exact ⟨_, _, ho, (ih hrest).2 ⟨values, hvalues, rfl⟩, rfl⟩

def refuseEmpty (fault : ε) : List α → Except ε (List α)
  | [] => .error fault
  | l => .ok l

theorem refuseEmpty_eq_ok {x : Except ε (List α)} {fault : ε} {l : List α} :
    (x >>= refuseEmpty fault) = .ok l ↔ l ≠ [] ∧ x = .ok l := by
  rw [bind_eq_ok]
  constructor
  · rintro ⟨l', hx, hl⟩
    cases l' with
    | nil => cases hl
    | cons a rest =>
      cases hl
      exact ⟨List.cons_ne_nil a rest, hx⟩
  · rintro ⟨hne, hx⟩
    refine ⟨l, hx, ?_⟩
    cases l with
    | nil => exact absurd rfl hne
    | cons a rest => rfl

end LagForecast
