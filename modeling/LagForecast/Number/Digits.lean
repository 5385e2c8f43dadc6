/-!
Natural numbers as lists of decimal digits, most significant first.  `value_digits` says that the
digits of a number denote it, and `digits_head` that they have no leading zero.
-/

set_option autoImplicit false

namespace LagForecast

abbrev Digit := Fin 10

namespace Digit

abbrev zero : Digit := 0

def char (d : Digit) : Char := Char.ofNat (48 + d.val)

/-- The digit that a character stands for, ASCII digits only. -/
def ofChar? (c : Char) : Option Digit :=
  if h : 48 ≤ c.toNat ∧ c.toNat < 58 then some ⟨c.toNat - 48, by omega⟩ else none

@[simp] theorem ofChar?_char (d : Digit) : ofChar? d.char = some d := by
  revert d
  decide

end Digit

def valueFrom (start : Nat) (ds : List Digit) : Nat := ds.foldl (fun v d => 10 * v + d.val) start

def value (ds : List Digit) : Nat := valueFrom 0 ds

/-- The last `k` digits of a number, without leading zeros. -/
def lastDigits : Nat → Nat → List Digit
  | 0, _ => []
  | k + 1, n => if n < 10 then [Fin.ofNat 10 n] else lastDigits k (n / 10) ++ [Fin.ofNat 10 n]

def digits (n : Nat) : List Digit := lastDigits (n.log2 + 1) n

/-- The digits with which a list of symbols begins, and what follows them. -/
def leadingDigits {α : Type} (digit? : α → Option Digit) : List α → List Digit × List α
  | [] => ([], [])
  | a :: rest =>
    match digit? a with
    | none => ([], a :: rest)
    | some d => let (ds, after) := leadingDigits digit? rest; (d :: ds, after)

theorem leadingDigits_map_append {α : Type} {digit? : α → Option Digit} {symbol : Digit → α}
    (h : ∀ d, digit? (symbol d) = some d) (ds : List Digit) (rest : List α)
    (hrest : ∀ a ∈ rest.head?, digit? a = none) :
    leadingDigits digit? (ds.map symbol ++ rest) = (ds, rest) := by
  induction ds with
  | nil =>
    cases rest with
    | nil => rfl
    | cons a rest => simp [leadingDigits, hrest a (by simp)]
  | cons d ds ih => simp [leadingDigits, h d, ih]

theorem valueFrom_append (start : Nat) (a b : List Digit) :
    valueFrom start (a ++ b) = valueFrom (valueFrom start a) b := by
  simp [valueFrom, List.foldl_append]

theorem value_append_singleton (a : List Digit) (d : Digit) :
    value (a ++ [d]) = 10 * value a + d.val := by
  simp [value, valueFrom]

private theorem value_lastDigits (k n : Nat) (h : n < Nat.pow 10 k) :
    value (lastDigits k n) = n := by
  induction k generalizing n with
  | zero =>
    have : n = 0 := by simpa using h
    simp [lastDigits, value, valueFrom, this]
  | succ k ih =>
    rw [lastDigits]
    split
    next hlt => simp [value, valueFrom, Nat.mod_eq_of_lt hlt]
    next hge =>
      have hdiv : n / 10 < Nat.pow 10 k := (Nat.div_lt_iff_lt_mul (by decide)).2 h
      rw [value_append_singleton, ih _ hdiv]
      simp only [Fin.val_ofNat]
      omega

private theorem lt_ten_pow_log2 (n : Nat) : n < Nat.pow 10 (n.log2 + 1) :=
  Nat.lt_of_lt_of_le Nat.lt_log2_self (Nat.pow_le_pow_left (by decide) _)

@[simp] theorem value_digits (n : Nat) : value (digits n) = n :=
  value_lastDigits _ n (lt_ten_pow_log2 n)

theorem digits_ne_nil (n : Nat) : digits n ≠ [] := by
  rw [digits, lastDigits]
  split <;> simp

private theorem head_lastDigits (k n : Nat) (h : n < Nat.pow 10 k) (hn : 10 ≤ n) :
    ∃ d rest, lastDigits k n = d :: rest ∧ d ≠ 0 := by
  induction k generalizing n with
  | zero => simp at h; omega
  | succ k ih =>
    rw [lastDigits, if_neg (by omega)]
    have hdiv : n / 10 < Nat.pow 10 k := (Nat.div_lt_iff_lt_mul (by decide)).2 h
    by_cases hbig : 10 ≤ n / 10
    · obtain ⟨d, rest, hd, hz⟩ := ih _ hdiv hbig
      exact ⟨d, rest ++ [Fin.ofNat 10 n], by simp [hd], hz⟩
    · cases k with
      | zero => simp at hdiv; omega
      | succ k =>
        refine ⟨Fin.ofNat 10 (n / 10), [Fin.ofNat 10 n], by simp [lastDigits, Nat.not_le.1 hbig], ?_⟩
        intro h0
        have := congrArg Fin.val h0
        simp only [Fin.val_ofNat, Fin.val_zero] at this
        omega

theorem digits_head (n : Nat) (hn : n ≠ 0) : ∃ d rest, digits n = d :: rest ∧ d ≠ 0 := by
  by_cases h : 10 ≤ n
  · exact head_lastDigits _ n (lt_ten_pow_log2 n) h
  · refine ⟨Fin.ofNat 10 n, [], by simp [digits, lastDigits, Nat.not_le.1 h], ?_⟩
    intro h0
    have := congrArg Fin.val h0
    simp only [Fin.val_ofNat, Fin.val_zero] at this
    omega

theorem digits_zero : digits 0 = [0] := by decide

end LagForecast
