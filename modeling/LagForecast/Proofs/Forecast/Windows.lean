import LagForecast.Proofs.Forecast.Recursion
import Mathlib.Data.List.DropRight

/-!
# Windows

The window of a lag model holds the last of the values that were observed and predicted so far: as
many as there are weights, or all of them.  There is one weight for each value in it.
-/

set_option autoImplicit false

namespace LagForecast

section Values

variable {α : Type}

theorem length_rtake (l : List α) (k : Nat) : (l.rtake k).length = min l.length k := by
  rw [List.rtake, List.length_drop]
  omega

private theorem advance_rtake {k : Nat} (hk : 0 < k) (l : List α) (v : α) :
    advance k (l.rtake k) v = (l ++ [v]).rtake k := by
  obtain ⟨k, rfl⟩ : ∃ j, k = j + 1 := ⟨k - 1, by omega⟩
  rw [List.rtake_concat_succ, advance, length_rtake]
  congr 1
  split
  next hfull =>
    rw [List.rtake, List.rtake, List.drop_drop]
    congr 1
    omega
  next hroom =>
    rw [List.rtake, List.rtake]
    congr 1
    omega

end Values

section Windows

variable {α : Type} [Scalar α] {weights : List α} {bounds : Option (α × α)}

private theorem length_partialWeights {m : Nat} (hm : m ≤ weights.length) :
    (partialWeights weights m).length = m := by
  have htail : (weights.drop (weights.length - m)).length = m := by
    rw [List.length_drop]
    omega
  unfold partialWeights
  dsimp only
  split
  · exact htail
  · split
    · exact List.length_replicate
    · rw [List.length_map, htail]

theorem length_windowWeights {n : Nat} (hpos : 0 < n) (hn : n ≤ weights.length) :
    (windowWeights weights n).length = n := by
  have hsize : max 1 (min n weights.length) = n := by omega
  rw [windowWeights, hsize, length_partialWeights hn]

theorem windowAfter_add (s t : Nat) (window : List α) :
    windowAfter weights bounds (s + t) window =
      windowAfter weights bounds t (windowAfter weights bounds s window) := by
  induction s generalizing window with
  | zero => rw [Nat.zero_add, windowAfter]
  | succ s ih =>
    rw [Nat.succ_add, windowAfter, windowAfter]
    exact ih _

theorem windowAfter_succ (s : Nat) (window : List α) :
    windowAfter weights bounds (s + 1) window =
      advance weights.length (windowAfter weights bounds s window)
        (confine bounds (rawPrediction weights bounds window s)).1 := by
  rw [windowAfter_add]
  rfl

/-- After some predictions the window holds the last of the values known by then. -/
theorem windowAfter_rtake (hk : 0 < weights.length) (l : List α) (s : Nat) :
    windowAfter weights bounds s (l.rtake weights.length) =
      (l ++ (List.range s).map fun t =>
        (confine bounds (rawPrediction weights bounds (l.rtake weights.length) t)).1).rtake
          weights.length := by
  induction s with
  | zero => rw [windowAfter, List.range_zero, List.map_nil, List.append_nil]
  | succ s ih =>
    rw [windowAfter_succ, ih, advance_rtake hk, List.range_succ, List.map_append,
      ← List.append_assoc]
    rfl

end Windows

end LagForecast
