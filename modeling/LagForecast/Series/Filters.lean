import LagForecast.Collection.OrderedMap
import LagForecast.Collection.OrderedSet
import LagForecast.Text.Basic

/-!
Filters select values on dimensions.  Dimensions and values are kept in order, so filters that
select the same are equal, however they were put together.
-/

set_option autoImplicit false

namespace LagForecast

inductive KeyError where
  | emptyScope
  | emptyDimension
  | emptyValue (dimension : String)
  | emptySelection (dimension : String)
  deriving DecidableEq

def KeyError.message : KeyError → String
  | emptyScope => "Scoping id must not be empty"
  | emptyDimension => "Dimension name must not be empty"
  | emptyValue d => "Dimension '" ++ d ++ "' has an empty value"
  | emptySelection d => "Dimension '" ++ d ++ "' selects no values"

open Text (Blank)

/-- The values selected on each of some dimensions.  No name and no value is blank, and every
dimension has a value. -/
structure Filters where
  selected : OrderedMap String (OrderedSet String)
  named : ∀ p ∈ selected.entries, ¬ Blank p.1 ∧ p.2.items ≠ [] ∧ ∀ v ∈ p.2.items, ¬ Blank v

namespace Filters

def empty : Filters := ⟨.empty, fun _ h => by simp [OrderedMap.empty] at h⟩

instance : Inhabited Filters := ⟨empty⟩

instance : DecidableEq Filters := fun a b =>
  if h : a.selected = b.selected then
    .isTrue (by cases a; cases b; cases h; rfl)
  else .isFalse fun e => h (e ▸ rfl)

private theorem named_adjust (f : Filters) {dimension value : String} (hd : ¬ Blank dimension)
    (hv : ¬ Blank value) :
    ∀ p ∈ (f.selected.adjust dimension fun s => (s.getD .empty).insert value).entries,
      ¬ Blank p.1 ∧ p.2.items ≠ [] ∧ ∀ v ∈ p.2.items, ¬ Blank v := by
  have written : ∀ s : OrderedSet String, (∀ v ∈ s.items, ¬ Blank v) →
      (s.insert value).items ≠ [] ∧ ∀ v ∈ (s.insert value).items, ¬ Blank v := by
    intro s hs
    refine ⟨List.ne_nil_of_mem (OrderedSet.mem_insert.2 (Or.inl rfl)), fun v hmem => ?_⟩
    rcases OrderedSet.mem_insert.1 hmem with rfl | hmem
    · exact hv
    · exact hs v hmem
  intro p hp
  rcases OrderedMap.mem_adjustIn hp with hp | rfl | ⟨s, hs, he⟩
  · exact f.named p hp
  · exact ⟨hd, written .empty (by simp [OrderedSet.empty])⟩
  · have := f.named _ hs
    exact ⟨this.1, by rw [he]; exact written s this.2.2⟩

/-- Select one more value on a dimension.  A blank name is reported before a blank value. -/
def select (f : Filters) (dimension value : String) : Except KeyError Filters :=
  if hd : Blank dimension then .error .emptyDimension
  else if hv : Blank value then .error (.emptyValue dimension)
  else .ok ⟨f.selected.adjust dimension fun s => (s.getD .empty).insert value, f.named_adjust hd hv⟩

/-- Select the values that are listed with their dimensions, reporting the first bad pair. -/
def ofPairs (pairs : List (String × String)) : Except KeyError Filters :=
  pairs.foldlM (fun f p => f.select p.1 p.2) empty

def get? (f : Filters) (dimension : String) : Option (OrderedSet String) :=
  f.selected.find? dimension

def size (f : Filters) : Nat := f.selected.size

def listing (f : Filters) : List (String × List String) :=
  f.selected.entries.map fun p => (p.1, p.2.items)

theorem ext_listing {f g : Filters} (h : f.listing = g.listing) : f = g := by
  have entries : ∀ l m : List (String × OrderedSet String),
      (l.map fun p => (p.1, p.2.items)) = (m.map fun p => (p.1, p.2.items)) → l = m := by
    intro l m
    refine (List.map_inj_right ?_).1
    intro p q hpq
    obtain ⟨d, s, hs⟩ := p
    obtain ⟨e, t, ht⟩ := q
    cases hpq
    rfl
  obtain ⟨⟨l, hl⟩, hf⟩ := f
  obtain ⟨⟨m, hm⟩, hg⟩ := g
  cases entries l m h
  rfl

end Filters

end LagForecast
