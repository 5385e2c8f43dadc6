import LagForecast.Digest.Sha256
import LagForecast.Series.Filters
import LagForecast.Text.Basic

/-!
Series keys: a scope and the filters within it.  Keys are ordered by their scopes, then by their
filters as listed.  In the canonical form of filters, `dim=a,b;dim2=c`, a separator inside a name or
a value is escaped.
-/

set_option autoImplicit false

namespace LagForecast

namespace Canonical

def separators : List Char := ['%', ',', ';', '=', '|']

/-- How a character of a name stands in a canonical form: separators as a percent sign and two
upper-case hexadecimal digits. -/
def escapedChar (c : Char) : List Char :=
  if c ∈ separators then '%' :: (Text.hexDigits 2 c.toNat).map Char.toUpper else [c]

def escaped (s : String) : List Char := s.toList.flatMap escapedChar

def dimension (p : String × List String) : List Char :=
  escaped p.1 ++ '=' :: [','].intercalate (p.2.map escaped)

def dimensions (l : List (String × List String)) : List Char :=
  [';'].intercalate (l.map dimension)

end Canonical

def Filters.canonical (f : Filters) : String := String.ofList (Canonical.dimensions f.listing)

open Text (Blank)

/-- The key of a time series.  Its scope is not blank. -/
structure SeriesKey where
  scope : String
  filters : Filters
  scope_named : ¬ Blank scope
  deriving DecidableEq

namespace SeriesKey

def make (scope : String) (filters : Filters) : Except KeyError SeriesKey :=
  if h : Blank scope then .error .emptyScope else .ok ⟨scope, filters, h⟩

theorem make_eq_ok_iff {scope : String} {filters : Filters} {k : SeriesKey} :
    make scope filters = .ok k ↔ scope = k.scope ∧ filters = k.filters := by
  constructor
  · intro h
    rw [make] at h
    by_cases hscope : Text.Blank scope
    · rw [dif_pos hscope] at h
      cases h
    · rw [dif_neg hscope] at h
      cases h
      exact ⟨rfl, rfl⟩
  · rintro ⟨rfl, rfl⟩
    exact dif_neg k.scope_named

/-- The canonical form of a key, `scope|dim=a,b;dim2=c`. -/
def canonical (k : SeriesKey) : String :=
  String.ofList (Canonical.escaped k.scope ++ '|' :: Canonical.dimensions k.filters.listing)

/-- Sixteen hexadecimal digits that stand for the canonical form. -/
def fingerprint (k : SeriesKey) : String :=
  hexOfBytes ((Sha256.digest (Text.bytes k.canonical)).take 8)

end SeriesKey

def compareDimensions : String × List String → String × List String → Ordering :=
  compareLex (compareOn Prod.fst) (compareOn Prod.snd)

instance : Std.TransCmp compareDimensions :=
  inferInstanceAs (Std.TransCmp (compareLex (compareOn Prod.fst) (compareOn Prod.snd)))

instance : Std.LawfulEqCmp compareDimensions where
  eq_of_compare {a b} h := by
    simp only [compareDimensions, compareLex, compareOn, Ordering.then_eq_eq,
      Std.LawfulEqOrd.compare_eq_iff_eq] at h
    exact Prod.ext h.1 h.2

/-- Listings of filters in order: dimension by dimension, a listing before those that go on. -/
def compareListings : List (String × List String) → List (String × List String) → Ordering :=
  List.compareLex compareDimensions

instance : Std.TransCmp compareListings :=
  inferInstanceAs (Std.TransCmp (List.compareLex compareDimensions))

instance : Std.LawfulEqCmp compareListings :=
  inferInstanceAs (Std.LawfulEqCmp (List.compareLex compareDimensions))

instance : Ord Filters := ⟨fun f g => compareListings f.listing g.listing⟩

instance : Std.TransOrd Filters where
  eq_swap {f g} := by
    change compareListings f.listing g.listing = (compareListings g.listing f.listing).swap
    exact Std.OrientedCmp.eq_swap
  isLE_trans {f g h} hfg hgh := by
    change (compareListings f.listing h.listing).isLE = true
    change (compareListings f.listing g.listing).isLE = true at hfg
    exact Std.TransCmp.isLE_trans hfg hgh

instance : Std.LawfulEqOrd Filters where
  eq_of_compare {f g} h := by
    change compareListings f.listing g.listing = .eq at h
    exact Filters.ext_listing (Std.LawfulEqCmp.eq_of_compare h)

instance : Ord SeriesKey :=
  ⟨compareLex (compareOn SeriesKey.scope) (compareOn SeriesKey.filters)⟩

instance : Std.TransOrd SeriesKey :=
  inferInstanceAs
    (Std.TransCmp (compareLex (compareOn SeriesKey.scope) (compareOn SeriesKey.filters)))

instance : Std.LawfulEqOrd SeriesKey where
  eq_of_compare {a b} h := by
    simp only [compare, compareLex, compareOn, Ordering.then_eq_eq] at h
    have hs : a.scope = b.scope := Std.LawfulEqOrd.eq_of_compare h.1
    have hf : a.filters = b.filters := Std.LawfulEqOrd.eq_of_compare h.2
    cases a
    cases b
    cases hs
    cases hf
    rfl

end LagForecast
