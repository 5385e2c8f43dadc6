import LagForecast.Proofs.Series.Pairs
import LagForecast.Series.Draft

/-!
# Ways to put a key together

Filters are put together from pairs, from what is written for each dimension, or call by call on a
draft of a key.  All of them select pair after pair and report the first that cannot be selected.  A
dimension for which nothing is written has no pair, and is reported when its turn comes.
-/

set_option autoImplicit false

namespace LagForecast

namespace Filters

def pairsOf (l : List (String × Selection)) : List (String × String) :=
  l.flatMap fun p => p.2.values.map fun v => (p.1, v)

/-- The first dimension for which nothing is written comes before any pair that cannot be
selected. -/
def ReachesEmpty (l : List (String × Selection)) (dimension : String) : Prop :=
  ∃ before s after, l = before ++ (dimension, s) :: after ∧ s.values = [] ∧
    (∀ p ∈ before, p.2.values ≠ []) ∧ ∃ f, ofPairs (pairsOf before) = .ok f

section Selections

variable {l before after : List (String × Selection)} {dimension : String} {s : Selection}

private theorem pairsOf_append : pairsOf (before ++ after) = pairsOf before ++ pairsOf after :=
  List.flatMap_append

private theorem selectAll_of_empty (f : Filters) (hs : s.values = []) :
    f.selectAll dimension s =
      .error (if Text.Blank dimension then .emptyDimension else .emptySelection dimension) := by
  rw [selectAll, hs]

/-- Where something is written for every dimension, selecting it is selecting its pairs. -/
theorem foldlM_selectAll (f : Filters) (hl : ∀ p ∈ l, p.2.values ≠ []) :
    l.foldlM (fun f p => f.selectAll p.1 p.2) f =
      (pairsOf l).foldlM (fun f p => f.select p.1 p.2) f := by
  induction l generalizing f with
  | nil => rfl
  | cons p l ih =>
    obtain ⟨hp, hl⟩ := List.forall_mem_cons.1 hl
    have hrest (g : Filters) := ih g hl
    rw [List.foldlM_cons, selectAll_eq_foldlM f p.1 hp, pairsOf, List.flatMap_cons,
      List.foldlM_append, List.foldlM_map]
    simp only [hrest, pairsOf]

private theorem foldlM_selectAll_append (hbefore : ∀ p ∈ before, p.2.values ≠ []) :
    (before ++ after).foldlM (fun f p => f.selectAll p.1 p.2) empty =
      ofPairs (pairsOf before) >>= fun f => after.foldlM (fun f p => f.selectAll p.1 p.2) f := by
  rw [List.foldlM_append, foldlM_selectAll empty hbefore, ofPairs]

private theorem all_written_or_first_empty (l : List (String × Selection)) :
    (∀ p ∈ l, p.2.values ≠ []) ∨ ∃ before dimension s after, l = before ++ (dimension, s) :: after ∧
      s.values = [] ∧ ∀ p ∈ before, p.2.values ≠ [] := by
  cases hfind : l.find? fun p => p.2.values.isEmpty with
  | none =>
    rw [List.find?_eq_none] at hfind
    exact Or.inl fun p hp hempty => hfind p hp (List.isEmpty_iff.2 hempty)
  | some p =>
    obtain ⟨hp, before, after, rfl, hbefore⟩ := List.find?_eq_some_iff_append.1 hfind
    refine Or.inr ⟨before, p.1, p.2, after, rfl, List.isEmpty_iff.1 hp, fun q hq hempty => ?_⟩
    have hkept := hbefore q hq
    rw [hempty] at hkept
    cases hkept

end Selections

variable {m : OrderedMap String Selection}

private theorem ofSelections_of_reachesEmpty {dimension : String}
    (h : ReachesEmpty m.entries dimension) :
    ofSelections m =
      .error (if Text.Blank dimension then .emptyDimension else .emptySelection dimension) := by
  obtain ⟨before, s, after, hentries, hs, hbefore, f, hf⟩ := h
  have hnext : ((dimension, s) :: after).foldlM (fun f p => f.selectAll p.1 p.2) f =
      .error (if Text.Blank dimension then .emptyDimension else .emptySelection dimension) := by
    rw [List.foldlM_cons, selectAll_of_empty f hs]
    rfl
  rw [ofSelections, hentries, foldlM_selectAll_append hbefore, hf]
  exact hnext

private theorem ofSelections_eq_ofPairs (h : ¬ ∃ dimension, ReachesEmpty m.entries dimension) :
    ofSelections m = ofPairs (pairsOf m.entries) := by
  rcases all_written_or_first_empty m.entries with
    hall | ⟨before, dimension, s, after, hentries, hs, hbefore⟩
  · exact foldlM_selectAll empty hall
  · cases hf : ofPairs (pairsOf before) with
    | ok f => exact absurd ⟨dimension, before, s, after, hentries, hs, hbefore, f, hf⟩ h
    | error e =>
      rw [ofSelections, hentries, foldlM_selectAll_append hbefore, hf, pairsOf_append, ofPairs,
        List.foldlM_append, ← ofPairs, hf]
      rfl

end Filters

inductive KeyCall where
  | scope (scope : String)
  | filter (dimension value : String)

namespace KeyCall

def scope? : KeyCall → Option String
  | scope s => some s
  | filter _ _ => none

def pair? : KeyCall → Option (String × String)
  | scope _ => none
  | filter dimension value => some (dimension, value)

end KeyCall

namespace KeyDraft

def receive (d : KeyDraft) : KeyCall → KeyDraft
  | .scope scope => d.withScope scope
  | .filter dimension value => d.withFilter dimension value

def ofCalls (calls : List KeyCall) : KeyDraft := calls.foldl receive start

/-- The key of the pairs that are listed, in a scope that has to be given. -/
def keyOf (scope : Option String) (pairs : List (String × String)) :
    Except KeyError SeriesKey := do
  let filters ← Filters.ofPairs pairs
  match scope with
  | none => .error .emptyScope
  | some scope => SeriesKey.make scope filters

/-- The filters of a draft, or the fault for which they were given up. -/
def selected (d : KeyDraft) : Except KeyError Filters :=
  match d.fault with
  | some fault => .error fault
  | none => .ok d.filters

variable (d : KeyDraft)

private theorem selected_withFilter (dimension value : String) :
    (d.withFilter dimension value).selected =
      d.selected >>= fun filters => filters.select dimension value := by
  unfold withFilter selected
  cases hfault : d.fault with
  | some fault =>
    dsimp only
    rw [hfault]
    rfl
  | none =>
    change _ = d.filters.select dimension value
    cases d.filters.select dimension value <;> simp

private theorem scope_withFilter (dimension value : String) :
    (d.withFilter dimension value).scope = d.scope := by
  unfold withFilter
  split
  · rfl
  · split <;> rfl

private theorem selected_foldl_receive (calls : List KeyCall) :
    (calls.foldl receive d).selected = d.selected >>= fun filters =>
      (calls.filterMap KeyCall.pair?).foldlM (fun f p => f.select p.1 p.2) filters := by
  induction calls generalizing d with
  | nil => exact (bind_pure d.selected).symm
  | cons call calls ih =>
    rw [List.foldl_cons, ih]
    cases call with
    | scope scope => rfl
    | filter dimension value =>
      rw [receive, selected_withFilter, bind_assoc]
      rfl

private theorem scope_foldl_receive (calls : List KeyCall) :
    (calls.foldl receive d).scope = ((calls.filterMap KeyCall.scope?).getLast?).or d.scope := by
  induction calls generalizing d with
  | nil => rfl
  | cons call calls ih =>
    rw [List.foldl_cons, ih]
    cases call with
    | scope scope =>
      have hgiven : (KeyCall.scope scope :: calls).filterMap KeyCall.scope? =
          scope :: calls.filterMap KeyCall.scope? := rfl
      rw [hgiven, List.getLast?_cons]
      cases (calls.filterMap KeyCall.scope?).getLast? <;> rfl
    | filter dimension value =>
      rw [receive, scope_withFilter]
      rfl

private theorem build_ofCalls (calls : List KeyCall) :
    (ofCalls calls).build =
      keyOf (calls.filterMap KeyCall.scope?).getLast? (calls.filterMap KeyCall.pair?) := by
  have hselected : (ofCalls calls).selected =
      Filters.ofPairs (calls.filterMap KeyCall.pair?) := selected_foldl_receive start calls
  have hscope : (ofCalls calls).scope = (calls.filterMap KeyCall.scope?).getLast? :=
    (scope_foldl_receive start calls).trans Option.or_none
  unfold keyOf
  rw [← hselected, ← hscope]
  unfold build selected
  cases (ofCalls calls).fault <;> rfl

end KeyDraft

/-- Filters of what is written for each dimension are those of its pairs, in order of the
dimensions, with the same error, unless a dimension for which nothing is written comes first: that
is the error then.  The key of a draft is that of the pairs that were selected on it, in the scope
that was given last. -/
theorem keys_built_alike :
    (∀ m : OrderedMap String Selection,
      (m.entries.Pairwise fun a b => Text.bytes a.1 < Text.bytes b.1) ∧
      (∀ dimension, Filters.ReachesEmpty m.entries dimension →
        Filters.ofSelections m = .error
          (if Text.trim dimension = "" then .emptyDimension else .emptySelection dimension)) ∧
      ((¬ ∃ dimension, Filters.ReachesEmpty m.entries dimension) →
        Filters.ofSelections m = Filters.ofPairs (Filters.pairsOf m.entries))) ∧
    ∀ calls : List KeyCall, (KeyDraft.ofCalls calls).build =
      KeyDraft.keyOf (calls.filterMap KeyCall.scope?).getLast?
        (calls.filterMap KeyCall.pair?) := by
  refine ⟨fun m => ⟨?_, fun dimension h => ?_, Filters.ofSelections_eq_ofPairs⟩,
    KeyDraft.build_ofCalls⟩
  · exact m.increasing.imp fun hlt => Text.compare_eq_lt_iff.1 hlt
  · simp only [Filters.ofSelections_of_reachesEmpty h, Text.trim_eq_empty_iff]

/-- A dimension without values after one that has some, and after one whose value is blank; and a
draft with a second scope, a pair that cannot be selected and one after it. -/
theorem keys_built_alike_of_empty_selection :
    let reached : OrderedMap String Selection :=
      ⟨[("product", .one "widget"), ("region", .many [])], by decide +kernel⟩
    let blank : OrderedMap String Selection :=
      ⟨[("product", .many ["widget", " "]), ("region", .many [])], by decide +kernel⟩
    Filters.ofSelections reached = .error (.emptySelection "region") ∧
      Filters.ofSelections blank = .error (.emptyValue "product") ∧
      (KeyDraft.ofCalls [.filter "region" "emea", .scope "plant", .filter "" "a", .scope "site",
        .filter "region" ""]).build = .error .emptyDimension := by
  intro reached blank
  obtain ⟨hmaps, hcalls⟩ := keys_built_alike
  obtain ⟨-, hreached, -⟩ := hmaps reached
  obtain ⟨-, -, hpairs⟩ := hmaps blank
  have hwidget : ∃ f, Filters.ofPairs [("product", "widget")] = .ok f :=
    Filters.exists_ofPairs_iff.2 (by decide +kernel)
  have hwritten : ∀ p ∈ [("product", Selection.one "widget")], p.2.values ≠ [] := by decide
  have hunreached : ¬ ∃ dimension, Filters.ReachesEmpty blank.entries dimension := by
    rintro ⟨dimension, before, s, after, hentries, hs, -, f, hf⟩
    rcases before with _ | ⟨p, _ | ⟨q, before⟩⟩
    · cases hentries
      cases hs
    · cases hentries
      have hnamed := Filters.exists_ofPairs_iff.1 ⟨f, hf⟩
      exact absurd hnamed (by decide +kernel)
    · have hlength := congrArg List.length hentries
      simp only [blank, List.length_cons, List.length_append, List.length_nil] at hlength
      omega
  have hvalue : Filters.ofPairs (Filters.pairsOf blank.entries) = .error (.emptyValue "product") :=
    Filters.ofPairs_eq_error_iff.2 ⟨[("product", "widget")], ("product", " "), [], rfl,
      by decide +kernel, .value (by decide +kernel) (by decide +kernel)⟩
  have hdimension : Filters.ofPairs [("region", "emea"), ("", "a"), ("region", "")] =
      .error .emptyDimension :=
    Filters.ofPairs_eq_error_iff.2 ⟨[("region", "emea")], ("", "a"), [("region", "")], rfl,
      by decide +kernel, .dimension (by decide +kernel)⟩
  refine ⟨hreached "region" ⟨[("product", .one "widget")], .many [], [], rfl, rfl, hwritten,
    hwidget⟩, (hpairs hunreached).trans hvalue, (hcalls _).trans ?_⟩
  change KeyDraft.keyOf (some "site") [("region", "emea"), ("", "a"), ("region", "")] = _
  rw [KeyDraft.keyOf, hdimension]
  rfl

end LagForecast
