import Orrery.Proofs.Path

/-!
# What a query reads of the state under construction

A query looks at the state under construction through its subject only, and only outside `prev`.  The
places it looks at are its *read paths*: the path of every longest chain of `access` that starts at
`root` or at a `base`.  A bare `root` reads the path that leads nowhere.

* `Scope.lookup?_congr`: the answer depends on the subject's state and on nothing else under
  construction.
* `Scope.lookup?_mono`: when every read path that finds a value finds the same value later, so does the
  query.  This is what makes a rule that can be fired stay one that can be fired.
-/

namespace Orrery

namespace Query

mutual

/-- The places of the subject's state under construction that a query looks at. -/
def readPaths : Query → List (List String)
  | .root => [[]]
  | .base field => [[field]]
  | .access container field =>
    match container.targetPath? with
    | some path => [path ++ [field]]
    | none => readPaths container
  | .tuple items => itemReadPaths items
  | .prev _ | .agent _ => []

/-- The places that queries in a row look at. -/
def itemReadPaths : List Query → List (List String)
  | [] => []
  | q :: rest => readPaths q ++ itemReadPaths rest

end

end Query

namespace Scope

variable (s : Scope) {states after : States}

mutual

/-- **A query depends on its subject only**, as far as states under construction go. -/
theorem lookup?_congr {previous : Bool}
    (h : s.subject? states previous = s.subject? after previous) :
    ∀ q : Query, s.lookup? states previous q = s.lookup? after previous q
  | .base field => by rw [lookup?, lookup?, h]
  | .prev inner => by
    rw [lookup?, lookup?]
    -- below `prev` the subject is the committed one, whatever is under construction
    exact lookup?_congr rfl inner
  | .root => by rw [lookup?, lookup?, h]
  | .agent name => by rw [lookup?, lookup?]
  | .access container field => by rw [lookup?, lookup?, lookup?_congr h container]
  | .tuple items => by rw [lookup?, lookup?, lookupItems?_congr h items]

theorem lookupItems?_congr {previous : Bool}
    (h : s.subject? states previous = s.subject? after previous) :
    ∀ items : List Query, s.lookupItems? states previous items = s.lookupItems? after previous items
  | [] => by rw [lookupItems?, lookupItems?]
  | q :: rest => by
    rw [lookupItems?, lookupItems?, lookup?_congr h q, lookupItems?_congr h rest]

end

/-- What is found at a path of the subject's state under construction. -/
def under? (states : States) (path : List String) : Option Value :=
  (states.get? s.agent).bind fun v => v.at? path

/-- A query that has a path reads it outside `prev`. -/
theorem lookup?_false_of_path {q : Query} {path : List String} (h : q.targetPath? = some path) :
    s.lookup? states false q = s.under? states path :=
  s.lookup?_of_path states false h

mutual

/-- **What is found stays found**, if that holds of every place the query looks at. -/
theorem lookup?_mono : ∀ (q : Query)
    (_ : ∀ path ∈ q.readPaths, ∀ v, s.under? states path = some v → s.under? after path = some v)
    (v : Value), s.lookup? states false q = some v → s.lookup? after false q = some v
  | .base field, h, v, hv => by
    have hpath : (Query.base field).targetPath? = some [field] := rfl
    rw [s.lookup?_false_of_path hpath] at hv ⊢
    exact h [field] (by simp [Query.readPaths]) v hv
  | .prev inner, _, v, hv => by
    have hsubject : s.subject? after true = s.subject? states true := rfl
    rw [lookup?] at hv ⊢
    rw [← hv]
    exact s.lookup?_congr hsubject inner
  | .root, h, v, hv => by
    have hpath : Query.root.targetPath? = some [] := rfl
    rw [s.lookup?_false_of_path hpath] at hv ⊢
    exact h [] (by simp [Query.readPaths]) v hv
  | .agent name, _, v, hv => by
    rw [lookup?] at hv ⊢
    exact hv
  | .access container field, h, v, hv => by
    cases hc : container.targetPath? with
    | some path =>
      have hpath : (Query.access container field).targetPath? = some (path ++ [field]) := by
        rw [Query.targetPath?, hc, Option.map_some]
      rw [s.lookup?_false_of_path hpath] at hv ⊢
      exact h _ (by simp [Query.readPaths, hc]) v hv
    | none =>
      have h' : ∀ path ∈ container.readPaths, ∀ v,
          s.under? states path = some v → s.under? after path = some v := by
        intro path hmem
        exact h path (by simpa [Query.readPaths, hc] using hmem)
      rw [lookup?, Option.bind_eq_some_iff] at hv ⊢
      obtain ⟨inner, hinner, hfield⟩ := hv
      exact ⟨inner, lookup?_mono container h' inner hinner, hfield⟩
  | .tuple items, h, v, hv => by
    rw [lookup?, Option.map_eq_some_iff] at hv ⊢
    obtain ⟨values, hvalues, rfl⟩ := hv
    have h' : ∀ path ∈ Query.itemReadPaths items, ∀ v,
        s.under? states path = some v → s.under? after path = some v := by
      intro path hmem
      exact h path (by simpa [Query.readPaths] using hmem)
    exact ⟨values, lookupItems?_mono items h' values hvalues, rfl⟩

theorem lookupItems?_mono : ∀ (items : List Query)
    (_ : ∀ path ∈ Query.itemReadPaths items, ∀ v,
      s.under? states path = some v → s.under? after path = some v)
    (values : List Value), s.lookupItems? states false items = some values →
      s.lookupItems? after false items = some values
  | [], _, values, hv => by
    rw [lookupItems?] at hv ⊢
    exact hv
  | q :: rest, h, values, hv => by
    rw [lookupItems?] at hv ⊢
    cases hq : s.lookup? states false q with
    | none =>
      rw [hq] at hv
      exact absurd hv (by simp)
    | some v =>
      rw [hq] at hv
      obtain ⟨others, hothers, rfl⟩ := Option.map_eq_some_iff.1 hv
      have hfirst := lookup?_mono q
        (fun path hmem => h path (by simp [Query.itemReadPaths, hmem])) v hq
      have hrest := lookupItems?_mono rest
        (fun path hmem => h path (by simp [Query.itemReadPaths, hmem])) others hothers
      rw [hfirst, hrest]
      rfl

end

end Scope

end Orrery
