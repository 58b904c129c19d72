import Glasslab.Foundation.PurePaths

/-!
# Keys of an expression, without running it

`_dict_keys`, `_references_metrics_json` and `_json_dumps_argument` of `app/preflight.py` follow the
names of a script to what was assigned to them. A name that is being resolved is not resolved again,
so every call ends (`wellFounded_calls`), and no key is lost: what can be reached through a name
twice can be reached through it once (`Reaches.split`).
-/

namespace Glasslab.Methodology.Static

open Foundation List

/-- What the three functions tell apart of an `ast.expr`. A spread has no key. -/
inductive Expr where
  | name (id : String)
  | str (value : String)
  | add (left right : Expr)
  | call (func : Expr) (args : List Expr)
  | attribute (value : Expr) (attr : String)
  | dict (items : List (Option Expr × Expr))
  | other (children : List Expr)

abbrev Assignments := List (String × Expr)

structure Bindings where
  assignments : Assignments
  subscriptKeys : List (String × List String)
  functionReturnKeys : Option (List (String × List String))

variable {assignments : Assignments} {resolving : List String} {e value : Expr} {id k : String}
  {items : List (Option Expr × Expr)}

/-- The assigned names that are not being resolved. -/
def unresolved (assignments : Assignments) (resolving : List String) : List String :=
  (assignments.map Prod.fst).filter (· ∉ resolving)

theorem length_unresolved_lt (hNot : id ∉ resolving) (h : assignments.lookup id = some e) :
    (unresolved assignments (id :: resolving)).length <
    (unresolved assignments resolving).length := by
  have hCons : unresolved assignments (id :: resolving) =
      (unresolved assignments resolving).filter (· ≠ id) := by
    rw [unresolved, unresolved, filter_filter]
    simp
  rw [hCons, length_filter_lt_length_iff_exists]
  obtain ⟨before, after, hEq, -⟩ := lookup_eq_some_iff.mp h
  refine ⟨id, mem_filter.mpr ⟨?_, decide_eq_true hNot⟩, by simp⟩
  rw [hEq]
  simp

theorem sizeOf_of_mem {key : Option Expr} (h : (key, value) ∈ items) :
    sizeOf value < sizeOf items := by
  have hItem := sizeOf_lt_of_mem h
  simp only [Prod.mk.sizeOf_spec] at hItem
  omega

/-- The calls that one of the three functions makes of itself: the callee, and then the caller. -/
inductive Calls (assignments : Assignments) : List String × Expr → List String × Expr → Prop where
  | assigned {resolving : List String} {id : String} {assigned : Expr} : id ∉ resolving →
      assignments.lookup id = some assigned →
      Calls assignments (id :: resolving, assigned) (resolving, .name id)
  | spread {resolving : List String} {items : List (Option Expr × Expr)} {value : Expr} :
      (none, value) ∈ items → Calls assignments (resolving, value) (resolving, .dict items)
  | left {resolving : List String} {left right : Expr} :
      Calls assignments (resolving, left) (resolving, .add left right)
  | right {resolving : List String} {left right : Expr} :
      Calls assignments (resolving, right) (resolving, .add left right)

theorem wellFounded_calls (assignments : Assignments) : WellFounded (Calls assignments) := by
  refine Subrelation.wf (fun {callee caller} h => ?_)
    (InvImage.wf (fun call => ((unresolved assignments call.1).length, sizeOf call.2))
      (WellFounded.prod_lex wellFounded_lt wellFounded_lt))
  cases h with
  | assigned hNot hAssigned => exact .left _ _ (length_unresolved_lt hNot hAssigned)
  | spread h =>
    have hLt := sizeOf_of_mem h
    exact .right _ (by simp; omega)
  | left => exact .right _ (by simp; omega)
  | right => exact .right _ (by simp)

def dictKeys (b : Bindings) (resolving : List String) : Expr → List String
  | .name id =>
    if _hNot : id ∈ resolving then []
    else
      (b.subscriptKeys.lookup id).getD [] ++
        match _h : b.assignments.lookup id with
        | some assigned => dictKeys b (id :: resolving) assigned
        | none => []
  | .call (.name func) _ =>
    match b.functionReturnKeys with
    | some known => (known.lookup func).getD []
    | none => []
  | .dict items => items.attach.flatMap fun ⟨(key, value), _h⟩ =>
    match key with
    | none => dictKeys b resolving value
    | some (.str key) => [key]
    | some _ => []
  | _ => []
termination_by e => ((unresolved b.assignments resolving).length, sizeOf e)
decreasing_by
  · exact .left _ _ (length_unresolved_lt _hNot _h)
  · have hLt := sizeOf_of_mem _h
    exact .right _ (by simp; omega)

/-- The string constants that `ast.walk` meets. -/
def Expr.strings : Expr → List String
  | .name _ => []
  | .str value => [value]
  | .add left right => left.strings ++ right.strings
  | .call func args => func.strings ++ args.attach.flatMap fun ⟨arg, _⟩ => arg.strings
  | .attribute value _ => value.strings
  | .dict items => items.attach.flatMap fun ⟨(key, value), _h⟩ =>
    (match key with
      | some key => key.strings
      | none => []) ++ value.strings
  | .other children => children.attach.flatMap fun ⟨child, _⟩ => child.strings
decreasing_by
  all_goals
    first
    | (have hLt := List.sizeOf_lt_of_mem _h; simp at *; omega)
    | (have hLt := List.sizeOf_lt_of_mem ‹_ ∈ _›; simp; omega)
    | (simp; try omega)

def referencesMetricsJson (assignments : Assignments) (resolving : List String) : Expr → Bool
  | .name id =>
    if _hNot : id ∈ resolving then false
    else
      match _h : assignments.lookup id with
      | some assigned => referencesMetricsJson assignments (id :: resolving) assigned
      | none => false
  | e => e.strings.any fun value => (namesOf value.toList).getLast? = some "metrics.json"
termination_by (unresolved assignments resolving).length
decreasing_by exact length_unresolved_lt _hNot _h

/-- Without assignments there are none to look a name up in. -/
def jsonDumpsArgument (assignments : Assignments) (resolving : List String) : Expr → Option Expr
  | .add left right =>
    (jsonDumpsArgument assignments resolving left).or
      (jsonDumpsArgument assignments resolving right)
  | .name id =>
    if _hNot : id ∈ resolving then none
    else
      match _h : assignments.lookup id with
      | some assigned => jsonDumpsArgument assignments (id :: resolving) assigned
      | none => none
  | .call (.attribute value attr) args =>
    if attr = "dumps" then some (.call (.attribute value attr) args) else none
  | _ => none
termination_by e => ((unresolved assignments resolving).length, sizeOf e)
decreasing_by
  · exact .right _ (by simp; omega)
  · exact .right _ (by simp)
  · exact .left _ _ (length_unresolved_lt _hNot _h)

/-! ## The keys that can be reached -/

variable {b : Bindings}

/-- The rules of the resolution, without any name of some. -/
inductive Reaches (b : Bindings) (avoided : List String) : Expr → String → Prop where
  | subscripted {id : String} {keys : List String} {k : String} : id ∉ avoided →
      b.subscriptKeys.lookup id = some keys → k ∈ keys → Reaches b avoided (.name id) k
  | assigned {id : String} {e : Expr} {k : String} : id ∉ avoided →
      b.assignments.lookup id = some e → Reaches b avoided e k → Reaches b avoided (.name id) k
  | returned {func : String} {args : List Expr} {known : List (String × List String)}
      {keys : List String} {k : String} : b.functionReturnKeys = some known →
      known.lookup func = some keys → k ∈ keys → Reaches b avoided (.call (.name func) args) k
  | item {items : List (Option Expr × Expr)} {k : String} {value : Expr} :
      (some (.str k), value) ∈ items → Reaches b avoided (.dict items) k
  | spread {items : List (Option Expr × Expr)} {value : Expr} {k : String} :
      (none, value) ∈ items → Reaches b avoided value k → Reaches b avoided (.dict items) k

/-- What is reached is reached without a name, or from that name without coming back to it. -/
theorem Reaches.split (h : Reaches b resolving e k) (id : String) :
    Reaches b (id :: resolving) e k ∨ (∃ keys, b.subscriptKeys.lookup id = some keys ∧ k ∈ keys) ∨
      ∃ assigned, b.assignments.lookup id = some assigned ∧
    Reaches b (id :: resolving) assigned k := by
  induction h with
  | @subscripted name keys k hNot hKeys hMem =>
    by_cases hName : name = id
    · subst hName
      exact .inr (.inl ⟨keys, hKeys, hMem⟩)
    · exact .inl (.subscripted (by simp [hName, hNot]) hKeys hMem)
  | @assigned name assigned k hNot hAssigned _ ih =>
    rcases ih with hAway | hBack
    · by_cases hName : name = id
      · subst hName
        exact .inr (.inr ⟨assigned, hAssigned, hAway⟩)
      · exact .inl (.assigned (by simp [hName, hNot]) hAssigned hAway)
    · exact .inr hBack
  | returned hKnown hKeys hMem => exact .inl (.returned hKnown hKeys hMem)
  | item hItem => exact .inl (.item hItem)
  | spread hItem _ ih => exact ih.imp_left (.spread hItem)

theorem Reaches.of_cons (h : Reaches b (id :: resolving) e k) : Reaches b resolving e k := by
  induction h with
  | subscripted hNot hKeys hMem => exact .subscripted (not_mem_of_not_mem_cons hNot) hKeys hMem
  | assigned hNot hAssigned _ ih => exact .assigned (not_mem_of_not_mem_cons hNot) hAssigned ih
  | returned hKnown hKeys hMem => exact .returned hKnown hKeys hMem
  | item hItem => exact .item hItem
  | spread hItem _ ih => exact .spread hItem ih

theorem reaches_name_iff : Reaches b resolving (.name id) k ↔ id ∉ resolving ∧
    (k ∈ (b.subscriptKeys.lookup id).getD [] ∨
      ∃ assigned, b.assignments.lookup id = some assigned ∧
    Reaches b (id :: resolving) assigned k) := by
  constructor
  · intro h
    cases h with
    | subscripted hNot hKeys hMem => exact ⟨hNot, .inl (by rwa [hKeys, Option.getD_some])⟩
    | assigned hNot hAssigned hRest =>
      rcases hRest.split id with hAway | ⟨keys, hKeys, hMem⟩ | hBack
      · exact ⟨hNot, .inr ⟨_, hAssigned, hAway⟩⟩
      · exact ⟨hNot, .inl (by rwa [hKeys, Option.getD_some])⟩
      · exact ⟨hNot, .inr hBack⟩
  · rintro ⟨hNot, hMem | ⟨assigned, hAssigned, hRest⟩⟩
    · cases hKeys : b.subscriptKeys.lookup id with
      | none =>
        rw [hKeys] at hMem
        cases hMem
      | some keys =>
        rw [hKeys] at hMem
        exact .subscripted hNot hKeys hMem
    · exact .assigned hNot hAssigned hRest.of_cons

theorem mem_dictKeys : k ∈ dictKeys b resolving e ↔ Reaches b resolving e k := by
  induction resolving, e using dictKeys.induct b with
  | case1 resolving id hMem =>
    rw [dictKeys, dif_pos hMem, reaches_name_iff]
    exact iff_of_false not_mem_nil fun h => h.1 hMem
  | case2 resolving id hNot ih =>
    rw [dictKeys, dif_neg hNot, reaches_name_iff, mem_append, and_iff_right hNot]
    split
    next assigned hAssigned => simp [hAssigned, ih assigned hAssigned]
    next hNone => simp [hNone]
  | case3 resolving func args known hKnown =>
    rw [dictKeys, hKnown]
    dsimp only
    constructor
    · intro hMem
      cases hKeys : known.lookup func with
      | none =>
        rw [hKeys] at hMem
        cases hMem
      | some keys =>
        rw [hKeys] at hMem
        exact .returned hKnown hKeys hMem
    · rintro (_ | _ | ⟨hKnown', hKeys, hMem⟩)
      rw [hKnown] at hKnown'
      cases hKnown'
      rwa [hKeys, Option.getD_some]
  | case4 resolving func args hNone =>
    rw [dictKeys, hNone]
    refine iff_of_false not_mem_nil ?_
    rintro (_ | _ | ⟨hKnown, -, -⟩)
    rw [hNone] at hKnown
    cases hKnown
  | case5 resolving items ih =>
    rw [dictKeys, mem_flatMap]
    constructor
    · rintro ⟨⟨⟨_ | key, value⟩, hItem⟩, -, hMem⟩
      · exact .spread hItem ((ih value hItem).mp hMem)
      · cases key with
        | str key =>
          rw [mem_singleton.mp hMem]
          exact .item hItem
        | _ => cases hMem
    · intro h
      cases h with
      | item hItem => exact ⟨⟨_, hItem⟩, mem_attach _ _, mem_singleton_self _⟩
      | spread hItem hRest => exact ⟨⟨_, hItem⟩, mem_attach _ _, (ih _ hItem).mpr hRest⟩
  | case6 resolving e hName hCall hDict =>
    rw [dictKeys]
    · refine iff_of_false not_mem_nil ?_
      rintro (_ | _ | _ | _ | _)
      · exact hName _ rfl
      · exact hName _ rfl
      · exact hCall _ _ rfl
      · exact hDict _ rfl
      · exact hDict _ rfl
    · exact hName
    · exact hCall
    · exact hDict

/-- On any bindings the calls end, and the keys are exactly those that the rules give. -/
theorem dictKeys_exact (b : Bindings) : WellFounded (Calls b.assignments) ∧
    ∀ e k, k ∈ dictKeys b [] e ↔ Reaches b [] e k :=
  ⟨wellFounded_calls b.assignments, fun _ _ => mem_dictKeys⟩

example : dictKeys
  ⟨[("a", .name "b"), ("b", .dict [(none, .name "a"), (some (.str "loss"), .str "x")])],
    [], none⟩ [] (.name "a") = ["loss"] := by
  simp [dictKeys, List.attach, List.attachWith, List.pmap, List.lookup_cons]

end Glasslab.Methodology.Static
