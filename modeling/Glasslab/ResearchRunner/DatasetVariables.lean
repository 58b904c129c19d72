import Glasslab.ResearchRunner.DatasetBindings

/-!
# The variables of the datasets

Each resolved binding is given to the command in two variables that are made from its name, in the
environment that the runner itself was given. The runner refuses names that become one name, but not
a variable that is there already, nor one of the first kind that is one of the second kind for
another name. The variables are unambiguous exactly if no two of them have one name
(`unambiguous_iff`).
-/

namespace Glasslab.ResearchRunner

open Foundation Foundation.Dict

/-- `str.upper` and `str.isalnum`. -/
structure Letters where
  upper : String → String
  isAlnum : Char → Bool

section Variables

variable (letters : Letters)

def Letters.normalizedName (name : String) : String :=
  String.ofList
    ((letters.upper name).toList.map fun char => if letters.isAlnum char then char else '_')

def Letters.datasetVariable (name : String) : String :=
  "GLASSLAB_DATASET_" ++ letters.normalizedName name

def Letters.pathVariable (name : String) : String := letters.normalizedName name ++ "_PATH"

/-- The state of the loop over the bindings. -/
structure Exposed where
  normalizedBindings : List (String × String)
  processEnv : List (String × String)

def exposeBinding (s : Exposed) (binding : String × String) : Except RunnerError Exposed :=
  match s.normalizedBindings.lookup (letters.normalizedName binding.1) with
  | some previous => .error (.valueError
      ("dataset binding names collide after environment normalization: " ++ previous ++ ", " ++
        binding.1))
  | none => .ok {
      normalizedBindings := set (letters.normalizedName binding.1) binding.1 s.normalizedBindings
      processEnv := set (letters.pathVariable binding.1) binding.2
        (set (letters.datasetVariable binding.1) binding.2 s.processEnv) }

/-- What the command inherits, and what the runner sets. -/
def givenVariables (dumps : List (String × String) → String) (env : List (String × String))
    (taskDir sourceDir runRoot : String) (resolvedBindings : List (String × String)) :
    List (String × String) :=
  merge env [("GLASSLAB_TASK_DIR", taskDir), ("GLASSLAB_SOURCE_DIR", sourceDir),
    ("GLASSLAB_OUTPUT_DIR", runRoot), ("GLASSLAB_DATASET_BINDINGS_JSON", dumps resolvedBindings)]

/-- `process_env` of `run_from_environment`. -/
def processEnv (given resolvedBindings : List (String × String)) :
    Except RunnerError (List (String × String)) :=
  Exposed.processEnv <$> resolvedBindings.foldlM (exposeBinding letters) ⟨[], given⟩

/-- The variables of the bindings, in the order in which they are set. -/
def bindingVariables (bindings : List (String × String)) : List (String × String) :=
  bindings.flatMap fun binding =>
    [(letters.datasetVariable binding.1, binding.2), (letters.pathVariable binding.1, binding.2)]

variable {letters} {s s' : Exposed} {bindings given env : List (String × String)}
  {key value : String} {binding : String × String}

theorem foldlM_exposeBinding (h : bindings.foldlM (exposeBinding letters) s = .ok s') :
    s'.processEnv = merge s.processEnv (bindingVariables letters bindings) ∧
      (bindings.map fun binding => letters.normalizedName binding.1).Nodup ∧
      ∀ binding ∈ bindings, s.normalizedBindings.lookup (letters.normalizedName binding.1) =
    none := by
  induction bindings generalizing s with
  | nil =>
    cases h
    exact ⟨rfl, List.nodup_nil, nofun⟩
  | cons binding rest ih =>
    rw [List.foldlM_cons, exposeBinding] at h
    split at h
    next => cases h
    next hFree =>
      obtain ⟨hEnv, hNodup, hRest⟩ := ih h
      have hOther : ∀ other ∈ rest,
          letters.normalizedName other.1 ≠ letters.normalizedName binding.1 ∧
            s.normalizedBindings.lookup (letters.normalizedName other.1) = none := by
        intro other hMem
        have hHere := hRest other hMem
        rw [lookup_set] at hHere
        split at hHere
        next => cases hHere
        next hNe => exact ⟨hNe, hHere⟩
      refine ⟨hEnv, List.nodup_cons.mpr ⟨?_, hNodup⟩, List.forall_mem_cons.mpr ⟨hFree, ?_⟩⟩
      · intro hMem
        obtain ⟨other, hOtherMem, hEq⟩ := List.mem_map.mp hMem
        exact (hOther other hOtherMem).1 hEq
      · intro other hMem
        exact (hOther other hMem).2

theorem mem_bindingVariables : (key, value) ∈ bindingVariables letters bindings ↔
    ∃ name, (name, value) ∈ bindings ∧
      (key = letters.datasetVariable name ∨ key = letters.pathVariable name) := by
  rw [bindingVariables, List.mem_flatMap]
  constructor
  · rintro ⟨⟨name, path⟩, hMem, h⟩
    simp only [List.mem_cons, Prod.mk.injEq, List.not_mem_nil, or_false] at h
    rcases h with ⟨rfl, rfl⟩ | ⟨rfl, rfl⟩
    · exact ⟨name, hMem, .inl rfl⟩
    · exact ⟨name, hMem, .inr rfl⟩
  · rintro ⟨name, hMem, rfl | rfl⟩
    · exact ⟨(name, value), hMem, by simp⟩
    · exact ⟨(name, value), hMem, by simp⟩

/-- Every variable holds the path of its own binding, and nothing that was given is replaced. -/
structure Unambiguous (letters : Letters)
    (given bindings env : List (String × String)) : Prop where
  dataset : ∀ name path, (name, path) ∈ bindings →
    env.lookup (letters.datasetVariable name) = some path
  path : ∀ name path, (name, path) ∈ bindings →
    env.lookup (letters.pathVariable name) = some path
  kept : ∀ key value, given.lookup key = some value → env.lookup key = some value

/-- No variable of a binding is there with another value, or is one of the other kind of another
binding, with another path. -/
structure NamesApart (letters : Letters)
    (given bindings : List (String × String)) : Prop where
  given : ∀ name path, (name, path) ∈ bindings → ∀ value,
    (given.lookup (letters.datasetVariable name) = some value ∨
      given.lookup (letters.pathVariable name) = some value) → value = path
  kinds : ∀ name path name' path', (name, path) ∈ bindings → (name', path') ∈ bindings →
    letters.datasetVariable name = letters.pathVariable name' → path = path'

theorem NamesApart.value_eq (h : NamesApart letters given bindings)
    (hNodup : (bindings.map fun binding => letters.normalizedName binding.1).Nodup)
    {value' : String} (hMem : (key, value) ∈ bindingVariables letters bindings)
    (hMem' : (key, value') ∈ bindingVariables letters bindings) : value' = value := by
  have hSame {name name' : String} (hBinding : (name, value) ∈ bindings)
      (hBinding' : (name', value') ∈ bindings)
      (hName : letters.normalizedName name = letters.normalizedName name') :
      value' = value := by
    have hEq := List.inj_on_of_nodup_map hNodup hBinding hBinding' hName
    exact (Prod.mk.inj hEq).2.symm
  obtain ⟨name, hBinding, rfl | rfl⟩ := mem_bindingVariables.mp hMem
  · obtain ⟨name', hBinding', hKey | hKey⟩ := mem_bindingVariables.mp hMem'
    · exact hSame hBinding hBinding' ((String.append_right_inj _).mp hKey)
    · exact (h.kinds name value name' value' hBinding hBinding' hKey).symm
  · obtain ⟨name', hBinding', hKey | hKey⟩ := mem_bindingVariables.mp hMem'
    · exact h.kinds name' value' name value hBinding' hBinding hKey.symm
    · exact hSame hBinding hBinding' ((String.append_left_inj _).mp hKey)

/-- The variables of the bindings are unambiguous just if their names are apart. -/
theorem unambiguous_iff (h : processEnv letters given bindings = .ok env) :
    Unambiguous letters given bindings env ↔ NamesApart letters given bindings := by
  obtain ⟨s, hLoop, rfl⟩ : ∃ s, bindings.foldlM (exposeBinding letters) ⟨[], given⟩ = .ok s ∧
      s.processEnv = env := by
    unfold processEnv at h
    cases hLoop : bindings.foldlM (exposeBinding letters) ⟨[], given⟩ with
    | error error =>
      rw [hLoop] at h
      cases h
    | ok s =>
      rw [hLoop] at h
      exact ⟨s, rfl, Except.ok.inj h⟩
  obtain ⟨hEnv, hNodup, -⟩ := foldlM_exposeBinding hLoop
  rw [hEnv]
  constructor
  · intro hUnambiguous
    constructor
    · rintro name path hMem value (hGiven | hGiven)
      · have hKept := hUnambiguous.kept _ value hGiven
        rw [hUnambiguous.dataset name path hMem] at hKept
        exact (Option.some.inj hKept).symm
      · have hKept := hUnambiguous.kept _ value hGiven
        rw [hUnambiguous.path name path hMem] at hKept
        exact (Option.some.inj hKept).symm
    · intro name path name' path' hMem hMem' hEq
      have hPath := hUnambiguous.path name' path' hMem'
      rw [← hEq, hUnambiguous.dataset name path hMem] at hPath
      exact Option.some.inj hPath
  · intro hApart
    have hOwn {key path : String} (hMem : (key, path) ∈ bindingVariables letters bindings) :
        (merge given (bindingVariables letters bindings)).lookup key = some path := by
      apply lookup_merge_of_mem hMem
      intro other hOther
      exact hApart.value_eq hNodup hMem hOther
    constructor
    · intro name path hMem
      exact hOwn (mem_bindingVariables.mpr ⟨name, hMem, .inl rfl⟩)
    · intro name path hMem
      exact hOwn (mem_bindingVariables.mpr ⟨name, hMem, .inr rfl⟩)
    · intro key value hGiven
      apply lookup_merge_of_forall hGiven
      intro path hMem
      obtain ⟨name, hBinding, rfl | rfl⟩ := mem_bindingVariables.mp hMem
      · exact (hApart.given name path hBinding value (.inl hGiven)).symm
      · exact (hApart.given name path hBinding value (.inr hGiven)).symm

end Variables

def asciiLetters : Letters := ⟨String.toUpper, Char.isAlphanum⟩

/-- The variables that the platform and the runner set. -/
def givenFor (bindings : List (String × String)) : List (String × String) :=
  givenVariables (fun _ => "\x7b\x7d") [("GLASSLAB_DATASET_ROOT", "/mnt/datasets")] "/task" "/task"
    "/outputs" bindings

def trainAndTest : List (String × String) :=
  [("train-set", "/mnt/datasets/a.csv"), ("test.v1", "/mnt/datasets/b.csv")]

theorem unambiguous_trainAndTest : ∃ env,
    processEnv asciiLetters (givenFor trainAndTest) trainAndTest = .ok env ∧
      Unambiguous asciiLetters (givenFor trainAndTest) trainAndTest env := by
  have hFree : ∀ binding ∈ trainAndTest,
      (givenFor trainAndTest).lookup (asciiLetters.datasetVariable binding.1) = none ∧
        (givenFor trainAndTest).lookup (asciiLetters.pathVariable binding.1) = none := by
    decide +kernel
  have hKinds : ∀ binding ∈ trainAndTest, ∀ other ∈ trainAndTest,
      asciiLetters.datasetVariable binding.1 ≠ asciiLetters.pathVariable other.1 := by
    decide +kernel
  obtain ⟨env, hEnv⟩ : ∃ env,
      processEnv asciiLetters (givenFor trainAndTest) trainAndTest = .ok env := by
    have hReturns : (processEnv asciiLetters (givenFor trainAndTest) trainAndTest).isOk = true := by
      decide +kernel
    generalize processEnv asciiLetters (givenFor trainAndTest) trainAndTest = result at hReturns ⊢
    cases result with
    | error error => cases hReturns
    | ok env => exact ⟨env, rfl⟩
  refine ⟨env, hEnv, (unambiguous_iff hEnv).mpr ⟨?_, ?_⟩⟩
  · rintro name path hMem value (hGiven | hGiven)
    · exact absurd ((hFree _ hMem).1.symm.trans hGiven) (Option.some_ne_none _).symm
    · exact absurd ((hFree _ hMem).2.symm.trans hGiven) (Option.some_ne_none _).symm
  · intro name path name' path' hMem hMem' hEq
    exact (hKinds (name, path) hMem (name', path') hMem' hEq).elim

/-- The mount of the datasets gives way to a dataset. -/
theorem root_replaced : ∃ env,
    processEnv asciiLetters (givenFor [("root", "/mnt/datasets/a.csv")])
        [("root", "/mnt/datasets/a.csv")] = .ok env ∧
      ¬ Unambiguous asciiLetters (givenFor [("root", "/mnt/datasets/a.csv")])
        [("root", "/mnt/datasets/a.csv")] env := by
  refine ⟨_, rfl, fun h => ?_⟩
  have hRoot := h.kept "GLASSLAB_DATASET_ROOT" "/mnt/datasets" (by decide +kernel)
  revert hRoot
  decide +kernel

end Glasslab.ResearchRunner
