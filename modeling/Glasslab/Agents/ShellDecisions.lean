import Glasslab.Agents.ShellPolicy

/-!
# What the shell policy decides

An allowed command is an entry of the safe lists, alone or followed by a space and arguments
that mention none of `containedWords`; for the drafting agent it begins with none of
`honeydewStarts` (`shell_policy_exact`). The same reading of the directory map opens the run's own
directories, by the beginning of a path, and nothing else (`external_directories_exact`).

Three facts about the tables carry the proof: no two safe commands have a text in common, no
denied pattern has a text in common with a safe command unless it starts with a star, and a star
sorts before every safe command.
-/

namespace Glasslab.Agents

open Foundation List

def safeCommands : List String := safeBashCommands ++ safeGitSubcommands

def containedWords : List String := ["secret", "/dev/tcp", "/proc", "/etc/glasslab"]

def honeydewStarts : List String := ["git commit", "git checkout", "git switch"]

/-- A safe command alone, or followed by a space. -/
def Invokes (command text : String) : Prop :=
  text = command ∨ ∃ arguments, text = command ++ " " ++ arguments

def Contained (command text : String) : Prop :=
  ∃ arguments, text = command ++ " " ++ arguments ∧
    ∃ word ∈ containedWords, word.toList <:+: arguments.toList

def assignments (agent : AgentName) : Rules :=
  [("*", .deny)] ++ deniedBashCommands.map (·, .deny) ++ safeCommands.flatMap safeCommandRules ++
    if agent = .honeydew then honeydewStarts.map (· ++ "*", .deny) else []

theorem bashPermissionRules_eq (agent : AgentName) :
    bashPermissionRules true agent = Dict.merge [] (assignments agent) := by
  have hSet : ∀ (patterns : List String) (rules : Rules),
      patterns.foldl (fun rules pattern => Dict.set pattern .deny rules) rules =
        Dict.merge rules (patterns.map (·, .deny)) := by
    intro patterns rules
    rw [Dict.merge, foldl_map]
  have hMerge : ∀ (commands : List String) (rules : Rules),
      commands.foldl (fun rules command => Dict.merge rules (safeCommandRules command)) rules =
        Dict.merge rules (commands.flatMap safeCommandRules) := by
    intro commands rules
    rw [Dict.merge, foldl_flatMap]
    rfl
  have hAppend : ∀ rules more less : Rules,
      Dict.merge rules (more ++ less) = Dict.merge (Dict.merge rules more) less := by
    intro rules more less
    exact foldl_append
  have hNil : ∀ rules : Rules, Dict.merge rules [] = rules := fun _ => rfl
  have hStart : Dict.merge [] [("*", Permission.deny)] = [("*", .deny)] := rfl
  have hHoneydew : honeydewExtraDeniedShell.map Prod.fst = honeydewStarts.map (· ++ "*") := by
    decide
  rw [assignments, hAppend, hAppend, hAppend, hStart, bashPermissionRules]
  simp only [Bool.not_true, Bool.false_eq_true, if_false, hSet, hMerge, hHoneydew, map_map,
    safeCommands, Function.comp_def]
  by_cases hAgent : agent = .honeydew
  · rw [if_pos hAgent, if_pos hAgent]
  · rw [if_neg hAgent, if_neg hAgent, hNil]

private theorem toString_string (s : String) : toString s = s := rfl

theorem allow_mem_assignments :
    (pattern, .allow) ∈ assignments agent ↔
      ∃ command ∈ safeCommands, pattern = command ∨ pattern = command ++ " *" := by
  have hHoneydew : (pattern, Permission.allow) ∉
      if agent = .honeydew then honeydewStarts.map (· ++ "*", Permission.deny) else [] := by
    split <;> simp
  simp only [assignments, mem_append, hHoneydew, or_false, mem_singleton, Prod.mk.injEq,
    reduceCtorEq, and_false, mem_map, exists_false, false_or, mem_flatMap]
  simp [safeCommandRules, toString_string]

theorem deny_mem_assignments :
    (pattern, .deny) ∈ assignments agent ↔
      pattern = "*" ∨ pattern ∈ deniedBashCommands ∨
      (∃ command ∈ safeCommands, ∃ word ∈ containedWords,
        pattern = command ++ " *" ++ word ++ "*") ∨
      agent = .honeydew ∧ ∃ start ∈ honeydewStarts, pattern = start ++ "*" := by
  have hHoneydew : ((pattern, Permission.deny) ∈
      if agent = .honeydew then honeydewStarts.map (· ++ "*", Permission.deny) else []) ↔
        agent = .honeydew ∧ ∃ start ∈ honeydewStarts, pattern = start ++ "*" := by
    split
    next h =>
      simp [h, eq_comm]
    next h =>
      simp [h]
  simp only [assignments, mem_append, hHoneydew, mem_singleton, Prod.mk.injEq, and_true,
    mem_map, exists_eq_right, mem_flatMap, or_assoc]
  simp [safeCommandRules, containedWords, String.append_assoc, toString_string]

/-! ## What the patterns match -/

variable {agent : AgentName} {command command' text word start pattern : String}

/-- What the tables have in common, as texts that start alike, and where stars are in them. -/
theorem tables_apart :
    (∀ text ∈ safeCommands ++ containedWords ++ honeydewStarts, '*' ∉ text.toList) ∧
    (safeCommands.all fun command => safeCommands.all fun command' => command == command' ||
      Pattern.apart (command.toList ++ [' ']) (command'.toList ++ [' '])) = true ∧
    (deniedBashCommands.all fun pattern =>
      pattern.toList.head? == some '*' || safeCommands.all fun command =>
        Pattern.apart (Pattern.stem '*' pattern.toList) (command.toList ++ [' '])) = true ∧
    safeCommands.all (fun command => command.toList.head?.any ('*' < ·)) = true ∧
    (honeydewStarts.all fun start => safeCommands.all fun command =>
      command ++ " *" < start ++ "*" ||
        Pattern.apart start.toList (command.toList ++ [' '])) = true := by
  decide +kernel

section

variable (h : command ∈ safeCommands)
include h

theorem star_not_mem_safe : '*' ∉ command.toList :=
  tables_apart.1 command (mem_append_left _ (mem_append_left _ h))

theorem matches_command :
    patternMatches text command ↔ text = command := by
  rw [patternMatches, Pattern.fits_literal (star_not_mem_safe h), String.toList_inj]

theorem matches_arguments :
    patternMatches text (command ++ " *") ↔ ∃ arguments, text = command ++ " " ++ arguments := by
  have hStar : '*' ∉ command.toList ++ [' '] := by simp [star_not_mem_safe h]
  have hSpell : (command ++ " *").toList = command.toList ++ [' '] ++ ['*'] := by simp
  rw [patternMatches, hSpell, Pattern.fits_prefix_iff hStar]
  constructor
  · rintro ⟨arguments, hText⟩
    refine ⟨String.ofList arguments, String.toList_inj.mp ?_⟩
    simp [← hText]
  · rintro ⟨arguments, rfl⟩
    exact ⟨arguments.toList, by simp⟩

theorem matches_contained (hWord : word ∈ containedWords) :
    patternMatches text (command ++ " *" ++ word ++ "*") ↔
      ∃ arguments, text = command ++ " " ++ arguments ∧ word.toList <:+: arguments.toList := by
  have hStar : '*' ∉ command.toList ++ [' '] := by simp [star_not_mem_safe h]
  have hWordStar : '*' ∉ word.toList :=
    tables_apart.1 word (mem_append_left _ (mem_append_right _ hWord))
  have hSpell : (command ++ " *" ++ word ++ "*").toList =
      command.toList ++ [' '] ++ ('*' :: (word.toList ++ ['*'])) := by simp
  rw [patternMatches, hSpell, Pattern.fits_append hStar]
  constructor
  · rintro ⟨arguments, hText, hFits⟩
    refine ⟨String.ofList arguments, String.toList_inj.mp ?_, ?_⟩
    · simp [hText]
    · simpa using (Pattern.fits_infix_iff hWordStar).mp hFits
  · rintro ⟨arguments, rfl, hInfix⟩
    exact ⟨arguments.toList, by simp, (Pattern.fits_infix_iff hWordStar).mpr hInfix⟩

end

theorem matches_start (h : start ∈ honeydewStarts) :
    patternMatches text (start ++ "*") ↔ start.toList <+: text.toList := by
  have hStar : '*' ∉ start.toList := tables_apart.1 start (mem_append_right _ h)
  have hSpell : (start ++ "*").toList = start.toList ++ ['*'] := by simp
  rw [patternMatches, hSpell, Pattern.fits_prefix_iff hStar]

theorem invokes_of_allow (h : command ∈ safeCommands)
    (hPattern : pattern = command ∨ pattern = command ++ " *")
    (hMatches : patternMatches text pattern) : Invokes command text := by
  rcases hPattern with rfl | rfl
  · exact .inl ((matches_command h).mp hMatches)
  · exact .inr ((matches_arguments h).mp hMatches)

/-- With a space at its end, an invocation begins with the command and a space. -/
theorem Invokes.begins (h : Invokes command text) :
    command.toList ++ [' '] <+: text.toList ++ [' '] := by
  rcases h with rfl | ⟨arguments, rfl⟩
  · exact prefix_refl _
  · exact ⟨arguments.toList ++ [' '], by simp⟩

theorem Invokes.unique (hMem : command ∈ safeCommands) (hMem' : command' ∈ safeCommands)
    (h : Invokes command text) (h' : Invokes command' text) : command = command' := by
  obtain ⟨-, hApart, -⟩ := tables_apart
  have hPair := all_eq_true.mp (all_eq_true.mp hApart command hMem) command' hMem'
  rw [Pattern.apart_of_prefix h.begins h'.begins, Bool.or_false] at hPair
  exact eq_of_beq hPair

theorem star_of_denied (hMem : command ∈ safeCommands) (h : Invokes command text)
    (hPattern : pattern ∈ deniedBashCommands) (hMatches : patternMatches text pattern) :
    pattern.toList.head? = some '*' := by
  obtain ⟨-, -, hApart, -⟩ := tables_apart
  have hStem : Pattern.stem '*' pattern.toList <+: text.toList ++ [' '] :=
    (Pattern.stem_prefix hMatches).trans (prefix_append _ _)
  rcases Bool.or_eq_true_iff.mp (all_eq_true.mp hApart pattern hPattern) with hStar | hAll
  · exact eq_of_beq hStar
  · have hPair := all_eq_true.mp hAll command hMem
    rw [Pattern.apart_of_prefix hStem h.begins] at hPair
    cases hPair

theorem lt_append {s t : String} (h : t ≠ "") : s < s ++ t := by
  rw [String.lt_iff_toList_lt, String.toList_append]
  have hLt : s.toList ++ [] < s.toList ++ t.toList := by
    apply append_left_lt
    cases hList : t.toList with
    | nil => exact absurd (String.toList_eq_nil_iff.mp hList) h
    | cons a l => exact nil_lt_cons a l
  simpa using hLt

/-- An allow of a safe command sorts before the denies that contain the command. -/
theorem allow_lt_contained (hPattern : pattern = command ∨ pattern = command ++ " *") :
    pattern < command ++ " *" ++ word ++ "*" := by
  have hNe : word ++ "*" ≠ "" := by simp
  have hArguments : command ++ " *" < command ++ " *" ++ word ++ "*" := by
    rw [String.append_assoc]
    exact lt_append hNe
  rcases hPattern with rfl | rfl
  · exact (lt_append (by decide)).trans hArguments
  · exact hArguments

theorem star_lt_allow (hMem : command ∈ safeCommands)
    (hPattern : pattern = command ∨ pattern = command ++ " *") {starred : String}
    (hStar : starred.toList.head? = some '*') : starred < pattern := by
  obtain ⟨-, -, -, hHeads, -⟩ := tables_apart
  obtain ⟨a, hHead, hLt⟩ := (Option.any_eq_true _ _).mp (all_eq_true.mp hHeads command hMem)
  replace hLt := of_decide_eq_true hLt
  obtain ⟨l, hStarred⟩ := List.head?_eq_some_iff.mp hStar
  obtain ⟨m, hCommand⟩ := List.head?_eq_some_iff.mp hHead
  rw [String.lt_iff_toList_lt, hStarred]
  rcases hPattern with rfl | rfl
  · rw [hCommand]
    exact List.Lex.rel hLt
  · rw [String.toList_append, hCommand]
    exact List.Lex.rel hLt

/-- Where a text begins as the drafting agent's texts may not, its allows sort first. -/
theorem allow_lt_start (hMem : command ∈ safeCommands)
    (hPattern : pattern = command ∨ pattern = command ++ " *") (hStart : start ∈ honeydewStarts)
    (h : Invokes command text) (hBegins : start.toList <+: text.toList) :
    pattern < start ++ "*" := by
  obtain ⟨-, -, -, -, hTable⟩ := tables_apart
  have hPair := all_eq_true.mp (all_eq_true.mp hTable start hStart) command hMem
  rw [Pattern.apart_of_prefix (hBegins.trans (prefix_append _ _)) h.begins, Bool.or_false,
    decide_eq_true_eq] at hPair
  rcases hPattern with rfl | rfl
  · exact (lt_append (by decide)).trans hPair
  · exact hPair

/-! ## The decisions -/

theorem evaluate_deny (hRule : (pattern, .deny) ∈ assignments agent)
    (hMatches : patternMatches text pattern)
    (hBefore : ∀ allowed,
    (∃ command ∈ safeCommands, allowed = command ∨ allowed = command ++ " *") →
      patternMatches text allowed → allowed < pattern) :
    evaluate (bashPermissionRules true agent) text = some .deny := by
  rw [evaluate, bashPermissionRules_eq]
  refine Pattern.lastMatch_merge hRule hMatches ?_
  rintro allowed (_ | _) hMem hApplies hNe
  · exact hBefore allowed (allow_mem_assignments.mp hMem) hApplies
  · exact absurd rfl hNe

theorem evaluate_allow (hRule : (pattern, .allow) ∈ assignments agent)
    (hMatches : patternMatches text pattern)
    (hBefore : ∀ denied, (denied, .deny) ∈ assignments agent →
      patternMatches text denied → denied < pattern) :
    evaluate (bashPermissionRules true agent) text = some .allow := by
  rw [evaluate, bashPermissionRules_eq]
  refine Pattern.lastMatch_merge hRule hMatches ?_
  rintro denied (_ | _) hMem hApplies hNe
  · exact absurd rfl hNe
  · exact hBefore denied hMem hApplies

theorem deny_of_not_invokes (h : ∀ command ∈ safeCommands, ¬ Invokes command text) :
    evaluate (bashPermissionRules true agent) text = some .deny := by
  refine evaluate_deny (deny_mem_assignments.mpr (.inl rfl)) Pattern.fits_all ?_
  rintro allowed ⟨command, hMem, hPattern⟩ hApplies
  exact absurd (invokes_of_allow hMem hPattern hApplies) (h command hMem)

theorem deny_of_contained (hMem : command ∈ safeCommands) (h : Contained command text) :
    evaluate (bashPermissionRules true agent) text = some .deny := by
  obtain ⟨arguments, hText, word, hWord, hInfix⟩ := h
  have hRule : (command ++ " *" ++ word ++ "*", .deny) ∈ assignments agent :=
    deny_mem_assignments.mpr (.inr (.inr (.inl ⟨command, hMem, word, hWord, rfl⟩)))
  refine evaluate_deny hRule ((matches_contained hMem hWord).mpr ⟨arguments, hText, hInfix⟩) ?_
  rintro allowed ⟨command', hMem', hPattern⟩ hApplies
  obtain rfl := Invokes.unique hMem hMem' (.inr ⟨arguments, hText⟩)
    (invokes_of_allow hMem' hPattern hApplies)
  exact allow_lt_contained hPattern

theorem deny_of_start (hStart : start ∈ honeydewStarts) (h : start.toList <+: text.toList) :
    evaluate (bashPermissionRules true .honeydew) text = some .deny := by
  have hRule : (start ++ "*", .deny) ∈ assignments .honeydew :=
    deny_mem_assignments.mpr (.inr (.inr (.inr ⟨rfl, start, hStart, rfl⟩)))
  refine evaluate_deny hRule ((matches_start hStart).mpr h) ?_
  rintro allowed ⟨command, hMem, hPattern⟩ hApplies
  exact allow_lt_start hMem hPattern hStart (invokes_of_allow hMem hPattern hApplies) h

/-- Of what denies an invocation without contained words, only patterns with a leading star
match it. -/
theorem allow_of_invokes (hMem : command ∈ safeCommands) (h : Invokes command text)
    (hContained : ¬ Contained command text)
    (hStarts : agent = .honeydew → ∀ start ∈ honeydewStarts, ¬ start.toList <+: text.toList) :
    evaluate (bashPermissionRules true agent) text = some .allow := by
  obtain ⟨pattern, hPattern, hMatches⟩ :
    ∃ pattern, (pattern = command ∨ pattern = command ++ " *") ∧
      patternMatches text pattern := by
    rcases h with hText | hArguments
    · exact ⟨command, .inl rfl, (matches_command hMem).mpr hText⟩
    · exact ⟨command ++ " *", .inr rfl, (matches_arguments hMem).mpr hArguments⟩
  have hRule : (pattern, .allow) ∈ assignments agent :=
    allow_mem_assignments.mpr ⟨command, hMem, hPattern⟩
  refine evaluate_allow hRule hMatches ?_
  intro denied hDenied hApplies
  rcases deny_mem_assignments.mp hDenied with rfl | hTable | ⟨command', hMem', word, hWord, rfl⟩ |
    ⟨hAgent, start, hStart, rfl⟩
  · exact star_lt_allow hMem hPattern (by decide)
  · exact star_lt_allow hMem hPattern (star_of_denied hMem h hTable hApplies)
  · obtain ⟨arguments, hText, hInfix⟩ := (matches_contained hMem' hWord).mp hApplies
    obtain rfl := Invokes.unique hMem hMem' h (.inr ⟨arguments, hText⟩)
    exact absurd ⟨arguments, hText, word, hWord, hInfix⟩ hContained
  · exact absurd ((matches_start hStart).mp hApplies) (hStarts hAgent start hStart)

def Permitted (agent : AgentName) (text : String) : Prop :=
  (∃ command ∈ safeBashCommands ++ safeGitSubcommands,
    text = command ∨ ∃ arguments, text = command ++ " " ++ arguments ∧
      ∀ word ∈ ["secret", "/dev/tcp", "/proc", "/etc/glasslab"],
        ¬ word.toList <:+: arguments.toList) ∧
  (agent = .honeydew → ∀ start ∈ ["git commit", "git checkout", "git switch"],
    ¬ start.toList <+: text.toList)

theorem permitted_iff :
    Permitted agent text ↔
      (∃ command ∈ safeCommands, Invokes command text ∧ ¬ Contained command text) ∧
      (agent = .honeydew → ∀ start ∈ honeydewStarts, ¬ start.toList <+: text.toList) := by
  refine and_congr_left' (exists_congr fun command => and_congr_right fun _ => ?_)
  constructor
  · rintro (rfl | ⟨arguments, rfl, hWords⟩)
    · refine ⟨.inl rfl, ?_⟩
      rintro ⟨arguments, hText, -⟩
      have hLength := congrArg (List.length ∘ String.toList) hText
      simp at hLength
    · refine ⟨.inr ⟨arguments, rfl⟩, ?_⟩
      rintro ⟨arguments', hText, word, hWord, hInfix⟩
      have hEq : arguments.toList = arguments'.toList := by
        simpa using congrArg String.toList hText
      exact hWords word hWord (hEq ▸ hInfix)
  · rintro ⟨rfl | ⟨arguments, rfl⟩, hContained⟩
    · exact .inl rfl
    · exact .inr ⟨arguments, rfl, fun word hWord hInfix =>
        hContained ⟨arguments, rfl, word, hWord, hInfix⟩⟩

/-- Over every command text, the map allows what the policy documents and denies the rest. -/
theorem shell_policy_exact (agent : AgentName) (text : String) :
    evaluate (bashPermissionRules true agent) text = some .allow ↔ Permitted agent text := by
  rw [permitted_iff]
  constructor
  · intro hAllow
    have hNotDenied : evaluate (bashPermissionRules true agent) text ≠ some .deny := by
      rw [hAllow]
      nofun
    constructor
    · by_contra hNone
      push Not at hNone
      by_cases hInvokes : ∃ command ∈ safeCommands, Invokes command text
      · obtain ⟨command, hMem, h⟩ := hInvokes
        exact hNotDenied (deny_of_contained hMem (hNone command hMem h))
      · push Not at hInvokes
        exact hNotDenied (deny_of_not_invokes hInvokes)
    · rintro rfl start hStart hBegins
      exact hNotDenied (deny_of_start hStart hBegins)
  · rintro ⟨⟨command, hMem, hInvokes, hContained⟩, hStarts⟩
    exact allow_of_invokes hMem hInvokes hContained hStarts

theorem matches_directory {root name path : String} (hRoot : '*' ∉ root.toList)
    (hName : name ∈ runDirectories) :
    patternMatches path s!"{root}/{name}/*" ↔ ∃ file, path = s!"{root}/{name}/" ++ file := by
  have hNames : ∀ name ∈ runDirectories, '*' ∉ name.toList := by decide +kernel
  have hStar : '*' ∉ s!"{root}/{name}/".toList := by
    simp [toString_string, hRoot, hNames name hName]
  have hSpell : s!"{root}/{name}/*".toList = s!"{root}/{name}/".toList ++ ['*'] := by
    simp [toString_string]
  rw [patternMatches, hSpell, Pattern.fits_prefix_iff hStar]
  constructor
  · rintro ⟨file, hPath⟩
    refine ⟨String.ofList file, String.toList_inj.mp ?_⟩
    rw [String.toList_append, String.toList_ofList, hPath]
  · rintro ⟨file, rfl⟩
    exact ⟨file.toList, String.toList_append.symm⟩

/-- Under an absolute run root the map opens the paths that begin with one of the run's durable
directories; a `..` behind it is not resolved. -/
theorem external_directories_exact {root : String} (hAbsolute : root.toList.head? = some '/')
    (hRoot : '*' ∉ root.toList) (path : String) :
    evaluate (externalDirectories (some root)) path = some .allow ↔
      ∃ name ∈ runDirectories, ∃ file, path = s!"{root}/{name}/" ++ file := by
  have hRules : externalDirectories (some root) = Dict.merge []
      (("*", .deny) :: runDirectories.map fun name => (s!"{root}/{name}/*", .allow)) := rfl
  rw [evaluate, hRules]
  by_cases hOpen : ∃ name ∈ runDirectories, ∃ file, path = s!"{root}/{name}/" ++ file
  · refine iff_of_true ?_ hOpen
    obtain ⟨name, hName, hFile⟩ := hOpen
    have hRule : (s!"{root}/{name}/*", Permission.allow) ∈
        ("*", .deny) :: runDirectories.map fun name => (s!"{root}/{name}/*", .allow) :=
      mem_cons_of_mem _ (mem_map_of_mem hName)
    refine Pattern.lastMatch_merge hRule ((matches_directory hRoot hName).mpr hFile) ?_
    rintro pattern permission hMem - hNe
    rcases mem_cons.mp hMem with hCatchAll | hAllow
    · cases hCatchAll
      obtain ⟨rest, hRest⟩ := List.head?_eq_some_iff.mp hAbsolute
      rw [String.lt_iff_toList_lt]
      simp only [toString_string, String.toList_append, hRest]
      exact List.Lex.rel (by decide)
    · obtain ⟨other, -, hOther⟩ := mem_map.mp hAllow
      cases hOther
      exact absurd rfl hNe
  · refine iff_of_false ?_ hOpen
    have hDeny : Pattern.lastMatch (patternMatches path) (sortOn Prod.fst (Dict.merge []
        (("*", .deny) :: runDirectories.map fun name => (s!"{root}/{name}/*", .allow)))) =
          some Permission.deny := by
      refine Pattern.lastMatch_merge mem_cons_self Pattern.fits_all ?_
      rintro pattern permission hMem hApplies hNe
      rcases mem_cons.mp hMem with hCatchAll | hAllow
      · cases hCatchAll
        exact absurd rfl hNe
      · obtain ⟨name, hName, hRule⟩ := mem_map.mp hAllow
        cases hRule
        exact absurd ⟨name, hName, (matches_directory hRoot hName).mp hApplies⟩ hOpen
    rw [hDeny]
    nofun

theorem external_directories_exact_report :
    evaluate (externalDirectories (some "/runs/r1")) "/runs/r1/reports/table.csv" = some .allow :=
  (external_directories_exact (by decide) (by decide) _).mpr
    ⟨"reports", by decide, "table.csv", rfl⟩

end Glasslab.Agents
