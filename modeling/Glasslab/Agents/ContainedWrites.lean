import Glasslab.Agents.WorkspaceFiles

/-!
# When declared files stay in the workspace

Three things are expected of the declared writes: they never abort the turn, they touch nothing
outside the workspace, and the output keeps exactly the actions that were not carried out.

`mkdir` follows links before anything is checked, and it fails where a file or a dangling link is
in the way; a path that is no string may not even be looked up. `Writes` says what a request may
find in the workspace so that none of this happens, and what it does then. The expectations are met
exactly by the requests that find it so, one after the other (`contained_writes_iff`).
-/

namespace Glasslab.Agents

open Foundation LinkedTree List Option Raising

variable {Num : Type}

section Calls

variable {dir : Workdir String} {tree tree' : Workspace} {front rest place : List String}
  {name : String} {content : Text}

theorem onDisk_eq_ok_iff {α : Type} {x : Except Errno α} {a : α} :
    onDisk x = .ok a ↔ x = .ok a := by
  cases x with
  | error e => simp [onDisk, Except.mapError]
  | ok b => simp [onDisk, Except.mapError]

theorem isSymlink_eq_ok_iff {found : Bool} (hLead : dir.lead tree front = .ok place) :
    isSymlink dir tree front name = .ok found ↔ dir.tooLong (front ++ [name]) = false ∧
      (found = true ↔ ∃ absolute target, tree.node (place ++ [name]) =
    some (.link absolute target)) := by
  rw [isSymlink, hLead]
  cases dir.tooLong (front ++ [name]) with
  | true => simp
  | false =>
    cases hNode : tree.node (place ++ [name]) with
    | none => cases found <;> simp [hNode]
    | some node => cases node <;> cases found <;> simp [hNode]

/-- Nothing stands at the path but perhaps a file. -/
def FileOrFree (tree : Workspace) (path : List String) : Prop :=
  ∀ node, tree.node path = some node → ∃ content, node = .file content

theorem FileOrFree.not_directory {path : List String} (h : FileOrFree tree path) :
    tree.node path ≠ some .directory := by
  intro hNode
  obtain ⟨content, hFile⟩ := h _ hNode
  cases hFile

theorem writeText_eq_ok_iff (hLead : dir.lead tree front = .ok place)
    (hDirectory : tree.node place = some .directory) :
    writeText dir tree front name content = .ok tree' ↔ dir.tooLong (front ++ [name]) = false ∧
      ∃ (hOld : FileOrFree tree (place ++ [name])) (written : String), encode content =
    some written ∧
        tree' = tree.put place name (.file written) hDirectory hOld.not_directory := by
  rw [writeText, hLead]
  cases dir.tooLong (front ++ [name]) with
  | true => simp
  | false =>
    simp only [Bool.false_eq_true, if_false, true_and]
    split
    · split
      · rename_i hOld
        simp only [reduceCtorEq, false_iff, not_exists]
        intro h
        exact absurd hOld h.not_directory
      · rename_i hOld
        simp only [reduceCtorEq, false_iff, not_exists]
        intro h
        obtain ⟨content, hFile⟩ := h _ hOld
        cases hFile
      · rename_i found hOld
        have hFree : FileOrFree tree (place ++ [name]) := by
          intro node hNode
          rw [hOld] at hNode
          exact ⟨found, (Option.some.inj hNode).symm⟩
        cases hText : encode content with
        | none => simp
        | some written => simp [hFree, eq_comm]
      · rename_i hOld
        have hFree : FileOrFree tree (place ++ [name]) := by
          intro node hNode
          rw [hOld] at hNode
          cases hNode
        cases hText : encode content with
        | none => simp
        | some written => simp [hFree, eq_comm]
    · rename_i hNot
      exact absurd hDirectory hNot

end Calls

/-! ## One request -/

section Requests

variable {dir : Workdir String} {tree tree' : Workspace} {front rest place path : List String}
  {name : String} {content : Text}

/-- The workspace with a file written below a chain of new directories. -/
def filed (h : Opens dir tree front place rest) (hOld : FileOrFree tree (place ++ rest ++ [name]))
    (written : String) : Workspace :=
  (tree.made place rest h.directory h.free).put (place ++ rest) name (.file written)
    node_made_end <| by
    rw [node_made_other]
    exact hOld.not_directory

/--
What a request does that finds the workspace as it should: the workspace after it, and the file that
is written. A path that leads out of the workspace must lead to a directory that is there, and
nothing is written; the same holds of a path that ends in a link.
-/
inductive Writes (dir : Workdir String) (tree : Workspace) (front : List String) (name : String)
    (content : Text) : Workspace → Option (List String × String) → Prop
  | outside {place : List String} (h : Opens dir tree front place [])
    (hLong : dir.tooLong front = false)
      (hOut : ¬ dir.base <+: place) : Writes dir tree front name content tree none
  | link {place : List String} {absolute : Bool} {target : List (PathStep String)}
      (h : Opens dir tree front place []) (hLong : dir.tooLong (front ++ [name]) = false)
      (hIn : dir.base <+: place)
        (hLink : tree.node (place ++ [name]) = some (.link absolute target)) :
      Writes dir tree front name content tree none
  | written {place rest : List String} {written : String} (h : Opens dir tree front place rest)
      (hLong : dir.tooLong (front ++ [name]) = false) (hIn : dir.base <+: place)
      (hOld : FileOrFree tree (place ++ rest ++ [name])) (hText : encode content = some written) :
      Writes dir tree front name content (filed h hOld written)
        (some (place ++ rest ++ [name], written))

/-- A request that makes directories outside the workspace. -/
def Escapes (dir : Workdir String) (tree : Workspace) (front : List String) (tree' : Workspace) :
    Prop :=
  ∃ place first rest, ∃ h : Opens dir tree front place (first :: rest),
    ¬ dir.base <+: place ∧ tree' = tree.made place (first :: rest) h.directory h.free

/-- What is made below a place outside the workspace is outside as well. -/
theorem base_prefix_iff (hBase : tree.node dir.base = some .directory)
    (hFree : tree.Free place rest)
    {more : List String} (hMore : more <+: rest) :
    dir.base <+: place ++ more ↔ dir.base <+: place := by
  constructor
  · intro h
    rcases prefix_or_prefix_of_prefix h (prefix_append place more) with hPlace | hBelow
    · exact hPlace
    · obtain ⟨part, hPart⟩ := hBelow
      by_cases hEmpty : part = []
      · rw [← hPart, hEmpty, append_nil]
      · -- the workspace itself is no free place
        rw [← hPart] at h hBase
        have hPrefix : part <+: rest := ((prefix_append_right_inj place).mp h).trans hMore
        rw [hFree.node_eq_none hEmpty hPrefix] at hBase
        cases hBase
  · intro h
    exact h.trans (prefix_append _ _)

/-- A request is carried out as `Writes` says, or it escapes. -/
theorem writeFile_eq_ok_iff {file : ProducedFile} {isWritten : Bool}
    (hBase : tree.node dir.base = some .directory) (hFront : front = (pathParts file.path).dropLast)
    (hName : name = (pathParts file.path).getLastD "") :
    writeFile dir tree file content = .ok (tree', isWritten) ↔
      (∃ done, Writes dir tree front name content tree' done ∧ isWritten = done.isSome) ∨
      (dir.tooLong front = false ∧ Escapes dir tree front tree' ∧ isWritten = false) := by
  simp only [writeFile, ← hFront, ← hName, bind_eq_ok_iff, onDisk_eq_ok_iff,
    Workdir.makeDirectories_eq_ok_iff hBase]
  constructor
  · rintro ⟨_, ⟨hLong, place, rest, h, rfl⟩, parent, hLead, hRest⟩
    obtain rfl : place ++ rest = parent := Except.ok.inj ((h.lead_made hLong).symm.trans hLead)
    have hSame := base_prefix_iff hBase h.free prefix_rfl
    by_cases hIn : dir.base <+: place
    · rw [if_neg (not_not.mpr (hSame.mpr hIn)), bind_eq_ok_iff] at hRest
      obtain ⟨found, hFound, hRest⟩ := hRest
      obtain ⟨hLong', hFound⟩ := (isSymlink_eq_ok_iff hLead).mp (onDisk_eq_ok_iff.mp hFound)
      rw [node_made_other] at hFound
      cases found with
      | true =>
        obtain ⟨absolute, target, hLink⟩ := hFound.mp rfl
        cases rest with
        | nil =>
          rw [append_nil] at hLink
          cases hRest
          rw [made_nil]
          exact .inl ⟨none, .link h hLong' hIn hLink, rfl⟩
        | cons first rest =>
          have hNone := node_append_of_none
            (h.free.node_eq_none (cons_ne_nil first rest) prefix_rfl) [name]
          rw [hLink] at hNone
          cases hNone
      | false =>
        simp only [Bool.false_eq_true, if_false, bind_eq_ok_iff] at hRest
        obtain ⟨_, hWrite, hRest⟩ := hRest
        obtain ⟨-, hOld, written, hText, rfl⟩ := (writeText_eq_ok_iff hLead node_made_end).mp hWrite
        cases hRest
        have hOld' : FileOrFree tree (place ++ rest ++ [name]) := by
          rwa [FileOrFree, node_made_other] at hOld
        exact .inl ⟨_, .written h hLong' hIn hOld' hText, rfl⟩
    · rw [if_pos (mt hSame.mp hIn)] at hRest
      cases hRest
      cases rest with
      | nil =>
        rw [made_nil]
        exact .inl ⟨none, .outside h hLong hIn, rfl⟩
      | cons first rest => exact .inr ⟨hLong, ⟨place, first, rest, h, hIn, rfl⟩, rfl⟩
  · rintro (⟨done, hWrites, rfl⟩ | ⟨hLong, ⟨place, first, rest, h, hOut, rfl⟩, rfl⟩)
    · cases hWrites with
      | @outside place h hLong hOut =>
        refine ⟨tree, ⟨hLong, place, [], h, (made_nil h.free).symm⟩, place, ?_, ?_⟩
        · simpa [made_nil] using h.lead_made hLong
        · rw [if_pos hOut]
          rfl
      | @link place absolute target h hLong hIn hLink =>
        have hShort := Workdir.tooLong_of_append hLong
        have hLead : dir.lead tree front = .ok place := by
          simpa [made_nil] using h.lead_made hShort
        refine ⟨tree, ⟨hShort, place, [], h, (made_nil h.free).symm⟩, place, hLead, ?_⟩
        have hFound : isSymlink dir tree front name = .ok true :=
          (isSymlink_eq_ok_iff hLead).mpr ⟨hLong, by simp [hLink]⟩
        rw [if_neg (not_not.mpr hIn), hFound]
        rfl
      | @written place rest written h hLong hIn hOld hText =>
        have hShort := Workdir.tooLong_of_append hLong
        have hLead := h.lead_made hShort
        refine ⟨_, ⟨hShort, place, rest, h, rfl⟩, place ++ rest, hLead, ?_⟩
        have hFound : isSymlink dir (tree.made place rest h.directory h.free) front name =
            .ok false := by
          refine (isSymlink_eq_ok_iff hLead).mpr ⟨hLong, ?_⟩
          rw [node_made_other]
          simp only [Bool.false_eq_true, false_iff, not_exists]
          intro absolute target hLink
          obtain ⟨old, hFile⟩ := hOld _ hLink
          cases hFile
        have hOld' : FileOrFree (tree.made place rest h.directory h.free)
            (place ++ rest ++ [name]) := by
          rwa [FileOrFree, node_made_other]
        have hWrite : writeText dir (tree.made place rest h.directory h.free) front name content =
            .ok (filed h hOld written) :=
          (writeText_eq_ok_iff hLead node_made_end).mpr ⟨hLong, hOld', written, hText, rfl⟩
        have hIn' := (base_prefix_iff hBase h.free prefix_rfl).mpr hIn
        rw [if_neg (not_not.mpr hIn'), hFound]
        simp only [onDisk, Except.mapError, bind_eq_ok_iff]
        exact ⟨false, rfl, by rw [if_neg Bool.false_ne_true, hWrite]; rfl⟩
    · have hLead := h.lead_made hLong
      refine ⟨_, ⟨hLong, place, first :: rest, h, rfl⟩, place ++ first :: rest, hLead, ?_⟩
      rw [if_pos (mt (base_prefix_iff hBase h.free prefix_rfl).mp hOut)]
      rfl

theorem node_filed (h : Opens dir tree front place rest)
    (hOld : FileOrFree tree (place ++ rest ++ [name])) (written : String) :
    (filed h hOld written).node path = if path = place ++ rest ++ [name] then some (.file written)
      else if isNew place rest path then some .directory else tree.node path := rfl

theorem grows_filed (h : Opens dir tree front place rest)
    (hOld : FileOrFree tree (place ++ rest ++ [name])) (written : String) :
    Grows (tree.made place rest h.directory h.free) (filed h hOld written) := by
  intro path found hFound
  rw [node_filed]
  split
  · rename_i hPath
    rw [hPath, node_made_other] at hFound
    obtain ⟨node, hNode, hKind⟩ := map_eq_some_iff.mp hFound
    obtain ⟨old, rfl⟩ := hOld node hNode
    rw [← hKind]
    rfl
  · exact hFound

variable {done : Option (List String × String)}

theorem Writes.grows
    (h : Writes dir tree front name content tree' done) : Grows tree tree' := by
  cases h with
  | outside h hLong hOut => exact Grows.refl tree
  | link h hLong hIn hLink => exact Grows.refl tree
  | written h hLong hIn hOld hText => exact grows_made.trans (grows_filed h hOld _)

theorem Escapes.grows (h : Escapes dir tree front tree') : Grows tree tree' := by
  obtain ⟨place, first, rest, hOpens, -, rfl⟩ := h
  exact grows_made

/-- A request that is carried out changes nothing outside the workspace. -/
theorem Writes.contained
    (h : Writes dir tree front name content tree' done)
    (hPath : tree'.node path ≠ tree.node path) : dir.base <+: path := by
  cases h with
  | outside h hLong hOut => exact absurd rfl hPath
  | link h hLong hIn hLink => exact absurd rfl hPath
  | @written place rest written h hLong hIn hOld hText =>
    rw [node_filed] at hPath
    split at hPath
    · rename_i hEq
      rw [hEq, append_assoc]
      exact hIn.trans (prefix_append _ _)
    · split at hPath
      · rename_i hNew
        obtain ⟨part, -, -, rfl⟩ := isNew_iff.mp hNew
        exact hIn.trans (prefix_append _ _)
      · exact absurd rfl hPath

def fileAt (tree : Workspace) (path : List String) : Option String :=
  match tree.node path with
  | some (.file content) => some content
  | _ => none

theorem Writes.fileAt
    (h : Writes dir tree front name content tree' done) : fileAt tree' path =
      match done with
      | some (place, new) => if path = place then some new else fileAt tree path
      | none => fileAt tree path := by
  cases h with
  | outside h hLong hOut => rfl
  | link h hLong hIn hLink => rfl
  | @written place rest written h hLong hIn hOld hText =>
    dsimp only
    rw [Agents.fileAt, node_filed]
    by_cases hEq : path = place ++ rest ++ [name]
    · rw [if_pos hEq, if_pos hEq]
    · rw [if_neg hEq, if_neg hEq]
      by_cases hNew : isNew place rest path
      · obtain ⟨part, hPart, hPrefix, rfl⟩ := isNew_iff.mp hNew
        rw [if_pos hNew, Agents.fileAt, h.free.node_eq_none hPart hPrefix]
      · rw [if_neg hNew]
        rfl

/-- A file is written where its path leads afterwards. -/
theorem Writes.lead {written : String}
    (h : Writes dir tree front name content tree' (some (path, written))) :
    encode content = some written ∧
      ∃ parent, dir.lead tree' front = .ok parent ∧ path = parent ++ [name] := by
  cases h with
  | written h hLong hIn hOld hText =>
    have hMade := h.lead_made (Workdir.tooLong_of_append hLong)
    exact ⟨hText, _, Workdir.lead_of_grows (grows_filed h hOld written) hMade, rfl⟩

end Requests

/-! ## The requests of an output -/

def isTransition : Json Num → Bool
  | .object entries => (Json.get entries "type").isText "transition"
  | _ => false

/-- The path and the content of a write request, as the output gives them. -/
def writeRequest : Json Num → Option (Json Num × Json Num)
  | .object entries =>
    if (Json.get entries "type").isText "transition" then none
    else if (Json.get entries "type").isText "write_file" then
      match Json.get entries "arguments" with
      | .object arguments => some (Json.get arguments "path", Json.get arguments "content")
      | _ => none
    else none
  | _ => none

/-- Python looks up neither lists nor dictionaries. -/
def hashable : Json Num → Bool
  | .array _ | .object _ => false
  | _ => true

def pathsHashable (action : Json Num) : Bool :=
  match writeRequest action with
  | some (path, _) => hashable path
  | none => true

def honouredFile (declared : List (String × ProducedFile)) (agent : AgentName) :
    Json Num → Json Num → Option (ProducedFile × Text)
  | .string path, .string content => do
    let path ← encode path
    let file ← declared.lookup path
    if file.purpose ∈ allowedPurposes agent then some (file, content) else none
  | _, _ => none

def honoured (declared : List (String × ProducedFile)) (agent : AgentName) (action : Json Num) :
    Option (ProducedFile × Text) :=
  (writeRequest action).bind fun request => honouredFile declared agent request.1 request.2

section Actions

variable {dir : Workdir String} {declared : List (String × ProducedFile)} {agent : AgentName}
  {tree tree' : Workspace} {remaining remaining' : List (Json Num)} {action : Json Num}
  {actions : List (Json Num)}

private theorem ok_bind {α β : Type} (a : α) (f : α → Except Failure β) :
    (Except.ok a >>= f) = f a :=
  rfl

theorem applyRequest_eq {path content : Json Num} :
    applyRequest dir declared agent tree path content =
    if !hashable path then .error .typeError
    else
      match honouredFile declared agent path content with
      | none => .ok (tree, false)
      | some (file, content) => writeFile dir tree file content := by
  cases path with
  | string path =>
    have hFound : declaration declared (.string path : Json Num) =
        .ok ((encode path).bind fun path => declared.lookup path) := rfl
    have hHashable : hashable (.string path : Json Num) = true := rfl
    rw [applyRequest, hFound, ok_bind, hHashable, Bool.not_true, if_neg Bool.false_ne_true]
    cases hPath : encode path with
    | none => cases content <;> simp [honouredFile, hPath, pure, Except.pure]
    | some path =>
      cases hFile : declared.lookup path with
      | none => cases content <;> simp [honouredFile, hPath, hFile, pure, Except.pure]
      | some file =>
        cases content with
        | string content =>
          by_cases hPurpose : file.purpose ∈ allowedPurposes agent
          · simp [honouredFile, hPath, hFile, hPurpose]
          · simp [honouredFile, hPath, hFile, hPurpose, pure, Except.pure]
        | _ => simp [honouredFile, hFile, pure, Except.pure]
  | null => rfl
  | boolean value => rfl
  | number value => rfl
  | array items => rfl
  | object entries => rfl

theorem handleAction_eq : handleAction dir declared agent (tree, remaining) action =
    if isTransition action then .ok (tree, remaining)
    else if !pathsHashable action then .error .typeError
    else
      match honoured declared agent action with
      | none => .ok (tree, remaining ++ [action])
      | some (file, content) => (writeFile dir tree file content).map fun r =>
        (r.1, if r.2 then remaining else remaining ++ [action]) := by
  cases action with
  | object entries =>
    cases hTransition : (Json.get entries "type").isText "transition" with
    | true => simp [handleAction, isTransition, hTransition]
    | false =>
      cases hWrite : (Json.get entries "type").isText "write_file" with
      | false =>
        have hRequest : writeRequest (.object entries) = none := by
          simp [writeRequest, hTransition, hWrite]
        simp [handleAction, isTransition, pathsHashable, honoured, hRequest, hTransition, hWrite]
      | true =>
        cases hArguments : Json.get entries "arguments" with
        | object arguments =>
          have hRequest : writeRequest (.object entries) =
              some (Json.get arguments "path", Json.get arguments "content") := by
            simp [writeRequest, hTransition, hWrite, hArguments]
          simp only [handleAction, isTransition, pathsHashable, honoured, hRequest, hTransition,
            hWrite, hArguments, Bool.false_eq_true, if_false, Bool.not_true, applyRequest_eq,
            bind_some]
          cases hashable (Json.get arguments "path") with
          | false => rfl
          | true =>
            cases honouredFile declared agent (Json.get arguments "path")
                (Json.get arguments "content") with
            | none => simp [ok_bind, pure, Except.pure]
            | some request =>
              obtain ⟨file, content⟩ := request
              cases hRun : writeFile dir tree file content <;> simp [hRun] <;> rfl
        | null => simp [handleAction, isTransition, pathsHashable, honoured, writeRequest,
            hTransition, hWrite, hArguments]
        | boolean value => simp [handleAction, isTransition, pathsHashable, honoured, writeRequest,
            hTransition, hWrite, hArguments]
        | number value => simp [handleAction, isTransition, pathsHashable, honoured, writeRequest,
            hTransition, hWrite, hArguments]
        | string value => simp [handleAction, isTransition, pathsHashable, honoured, writeRequest,
            hTransition, hWrite, hArguments]
        | array items => simp [handleAction, isTransition, pathsHashable, honoured, writeRequest,
            hTransition, hWrite, hArguments]
  | null => rfl
  | boolean value => rfl
  | number value => rfl
  | string value => rfl
  | array items => rfl

theorem writeRequest_of_transition (h : isTransition action) : writeRequest action = none := by
  cases action with
  | object entries =>
    have hTransition : (Json.get entries "type").isText "transition" = true := h
    simp [writeRequest, hTransition]
  | _ => rfl

theorem honoured_of_transition (h : isTransition action) :
    honoured declared agent action = none := by
  rw [honoured, writeRequest_of_transition h, bind_none]

end Actions

section Declared

variable {produced : List (Json Num)} {agent : AgentName} {file : ProducedFile} {path : String}

def Declares (produced : List (Json Num)) (agent : AgentName) (file : ProducedFile) : Prop :=
  ∃ item ∈ produced, ProducedFile.modelValidate item = some file ∧
    file.purpose ∈ allowedPurposes agent

theorem declaredFiles_lookup (h : (declaredFiles produced).lookup path = some file) :
    file.path = path ∧ ∃ item ∈ produced, ProducedFile.modelValidate item = some file := by
  have hFold : ∀ entry ∈ declaredFiles produced, entry.2.path = entry.1 ∧
      ∃ item ∈ produced, ProducedFile.modelValidate item = some entry.2 := by
    refine foldlRecOn (motive := fun declared : List (String × ProducedFile) =>
        ∀ entry ∈ declared, entry.2.path = entry.1 ∧
          ∃ item ∈ produced, ProducedFile.modelValidate item = some entry.2) produced _
      (forall_mem_nil _) fun declared hDeclared item hItem entry hEntry => ?_
    cases hParsed : ProducedFile.modelValidate item with
    | none =>
      rw [hParsed] at hEntry
      exact hDeclared entry hEntry
    | some parsed =>
      rw [hParsed] at hEntry
      rcases Dict.mem_of_mem_set hEntry with rfl | hOld
      · exact ⟨rfl, item, hItem, hParsed⟩
      · exact hDeclared entry hOld
  obtain ⟨before, after, hSplit, -⟩ := lookup_eq_some_iff.mp h
  have hMem : (path, file) ∈ declaredFiles produced := by
    rw [hSplit]
    exact mem_append_right _ mem_cons_self
  exact hFold (path, file) hMem

theorem honoured_eq_some {action : Json Num} {content : Text}
    (h : honoured (declaredFiles produced) agent action = some (file, content)) :
    Declares produced agent file ∧ ∃ path, writeRequest action =
    some (.string path, .string content) ∧
      encode path = some file.path := by
  obtain ⟨⟨path, body⟩, hRequest, hFile⟩ := bind_eq_some_iff.mp h
  cases path with
  | string path =>
    cases body with
    | string body =>
      simp only [honouredFile, bind, bind_eq_some_iff, ite_none_right_eq_some,
        Option.some.injEq, Prod.mk.injEq] at hFile
      obtain ⟨key, hKey, found, hFound, hPurpose, rfl, rfl⟩ := hFile
      obtain ⟨rfl, item, hItem, hParsed⟩ := declaredFiles_lookup hFound
      exact ⟨⟨item, hItem, hParsed, hPurpose⟩, path, hRequest, hKey⟩
    | _ => cases hFile
  | _ => cases hFile

end Declared

/-! ## Runs over the actions -/

section Runs

variable {dir : Workdir String} {produced : List (Json Num)} {agent : AgentName}
  {tree tree' : Workspace} {remaining remaining' actions : List (Json Num)} {path : List String}

def fileFront (file : ProducedFile) : List String := (pathParts file.path).dropLast

def fileName (file : ProducedFile) : String := (pathParts file.path).getLastD ""

/-- Each honoured request finds the workspace as it should, after those before it. -/
inductive SafeRun (dir : Workdir String) : Workspace → List (ProducedFile × Text) → Prop
  | nil (tree : Workspace) : SafeRun dir tree []
  | cons {tree tree' : Workspace} {file : ProducedFile} {content : Text}
      {done : Option (List String × String)} {rest : List (ProducedFile × Text)}
      (h : Writes dir tree (fileFront file) (fileName file) content tree' done)
      (hRest : SafeRun dir tree' rest) : SafeRun dir tree ((file, content) :: rest)

/-- What becomes of a requested action. -/
inductive Fate where
  | dropped
  | kept
  | applied (place : List String) (content : String)

def keptOf : List (Json Num) → List Fate → List (Json Num)
  | action :: actions, .kept :: fates => action :: keptOf actions fates
  | _ :: actions, _ :: fates => keptOf actions fates
  | _, _ => []

def Fate.at (path : List String) : Fate → Option String
  | .applied place content => if path = place then some content else none
  | _ => none

def LeadsTo (dir : Workdir String) (tree : Workspace) (file : ProducedFile) (place : List String) :
    Prop :=
  ∃ parent, dir.lead tree (fileFront file) = .ok parent ∧ place = parent ++ [fileName file]

inductive Fits (dir : Workdir String) (produced : List (Json Num)) (agent : AgentName)
    (tree : Workspace) : Json Num → Fate → Prop
  | dropped {action : Json Num} (h : isTransition action = true) :
    Fits dir produced agent tree action .dropped
  | kept {action : Json Num} (h : isTransition action = false) :
    Fits dir produced agent tree action .kept
  | applied {action : Json Num} {path content : Text} {file : ProducedFile} {place : List String}
      {written : String} (hRequest : writeRequest action = some (.string path, .string content))
      (hPath : encode path = some file.path) (hContent : encode content = some written)
      (hDeclared : Declares produced agent file) (hPlace : LeadsTo dir tree file place) :
      Fits dir produced agent tree action (.applied place written)

structure Accounts (dir : Workdir String) (produced : List (Json Num)) (agent : AgentName)
    (tree tree' : Workspace) (actions : List (Json Num)) (fates : List Fate) : Prop where
  fits : List.Forall₂ (Fits dir produced agent tree') actions fates
  files : ∀ path, fileAt tree' path =
    ((fates.filterMap (Fate.at path)).getLast?).or (fileAt tree path)

section

variable (hBase : tree.node dir.base = some .directory)
include hBase

theorem handleAction_grows {declared : List (String × ProducedFile)} {action : Json Num}
    (h : handleAction dir declared agent (tree, remaining) action = .ok (tree', remaining')) :
    Grows tree tree' := by
  rw [handleAction_eq] at h
  split at h
  · cases h
    exact Grows.refl tree
  · split at h
    · cases h
    · split at h
      · cases h
        exact Grows.refl tree
      · rename_i file content _
        cases hWrite : writeFile dir tree file content with
        | error e =>
          rw [hWrite] at h
          cases h
        | ok r =>
          rw [hWrite] at h
          cases h
          rcases (writeFile_eq_ok_iff hBase rfl rfl).mp hWrite with ⟨done, hWrites, -⟩ |
            ⟨-, hEscapes, -⟩
          · exact hWrites.grows
          · exact hEscapes.grows

/-- Requests that find the workspace as they should are all carried out, and nothing leaves it. -/
theorem run_of_safe
    (hHashable : ∀ action ∈ actions, pathsHashable action = true)
    (hSafe : SafeRun dir tree (actions.filterMap (honoured (declaredFiles produced) agent))) :
    ∃ tree' fates,
    actions.foldlM (handleAction dir (declaredFiles produced) agent) (tree, remaining) =
        .ok (tree', remaining ++ keptOf actions fates) ∧
      Accounts dir produced agent tree tree' actions fates ∧ Grows tree tree' ∧
      ∀ path, tree'.node path ≠ tree.node path → dir.base <+: path := by
  induction actions generalizing tree remaining with
  | nil =>
    refine ⟨tree, [], by simp [keptOf, pure, Except.pure], ⟨.nil, fun path => rfl⟩, Grows.refl tree,
      ?_⟩
    exact fun path hPath => absurd rfl hPath
  | cons action actions ih =>
    have hHead : pathsHashable action = true := hHashable action mem_cons_self
    have hTail : ∀ action ∈ actions, pathsHashable action = true :=
      fun action hAction => hHashable action (mem_cons_of_mem _ hAction)
    rw [foldlM_cons, handleAction_eq, hHead]
    by_cases hTransition : isTransition action = true
    · rw [filterMap_cons_none (honoured_of_transition hTransition)] at hSafe
      obtain ⟨tree', fates, hRun, hAccounts, hRest⟩ := ih hBase hTail hSafe
      refine ⟨tree', .dropped :: fates, ?_, ⟨.cons (.dropped hTransition) hAccounts.fits, ?_⟩,
        hRest⟩
      · rw [if_pos hTransition]
        exact hRun
      · exact hAccounts.files
    · rw [if_neg hTransition]
      rw [Bool.not_eq_true] at hTransition
      cases hHonoured : honoured (declaredFiles produced) agent action with
      | none =>
        rw [filterMap_cons_none hHonoured] at hSafe
        obtain ⟨tree', fates, hRun, hAccounts, hRest⟩ := ih hBase hTail hSafe
        refine ⟨tree', .kept :: fates, ?_, ⟨.cons (.kept hTransition) hAccounts.fits, ?_⟩, hRest⟩
        · rw [keptOf, append_cons remaining action (keptOf actions fates)]
          exact hRun
        · exact hAccounts.files
      | some request =>
        obtain ⟨file, content⟩ := request
        rw [filterMap_cons_some hHonoured] at hSafe
        cases hSafe with
        | @cons _ tree₁ _ _ done _ hWrites hSafe =>
        have hWrite : writeFile dir tree file content = .ok (tree₁, done.isSome) :=
          (writeFile_eq_ok_iff hBase rfl rfl).mpr (.inl ⟨done, hWrites, rfl⟩)
        have hBase₁ : tree₁.node dir.base = some .directory := hWrites.grows.directory hBase
        obtain ⟨tree', fates, hRun, hAccounts, hGrows, hInside⟩ :=
          @ih tree₁ (if done.isSome then remaining else remaining ++ [action]) hBase₁ hTail hSafe
        have hContained : ∀ path, tree'.node path ≠ tree.node path → dir.base <+: path := by
          intro path hPath
          by_cases hLater : tree'.node path = tree₁.node path
          · exact hWrites.contained (hLater ▸ hPath)
          · exact hInside path hLater
        simp only [Bool.not_true, Bool.false_eq_true, if_false, hWrite, Except.map]
        cases done with
        | none =>
          refine ⟨tree', .kept :: fates, ?_, ⟨.cons (.kept hTransition) hAccounts.fits, ?_⟩,
            hWrites.grows.trans hGrows, hContained⟩
          · rw [keptOf, append_cons remaining action (keptOf actions fates)]
            exact hRun
          · intro path
            rw [hAccounts.files path, hWrites.fileAt]
            rfl
        | some place =>
          obtain ⟨place, written⟩ := place
          obtain ⟨hText, parent, hLead, hPlace⟩ := hWrites.lead
          obtain ⟨hDeclares, path, hRequest, hPath⟩ := honoured_eq_some hHonoured
          have hFits : Fits dir produced agent tree' action (.applied place written) :=
            .applied hRequest hPath hText hDeclares
              ⟨parent, Workdir.lead_of_grows hGrows hLead, hPlace⟩
          refine ⟨tree', .applied place written :: fates, hRun, ⟨.cons hFits hAccounts.fits, ?_⟩,
            hWrites.grows.trans hGrows, hContained⟩
          intro path
          rw [hAccounts.files path, hWrites.fileAt]
          dsimp only
          by_cases hEq : path = place
          · have hAt : Fate.at path (.applied place written) = some written := if_pos hEq
            rw [if_pos hEq, filterMap_cons_some hAt, List.getLast?_cons]
            cases (fates.filterMap (Fate.at path)).getLast? <;> rfl
          · have hAt : Fate.at path (.applied place written) = none := if_neg hEq
            rw [if_neg hEq, filterMap_cons_none hAt]

section

variable (hRun : actions.foldlM (handleAction dir (declaredFiles produced) agent)
  (tree, remaining) = .ok (tree', remaining'))
include hRun

theorem grows_of_run : Grows tree tree' := by
  have hKeeps : Grows tree tree' ∧ tree'.node dir.base = some .directory := by
    refine foldlM_invariant (P := fun state => Grows tree state.1 ∧
      state.1.node dir.base = some .directory) ?_ hRun ⟨Grows.refl tree, hBase⟩
    rintro ⟨before, _⟩ action ⟨after, _⟩ hStep ⟨hGrows, hDirectory⟩
    have hMore := handleAction_grows hDirectory hStep
    exact ⟨hGrows.trans hMore, hMore.directory hDirectory⟩
  exact hKeeps.1

/-- A run that makes nothing new outside the workspace has found it as it should. -/
theorem safe_of_run
    (hInside : ∀ path, tree.node path = none → tree'.node path ≠ none → dir.base <+: path) :
    (∀ action ∈ actions, pathsHashable action = true) ∧
      SafeRun dir tree (actions.filterMap (honoured (declaredFiles produced) agent)) := by
  induction actions generalizing tree remaining with
  | nil => exact ⟨by simp, .nil tree⟩
  | cons action actions ih =>
    rw [foldlM_cons, bind_eq_ok_iff] at hRun
    obtain ⟨⟨tree₁, remaining₁⟩, hStep, hRun⟩ := hRun
    have hGrows := handleAction_grows hBase hStep
    obtain ⟨hHashable, hSafe⟩ := ih (hGrows.directory hBase) hRun fun path hNone hNew =>
      hInside path (by
        by_contra hOld
        exact hGrows.ne_none hOld hNone) hNew
    rw [handleAction_eq] at hStep
    by_cases hTransition : isTransition action = true
    · rw [if_pos hTransition] at hStep
      cases hStep
      have hHead : pathsHashable action = true := by
        rw [pathsHashable, writeRequest_of_transition hTransition]
      rw [filterMap_cons_none (honoured_of_transition hTransition)]
      exact ⟨forall_mem_cons.mpr ⟨hHead, hHashable⟩, hSafe⟩
    · rw [if_neg hTransition] at hStep
      cases hHead : pathsHashable action with
      | false =>
        rw [hHead] at hStep
        cases hStep
      | true =>
        refine ⟨forall_mem_cons.mpr ⟨hHead, hHashable⟩, ?_⟩
        simp only [hHead, Bool.not_true, Bool.false_eq_true, if_false] at hStep
        cases hHonoured : honoured (declaredFiles produced) agent action with
        | none =>
          rw [hHonoured] at hStep
          cases hStep
          rw [filterMap_cons_none hHonoured]
          exact hSafe
        | some request =>
          obtain ⟨file, content⟩ := request
          rw [hHonoured] at hStep
          rw [filterMap_cons_some hHonoured]
          cases hWrite : writeFile dir tree file content with
          | error e =>
            simp only [hWrite, Except.map] at hStep
            cases hStep
          | ok r =>
            obtain ⟨tree'', isWritten⟩ := r
            simp only [hWrite, Except.map] at hStep
            cases hStep
            rcases (writeFile_eq_ok_iff hBase rfl rfl).mp hWrite with
              ⟨done, hWrites, -⟩ | ⟨-, ⟨place, first, rest, h, hOut, rfl⟩, -⟩
            · exact .cons hWrites hSafe
            · -- the first directory that is made stays, and it is outside
              exfalso
              have hNone := h.free first rest rfl
              have hPrefix : [first] <+: first :: rest := ⟨rest, rfl⟩
              have hMade : (tree.made place (first :: rest) h.directory h.free).node
                  (place ++ [first]) = some .directory := by
                rw [node_made, if_pos]
                exact isNew_iff.mpr ⟨[first], cons_ne_nil _ _, hPrefix, rfl⟩
              have hStays : tree'.node (place ++ [first]) ≠ none := by
                apply (grows_of_run (hGrows.directory hBase) hRun).ne_none
                rw [hMade]
                exact some_ne_none _
              have hBelow := hInside (place ++ [first]) hNone hStays
              exact hOut ((base_prefix_iff hBase h.free hPrefix).mp hBelow)

end

end

theorem keptOf_length_le (actions : List (Json Num)) (fates : List Fate) :
    (keptOf actions fates).length ≤ actions.length := by
  induction actions generalizing fates with
  | nil => cases fates <;> rfl
  | cons action actions ih =>
    cases fates with
    | nil => exact Nat.zero_le _
    | cons fate fates =>
      have hLe := ih fates
      cases fate with
      | kept => simpa [keptOf] using hLe
      | dropped => exact Nat.le_succ_of_le hLe
      | applied place content => exact Nat.le_succ_of_le hLe

theorem not_transition_of_keptOf {fates : List Fate}
    (hFits : List.Forall₂ (Fits dir produced agent tree) actions fates)
    (hKept : keptOf actions fates = actions) : ∀ action ∈ actions, isTransition action = false := by
  induction hFits with
  | nil => simp
  | @cons action fate actions fates hFit hFits ih =>
    have hLe := keptOf_length_le actions fates
    cases hFit with
    | kept h =>
      have hRest : keptOf actions fates = actions := (List.cons.inj hKept).2
      exact forall_mem_cons.mpr ⟨h, ih hRest⟩
    | dropped h =>
      have hEq : keptOf actions fates = action :: actions := hKept
      rw [hEq, length_cons] at hLe
      omega
    | applied hRequest hPath hContent hDeclared hPlace =>
      have hEq : keptOf actions fates = action :: actions := hKept
      rw [hEq, length_cons] at hLe
      omega

theorem keptOf_kept (actions : List (Json Num)) :
    keptOf actions (actions.map fun _ => Fate.kept) = actions := by
  induction actions with
  | nil => rfl
  | cons action actions ih => rw [map_cons, keptOf, ih]

end Runs

/-! ## When the expectations are met -/

structure AgentWorkspace where
  dir : Workdir String
  tree : Workspace
  isDirectory : tree.node dir.base = some .directory

def producedItems (structured : List (Text × Json Num)) : List (Json Num) :=
  match Json.get structured "produced_files" with
  | .array items => items
  | _ => []

/-- What is expected of the prepared output and of the workspace after the writes. -/
structure Expected (ws : AgentWorkspace) (structured : List (Text × Json Num)) (agent : AgentName)
    (result : List (Text × Json Num)) (tree : Workspace) : Prop where
  inside : ∀ path, tree.node path ≠ ws.tree.node path → ws.dir.base <+: path
  declared : ∀ path, fileAt tree path ≠ fileAt ws.tree path →
    ∃ file, Declares (producedItems structured) agent file ∧ LeadsTo ws.dir tree file path
  accounted : ∀ actions, Json.get structured "requested_actions" = .array actions →
    ∃ fates, Accounts ws.dir (producedItems structured) agent ws.tree tree actions fates ∧
      Json.get result "requested_actions" = .array (keptOf actions fates)

/--
Where both lists are given, every path can be looked up and every honoured request finds the
workspace as it should. Where the produced files are no list, no action is a transition.
-/
def WritesSafely (ws : AgentWorkspace) (structured : List (Text × Json Num)) (agent : AgentName) :
    Prop :=
  ∀ actions, Json.get structured "requested_actions" = .array actions →
    (∀ produced, Json.get structured "produced_files" = .array produced →
      (∀ action ∈ actions, pathsHashable action = true) ∧
        SafeRun ws.dir ws.tree (actions.filterMap (honoured (declaredFiles produced) agent))) ∧
    ((∀ produced, Json.get structured "produced_files" ≠ .array produced) →
      ∀ action ∈ actions, isTransition action = false)

section Expectations

variable {ws : AgentWorkspace} {structured result : List (Text × Json Num)} {agent : AgentName}
  {tree : Workspace} {actions produced : List (Json Num)}

theorem get_set (value : Json Num) :
    Json.get (Dict.set (text "requested_actions") value structured) "requested_actions" =
    value := by
  rw [Json.get, Dict.lookup_set, if_pos rfl, getD_some]

theorem fits_of_mem {dir : Workdir String} {fates : List Fate} {fate : Fate}
    (h : List.Forall₂ (Fits dir produced agent tree) actions fates) (hFate : fate ∈ fates) :
    ∃ action, Fits dir produced agent tree action fate := by
  induction h with
  | nil => cases hFate
  | @cons action fate' actions fates hFit hFits ih =>
    rcases mem_cons.mp hFate with rfl | hFate
    · exact ⟨action, hFit⟩
    · exact ih hFate

theorem Accounts.declared {dir : Workdir String} {before : Workspace} {fates : List Fate}
    (h : Accounts dir produced agent before tree actions fates) (path : List String)
    (hPath : fileAt tree path ≠ fileAt before path) :
    ∃ file, Declares produced agent file ∧ LeadsTo dir tree file path := by
  rw [h.files path] at hPath
  cases hLast : (fates.filterMap (Fate.at path)).getLast? with
  | none =>
    rw [hLast] at hPath
    exact absurd rfl hPath
  | some content =>
    obtain ⟨fate, hFate, hAt⟩ := mem_filterMap.mp (mem_of_getLast? hLast)
    obtain ⟨action, hFit⟩ := fits_of_mem h.fits hFate
    cases hFit with
    | dropped hTransition => cases hAt
    | kept hTransition => cases hAt
    | @applied _ _ file place written hRequest hEncode hContent hDeclared hPlace =>
      by_cases hEq : path = place
      · exact ⟨file, hDeclared, hEq ▸ hPlace⟩
      · have hNone : Fate.at path (.applied place written) = none := if_neg hEq
        rw [hNone] at hAt
        cases hAt

/-- The declared writes are contained, and never abort the turn, exactly where they are safe. -/
theorem contained_writes_iff (ws : AgentWorkspace) (structured : List (Text × Json Num))
    (agent : AgentName) :
    (∃ result tree, materializeDeclaredWorkspaceFiles ws.dir ws.tree structured agent =
        .ok (result, tree) ∧ Expected ws structured agent result tree) ↔
      WritesSafely ws structured agent := by
  rw [materializeDeclaredWorkspaceFiles]
  split
  · rename_i actions produced hActions hProduced
    have hItems : producedItems structured = produced := by rw [producedItems, hProduced]
    constructor
    · rintro ⟨result, tree, hRun, hExpected⟩ actions' hActions'
      cases hActions.symm.trans hActions'
      refine ⟨?_, fun hNone => absurd hProduced (hNone produced)⟩
      intro produced' hProduced'
      cases hProduced.symm.trans hProduced'
      obtain ⟨⟨tree', remaining⟩, hLoop, hResult⟩ := of_bind hRun
      cases hResult
      refine safe_of_run ws.isDirectory hLoop fun path hNone hNew => hExpected.inside path ?_
      rw [hNone]
      exact hNew
    · intro hSafe
      obtain ⟨hHashable, hRequests⟩ := (hSafe actions hActions).1 produced hProduced
      obtain ⟨tree', fates, hRun, hAccounts, -, hInside⟩ :=
        @run_of_safe _ _ _ _ _ [] actions ws.isDirectory hHashable hRequests
      refine ⟨Dict.set (text "requested_actions") (.array (keptOf actions fates)) structured, tree',
        ?_, hInside, ?_, ?_⟩
      · rw [hRun]
        rfl
      · rw [hItems]
        exact hAccounts.declared
      · intro actions' hActions'
        cases hActions.symm.trans hActions'
        rw [hItems]
        exact ⟨fates, hAccounts, get_set _⟩
  · rename_i hNot
    have hProduced : ∀ actions, Json.get structured "requested_actions" = .array actions →
        ∀ produced, Json.get structured "produced_files" ≠ .array produced :=
      fun actions hActions produced hProduced => hNot actions produced hActions hProduced
    constructor
    · rintro ⟨result, tree, hRun, hExpected⟩ actions hActions
      cases hRun
      refine ⟨fun produced hEq => absurd hEq (hProduced actions hActions produced), fun _ => ?_⟩
      obtain ⟨fates, hAccounts, hKept⟩ := hExpected.accounted actions hActions
      rw [hActions] at hKept
      exact not_transition_of_keptOf hAccounts.fits (Json.array.inj hKept).symm
    · intro hSafe
      refine ⟨structured, ws.tree, rfl, fun path h => absurd rfl h, fun path h => absurd rfl h, ?_⟩
      intro actions hActions
      have hNone := (hSafe actions hActions).2 (hProduced actions hActions)
      refine ⟨actions.map fun _ => .kept, ⟨?_, ?_⟩, by rw [keptOf_kept, hActions]⟩
      · rw [forall₂_map_right_iff, forall₂_same]
        exact fun action hAction => .kept (hNone action hAction)
      · intro path
        have hEmpty : (actions.map fun _ => Fate.kept).filterMap (Fate.at path) = [] := by
          rw [filterMap_map]
          exact filterMap_eq_nil_iff.mpr fun _ _ => rfl
        rw [hEmpty]
        rfl

end Expectations

def emptyWorkspace : AgentWorkspace where
  dir := { base := [], links := 40, tooLong := fun _ => false, tooLong_nil := rfl,
           tooLong_append := fun _ _ h => h }
  tree :=
    { node := fun path => if path = [] then some .directory else none
      root := rfl
      closed := by
        intro path name h
        simp at h }
  isDirectory := rfl

def listAsPath : List (Text × Json Unit) :=
  [(text "produced_files", .array []),
   (text "requested_actions", .array [.object
     [(text "type", .string (text "write_file")),
      (text "arguments", .object
        [(text "path", .array []), (text "content", .string (text "notes"))])]])]

theorem list_as_path_aborts : ¬ ∃ result tree,
    materializeDeclaredWorkspaceFiles emptyWorkspace.dir emptyWorkspace.tree listAsPath .beaker =
        .ok (result, tree) ∧
      Expected emptyWorkspace listAsPath .beaker result tree := by
  rintro ⟨result, tree, hRun, -⟩
  have hAborts : materializeDeclaredWorkspaceFiles emptyWorkspace.dir emptyWorkspace.tree listAsPath
      .beaker = .error .typeError := by rfl
  cases hRun

end Glasslab.Agents
