import Glasslab.Foundation.PathCalls
import Glasslab.Knowledge.ContextBlocks
import Glasslab.Schemas

/-!
# Files that agents declare

An agent may ask, in its structured output, for files to be written into its workspace.
`materialize_declared_workspace_files` honours a request when a produced file of a fitting purpose
declares its path, and takes the request out of the output.

The output is untrusted: any JSON value may stand in any field. So is the workspace, in which
links may lead anywhere.
-/

namespace Glasslab.Agents

open Foundation LinkedTree

/-- A string of the runtime, in which a surrogate may stand alone. -/
structure Text where
  points : List (Char ⊕ Fin 0x800)
  deriving DecidableEq

def text (s : String) : Text := ⟨s.toList.map .inl⟩

/-- `str.encode('utf-8')`, which lone surrogates fail. -/
def encode (t : Text) : Option String :=
  (t.points.mapM Sum.getLeft?).map String.ofList

inductive Json (Num : Type) where
  | null
  | boolean (value : Bool)
  | number (value : Num)
  | string (value : Text)
  | array (items : List (Json Num))
  | object (entries : List (Text × Json Num))

variable {Num : Type}

/-- `entries.get(key)`. -/
def Json.get (entries : List (Text × Json Num)) (key : String) : Json Num :=
  (entries.lookup (text key)).getD .null

def Json.isText (value : Json Num) (s : String) : Bool :=
  match value with
  | .string t => t = text s
  | _ => false

inductive Purpose where
  | «protocol»
  | implementation
  | analysis
  | report
  | other
  deriving DecidableEq, Repr

def Purpose.ofString : String → Option Purpose
  | "protocol" => some .protocol
  | "implementation" => some .implementation
  | "analysis" => some .analysis
  | "report" => some .report
  | "other" => some .other
  | _ => none

structure ProducedFile where
  path : String
  purpose : Purpose
  deriving DecidableEq, Repr

/-- `[A-Za-z0-9_-]` -/
def isNameStart (c : Char) : Bool :=
  ('A' ≤ c ∧ c ≤ 'Z') ∨ ('a' ≤ c ∧ c ≤ 'z') ∨ ('0' ≤ c ∧ c ≤ '9') ∨ c = '_' ∨ c = '-'

/-- `[A-Za-z0-9_-][A-Za-z0-9._-]*` -/
def isSegment : List Char → Bool
  | [] => false
  | c :: rest => isNameStart c && rest.all fun c => isNameStart c || c = '.'

def pathPattern (path : String) : Bool := (path.toList.splitOn '/').all isSegment

def validateRelativePath (value : String) : Option String :=
  let normalized := (Knowledge.strip value.toList).map fun c => if c = '\\' then '/' else c
  let parts := normalized.splitOn '/'
  if normalized = [] ∨ normalized.head? = some '/' ∨ ['.', '.'] ∈ parts ∨ [] ∈ parts then none
  else some (String.ofList normalized)

/-- `ProducedFile.model_validate`; `none` is a `ValidationError`. -/
def ProducedFile.modelValidate : Json Num → Option ProducedFile
  | .object entries =>
    if entries.all fun e => e.1 = text "path" ∨ e.1 = text "purpose" then
      match Json.get entries "path", Json.get entries "purpose" with
      | .string path, .string purpose => do
        let path ← encode path
        let purpose ← encode purpose
        let purpose ← Purpose.ofString purpose
        if path ≠ "" ∧ pathPattern path then
          let path ← validateRelativePath path
          pure ⟨path, purpose⟩
        else none
      | _, _ => none
    else none
  | _ => none

inductive Failure where
  | os (e : Errno)
  | typeError
  | unicodeEncodeError
  deriving DecidableEq, Repr

/-- Files hold text under names. -/
abbrev Workspace := LinkedTree String String

variable (dir : Workdir String)

def onDisk {α : Type} (x : Except Errno α) : Except Failure α := x.mapError .os

/-- `destination.is_symlink()`; a path that leads nowhere is no link. -/
def isSymlink (tree : Workspace) (front : List String) (name : String) : Except Errno Bool :=
  if dir.tooLong (front ++ [name]) then .error .nameTooLong
  else
    match dir.lead tree front with
    | .error _ => .ok false
    | .ok place =>
      match tree.node (place ++ [name]) with
      | some (.link _ _) => .ok true
      | _ => .ok false

/-- `destination.write_text(content, encoding='utf-8')`. -/
def writeText (tree : Workspace) (front : List String) (name : String) (content : Text) :
    Except Failure Workspace :=
  if dir.tooLong (front ++ [name]) then .error (.os .nameTooLong)
  else
    match dir.lead tree front with
    | .error e => .error (.os e)
    | .ok place =>
      match hDirectory : tree.node place with
      | some .directory =>
        match hOld : tree.node (place ++ [name]) with
        | some .directory => .error (.os .isDirectory)
        -- a link would be followed, but links have been left alone before
        | some (.link _ _) => .error (.os .tooManyLinks)
        | some (.file _) | none =>
          match encode content with
          | some content => .ok (tree.put place name (.file content) hDirectory (by simp [hOld]))
          | none => .error .unicodeEncodeError
      | _ => .error (.os .notDirectory)

/-- `path.parts` of a relative path. -/
def pathParts (path : String) : List String := (path.toList.splitOn '/').map String.ofList

def writeFile (tree : Workspace) (declaration : ProducedFile) (content : Text) :
    Except Failure (Workspace × Bool) := do
  let parts := pathParts declaration.path
  let front := parts.dropLast
  let name := parts.getLastD ""
  let tree ← onDisk (dir.makeDirectories tree front.reverse)
  let parent ← onDisk (dir.lead tree front)
  if ¬ dir.base <+: parent then
    pure (tree, false)
  else
    let link ← onDisk (isSymlink dir tree front name)
    if link then
      pure (tree, false)
    else
      let tree ← writeText dir tree front name content
      pure (tree, true)

def declaredFiles (produced : List (Json Num)) : List (String × ProducedFile) :=
  produced.foldl (fun declared item =>
    match ProducedFile.modelValidate item with
    | some parsed => Dict.set parsed.path parsed declared
    | none => declared) []

/-- `declared.get(relative_path)`. Lists and dictionaries cannot be looked up. -/
def declaration (declared : List (String × ProducedFile)) : Json Num →
    Except Failure (Option ProducedFile)
  | .array _ | .object _ => .error .typeError
  | .string path => .ok ((encode path).bind fun path => declared.lookup path)
  | _ => .ok none

def allowedPurposes (agent : AgentName) : List Purpose :=
  if agent = .honeydew then [.protocol, .report, .analysis, .other]
  else [.implementation, .analysis, .other]

def applyRequest (declared : List (String × ProducedFile)) (agent : AgentName) (tree : Workspace)
    (path content : Json Num) : Except Failure (Workspace × Bool) := do
  let found ← declaration declared path
  match found, content with
  | some file, .string content =>
    if file.purpose ∈ allowedPurposes agent then writeFile dir tree file content
    else pure (tree, false)
  | _, _ => pure (tree, false)

/-- One pass of the loop over the requested actions. -/
def handleAction (declared : List (String × ProducedFile)) (agent : AgentName)
    (state : Workspace × List (Json Num)) (action : Json Num) :
    Except Failure (Workspace × List (Json Num)) :=
  let (tree, remaining) := state
  let kept : Workspace × List (Json Num) := (tree, remaining ++ [action])
  match action with
  | .object entries =>
    let actionType := Json.get entries "type"
    if actionType.isText "transition" then .ok (tree, remaining)
    else if !actionType.isText "write_file" then .ok kept
    else
      match Json.get entries "arguments" with
      | .object arguments => do
        let (tree, written) ← applyRequest dir declared agent tree (Json.get arguments "path")
          (Json.get arguments "content")
        pure (tree, if written then remaining else remaining ++ [action])
      | _ => .ok kept
  | _ => .ok kept

/-- The prepared output and the workspace. What a failure leaves behind is not kept. -/
def materializeDeclaredWorkspaceFiles (tree : Workspace) (structured : List (Text × Json Num))
    (agent : AgentName) : Except Failure (List (Text × Json Num) × Workspace) :=
  match Json.get structured "requested_actions", Json.get structured "produced_files" with
  | .array actions, .array produced => do
    let (tree, remaining) ←
      actions.foldlM (handleAction dir (declaredFiles produced) agent) (tree, [])
    pure (Dict.set (text "requested_actions") (.array remaining) structured, tree)
  | _, _ => .ok (structured, tree)

end Glasslab.Agents
