import Glasslab.Foundation.FileTree
import Glasslab.Foundation.Framing
import Glasslab.Methodology.Requirements
import Glasslab.Schemas

/-!
# Contract bundles

An evaluation contract is a directory with a descriptor `contract.json`, a checksum file
`contract.sha256` and the files that the descriptor refers to. `app/contracts.py` of the
orchestrator resolves a contract: it reads the descriptor, looks for the referenced files and
compares the checksum with the digest of the directory. `app/job_submission.py` of workflow-api
computes the digest again. SHA-256 and the validation of a descriptor are parameters (`Libraries`).
-/

namespace Glasslab.Contracts

open Foundation
open Glasslab.Methodology (ConfigValue isSpace pathSuffix)

abbrev Path := List String

abbrev Bytes := List UInt8

def IsName (name : String) : Prop :=
  name ≠ "" ∧ name ≠ "." ∧ name ≠ ".." ∧ '/' ∉ name.toList ∧ '\x00' ∉ name.toList

structure FileSystem extends FileTree String Bytes where
  named : ∀ entry ∈ entries, ∀ name ∈ entry.1, IsName name

namespace FileSystem

def isLink (files : FileSystem) (path : Path) : Bool :=
  match files.lookup path with
  | some (.link _) => true
  | _ => false

/-- `is_dir()` at a real path. -/
def isDir (files : FileSystem) (path : Path) : Bool :=
  files.entries.any fun entry =>
    path.isPrefixOf entry.1 &&
      match entry.2 with
      | .directory => true
      | _ => path ≠ entry.1

def isFile (files : FileSystem) (root path : Path) : Bool := (files.read root path).isSome

end FileSystem

/-- `text.encode()`. -/
def encode (text : String) : Bytes := text.toUTF8.data.toList

def universalNewlines : List Char → List Char
  | [] => []
  | '\r' :: '\n' :: rest => '\n' :: universalNewlines rest
  | '\r' :: rest => '\n' :: universalNewlines rest
  | c :: rest => c :: universalNewlines rest

/-- `path.read_text()` from the bytes of the file. -/
def readText (bytes : Bytes) : Option (List Char) :=
  (String.fromUTF8? ⟨bytes.toArray⟩).map fun text => universalNewlines text.toList

/-- `text.strip().lower()`. Outside ASCII no character has a hexadecimal digit as lower case. -/
def stripLower (text : List Char) : String :=
  let stripped := ((text.dropWhile isSpace).reverse.dropWhile isSpace).reverse
  String.ofList (stripped.map Char.toLower)

def asPosix (path : Path) : String := String.ofList (['/'].intercalate (path.map String.toList))

inductive Error where
  /-- `ContractIntegrityError`. -/
  | integrity (message : String)
  /-- `ValueError`, of workflow-api. -/
  | value (message : String)
  /-- `ValidationError` of a descriptor. -/
  | validation
  | unicodeDecode
  | overflow
  | embeddedNull
  deriving DecidableEq, Repr

/-- `EvaluationContractDescriptor`. -/
structure Descriptor where
  contractId : String
  version : String
  manifest : List (String × ConfigValue)
  executionWrapper : String
  evaluationEntryPoint : String
  expectedInputSchema : String
  expectedOutputSchema : String
  requiredArtifacts : List String
  resourceConstraints : ResourceRequest
  containerImageDigest : Option String

/-- The fields that name files of the bundle. -/
def Descriptor.references (descriptor : Descriptor) : List String :=
  [descriptor.executionWrapper, descriptor.evaluationEntryPoint,
    descriptor.expectedInputSchema, descriptor.expectedOutputSchema]

/-- `PurePosixPath(value).parts` of a relative path. -/
def parts (value : String) : Path :=
  ((value.toList.splitOn '/').map String.ofList).filter fun part => part ≠ "" ∧ part ≠ "."

def safeContractRelativePath (value : String) : Except Error Path :=
  if value.toList.head? = some '/' ∨ ".." ∈ parts value ∨ parts value = [] then
    .error (.integrity ("invalid contract-relative path: " ++ value))
  else
    .ok (parts value)

/-- The files under `root` whose bytes are hashed, in order. -/
def contractFiles (files : FileSystem) (root : Path) : List Path :=
  sortOn id <|
    (files.entries.filterMap fun entry => root.isPrefixOf? entry.1).filter fun relative =>
      files.isFile root relative ∧ relative.getLast? ≠ some "contract.sha256" ∧
        "__pycache__" ∉ relative ∧ relative.getLast?.map pathSuffix ≠ some ".pyc".toList

/-- `length.to_bytes(8, 'big')`. -/
def toBytes (length : Nat) : Except Error Bytes :=
  if length < 2 ^ 64 then .ok (bigEndian 8 length) else .error .overflow

def contractUpdate (files : FileSystem) (root relative : Path) : Except Error Bytes :=
  if files.isLink (root ++ relative) then
    .error (.integrity
      ("contract file cannot be a symlink: /" ++ asPosix (root ++ relative)))
  else do
    let name := encode (asPosix relative)
    let content := (files.read root relative).getD []
    let nameLength ← toBytes name.length
    let contentLength ← toBytes content.length
    return nameLength ++ name ++ contentLength ++ content

structure Libraries where
  /-- `sha256(...).hexdigest()`, which is taken to have no collisions. -/
  sha256 : Bytes ↪ String
  /-- `EvaluationContractDescriptor.model_validate_json`. -/
  modelValidateJson : List Char → Option Descriptor

variable (libraries : Libraries) (files : FileSystem)

def computeContractDigest (root : Path) : Except Error String :=
  if files.isLink root ∨ ¬ files.isDir root then
    .error (.integrity ("contract root is not a real directory: /" ++ asPosix root))
  else if contractFiles files root = [] then
    .error (.integrity ("contract has no content: /" ++ asPosix root))
  else do
    let updates ← (contractFiles files root).mapM (contractUpdate files root)
    return libraries.sha256 updates.flatten

/-- A configured root, with the real path of `root / contract_id / version`. -/
structure Candidate where
  root : Path
  place : Path

structure ResolvedContract where
  descriptor : Descriptor
  digest : String
  rootPath : Path

def findRoot : List Candidate → Except Error (Option Path)
  | [] => .ok none
  | candidate :: rest =>
    if ¬ candidate.root <+: candidate.place then
      .error (.integrity "contract path escapes configured root")
    else if files.isDir candidate.place then
      .ok (some candidate.place)
    else
      findRoot rest

def checkReference (root : Path) (field : String) : Except Error Unit := do
  let relative ← safeContractRelativePath field
  if '\x00' ∈ field.toList then
    .error .embeddedNull
  else if ¬ root <+: files.realpath root relative ∨ ¬ files.isFile root relative then
    .error (.integrity ("contract references a missing or external file: " ++ field))
  else
    .ok ()

/-- `resolve` once the directory of the contract is found. -/
def verify (root : Path) (contractId version : String) : Except Error ResolvedContract :=
  match files.read root ["contract.json"], files.read root ["contract.sha256"] with
  | some descriptorBytes, some digestBytes => do
    let text ← (readText descriptorBytes).elim (.error .unicodeDecode) .ok
    let descriptor ← (libraries.modelValidateJson text).elim (.error .validation) .ok
    if descriptor.contractId ≠ contractId ∨ descriptor.version ≠ version then
      .error (.integrity "contract identity does not match its path")
    else do
      let _ ← descriptor.references.mapM (checkReference files root)
      let expected ← (readText digestBytes).elim (.error .unicodeDecode) .ok
      let actual ← computeContractDigest libraries files root
      if stripLower expected ≠ actual then
        .error (.integrity ("contract digest mismatch: expected " ++ stripLower expected ++
          ", got " ++ actual))
      else
        return { descriptor, digest := actual, rootPath := root }
  | _, _ =>
    .error (.integrity
      ("contract is missing descriptor or checksum: " ++ contractId ++ "@" ++ version))

def resolve (candidates : List Candidate) (contractId version : String) :
    Except Error ResolvedContract := do
  match ← findRoot files candidates with
  | none =>
    .error (.integrity
      ("evaluation contract is not installed: " ++ contractId ++ "@" ++ version))
  | some root => verify libraries files root contractId version

/-- The pass of the loop over the files of the bundle. -/
def bundleUpdate (key : String) (bundle path : Path) : Except Error Bytes :=
  if files.isLink (bundle ++ path) then
    .error (.value ("evaluation contract bundle contains a symlink: " ++ key))
  else do
    let relativeFile := encode (asPosix path)
    let content := (files.read bundle path).getD []
    let nameLength ← toBytes relativeFile.length
    let contentLength ← toBytes content.length
    return nameLength ++ relativeFile ++ contentLength ++ content

/-- What `resolve_evaluation_contract` computes as `actual_digest` of the bundle of `key`. -/
def bundleDigest (key : String) (root bundle : Path) : Except Error String :=
  if ¬ root <+: bundle ∨ files.isLink bundle ∨ ¬ files.isDir bundle then
    .error (.value ("evaluation contract bundle is unavailable: " ++ key))
  else
    let hashed := sortOn id <|
      (files.entries.filterMap fun entry => bundle.isPrefixOf? entry.1).filter fun path =>
        files.isFile bundle path ∧ path.getLast? ≠ some "contract.sha256" ∧
          "__pycache__" ∉ path ∧ path.getLast?.map pathSuffix ≠ some ".pyc".toList
    if hashed = [] then
      .error (.value ("evaluation contract bundle is empty: " ++ key))
    else do
      let updates ← hashed.mapM (bundleUpdate files key bundle)
      return libraries.sha256 updates.flatten

end Glasslab.Contracts
