import Glasslab.Contracts.Digest
import Glasslab.Foundation.Interleaving

/-!
# The trusted catalog

`promote` and `install_repository_contract` of `app/contract_candidates.py` put a bundle in its
place under the promoted root and enter it in the catalog, a JSON file that all runs share. The
catalog is read, changed in memory, written to one temporary file and moved into place, with no
lock around these steps. Engine runs advance in parallel, so calls interleave at any of them.
-/

namespace Glasslab.Contracts.Catalog

open Foundation Foundation.Raising

abbrev Tree := List (Path × Bytes)

instance : DecidablePred Kept := fun _ => inferInstanceAs (Decidable (_ ∧ _))

/-- A sealed candidate, or a bundle that is shipped with the service. -/
structure Source where
  files : Tree
  /-- The text of `contract.sha256`, stripped. -/
  checksum : String
  /-- The descriptor, or what its checks raise. -/
  descriptor : Except Error Descriptor

inductive Failure where
  | contract (e : Error)
  | candidate (message : String)
  | fileNotFound
  | directoryNotEmpty
  deriving DecidableEq, Repr

inductive Call where
  | promote (candidate : Source) (expectedDigest : String)
  | install (source : Source)

/-- `shutil.ignore_patterns('__pycache__', '*.pyc')`. -/
def ignored (name : String) : Bool := name = "__pycache__" ∨ ".pyc".toList <:+ name.toList

/-- What `shutil.copytree` puts in the staging directory. -/
def Call.copied : Call → Tree
  | .promote candidate _ => candidate.files
  | .install source => source.files.filter fun file => !file.1.any ignored

/-- The configuration of a manager, and the hash over the files of a bundle. -/
structure Manager where
  hash : Tree → String
  /-- The promoted root, relative to the shared mount root if it lies inside. -/
  promotedRoot : Option Path

variable (manager : Manager)

/-- `compute_contract_digest` of a tree of regular files. -/
def treeDigest (files : Tree) : Except Error String :=
  let hashed := files.filter fun file => Kept file.1
  if hashed = [] then .error (.integrity "contract has no content")
  else .ok (manager.hash (sortOn Prod.fst hashed))

/-- The checks before the bundle is put in its place: `verify_seal` and its like. -/
def verifySource : Call → Except Error (Descriptor × String)
  | .promote candidate expectedDigest => do
    let actual ← treeDigest manager candidate.files
    if candidate.checksum ≠ expectedDigest ∨ actual ≠ expectedDigest then
      .error (.integrity "sealed candidate digest mismatch")
    else do
      let descriptor ← candidate.descriptor
      return (descriptor, expectedDigest)
  | .install source => do
    let descriptor ← source.descriptor
    let actual ← treeDigest manager source.files
    if source.checksum ≠ actual then
      .error (.integrity ("repository contract digest mismatch: " ++ descriptor.contractId))
    else
      return (descriptor, actual)

structure CatalogEntry where
  contractId : String
  version : String
  digest : String
  bundlePath : String
  executionWrapper : String
  evaluationEntryPoint : String
  deriving DecidableEq, Repr

abbrev CatalogData := List (String × CatalogEntry)

structure Store where
  /-- The directories `promoted_root / contract_id / version`. -/
  promoted : List ((String × String) × Tree)
  catalog : Option CatalogData
  temporary : Option CatalogData

def emptyStore : Store := { promoted := [], catalog := none, temporary := none }

/-- The content of the catalog file, `{}` where there is none. -/
def Store.entries (store : Store) : CatalogData := store.catalog.getD []

def catalogKey (descriptor : Descriptor) : String :=
  descriptor.contractId ++ "@" ++ descriptor.version

def destination (descriptor : Descriptor) : String × String :=
  (descriptor.contractId, descriptor.version)

def bundlePath (root : Path) (descriptor : Descriptor) : String :=
  asPosix (root ++ [descriptor.contractId, descriptor.version])

def catalogEntry (root : Path) (descriptor : Descriptor) (digest : String) : CatalogEntry where
  contractId := descriptor.contractId
  version := descriptor.version
  digest := digest
  bundlePath := bundlePath root descriptor
  executionWrapper := descriptor.executionWrapper
  evaluationEntryPoint := descriptor.evaluationEntryPoint

/-- Where a call is. The digest is the one it checked. -/
inductive Stage where
  | verify
  | locate (descriptor : Descriptor) (digest : String)
  | place (descriptor : Descriptor) (digest : String)
  | readCatalog (descriptor : Descriptor) (digest : String)
  | writeTemporary (root : Path) (descriptor : Descriptor) (digest : String)
      (catalog : CatalogData)
  | replaceCatalog (root : Path) (descriptor : Descriptor) (digest : String)
  | returned (descriptor : Descriptor) (digest : String)
  | raised (failure : Failure)

/-- One step of `promote` or `install_repository_contract`. -/
def next (store : Store) : Call × Stage → Store × (Call × Stage)
  | (call, .verify) =>
    match verifySource manager call with
    | .error e => (store, call, .raised (.contract e))
    | .ok (descriptor, digest) => (store, call, .locate descriptor digest)
  | (call, .locate descriptor digest) =>
    match store.promoted.lookup (destination descriptor) with
    | none => (store, call, .place descriptor digest)
    | some tree =>
      match treeDigest manager tree with
      | .error e => (store, call, .raised (.contract e))
      | .ok existing =>
        if existing ≠ digest then
          (store, call, .raised (.candidate
            (match call with
            | .promote _ _ => "contract version is already promoted with another digest"
            | .install _ => "repository contract conflicts with a promoted version: " ++
                catalogKey descriptor)))
        else (store, call, .readCatalog descriptor digest)
  | (call, .place descriptor digest) =>
    -- `os.replace` does not put a directory in the place of one that has files
    match store.promoted.lookup (destination descriptor) with
    | some _ => (store, call, .raised .directoryNotEmpty)
    | none =>
      ({ store with promoted := store.promoted ++ [(destination descriptor, call.copied)] },
        call, .readCatalog descriptor digest)
  | (call, .readCatalog descriptor digest) =>
    match manager.promotedRoot with
    | none =>
      (store, call, .raised (.candidate "promoted contract is outside the shared mount root"))
    | some root => (store, call, .writeTemporary root descriptor digest store.entries)
  | (call, .writeTemporary root descriptor digest catalog) =>
    let updated := Dict.set (catalogKey descriptor) (catalogEntry root descriptor digest) catalog
    ({ store with temporary := some updated }, call, .replaceCatalog root descriptor digest)
  | (call, .replaceCatalog _ descriptor digest) =>
    match store.temporary with
    | none => (store, call, .raised .fileNotFound)
    | some written =>
      ({ store with catalog := some written, temporary := none }, call,
        .returned descriptor digest)
  | (call, .returned descriptor digest) => (store, call, .returned descriptor digest)
  | (call, .raised failure) => (store, call, .raised failure)

def program : Program Store Call (Call × Stage) where
  enter call := (call, .verify)
  next := next manager

def initial : Threads Store (Call × Stage) := { shared := emptyStore, locals := [] }

end Glasslab.Contracts.Catalog
