import Glasslab.Contracts.Bundle
import Glasslab.Foundation.Raising
import Glasslab.Foundation.Joining

/-!
# Contract digests

The digest of a bundle is taken of a stream of framed names and contents, which can be read back
(`fileEntries_eq`). So a file that is hashed has the same bytes in every bundle with the same
digest (`read_eq_of_digest_eq`), and both services take the digest of the same stream
(`computeContractDigest_eq_ok_iff`, `bundleDigest_eq_ok`). `resolve_eq_ok_iff` says what the
resolver found in a bundle that it accepts.
-/

namespace Glasslab.Contracts

open Foundation Foundation.Raising List
open Glasslab.Methodology (pathSuffix)

variable {libraries : Libraries} {files : FileSystem} {root relative : Path} {digest : String}

def content (files : FileSystem) (root relative : Path) : Bytes :=
  (files.read root relative).getD []

/-- A name and a content, each behind its length. -/
def fileCode (entry : Bytes × Bytes) : Bytes := frame 8 entry.1 ++ frame 8 entry.2

def fileEntry (files : FileSystem) (root relative : Path) : Bytes × Bytes :=
  (encode (asPosix relative), content files root relative)

/-- The file can be hashed: it is no link, and its name and size fit the frame. -/
structure Hashable (files : FileSystem) (root relative : Path) : Prop where
  not_link : files.isLink (root ++ relative) = false
  name_lt : (encode (asPosix relative)).length < 256 ^ 8
  content_lt : (content files root relative).length < 256 ^ 8

variable {bytes : Bytes}

theorem toBytes_eq_ok_iff {length : Nat} :
    toBytes length = .ok bytes ↔ length < 256 ^ 8 ∧ bytes = bigEndian 8 length := by
  rw [show 256 ^ 8 = 2 ^ 64 from rfl]
  unfold toBytes
  split <;> simp only [*, true_and, false_and, Except.ok.injEq, reduceCtorEq, eq_comm]

/-- Both services write a file in the same way, and differ in what they say of a link. -/
theorem update_eq_ok_iff {error : Error} :
    (if files.isLink (root ++ relative) then
        .error error
      else do
        let name := encode (asPosix relative)
        let content := (files.read root relative).getD []
        let nameLength ← toBytes name.length
        let contentLength ← toBytes content.length
        return nameLength ++ name ++ contentLength ++ content) = .ok bytes ↔
      Hashable files root relative ∧ bytes = fileCode (fileEntry files root relative) := by
  simp only [check_eq_ok_iff, bind_eq_ok_iff, toBytes_eq_ok_iff, pure_eq_ok_iff]
  constructor
  · rintro ⟨hLink, -, ⟨hName, rfl⟩, -, ⟨hContent, rfl⟩, rfl⟩
    refine ⟨⟨by simpa using hLink, hName, hContent⟩, ?_⟩
    simp only [fileCode, fileEntry, frame, content, append_assoc]
  · rintro ⟨⟨hLink, hName, hContent⟩, rfl⟩
    refine ⟨by simpa using hLink, _, ⟨hName, rfl⟩, _, ⟨hContent, rfl⟩, ?_⟩
    simp only [fileCode, fileEntry, frame, content, append_assoc]

theorem contractUpdate_eq_ok_iff :
    contractUpdate files root relative = .ok bytes ↔
      Hashable files root relative ∧ bytes = fileCode (fileEntry files root relative) :=
  update_eq_ok_iff

variable {key contractId version : String}

theorem bundleUpdate_eq_ok_iff :
    bundleUpdate files key root relative = .ok bytes ↔
      Hashable files root relative ∧ bytes = fileCode (fileEntry files root relative) :=
  update_eq_ok_iff

def hashedStream (files : FileSystem) (root : Path) : Bytes :=
  ((contractFiles files root).map (fileEntry files root)).flatMap fileCode

theorem flatten_fileCodes (relatives : List Path) :
    (relatives.map fun relative => fileCode (fileEntry files root relative)).flatten =
      (relatives.map (fileEntry files root)).flatMap fileCode := by
  rw [flatMap_def, map_map]
  rfl

theorem computeContractDigest_eq_ok_iff :
    computeContractDigest libraries files root = .ok digest ↔
      (files.isLink root = false ∧ files.isDir root = true) ∧ contractFiles files root ≠ [] ∧
        (∀ relative ∈ contractFiles files root, Hashable files root relative) ∧
        digest = libraries.sha256 (hashedStream files root) := by
  simp only [computeContractDigest, check_eq_ok_iff, bind_eq_ok_iff, pure_eq_ok_iff,
    mapM_eq_ok_iff fun _ _ => contractUpdate_eq_ok_iff]
  constructor
  · rintro ⟨hRoot, hFiles, -, ⟨hHashable, rfl⟩, rfl⟩
    rw [flatten_fileCodes]
    exact ⟨by simpa using hRoot, hFiles, hHashable, rfl⟩
  · rintro ⟨hRoot, hFiles, hHashable, rfl⟩
    refine ⟨by simpa using hRoot, hFiles, _, ⟨hHashable, rfl⟩, ?_⟩
    rw [flatten_fileCodes]
    rfl

theorem bundleDigest_eq_ok {mount : Path}
    (h : bundleDigest libraries files key mount root = .ok digest) :
    digest = libraries.sha256 (hashedStream files root) := by
  simp only [bundleDigest, check_eq_ok_iff, bind_eq_ok_iff, pure_eq_ok_iff,
    mapM_eq_ok_iff fun _ _ => bundleUpdate_eq_ok_iff] at h
  obtain ⟨-, -, -, ⟨-, rfl⟩, rfl⟩ := h
  rw [flatten_fileCodes]
  rfl

theorem encode_injective : Function.Injective encode := by
  intro a b h
  apply String.toByteArray_inj.mp
  apply ByteArray.ext
  exact Array.toList_inj.mp h

theorem asPosix_inj {a b : Path} (ha : ∀ name ∈ a, IsName name) (hb : ∀ name ∈ b, IsName name)
    (h : asPosix a = asPosix b) : a = b := by
  have hNames {path : Path} (hPath : ∀ name ∈ path, IsName name) :
      ∀ text ∈ path.map String.toList, text ≠ [] ∧ '/' ∉ text := by
    intro text hText
    obtain ⟨name, hName, rfl⟩ := mem_map.mp hText
    obtain ⟨hEmpty, -, -, hSlash, -⟩ := hPath name hName
    exact ⟨fun hNil => hEmpty (String.toList_eq_nil_iff.mp hNil), hSlash⟩
  have hLists := intercalate_injOn (hNames ha) (hNames hb) (String.ofList_inj.mp h)
  exact map_injective_iff.mpr (fun _ _ => String.toList_injective) hLists

def Kept (relative : Path) : Prop :=
  relative.getLast? ≠ some "contract.sha256" ∧ "__pycache__" ∉ relative ∧
    relative.getLast?.map pathSuffix ≠ some ".pyc".toList

theorem mem_contractFiles : relative ∈ contractFiles files root ↔
    (∃ node, (root ++ relative, node) ∈ files.entries) ∧ files.isFile root relative = true ∧
      Kept relative := by
  rw [contractFiles, mem_sortOn, mem_filter, mem_filterMap, decide_eq_true_iff]
  constructor
  · rintro ⟨⟨⟨path, node⟩, hMem, hPath⟩, hFile, hKept⟩
    have hPath := List.isPrefixOf?_eq_some_iff_append_eq.mp hPath
    exact ⟨⟨node, hPath ▸ hMem⟩, hFile, hKept⟩
  · rintro ⟨⟨node, hMem⟩, hFile, hKept⟩
    exact ⟨⟨(root ++ relative, node), hMem, List.isPrefixOf?_eq_some_iff_append_eq.mpr rfl⟩,
      hFile, hKept⟩

theorem named_of_mem_contractFiles (h : relative ∈ contractFiles files root) :
    ∀ name ∈ relative, IsName name := by
  obtain ⟨⟨node, hMem⟩, -⟩ := mem_contractFiles.mp h
  intro name hName
  exact files.named _ hMem name (mem_append_right _ hName)

/-- A regular file of the bundle that the digest takes in. -/
def Covered (files : FileSystem) (root relative : Path) : Prop :=
  (∃ content, (root ++ relative, .file content) ∈ files.entries) ∧ Kept relative

variable {path root' : Path}

theorem isLink_eq_false_of_file
    (h : (path, .file bytes) ∈ files.entries) : files.isLink path = false := by
  rw [FileSystem.isLink, FileTree.lookup_eq_some_iff.mpr h]

theorem isLink_of_link {target : Path} (h : (path, .link target) ∈ files.entries) :
    files.isLink path = true := by
  rw [FileSystem.isLink, FileTree.lookup_eq_some_iff.mpr h]

theorem read_of_directory (h : (root ++ relative, .directory) ∈ files.entries) :
    files.read root relative = none := by
  rw [FileTree.read, FileTree.realpath_of_mem h (by simp), FileTree.lookup_eq_some_iff.mpr h]

/-- Where a digest is computed, the files taken in are the regular ones with a name to keep. -/
theorem mem_contractFiles_iff_covered
    (hHashable : ∀ relative ∈ contractFiles files root, Hashable files root relative) :
    relative ∈ contractFiles files root ↔ Covered files root relative := by
  constructor
  · intro h
    obtain ⟨⟨node, hMem⟩, hFile, hKept⟩ := mem_contractFiles.mp h
    refine ⟨?_, hKept⟩
    cases node with
    | file bytes => exact ⟨bytes, hMem⟩
    | link target =>
      have hLink := (hHashable relative h).not_link
      rw [isLink_of_link hMem] at hLink
      cases hLink
    | directory =>
      rw [FileSystem.isFile, read_of_directory hMem] at hFile
      cases hFile
  · rintro ⟨⟨bytes, hMem⟩, hKept⟩
    refine mem_contractFiles.mpr ⟨⟨_, hMem⟩, ?_, hKept⟩
    rw [FileSystem.isFile, FileTree.read_of_mem hMem]
    rfl

theorem fileEntries_eq {files' : FileSystem}
    (h : ∀ relative ∈ contractFiles files root, Hashable files root relative)
    (h' : ∀ relative ∈ contractFiles files' root', Hashable files' root' relative)
    (hStream : hashedStream files root = hashedStream files' root') :
    (contractFiles files root).map (fileEntry files root) =
      (contractFiles files' root').map (fileEntry files' root') := by
  refine ((delimits_frame 8).append (delimits_frame 8)).flatMap_inj (fun entry h =>
    frame_ne_nil (by decide) entry.1 (append_eq_nil_iff.mp h).1) ?_ ?_ hStream
  · intro entry hEntry
    obtain ⟨relative, hRelative, rfl⟩ := mem_map.mp hEntry
    exact ⟨(h relative hRelative).name_lt, (h relative hRelative).content_lt⟩
  · intro entry hEntry
    obtain ⟨relative, hRelative, rfl⟩ := mem_map.mp hEntry
    exact ⟨(h' relative hRelative).name_lt, (h' relative hRelative).content_lt⟩

/-- A file that one tree hashes is read with the same bytes in every tree of the same digest. -/
theorem read_eq_of_digest_eq {files' : FileSystem}
    (h : computeContractDigest libraries files root = .ok digest)
    (h' : computeContractDigest libraries files' root' = .ok digest)
    (hRelative : relative ∈ contractFiles files root) :
    files'.read root' relative = files.read root relative := by
  obtain ⟨-, -, hHashable, hDigest⟩ := computeContractDigest_eq_ok_iff.mp h
  obtain ⟨-, -, hHashable', hDigest'⟩ := computeContractDigest_eq_ok_iff.mp h'
  have hStream := libraries.sha256.injective (hDigest.symm.trans hDigest')
  have hEntry : fileEntry files root relative ∈
      (contractFiles files' root').map (fileEntry files' root') := by
    rw [← fileEntries_eq hHashable hHashable' hStream]
    exact mem_map.mpr ⟨relative, hRelative, rfl⟩
  obtain ⟨relative', hRelative', hEq⟩ := mem_map.mp hEntry
  obtain ⟨hName, hContent⟩ := Prod.mk.inj hEq
  have hSame := asPosix_inj (named_of_mem_contractFiles hRelative')
    (named_of_mem_contractFiles hRelative) (encode_injective hName)
  subst hSame
  -- both are files, so the contents are what is read
  have hFile := (mem_contractFiles.mp hRelative).2.1
  have hFile' := (mem_contractFiles.mp hRelative').2.1
  obtain ⟨bytes, hRead⟩ := Option.isSome_iff_exists.mp hFile
  obtain ⟨bytes', hRead'⟩ := Option.isSome_iff_exists.mp hFile'
  rw [content, content, hRead, hRead'] at hContent
  rw [hRead, hRead', show bytes' = bytes from hContent]

/-! ## Accepted bundles -/

/-- A field of the descriptor leads to a file of the bundle. -/
structure Refers (files : FileSystem) (root : Path) (field : String) : Prop where
  relative : safeContractRelativePath field = .ok (parts field)
  no_null : '\x00' ∉ field.toList
  inside : root <+: files.realpath root (parts field)
  file : ∃ bytes, files.read root (parts field) = some bytes

theorem checkReference_eq_ok_iff {field : String} {u : Unit} :
    checkReference files root field = .ok u ↔ Refers files root field ∧ u = () := by
  have hSafe {path : Path} (h : safeContractRelativePath field = .ok path) :
      path = parts field := by
    rw [safeContractRelativePath, check_eq_ok_iff] at h
    exact (Except.ok.inj h.2).symm
  simp only [checkReference, bind_eq_ok_iff, check_eq_ok_iff]
  simp only [not_or, not_not, FileSystem.isFile, Option.isSome_iff_exists]
  constructor
  · rintro ⟨path, hPath, hNull, ⟨hInside, hFile⟩, -⟩
    obtain rfl := hSafe hPath
    exact ⟨⟨hPath, hNull, hInside, hFile⟩, trivial⟩
  · rintro ⟨h, -⟩
    exact ⟨_, h.relative, h.no_null, ⟨h.inside, h.file⟩, trivial⟩

/-- What `verify` finds in the directory of a contract that it accepts. -/
structure Accepted (libraries : Libraries) (files : FileSystem) (contractId version : String)
    (resolved : ResolvedContract) : Prop where
  descriptor : ∃ bytes text, files.read resolved.rootPath ["contract.json"] = some bytes ∧
    readText bytes = some text ∧ libraries.modelValidateJson text = some resolved.descriptor
  identity : resolved.descriptor.contractId = contractId ∧ resolved.descriptor.version = version
  refers : ∀ field ∈ resolved.descriptor.references, Refers files resolved.rootPath field
  checksum : ∃ bytes text, files.read resolved.rootPath ["contract.sha256"] = some bytes ∧
    readText bytes = some text ∧ stripLower text = resolved.digest
  digest : computeContractDigest libraries files resolved.rootPath = .ok resolved.digest

variable {resolved : ResolvedContract}

theorem verify_eq_ok_iff :
    verify libraries files root contractId version = .ok resolved ↔
      resolved.rootPath = root ∧ Accepted libraries files contractId version resolved := by
  have hLoop (fields : List String) (us : List Unit) :
      fields.mapM (checkReference files root) = .ok us ↔
        (∀ field ∈ fields, Refers files root field) ∧ us = fields.map fun _ => () :=
    mapM_eq_ok_iff fun _ _ => checkReference_eq_ok_iff
  rw [verify]
  split
  · rename_i descriptorBytes digestBytes hDescriptor hChecksum
    simp only [bind_eq_ok_iff, elim_eq_ok_iff, check_eq_ok_iff, hLoop, pure_eq_ok_iff, not_or,
      not_not]
    constructor
    · rintro ⟨text, hText, descriptor, hParse, hIdentity, -, ⟨hRefers, -⟩, expected, hExpected,
        actual, hActual, hDigest, rfl⟩
      exact ⟨rfl, ⟨_, text, hDescriptor, hText, hParse⟩, hIdentity, hRefers,
        ⟨_, expected, hChecksum, hExpected, hDigest⟩, hActual⟩
    · rintro ⟨rfl, ⟨bytes, text, hBytes, hText, hParse⟩, hIdentity, hRefers,
        ⟨bytes', expected, hBytes', hExpected, hDigest⟩, hActual⟩
      obtain rfl := Option.some.inj (hDescriptor.symm.trans hBytes)
      obtain rfl := Option.some.inj (hChecksum.symm.trans hBytes')
      exact ⟨text, hText, _, hParse, hIdentity, _, ⟨hRefers, rfl⟩, expected, hExpected, _, hActual,
        hDigest, rfl⟩
  · rename_i hMissing
    constructor
    · intro h
      cases h
    · rintro ⟨rfl, h⟩
      obtain ⟨bytes, -, hBytes, -⟩ := h.descriptor
      obtain ⟨bytes', -, hBytes', -⟩ := h.checksum
      exact absurd hBytes' (hMissing bytes bytes' hBytes)

variable {candidates : List Candidate}

theorem findRoot_eq_some
    (h : findRoot files candidates = .ok (some root)) :
    ∃ candidate ∈ candidates, candidate.place = root ∧ candidate.root <+: root ∧
      files.isDir root = true := by
  induction candidates with
  | nil => cases h
  | cons candidate rest ih =>
    rw [findRoot, check_eq_ok_iff, not_not] at h
    obtain ⟨hInside, h⟩ := h
    split at h
    · rename_i hDir
      obtain rfl := Option.some.inj (Except.ok.inj h)
      exact ⟨candidate, mem_cons_self, rfl, hInside, hDir⟩
    · obtain ⟨found, hFound, hPlace⟩ := ih h
      exact ⟨found, mem_cons_of_mem _ hFound, hPlace⟩

theorem resolve_eq_ok_iff
    :
    resolve libraries files candidates contractId version = .ok resolved ↔
      findRoot files candidates = .ok (some resolved.rootPath) ∧
        Accepted libraries files contractId version resolved := by
  rw [resolve, bind_eq_ok_iff]
  constructor
  · rintro ⟨found, hFound, h⟩
    cases found with
    | none => cases h
    | some root =>
      obtain ⟨rfl, hAccepted⟩ := verify_eq_ok_iff.mp h
      exact ⟨hFound, hAccepted⟩
  · rintro ⟨hFound, hAccepted⟩
    exact ⟨_, hFound, verify_eq_ok_iff.mpr ⟨rfl, hAccepted⟩⟩

section

variable {contractId version : String} {resolved : ResolvedContract}

section

variable (h : Accepted libraries files contractId version resolved)
include h

theorem Accepted.descriptor_hashed :
    ["contract.json"] ∈ contractFiles files resolved.rootPath := by
  obtain ⟨bytes, -, hRead, -⟩ := h.descriptor
  have hFile : files.isFile resolved.rootPath ["contract.json"] = true := by
    rw [FileSystem.isFile, hRead]
    rfl
  have hKept : Kept ["contract.json"] := by
    unfold Kept
    decide +kernel
  refine mem_contractFiles.mpr ⟨?_, hFile, hKept⟩
  rcases FileTree.file_or_link_of_read hRead with hMem | ⟨before, rest, target, hPath, hLink⟩
  · exact ⟨_, hMem⟩
  · cases before with
    | nil =>
      have hRoot := (computeContractDigest_eq_ok_iff.mp h.digest).1.1
      rw [append_nil] at hLink
      rw [isLink_of_link hLink] at hRoot
      cases hRoot
    | cons name before =>
      simp only [cons_append, List.cons.injEq, nil_eq, append_eq_nil_iff] at hPath
      obtain ⟨rfl, rfl, rfl⟩ := hPath
      exact ⟨_, hLink⟩

theorem Accepted.descriptor_eq {files' : FileSystem} {contractId' version' : String}
    {resolved' : ResolvedContract}
    (h' : Accepted libraries files' contractId' version' resolved')
    (hDigest : resolved'.digest = resolved.digest) :
    resolved'.descriptor = resolved.descriptor := by
  have hRead := read_eq_of_digest_eq h.digest (hDigest ▸ h'.digest) h.descriptor_hashed
  obtain ⟨bytes, text, hBytes, hText, hParse⟩ := h.descriptor
  obtain ⟨bytes', text', hBytes', hText', hParse'⟩ := h'.descriptor
  rw [hBytes, hBytes'] at hRead
  obtain rfl := Option.some.inj hRead
  obtain rfl := Option.some.inj (hText.symm.trans hText')
  exact Option.some.inj (hParse'.symm.trans hParse)

end

end

end Glasslab.Contracts
