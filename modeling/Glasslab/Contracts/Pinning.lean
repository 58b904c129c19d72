import Glasslab.Contracts.Digest
import Mathlib.Data.Set.Finite.Lattice

/-!
# What a contract digest pins

`app/contracts.py` says that contracts are pinned by a content digest, so that nothing an agent
proposes can change what a contract id and version mean after approval. But the digest leaves out
byte code, `__pycache__` directories and every file with the name `contract.sha256`, and it does not
follow symbolic links, while a descriptor may refer to all of these.
-/

namespace Glasslab.Contracts

open Foundation Foundation.Raising List
open Glasslab.Methodology (isSpace pathSuffix)

variable {libraries : Libraries} {files : FileSystem} {root relative : Path}

/-! ## Another bundle with the same digest -/

theorem exists_name_notMem (names : List String) : ∃ name, IsName name ∧ name ∉ names := by
  by_contra hAll
  push Not at hAll
  have hInjective : Function.Injective fun n => String.ofList (List.replicate (n + 1) 'z') := by
    intro n m h
    have hLength := congrArg List.length (String.ofList_inj.mp h)
    simpa using hLength
  have hMem (n : Nat) : String.ofList (List.replicate (n + 1) 'z') ∈ {name | name ∈ names} := by
    apply hAll
    unfold IsName
    simp [← String.toList_inj, replicate_succ]
  exact Set.infinite_of_injective_forall_mem hInjective hMem (finite_toSet names)

variable {bytes : Bytes} {text : List Char}

theorem readText_space (h : readText bytes = some text) :
    readText (32 :: bytes) = some (' ' :: text) := by
  obtain ⟨s, hDecode, rfl⟩ := Option.map_eq_some_iff.mp h
  have hBytes : ByteArray.mk bytes.toArray = s.toByteArray := by
    rw [String.fromUTF8?] at hDecode
    split at hDecode
    · rw [← Option.some.inj hDecode]
      rfl
    · cases hDecode
  have hSpace : ByteArray.mk (32 :: bytes).toArray = (" " ++ s).toByteArray := by
    rw [String.toByteArray_append, ← hBytes]
    apply ByteArray.ext
    rw [ByteArray.data_append]
    have hHead : (" " : String).toByteArray.data = #[32] := rfl
    rw [hHead]
    simp
  rw [readText, hSpace, String.fromUTF8?, dif_pos (" " ++ s).isValidUTF8, Option.map_some]
  rw [show String.fromUTF8 (" " ++ s).toByteArray (" " ++ s).isValidUTF8 = " " ++ s from rfl,
    String.toList_append]
  rfl

theorem stripLower_space (text : List Char) : stripLower (' ' :: text) = stripLower text := by
  have hSpace : isSpace ' ' = true := by decide
  simp only [stripLower, dropWhile_cons, hSpace, if_true]

variable {name : String} {field : String}

theorem isName_of_mem_parts
    (h : safeContractRelativePath field = .ok (parts field)) (hNull : '\x00' ∉ field.toList)
    (hName : name ∈ parts field) : IsName name := by
  rw [safeContractRelativePath, check_eq_ok_iff] at h
  obtain ⟨hSafe, -⟩ := h
  have hDots : name ≠ ".." := by
    rintro rfl
    exact hSafe (.inr (.inl hName))
  obtain ⟨hMem, hPart⟩ := mem_filter.mp hName
  obtain ⟨text, hText, rfl⟩ := mem_map.mp hMem
  obtain ⟨hSlash, hChars⟩ := mem_splitOn hText
  have hPart := of_decide_eq_true hPart
  refine ⟨hPart.1, hPart.2, hDots, ?_, ?_⟩
  · rwa [String.toList_ofList]
  · rw [String.toList_ofList]
    exact fun hMem => hNull (hChars _ hMem)

variable {node : TreeNode String Bytes}

theorem isDir_of_mem (hRelative : relative ≠ [])
    (h : (root ++ relative, node) ∈ files.entries) : files.isDir root = true := by
  refine any_eq_true.mpr ⟨_, h, ?_⟩
  have hPrefix : root.isPrefixOf (root ++ relative) = true :=
    isPrefixOf_iff_prefix.mpr (prefix_append _ _)
  cases node <;> simp [hRelative]

theorem isLink_eq_false_of_mem (hRelative : relative ≠ [])
    (h : (root ++ relative, node) ∈ files.entries) : files.isLink root = false := by
  by_contra hLink
  rw [FileSystem.isLink] at hLink
  split at hLink
  · rename_i target hTarget
    have hEq := (files.eq_of_isPrefix (FileTree.lookup_eq_some_iff.mp hTarget) h
      (prefix_append _ _)).1
    exact hRelative (self_eq_append_right.mp hEq)
  · exact hLink rfl

def readPaths (descriptor : Descriptor) : List Path :=
  (["contract.sha256"] :: descriptor.references.map parts).dedup

/-- The contents, with a space before the one at `changed`. -/
def spaced (files : FileSystem) (root changed path : Path) : Bytes :=
  if path = changed then 32 :: content files root path else content files root path

section

variable {contractId version : String} {resolved : ResolvedContract}

theorem mem_readPaths {descriptor : Descriptor} {path : Path} : path ∈ readPaths descriptor ↔
    path = ["contract.sha256"] ∨ ∃ field ∈ descriptor.references, parts field = path := by
  rw [readPaths, mem_dedup, mem_cons, mem_map]

theorem nodup_readPaths (descriptor : Descriptor) : (readPaths descriptor).Nodup :=
  nodup_dedup _

section

variable (h : Accepted libraries files contractId version resolved)
include h

theorem Accepted.reads :
    ∀ path ∈ readPaths resolved.descriptor,
      ∃ bytes, files.read resolved.rootPath path = some bytes := by
  intro path hPath
  rcases mem_readPaths.mp hPath with rfl | ⟨field, hField, rfl⟩
  · obtain ⟨bytes, -, hRead, -⟩ := h.checksum
    exact ⟨bytes, hRead⟩
  · exact (h.refers field hField).file

theorem Accepted.readPaths_named :
    ∀ path ∈ readPaths resolved.descriptor, ∀ name ∈ path, IsName name := by
  intro path hPath name hName
  rcases mem_readPaths.mp hPath with rfl | ⟨field, hField, rfl⟩
  · rw [mem_singleton.mp hName]
    unfold IsName
    simp
  · exact isName_of_mem_parts (h.refers field hField).relative (h.refers field hField).no_null hName

theorem Accepted.exists_descriptor :
    ∃ bytes, (resolved.rootPath ++ ["contract.json"], .file bytes) ∈ files.entries := by
  obtain ⟨-, -, hHashable, -⟩ := computeContractDigest_eq_ok_iff.mp h.digest
  exact ((mem_contractFiles_iff_covered hHashable).mp h.descriptor_hashed).1

/-- There is room for a hidden directory in the bundle. -/
theorem Accepted.exists_hidden :
    ∃ name, IsName name ∧ ∀ entry ∈ files.entries, ∀ rest,
      Apart entry.1 (resolved.rootPath ++ [name, "__pycache__"] ++ rest) := by
  obtain ⟨name, hName, hFresh⟩ := exists_name_notMem (files.entries.flatMap Prod.fst)
  refine ⟨name, hName, fun entry hEntry rest => ?_⟩
  have hNot : name ∉ entry.1 := fun hMem => hFresh (mem_flatMap.mpr ⟨entry, hEntry, hMem⟩)
  have hInside : resolved.rootPath ++ [name] <+:
      resolved.rootPath ++ [name, "__pycache__"] ++ rest := by simp
  have hBelow : ¬ resolved.rootPath ++ [name] <+: entry.1 := by
    intro hPrefix
    exact hNot (hPrefix.subset (by simp))
  constructor
  · intro hPrefix
    rcases prefix_or_prefix_of_prefix hPrefix hInside with hAbove | hAbove
    · rcases prefix_concat_iff.mp hAbove with hEq | hRoot
      · exact hBelow (hEq ▸ prefix_refl _)
      · -- nothing stands above the descriptor
        obtain ⟨bytes, hMem⟩ := h.exists_descriptor
        have hEq := (files.eq_of_isPrefix hEntry hMem (hRoot.trans (prefix_append _ _))).1
        have hLength := hRoot.length_le
        rw [hEq, length_append, length_singleton] at hLength
        omega
    · exact hBelow hAbove
  · intro hPrefix
    exact hBelow (hInside.trans hPrefix)

end

/-- The bundle with a space before the file that is read at `changed`. What is read through a link
is a copy in a `__pycache__` directory, which no digest takes in. -/
def altered (h : Accepted libraries files contractId version resolved) {name : String}
    (hName : IsName name)
    (hHidden : ∀ entry ∈ files.entries, ∀ rest,
      Apart entry.1 (resolved.rootPath ++ [name, "__pycache__"] ++ rest)) (changed : Path) :
    FileSystem where
  toFileTree := files.divert resolved.rootPath [name, "__pycache__"] (readPaths resolved.descriptor)
    (spaced files resolved.rootPath changed) hHidden (nodup_readPaths _) h.reads
  named := by
    intro entry hEntry part hPart
    rcases List.mem_append.mp hEntry with hEntry | hEntry
    · obtain ⟨old, hOld, rfl⟩ := List.mem_map.mp hEntry
      exact files.named old hOld part hPart
    · obtain ⟨path, hPath, rfl⟩ := List.mem_map.mp hEntry
      have hPath := (List.mem_filter.mp hPath).1
      rcases List.mem_append.mp hPart with hPart | hPart
      · rcases List.mem_append.mp hPart with hPart | hPart
        · obtain ⟨bytes, hMem⟩ := h.exists_descriptor
          exact files.named _ hMem part (List.mem_append_left _ hPart)
        · simp only [List.mem_cons, List.not_mem_nil, or_false] at hPart
          rcases hPart with rfl | rfl
          · exact hName
          · unfold IsName
            decide +kernel
      · exact h.readPaths_named path hPath part hPart

section Altered

variable (h : Accepted libraries files contractId version resolved) (hName : IsName name)
  (hHidden : ∀ entry ∈ files.entries, ∀ rest,
    Apart entry.1 (resolved.rootPath ++ [name, "__pycache__"] ++ rest))
  {changed : Path}
variable {path : Path}

theorem read_altered (hPath : path ∈ readPaths resolved.descriptor) :
    (altered h hName hHidden changed).read resolved.rootPath path =
      some (spaced files resolved.rootPath changed path) :=
  FileTree.read_divert _ hHidden (nodup_readPaths _) h.reads hPath

theorem prefix_realpath_altered (hPath : path ∈ readPaths resolved.descriptor) :
    resolved.rootPath <+: (altered h hName hHidden changed).realpath resolved.rootPath path := by
  obtain ⟨place, hPlace, -⟩ := FileTree.realpath_divert (spaced files resolved.rootPath changed)
    hHidden (nodup_readPaths _) h.reads hPath
  exact hPlace ▸ prefix_append _ _

theorem altered_of_hashed (hChanged : changed ∉ contractFiles files resolved.rootPath)
    (hRelative : relative ∈ contractFiles files resolved.rootPath) :
    (∃ bytes, (resolved.rootPath ++ relative, .file bytes) ∈
        (altered h hName hHidden changed).entries) ∧
      (altered h hName hHidden changed).read resolved.rootPath relative =
        files.read resolved.rootPath relative := by
  obtain ⟨-, -, hHashable, -⟩ := computeContractDigest_eq_ok_iff.mp h.digest
  obtain ⟨⟨bytes, hMem⟩, -⟩ := (mem_contractFiles_iff_covered hHashable).mp hRelative
  have hNe : relative ≠ changed := fun hEq => hChanged (hEq ▸ hRelative)
  have hRead := FileTree.read_of_mem hMem
  have hNew := FileTree.mem_divert_file (spaced files resolved.rootPath changed) hHidden
    (nodup_readPaths _) h.reads hMem
  have hSame : (if relative ∈ readPaths resolved.descriptor then
      spaced files resolved.rootPath changed relative else bytes) = bytes := by
    split
    · rw [spaced, if_neg hNe, content, hRead]
      rfl
    · rfl
  rw [hSame] at hNew
  exact ⟨⟨bytes, hNew⟩, (FileTree.read_of_mem hNew).trans hRead.symm⟩

theorem isFile_altered {node : TreeNode String Bytes}
    (hMem : (resolved.rootPath ++ relative, node) ∈ files.entries) (hKept : Kept relative) :
    (altered h hName hHidden changed).isFile resolved.rootPath relative =
      files.isFile resolved.rootPath relative := by
  by_cases hPath : relative ∈ readPaths resolved.descriptor
  · obtain ⟨bytes, hRead⟩ := h.reads relative hPath
    rw [FileSystem.isFile, FileSystem.isFile, read_altered h hName hHidden hPath, hRead]
    rfl
  · have hNew := FileTree.read_divert_of_mem (spaced files resolved.rootPath changed) hHidden
      (nodup_readPaths _) h.reads hMem hPath
    rw [FileSystem.isFile, FileSystem.isFile]
    refine (congrArg Option.isSome hNew).trans ?_
    cases node with
    | file bytes => rw [FileTree.read_of_mem hMem]
    | directory => rw [read_of_directory hMem]
    | link target =>
      -- a link to a file would have been refused
      obtain ⟨-, -, hHashable, -⟩ := computeContractDigest_eq_ok_iff.mp h.digest
      by_contra hFile
      have hFile : files.isFile resolved.rootPath relative = true := by
        rw [FileSystem.isFile, Option.isSome_iff_ne_none]
        simpa using hFile
      have hLink := (hHashable relative (mem_contractFiles.mpr ⟨⟨_, hMem⟩, hFile, hKept⟩)).not_link
      rw [isLink_of_link hMem] at hLink
      cases hLink

theorem contractFiles_altered :
    contractFiles (altered h hName hHidden changed) resolved.rootPath =
      contractFiles files resolved.rootPath := by
  have hEntries : (altered h hName hHidden changed).entries =
      FileTree.divertEntries resolved.rootPath [name, "__pycache__"]
        (readPaths resolved.descriptor) (spaced files resolved.rootPath changed)
        files.toFileTree := rfl
  rw [contractFiles, contractFiles, hEntries, FileTree.divertEntries, filterMap_append,
    filter_append, filterMap_map]
  congr 1
  have hCopies : ((((readPaths resolved.descriptor).filter fun path =>
      !files.isFileAt (resolved.rootPath ++ path)).map fun path =>
        (resolved.rootPath ++ [name, "__pycache__"] ++ path,
          TreeNode.file (N := String) (spaced files resolved.rootPath changed path))).filterMap
            fun entry => resolved.rootPath.isPrefixOf? entry.1).filter (fun relative =>
      decide ((altered h hName hHidden changed).isFile resolved.rootPath relative ∧
        relative.getLast? ≠ some "contract.sha256" ∧ "__pycache__" ∉ relative ∧
        relative.getLast?.map pathSuffix ≠ some ".pyc".toList)) = [] := by
    refine filter_eq_nil_iff.mpr fun relative hRelative => ?_
    obtain ⟨entry, hEntry, hPrefix⟩ := mem_filterMap.mp hRelative
    obtain ⟨path, -, rfl⟩ := mem_map.mp hEntry
    have hPath := List.isPrefixOf?_eq_some_iff_append_eq.mp hPrefix
    rw [append_assoc] at hPath
    obtain rfl := append_cancel_left hPath
    simp
  rw [hCopies, append_nil]
  refine filter_congr fun relative hRelative => ?_
  obtain ⟨⟨path, node⟩, hMem, hPrefix⟩ := mem_filterMap.mp hRelative
  have hPath := List.isPrefixOf?_eq_some_iff_append_eq.mp hPrefix
  subst hPath
  refine decide_eq_decide.mpr (and_congr_left fun hKept => ?_)
  rw [isFile_altered h hName hHidden hMem hKept]

section

variable (hChanged : changed ∉ contractFiles files resolved.rootPath)
include hChanged

theorem computeContractDigest_altered :
    computeContractDigest libraries (altered h hName hHidden changed) resolved.rootPath =
      .ok resolved.digest := by
  obtain ⟨-, hNonempty, hHashable, hDigest⟩ := computeContractDigest_eq_ok_iff.mp h.digest
  have hFiles : contractFiles (altered h hName hHidden changed) resolved.rootPath =
      contractFiles files resolved.rootPath := contractFiles_altered h hName hHidden
  have hSame {relative : Path} (hRelative : relative ∈ contractFiles files resolved.rootPath) :=
    altered_of_hashed h hName hHidden hChanged hRelative
  obtain ⟨⟨bytes, hMem⟩, -⟩ := hSame h.descriptor_hashed
  have hContent {relative : Path} (hRelative : relative ∈ contractFiles files resolved.rootPath) :
      content (altered h hName hHidden changed) resolved.rootPath relative =
        content files resolved.rootPath relative := by
    rw [content, content, (hSame hRelative).2]
  refine computeContractDigest_eq_ok_iff.mpr ⟨⟨?_, ?_⟩, ?_, ?_, ?_⟩
  · exact isLink_eq_false_of_mem (cons_ne_nil _ _) hMem
  · exact isDir_of_mem (cons_ne_nil _ _) hMem
  · rwa [hFiles]
  · intro relative hRelative
    rw [hFiles] at hRelative
    obtain ⟨⟨bytes, hMem⟩, -⟩ := hSame hRelative
    refine ⟨isLink_eq_false_of_file hMem, (hHashable relative hRelative).name_lt, ?_⟩
    rw [hContent hRelative]
    exact (hHashable relative hRelative).content_lt
  · rw [hDigest, hashedStream, hashedStream, hFiles]
    congr 2
    refine map_congr_left fun relative hRelative => ?_
    rw [fileEntry, fileEntry, hContent hRelative]

theorem accepted_altered :
    Accepted libraries (altered h hName hHidden changed) contractId version resolved where
  descriptor := by
    rw [(altered_of_hashed h hName hHidden hChanged h.descriptor_hashed).2]
    exact h.descriptor
  identity := h.identity
  refers := by
    intro field hField
    have hPath : parts field ∈ readPaths resolved.descriptor :=
      mem_readPaths.mpr (.inr ⟨field, hField, rfl⟩)
    exact ⟨(h.refers field hField).relative, (h.refers field hField).no_null,
      prefix_realpath_altered h hName hHidden hPath, _, read_altered h hName hHidden hPath⟩
  checksum := by
    obtain ⟨bytes, text, hRead, hText, hDigest⟩ := h.checksum
    have hPath : ["contract.sha256"] ∈ readPaths resolved.descriptor :=
      mem_readPaths.mpr (.inl rfl)
    rw [read_altered h hName hHidden hPath, spaced, content, hRead]
    split
    · refine ⟨_, _, rfl, readText_space hText, ?_⟩
      rwa [stripLower_space]
    · exact ⟨_, _, rfl, hText, hDigest⟩
  digest := computeContractDigest_altered h hName hHidden hChanged

end

end Altered

/-- The bytes of the execution wrapper, the entry point and the two schemas. -/
def referencedBytes (files : FileSystem) (resolved : ResolvedContract) : List (Option Bytes) :=
  resolved.descriptor.references.map fun field => files.read resolved.rootPath (parts field)

/-- Every bundle that is accepted with this digest has this descriptor and these bytes. -/
def Pinned (libraries : Libraries) (files : FileSystem) (resolved : ResolvedContract) : Prop :=
  ∀ files' candidates contractId version resolved',
    resolve libraries files' candidates contractId version = .ok resolved' →
      resolved'.digest = resolved.digest →
        resolved'.descriptor = resolved.descriptor ∧
          referencedBytes files' resolved' = referencedBytes files resolved

theorem pinned_of_covered (h : Accepted libraries files contractId version resolved)
    (hCovered : ∀ field ∈ resolved.descriptor.references,
      Covered files resolved.rootPath (parts field)) : Pinned libraries files resolved := by
  intro files' candidates contractId' version' resolved' hResolve hDigest
  obtain ⟨-, h'⟩ := resolve_eq_ok_iff.mp hResolve
  have hDescriptor := h.descriptor_eq h' hDigest
  refine ⟨hDescriptor, ?_⟩
  rw [referencedBytes, referencedBytes, hDescriptor]
  refine map_congr_left fun field hField => ?_
  obtain ⟨-, -, hHashable, -⟩ := computeContractDigest_eq_ok_iff.mp h.digest
  have hHashed := (mem_contractFiles_iff_covered hHashable).mpr (hCovered field hField)
  exact read_eq_of_digest_eq h.digest (hDigest ▸ h'.digest) hHashed

theorem covered_of_pinned {candidates : List Candidate}
    (h : resolve libraries files candidates contractId version = .ok resolved)
    (hPinned : Pinned libraries files resolved) :
    ∀ field ∈ resolved.descriptor.references, Covered files resolved.rootPath (parts field) := by
  intro field hField
  by_contra hNot
  obtain ⟨hRoot, hAccepted⟩ := resolve_eq_ok_iff.mp h
  obtain ⟨-, -, hHashable, -⟩ := computeContractDigest_eq_ok_iff.mp hAccepted.digest
  rw [← mem_contractFiles_iff_covered hHashable] at hNot
  obtain ⟨name, hName, hHidden⟩ := hAccepted.exists_hidden
  -- the altered bundle, at the same place
  obtain ⟨candidate, -, hPlace, hInside, -⟩ := findRoot_eq_some hRoot
  obtain ⟨⟨bytes, hMem⟩, -⟩ :=
    altered_of_hashed hAccepted hName hHidden hNot hAccepted.descriptor_hashed
  have hFound : findRoot (altered hAccepted hName hHidden (parts field)) [candidate] =
      .ok (some resolved.rootPath) := by
    rw [findRoot, hPlace, check_eq_ok_iff, not_not,
      isDir_of_mem (cons_ne_nil _ _) hMem, if_pos rfl]
    exact ⟨hInside, rfl⟩
  have hResolve := resolve_eq_ok_iff.mpr
    ⟨hFound, accepted_altered hAccepted hName hHidden hNot⟩
  obtain ⟨-, hBytes⟩ := hPinned _ _ _ _ _ hResolve rfl
  have hSame := map_inj_left.mp hBytes field hField
  have hPath : parts field ∈ readPaths resolved.descriptor :=
    mem_readPaths.mpr (.inr ⟨field, hField, rfl⟩)
  obtain ⟨bytes', hRead⟩ := hAccepted.reads _ hPath
  rw [read_altered hAccepted hName hHidden hPath, spaced, if_pos rfl, content, hRead] at hSame
  have hLength := congrArg List.length (Option.some.inj hSame)
  simp at hLength

/-- The digest of an accepted bundle pins what the contract does exactly if each of the four files
that the descriptor names is a regular file of the bundle, reached through no symbolic link and
not left out of the digest by its name. The two services compute the same digest of every
tree. -/
theorem pinned_iff_covered (libraries : Libraries) (files : FileSystem)
    (candidates : List Candidate) (contractId version : String) (resolved : ResolvedContract)
    (h : resolve libraries files candidates contractId version = .ok resolved) :
    (Pinned libraries files resolved ↔
      ∀ field ∈ resolved.descriptor.references, Covered files resolved.rootPath (parts field)) ∧
    ∀ (tree : FileSystem) (root mount : Path) (key digest digest' : String),
      computeContractDigest libraries tree root = .ok digest →
        bundleDigest libraries tree key mount root = .ok digest' → digest = digest' := by
  refine ⟨⟨covered_of_pinned h, pinned_of_covered (resolve_eq_ok_iff.mp h).2⟩, ?_⟩
  intro tree root mount key digest digest' hContract hBundle
  obtain ⟨-, -, -, hDigest⟩ := computeContractDigest_eq_ok_iff.mp hContract
  rw [hDigest, bundleDigest_eq_ok hBundle]

end

/-! ## A bundle whose wrapper is byte code -/

def regularFiles (contents : List (Path × Bytes)) (hApart : (contents.map Prod.fst).Pairwise Apart)
    (hNamed : ∀ path ∈ contents.map Prod.fst, ∀ name ∈ path, IsName name) : FileSystem where
  entries := contents.map fun entry => (entry.1, .file entry.2)
  apart := List.pairwise_map.mpr (List.pairwise_map.mp hApart)
  real := by
    intro path target hLink
    obtain ⟨entry, -, hEq⟩ := List.mem_map.mp hLink
    cases (Prod.mk.inj hEq).2
  named := by
    intro entry hEntry name hName
    obtain ⟨old, hOld, rfl⟩ := List.mem_map.mp hEntry
    exact hNamed old.1 (List.mem_map.mpr ⟨old, hOld, rfl⟩) name hName

def hexCode (byte : UInt8) : List Char :=
  [Nat.digitChar (byte.toNat / 16), Nat.digitChar (byte.toNat % 16)]

theorem delimits_hexCode : Delimits hexCode Set.univ := by
  intro a _ b _ s t h
  have hDigit : ∀ n < 16, ∀ m < 16, Nat.digitChar n = Nat.digitChar m → n = m := by decide
  simp only [hexCode, cons_append, nil_append, List.cons.injEq] at h
  have ha := a.toNat_lt
  have hb := b.toNat_lt
  have hHigh := hDigit _ (by omega) _ (by omega) h.1
  have hLow := hDigit _ (by omega) _ (by omega) h.2.1
  exact ⟨UInt8.toNat_inj.mp (by omega), h.2.2⟩

/-- A digest without collisions, in hexadecimal digits. -/
def hexdigest : Bytes ↪ String where
  toFun bytes := String.ofList (bytes.flatMap hexCode)
  inj' := by
    intro a b h
    exact delimits_hexCode.flatMap_inj (by simp [hexCode]) (by simp) (by simp)
      (String.ofList_inj.mp h)

theorem hexDigit_plain {c : Char} (h : c ∈ bytes.flatMap hexCode) :
    isSpace c = false ∧ c.toLower = c ∧ c ≠ '\r' := by
  have hPlain : ∀ n < 16, isSpace (Nat.digitChar n) = false ∧
      (Nat.digitChar n).toLower = Nat.digitChar n ∧ Nat.digitChar n ≠ '\r' := by decide
  obtain ⟨byte, -, hc⟩ := mem_flatMap.mp h
  have hByte := byte.toNat_lt
  simp only [hexCode, mem_cons, not_mem_nil, or_false] at hc
  rcases hc with rfl | rfl
  · exact hPlain _ (by omega)
  · exact hPlain _ (by omega)

theorem universalNewlines_of_notMem (h : '\r' ∉ text) :
    universalNewlines text = text := by
  induction text using universalNewlines.induct with
  | case1 => rfl
  | case2 rest ih => simp at h
  | case3 rest _ ih => simp at h
  | case4 c rest _ _ ih =>
    rw [universalNewlines, ih (fun hMem => h (mem_cons_of_mem _ hMem))]
    · assumption
    · assumption

theorem readText_encode (text : String) :
    readText (encode text) = some (universalNewlines text.toList) := by
  have hBytes : ByteArray.mk (encode text).toArray = text.toByteArray := by
    simp [encode]
  rw [readText, hBytes, String.fromUTF8?, dif_pos text.isValidUTF8, Option.map_some]
  rfl

theorem stripLower_hexdigest (bytes : Bytes) :
    stripLower (universalNewlines (hexdigest bytes).toList) = hexdigest bytes := by
  have hPlain := fun c (h : c ∈ bytes.flatMap hexCode) => hexDigit_plain h
  have hStart {text : List Char} (h : ∀ c ∈ text, isSpace c = false) :
      text.dropWhile isSpace = text := by
    cases text with
    | nil => rfl
    | cons c rest => rw [dropWhile_cons, h c mem_cons_self, if_neg Bool.false_ne_true]
  rw [show (hexdigest _).toList = _ from String.toList_ofList,
    universalNewlines_of_notMem fun hReturn => (hPlain _ hReturn).2.2 rfl,
    stripLower, hStart fun c hc => (hPlain c hc).1]
  rw [hStart fun c hc => (hPlain c (mem_reverse.mp hc)).1, reverse_reverse]
  refine congrArg String.ofList ?_
  exact (map_congr_left fun c hc => (hPlain c hc).2.1).trans (map_id _)

def demoRoot : Path := ["bundles", "demo", "1.0.0"]

def demoWrapper (compiled : Bool) : String := if compiled then "run.pyc" else "run.py"

def demoDescriptor (compiled : Bool) : Descriptor where
  contractId := "demo"
  version := "1.0.0"
  manifest := []
  executionWrapper := demoWrapper compiled
  evaluationEntryPoint := "evaluate.py"
  expectedInputSchema := "input.json"
  expectedOutputSchema := "output.json"
  requiredArtifacts := ["metrics.json"]
  resourceConstraints := ⟨.finite 1, .finite 1, 0, 5⟩
  containerImageDigest := none

def demoText (compiled : Bool) : String :=
  "\x7b\"contract_id\": \"demo\", \"version\": \"1.0.0\", \"manifest\": \x7b\x7d, " ++
  "\"execution_wrapper\": \"" ++ demoWrapper compiled ++ "\", " ++
  "\"evaluation_entry_point\": \"evaluate.py\", " ++
  "\"expected_input_schema\": \"input.json\", \"expected_output_schema\": \"output.json\", " ++
  "\"required_artifacts\": [\"metrics.json\"], \"resource_constraints\": " ++
  "\x7b\"cpu\": 1, \"memory_gib\": 1, \"gpus\": 0, \"wallclock_minutes\": 5\x7d\x7d"

def demoLibraries (compiled : Bool) : Libraries where
  sha256 := hexdigest
  modelValidateJson text :=
    if text = universalNewlines (demoText compiled).toList then some (demoDescriptor compiled)
    else none

/-- The files of the bundle besides the checksum. -/
def demoSources (compiled : Bool) (source : Bytes) : List (String × Bytes) :=
  [("contract.json", encode (demoText compiled)), ("evaluate.py", encode "main()"),
    ("input.json", encode "\x7b\x7d"), ("output.json", encode "\x7b\x7d"),
    (demoWrapper compiled, source)]

def demoDigest (compiled : Bool) (source : Bytes) : String :=
  hexdigest (((demoSources compiled source).take (if compiled then 4 else 5)).flatMap
    fun entry => fileCode (encode entry.1, entry.2))

def demoContents (compiled : Bool) (source : Bytes) : List (Path × Bytes) :=
  (demoSources compiled source ++ [("contract.sha256", encode (demoDigest compiled source))]).map
    fun entry => (demoRoot ++ [entry.1], entry.2)

def demoNames (compiled : Bool) : List String :=
  ["contract.json", "evaluate.py", "input.json", "output.json", demoWrapper compiled,
    "contract.sha256"]

def demoFiles (compiled : Bool) (source : Bytes) : FileSystem :=
  have hPaths : (demoContents compiled source).map Prod.fst =
      (demoNames compiled).map fun name => demoRoot ++ [name] := rfl
  have hApart : ∀ compiled, ((demoNames compiled).map fun name => demoRoot ++ [name]).Pairwise
      Apart := by
    unfold Apart
    decide +kernel
  have hNamed : ∀ compiled, ∀ path ∈ (demoNames compiled).map (fun name => demoRoot ++ [name]),
      ∀ name ∈ path, IsName name := by
    unfold IsName
    decide +kernel
  regularFiles (demoContents compiled source) (hPaths ▸ hApart compiled) (hPaths ▸ hNamed compiled)

def demoContract (compiled : Bool) (source : Bytes) : ResolvedContract where
  descriptor := demoDescriptor compiled
  digest := demoDigest compiled source
  rootPath := demoRoot

variable {compiled : Bool} {source : Bytes}

section

variable (h : (name, bytes) ∈ demoSources compiled source ++
  [("contract.sha256", encode (demoDigest compiled source))])
include h

theorem mem_demoFiles :
    (demoRoot ++ [name], .file bytes) ∈ (demoFiles compiled source).entries :=
  mem_map.mpr ⟨(demoRoot ++ [name], bytes), mem_map.mpr ⟨_, h, rfl⟩, rfl⟩

theorem read_demoFiles :
    (demoFiles compiled source).read demoRoot [name] = some bytes :=
  FileTree.read_of_mem (mem_demoFiles h)

end

theorem refers_demo (compiled : Bool) (source : Bytes)
    (h : field ∈ (demoDescriptor compiled).references) :
    Refers (demoFiles compiled source) demoRoot field := by
  have hParts : ∀ compiled, ∀ field ∈ (demoDescriptor compiled).references,
      safeContractRelativePath field = .ok [field] ∧ parts field = [field] ∧
        '\x00' ∉ field.toList := by
    decide +kernel
  obtain ⟨hSafe, hParts, hNull⟩ := hParts compiled field h
  have hFile : ∃ bytes, (field, bytes) ∈ demoSources compiled source ++
      [("contract.sha256", encode (demoDigest compiled source))] := by
    simp only [Descriptor.references, demoDescriptor, mem_cons, not_mem_nil,
      or_false] at h
    rcases h with rfl | rfl | rfl | rfl
    · exact ⟨source, by simp [demoSources]⟩
    · exact ⟨encode "main()", by simp [demoSources]⟩
    · exact ⟨encode "\x7b\x7d", by simp [demoSources]⟩
    · exact ⟨encode "\x7b\x7d", by simp [demoSources]⟩
  obtain ⟨bytes, hFile⟩ := hFile
  refine ⟨hParts ▸ hSafe, hNull, ?_, ?_⟩
  · rw [hParts, FileTree.realpath_of_mem (mem_demoFiles hFile) (by simp)]
    exact prefix_append _ _
  · rw [hParts]
    exact ⟨bytes, read_demoFiles hFile⟩

theorem fileEntry_demoFiles (h : (name, bytes) ∈ demoSources compiled source) :
    fileEntry (demoFiles compiled source) demoRoot [name] = (encode name, bytes) := by
  have hRead := read_demoFiles (mem_append_left [("contract.sha256", _)] h)
  rw [fileEntry, content, hRead, asPosix, map_singleton, intercalate_singleton,
    String.ofList_toList]
  rfl

section

variable
  (hFiles : contractFiles (demoFiles compiled source) demoRoot =
    ((demoSources compiled source).take (if compiled then 4 else 5)).map fun entry => [entry.1])
  (hSizes : ∀ entry ∈ demoSources compiled source, (encode entry.1).length < 256 ^ 8 ∧
    entry.2.length < 256 ^ 8)

theorem mem_descriptor : (demoRoot ++ ["contract.json"], .file (encode (demoText compiled))) ∈
    (demoFiles compiled source).entries :=
  mem_demoFiles (by simp [demoSources])

include hFiles hSizes in
theorem computeContractDigest_demo :
    computeContractDigest (demoLibraries compiled) (demoFiles compiled source) demoRoot =
      .ok (demoDigest compiled source) := by
  refine computeContractDigest_eq_ok_iff.mpr ⟨⟨?_, ?_⟩, ?_, ?_, ?_⟩
  · exact isLink_eq_false_of_mem (cons_ne_nil _ _) mem_descriptor
  · exact isDir_of_mem (cons_ne_nil _ _) mem_descriptor
  · rw [hFiles]
    cases compiled <;> simp [demoSources]
  · intro relative hRelative
    rw [hFiles] at hRelative
    obtain ⟨entry, hEntry, rfl⟩ := mem_map.mp hRelative
    have hEntry := mem_of_mem_take hEntry
    obtain ⟨hName, hContent⟩ := Prod.mk.inj (fileEntry_demoFiles hEntry)
    refine ⟨isLink_eq_false_of_file (mem_demoFiles (mem_append_left _ hEntry)), ?_, ?_⟩
    · rw [hName]
      exact (hSizes entry hEntry).1
    · rw [hContent]
      exact (hSizes entry hEntry).2
  · rw [hashedStream, hFiles, map_map, flatMap_map]
    refine congrArg hexdigest (flatMap_congr fun entry hEntry => ?_)
    rw [Function.comp_apply, fileEntry_demoFiles (mem_of_mem_take hEntry)]

include hFiles hSizes in
/-- The bundle is accepted, once it is known which of its files are hashed. -/
theorem resolve_demo :
    resolve (demoLibraries compiled) (demoFiles compiled source) [⟨["bundles"], demoRoot⟩]
      "demo" "1.0.0" = .ok (demoContract compiled source) := by
  have hParse : (demoLibraries compiled).modelValidateJson
      (universalNewlines (demoText compiled).toList) = some (demoDescriptor compiled) := by
    simp only [demoLibraries, ↓reduceIte]
  have hChecksum : (demoFiles compiled source).read demoRoot ["contract.sha256"] =
      some (encode (demoDigest compiled source)) :=
    read_demoFiles (mem_append_right _ mem_cons_self)
  have hStrip : stripLower (universalNewlines (demoDigest compiled source).toList) =
      demoDigest compiled source := by
    rw [demoDigest, stripLower_hexdigest]
  refine resolve_eq_ok_iff.mpr ⟨?_, ?_⟩
  · rw [findRoot, check_eq_ok_iff, isDir_of_mem (cons_ne_nil _ _) mem_descriptor, if_pos rfl]
    exact ⟨by decide, rfl⟩
  · constructor
    · exact ⟨_, _, FileTree.read_of_mem mem_descriptor, readText_encode _, hParse⟩
    · exact ⟨rfl, rfl⟩
    · exact fun field hField => refers_demo compiled source hField
    · exact ⟨_, _, hChecksum, readText_encode _, hStrip⟩
    · exact computeContractDigest_demo hFiles hSizes

end

theorem pinned_demo :
    resolve (demoLibraries false) (demoFiles false [1]) [⟨["bundles"], demoRoot⟩] "demo" "1.0.0" =
        .ok (demoContract false [1]) ∧
      Pinned (demoLibraries false) (demoFiles false [1]) (demoContract false [1]) := by
  have h : resolve (demoLibraries false) (demoFiles false [1]) [⟨["bundles"], demoRoot⟩] "demo"
      "1.0.0" = .ok (demoContract false [1]) := resolve_demo (by decide +kernel) (by decide +kernel)
  refine ⟨h, (pinned_iff_covered _ _ _ _ _ _ h).1.mpr fun field hField => ?_⟩
  have hHashed : ∀ field ∈ (demoDescriptor false).references,
      parts field ∈ contractFiles (demoFiles false [1]) demoRoot := by decide +kernel
  obtain ⟨-, -, hHashable, -⟩ :=
    computeContractDigest_eq_ok_iff.mp (resolve_eq_ok_iff.mp h).2.digest
  exact (mem_contractFiles_iff_covered hHashable).mp (hHashed field hField)

/-- The wrapper of a bundle is `run.pyc`, which the digest leaves out: with other bytes in it the
bundle is accepted with the same digest. -/
theorem not_pinned_byteCode :
    resolve (demoLibraries true) (demoFiles true [1]) [⟨["bundles"], demoRoot⟩] "demo" "1.0.0" =
        .ok (demoContract true [1]) ∧
      ¬ Pinned (demoLibraries true) (demoFiles true [1]) (demoContract true [1]) := by
  have h (source : Bytes) (hSource : source ∈ [[1], [2]]) :
      resolve (demoLibraries true) (demoFiles true source) [⟨["bundles"], demoRoot⟩] "demo"
        "1.0.0" = .ok (demoContract true source) := by
    have hAll : ∀ source ∈ ([[1], [2]] : List Bytes),
        contractFiles (demoFiles true source) demoRoot =
          ((demoSources true source).take (if true then 4 else 5)).map (fun entry => [entry.1]) ∧
        ∀ entry ∈ demoSources true source,
          (encode entry.1).length < 256 ^ 8 ∧ entry.2.length < 256 ^ 8 := by decide +kernel
    exact resolve_demo (hAll source hSource).1 (hAll source hSource).2
  refine ⟨h [1] (by simp), fun hPinned => ?_⟩
  have hDigest : demoDigest true [2] = demoDigest true [1] := by
    simp only [demoDigest, demoSources, if_true, take_succ_cons, take_zero]
  obtain ⟨-, hBytes⟩ := hPinned _ _ _ _ _ (h [2] (by simp)) hDigest
  have hSame := map_inj_left.mp hBytes "run.pyc" (by decide +kernel)
  have hParts : parts "run.pyc" = ["run.pyc"] := by decide +kernel
  rw [hParts] at hSame
  have hFirst : (demoFiles true [1]).read demoRoot ["run.pyc"] = some [1] :=
    read_demoFiles (by simp [demoSources, demoWrapper])
  have hSecond : (demoFiles true [2]).read demoRoot ["run.pyc"] = some [2] :=
    read_demoFiles (by simp [demoSources, demoWrapper])
  have hEq : some ([2] : Bytes) = some [1] := hSecond.symm.trans (hSame.trans hFirst)
  revert hEq
  decide

end Glasslab.Contracts
