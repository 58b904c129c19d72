import Glasslab.Engine.WorkflowRules
import Glasslab.Foundation.FirstWrite

/-!
# Protocol drafts

Every draft of the protocol records two artifacts, the text and the contract proposal that goes with
it. `_latest_contract_proposal` and `_approval_event_payload` take the newest row of each type for
those of the last draft.

The id of a row is made of its content and a taken id keeps its row. A draft that returns to an
earlier content therefore leaves no row of its own, and what is shown is whatever was first drafted
last: `showsDraft_last_iff` says when this is the last draft.
-/

namespace Glasslab.Engine.Workflow

open Foundation List

structure ShownArtifact where
  type : ArtifactType
  uri : String
  sha256 : String
  deriving DecidableEq

def LocalArtifact.shown (artifact : LocalArtifact) : ShownArtifact :=
  ⟨artifact.type, artifact.uri, artifact.sha256⟩

/-- The fields of the payload that come from the action and from the artifacts of its run. -/
structure ApprovalEventPayload where
  action : ActionRecord
  humanApprovalReady : Bool
  effect : String
  artifact : Option ShownArtifact
  /-- Absent when the run has no proposal. -/
  contractProposal : Option (Option Payload)
  /-- The action that the metadata of a contract candidate names. -/
  contractCandidate : Option (Option String)

/-- What an approval of the action authorizes, in words. -/
def approvalEffect : ActionType → String
  | .approveProtocol =>
    "Authorize Beaker to implement against this frozen protocol. " ++
      "This does not authorize a cluster job."
  | .submitExperimentMatrix =>
    "Authorize the orchestrator to validate, expand, and submit " ++
      "this experiment matrix under the recorded resource limits."
  | .acceptFinalReport =>
    "Accept the report as the final output and mark this research " ++
      "run complete. This does not publish it externally."
  | .proposeEvaluationContract =>
    "Promote the sealed, Honeydew-reviewed evaluation contract " ++
      "into the trusted catalog and bind this run to its exact digest. " ++
      "This does not authorize a cluster job."
  | .other _ => "Authorize the stored action under its deterministic policy."

def relevantType : ActionType → Option ArtifactType
  | .approveProtocol => some .protocol
  | .acceptFinalReport => some .report
  | .submitExperimentMatrix | .proposeEvaluationContract | .other _ => none

namespace WorkflowStore

variable (s : WorkflowStore)

def latestContractProposal : Option Payload :=
  match (s.artifactsOfType .evaluationContractProposal).getLast? with
  | none => none
  | some artifact => artifact.proposal

def candidateOf (action : ActionRecord) : Option LocalArtifact :=
  ((s.artifactsOfType .evaluationContractCandidate).filter fun artifact =>
    artifact.actionId = some action.actionId).getLast?

def approvalEventPayload (action : ActionRecord) (humanApprovalReady : Option Bool) :
    ApprovalEventPayload :=
  let relevant := (relevantType action.type).bind fun type => (s.artifactsOfType type).getLast?
  let proposal := (s.artifactsOfType .evaluationContractProposal).getLast?
  let candidate := if action.type = .proposeEvaluationContract then s.candidateOf action else none
  { action := action
    humanApprovalReady := humanApprovalReady.getD
      (action.approvalStatus = .pending ∧
        (action.policyClassification ≠ .honeydewAndHumanApproval ∨ action.honeydewApproved))
    effect := approvalEffect action.type
    artifact := (candidate.or relevant).map LocalArtifact.shown
    contractProposal := proposal.map LocalArtifact.proposal
    contractCandidate := candidate.map LocalArtifact.actionId }

end WorkflowStore

structure Draft where
  protocol : String
  proposal : Payload

/-- The SHA-256 of the text of a protocol, and of a proposal written out as JSON. -/
structure Digests where
  protocol : String → String
  proposal : Payload → String

variable {digests : Digests} {runId : String} {s : WorkflowStore} {drafts : List Draft} {d : Draft}

def Draft.protocolArtifact (digests : Digests) (runId : String) (d : Draft) : LocalArtifact :=
  ⟨.protocol, protocolUri runId, digests.protocol d.protocol, none, none⟩

def Draft.proposalArtifact (digests : Digests) (runId : String) (d : Draft) : LocalArtifact :=
  ⟨.evaluationContractProposal, proposalUri runId, digests.proposal d.proposal, none,
    some d.proposal⟩

def WorkflowStore.recordDraft (s : WorkflowStore) (digests : Digests) (runId : String)
    (d : Draft) : WorkflowStore :=
  (s.saveArtifact (d.protocolArtifact digests runId)).saveArtifact
    (d.proposalArtifact digests runId)

def Undrafted (runId : String) (artifact : LocalArtifact) : Prop :=
  artifact.type ∉ [ArtifactType.protocol, .evaluationContractProposal] ∧
    artifact.uri ∉ [protocolUri runId, proposalUri runId]

/-- The store of a run after a sequence of drafts, with whatever else the run does in between. -/
inductive Drafted (digests : Digests) (runId : String) : WorkflowStore → List Draft → Prop where
  | start {s : WorkflowStore} (h : ∀ artifact ∈ s.artifacts, Undrafted runId artifact) :
    Drafted digests runId s []
  | draft {s : WorkflowStore} {drafts : List Draft} (d : Draft)
    (h : Drafted digests runId s drafts) :
    Drafted digests runId (s.recordDraft digests runId d) (drafts ++ [d])
  | save {s : WorkflowStore} {drafts : List Draft} {artifact : LocalArtifact}
    (h : Drafted digests runId s drafts) (hOther : Undrafted runId artifact) :
    Drafted digests runId (s.saveArtifact artifact) drafts
  | aside {s s' : WorkflowStore} {drafts : List Draft} (h : Drafted digests runId s drafts)
    (hSame : s'.artifacts = s.artifacts) : Drafted digests runId s' drafts

/-! ## The rows of one type -/

theorem saveArtifact_artifacts (s : WorkflowStore) (artifact : LocalArtifact) :
    (s.saveArtifact artifact).artifacts =
      if s.artifacts.any artifact.sameId then s.artifacts else s.artifacts ++ [artifact] := by
  unfold WorkflowStore.saveArtifact
  split <;> rfl

/-- The rows of a type are those that the drafts wrote first, and no other row has their uri. -/
structure Filed (type : ArtifactType) (uri : String) (row : Draft → LocalArtifact)
    (s : WorkflowStore) (drafts : List Draft) : Prop where
  rows : s.artifactsOfType type = (firstWrites (fun d => (row d).sha256) drafts).map row
  own : ∀ artifact ∈ s.artifacts, artifact.uri = uri → artifact.type = type

section Filed

variable {type : ArtifactType} {uri : String} {row : Draft → LocalArtifact}
  {artifact : LocalArtifact}

theorem Filed.start (hType : ∀ artifact ∈ s.artifacts, artifact.type ≠ type)
    (hUri : ∀ artifact ∈ s.artifacts, artifact.uri ≠ uri) : Filed type uri row s [] where
  rows := List.filter_eq_nil_iff.mpr fun artifact h => by simpa using hType artifact h
  own artifact h hEq := absurd hEq (hUri artifact h)

section

variable (h : Filed type uri row s drafts)
include h

theorem Filed.aside {s' : WorkflowStore}
    (hSame : s'.artifacts = s.artifacts) : Filed type uri row s' drafts where
  rows := by
    rw [WorkflowStore.artifactsOfType, hSame]
    exact h.rows
  own := by
    rw [hSame]
    exact h.own

theorem Filed.save_other (hType : artifact.type ≠ type)
    (hUri : artifact.uri ≠ uri) : Filed type uri row (s.saveArtifact artifact) drafts := by
  constructor
  · rw [WorkflowStore.artifactsOfType, saveArtifact_artifacts]
    split
    · exact h.rows
    · rw [filter_append, filter_cons_of_neg (by simpa using hType), filter_nil,
        append_nil]
      exact h.rows
  · rw [saveArtifact_artifacts]
    split
    · exact h.own
    · intro a ha hEq
      rcases mem_append.mp ha with ha | ha
      · exact h.own a ha hEq
      · rw [mem_singleton.mp ha] at hEq
        exact absurd hEq hUri

/-- A row is taken exactly when its digest was drafted before. -/
theorem Filed.any_sameId (hUri : ∀ d, (row d).uri = uri) :
    s.artifacts.any (row d).sameId = true ↔
      (row d).sha256 ∈ (firstWrites (fun d => (row d).sha256) drafts).map
        fun d => (row d).sha256 := by
  rw [any_eq_true]
  constructor
  · rintro ⟨a, ha, hSame⟩
    obtain ⟨hSameUri, hSameDigest⟩ := of_decide_eq_true hSame
    have hOwn := h.own a ha (hSameUri.symm.trans (hUri d))
    have hRow : a ∈ s.artifactsOfType type := mem_filter.mpr ⟨ha, by simpa using hOwn⟩
    rw [h.rows] at hRow
    obtain ⟨d', hd', rfl⟩ := mem_map.mp hRow
    exact mem_map.mpr ⟨d', hd', hSameDigest.symm⟩
  · intro hTaken
    obtain ⟨d', hd', hDigest⟩ := mem_map.mp hTaken
    have hRow : row d' ∈ s.artifactsOfType type := by
      rw [h.rows]
      exact mem_map_of_mem hd'
    refine ⟨row d', (mem_filter.mp hRow).1, ?_⟩
    exact decide_eq_true ⟨(hUri d).trans (hUri d').symm, hDigest.symm⟩

theorem Filed.save_row (hType : ∀ d, (row d).type = type)
    (hUri : ∀ d, (row d).uri = uri) :
    Filed type uri row (s.saveArtifact (row d)) (drafts ++ [d]) := by
  have hTaken := h.any_sameId (d := d) hUri
  constructor
  · rw [WorkflowStore.artifactsOfType, saveArtifact_artifacts, firstWrites_concat]
    by_cases hAny : s.artifacts.any (row d).sameId = true
    · rw [if_pos hAny, if_pos (hTaken.mp hAny)]
      exact h.rows
    · rw [if_neg hAny, if_neg fun hMem => hAny (hTaken.mpr hMem), filter_append,
        filter_cons_of_pos (by simpa using hType d), filter_nil, map_append]
      exact congrArg (· ++ [row d]) h.rows
  · rw [saveArtifact_artifacts]
    split
    · exact h.own
    · intro a ha hEq
      rcases mem_append.mp ha with ha | ha
      · exact h.own a ha hEq
      · rw [mem_singleton.mp ha]
        exact hType d

theorem Filed.getLast? (digest : String) :
    (s.artifactsOfType type).getLast?.map LocalArtifact.sha256 = some digest ↔
      NoneNewAfter digest (drafts.map fun d => (row d).sha256) := by
  rw [h.rows, List.getLast?_map, Option.map_map, ← getLast?_firstWrites]
  rfl

theorem Filed.exists_draft (hNonempty : drafts ≠ []) :
    ∃ d ∈ drafts, (s.artifactsOfType type).getLast? = some (row d) := by
  have hWritten : firstWrites (fun d => (row d).sha256) drafts ≠ [] := by
    intro hNil
    obtain ⟨d, hd⟩ := exists_mem_of_ne_nil _ hNonempty
    have hMem := mem_map_firstWrites.mpr (mem_map_of_mem (f := fun d => (row d).sha256) hd)
    rw [hNil] at hMem
    cases hMem
  refine ⟨_, mem_of_mem_firstWrites (getLast_mem hWritten), ?_⟩
  rw [h.rows, List.getLast?_map, List.getLast?_eq_some_getLast hWritten]
  rfl

end

end Filed

theorem protocolUri_ne_proposalUri (runId : String) : protocolUri runId ≠ proposalUri runId := by
  intro h
  simp [protocolUri, proposalUri, String.append_assoc] at h

/-- What the history of a run says about its rows. -/
structure DraftRows (digests : Digests) (runId : String) (s : WorkflowStore)
    (drafts : List Draft) : Prop where
  protocol : Filed .protocol (protocolUri runId) (Draft.protocolArtifact digests runId) s drafts
  proposal : Filed .evaluationContractProposal (proposalUri runId)
    (Draft.proposalArtifact digests runId) s drafts

theorem Drafted.rows (h : Drafted digests runId s drafts) : DraftRows digests runId s drafts := by
  induction h with
  | start h =>
    constructor
    · exact Filed.start (fun a ha hEq => (h a ha).1 (by simp [hEq]))
        fun a ha hEq => (h a ha).2 (by simp [hEq])
    · exact Filed.start (fun a ha hEq => (h a ha).1 (by simp [hEq]))
        fun a ha hEq => (h a ha).2 (by simp [hEq])
  | @draft s drafts d _ ih =>
    have hUri := protocolUri_ne_proposalUri runId
    constructor
    · have hOwn := ih.protocol.save_row (d := d) (fun _ => rfl) fun _ => rfl
      exact hOwn.save_other nofun hUri.symm
    · have hOther : Filed .evaluationContractProposal (proposalUri runId) _
          (s.saveArtifact (d.protocolArtifact digests runId)) drafts :=
        ih.proposal.save_other nofun hUri
      exact hOther.save_row (fun _ => rfl) fun _ => rfl
  | save _ hOther ih =>
    constructor
    · exact ih.protocol.save_other (fun hEq => hOther.1 (by simp [hEq]))
        fun hEq => hOther.2 (by simp [hEq])
    · exact ih.proposal.save_other (fun hEq => hOther.1 (by simp [hEq]))
        fun hEq => hOther.2 (by simp [hEq])
  | aside _ hSame ih =>
    exact ⟨ih.protocol.aside hSame, ih.proposal.aside hSame⟩

def RowsOf (t s : WorkflowStore) : Prop := s.artifacts = t.artifacts

theorem kept_rowsOf (t : WorkflowStore) : Kept (fun _ => True) (RowsOf t) where
  pause s h := (pause_artifacts s).trans h
  inv _ _ := trivial
  aside _ _ hAside h := hAside.artifacts.trans h

theorem saveLocalArtifact_rowsOf {t : WorkflowStore} {G : Answers} {artifact : LocalArtifact} :
    Triple (fun _ => True) G (RowsOf t) (saveLocalArtifact artifact) fun _ =>
      RowsOf (t.saveArtifact artifact) := by
  refine Triple.bind (triple_access_keep (kept_rowsOf t).toStable (kept_rowsOf _).toStable
    fun s hs => ?_) fun _ => triple_pure (kept_rowsOf _).toStable fun _ hs => hs
  rw [RowsOf, saveArtifact_artifacts, saveArtifact_artifacts, hs]

variable {engine : Orchestrator}

theorem createHumanAction_rowsOf {t : WorkflowStore} {G : Answers}
    {type : ActionType} {reason : String} :
    Triple (fun _ => True) G (RowsOf t) (createHumanAction engine type reason) fun _ =>
      RowsOf t := by
  have hKept := kept_rowsOf t
  refine hKept.getStore.seq fun _ => ?_
  refine hKept.getStore.seq fun _ => ?_
  refine hKept.query.seq fun _ => ?_
  refine Triple.seq (triple_saveActionWithEvent hKept fun _ hs => hs) fun ⟨record, created⟩ => ?_
  cases created with
  | true => exact hKept.ret
  | false =>
    refine hKept.repairActionProposedEvent.seq fun _ => ?_
    exact hKept.ret

def draftAnswers (digests : Digests) (d : Draft) : Answers := fun q =>
  match q with
  | .draftDigests _ => fun a _ => a = (digests.protocol d.protocol, digests.proposal d.proposal)
  | _ => fun _ _ => True

theorem submitDraft_rowsOf (t : WorkflowStore) :
    Triple (fun _ => True) (draftAnswers digests d) (fun s => s.runId = runId ∧ RowsOf t s)
      (submitDraft engine d.proposal) fun _ => RowsOf (t.recordDraft digests runId d) := by
  have hRows := (kept_rowsOf t).toStable
  have hStart : Stable (fun _ => True) fun s => s.runId = runId ∧ RowsOf t s :=
    { pause := fun s hs => ⟨by rw [← hs.1, WorkflowStore.pause]; split <;> rfl, hRows.pause s hs.2⟩
      inv := fun _ _ => trivial }
  refine Triple.bind (triple_getStore hStart) fun run => ?_
  refine Triple.bind (triple_query_admitted (hStart.seen run) fun _ _ h => h) fun answer => ?_
  -- what was read and what was answered is known from here on, only the rows can change
  rintro w ⟨⟨⟨hRun, hRead⟩, hSeen⟩, hAnswer⟩
  have hw : RowsOf t w.1 := hSeen.keep hRows hRead
  clear hSeen hRead
  obtain rfl : answer = (digests.protocol d.protocol, digests.proposal d.proposal) := hAnswer
  subst hRun
  revert w hw
  refine saveLocalArtifact_rowsOf.bind fun _ => ?_
  refine Triple.seq (kept_rowsOf _).event fun _ => ?_
  refine saveLocalArtifact_rowsOf.bind fun _ => ?_
  refine Triple.seq (kept_rowsOf _).event fun _ => ?_
  refine createHumanAction_rowsOf.seq fun _ => ?_
  refine Triple.seq (triple_transitionFor (kept_rowsOf _).toStable (kept_rowsOf _).toStable
    fun _ hs _ => hs) fun _ => ?_
  exact triple_pure (kept_rowsOf _).toStable fun _ hs => hs

/-- When `_draft_protocol` hands a draft to the human, it has recorded that draft as its last. -/
theorem submitDraft_drafted :
    Triple (fun _ => True) (draftAnswers digests d)
      (fun s => s.runId = runId ∧ Drafted digests runId s drafts) (submitDraft engine d.proposal)
      fun _ s => Drafted digests runId s (drafts ++ [d]) := by
  intro w ⟨hRun, hDrafted⟩
  have hRows : Triple (fun _ => True) (draftAnswers digests d)
      (fun s => s.runId = runId ∧ RowsOf w.1 s) (submitDraft engine d.proposal)
      fun _ s => Drafted digests runId s (drafts ++ [d]) :=
    (submitDraft_rowsOf w.1).post fun _ _ hs => (hDrafted.draft d).aside hs
  exact hRows w ⟨hRun, rfl⟩

/-- No two contents of the drafts have one digest. -/
structure CollisionFree (digests : Digests) (drafts : List Draft) : Prop where
  protocol : ∀ d ∈ drafts, ∀ d' ∈ drafts,
    digests.protocol d.protocol = digests.protocol d'.protocol → d.protocol = d'.protocol
  proposal : ∀ d ∈ drafts, ∀ d' ∈ drafts,
    digests.proposal d.proposal = digests.proposal d'.proposal → d.proposal = d'.proposal

/-- The proposal that is taken for the latest, and what the human is shown for the action, are those
of the draft. -/
structure ShowsDraft (digests : Digests) (runId : String) (s : WorkflowStore)
    (action : ActionRecord) (ready : Option Bool) (d : Draft) : Prop where
  latest : s.latestContractProposal = some d.proposal
  artifact : (s.approvalEventPayload action ready).artifact =
    some (d.protocolArtifact digests runId).shown
  contractProposal : (s.approvalEventPayload action ready).contractProposal = some (some d.proposal)

variable {action : ActionRecord}

theorem DraftRows.shows_protocol_iff (h : DraftRows digests runId s drafts) (hd : d ∈ drafts)
    (hFree : CollisionFree digests drafts)
    (hType : action.type = .approveProtocol) (ready : Option Bool) :
    (s.approvalEventPayload action ready).artifact = some (d.protocolArtifact digests runId).shown ↔
      NoneNewAfter d.protocol (drafts.map Draft.protocol) := by
  obtain ⟨d', hd', hLast⟩ := h.protocol.exists_draft (ne_nil_of_mem hd)
  have hNewest := h.protocol.getLast? (digests.protocol d.protocol)
  have hKeys : (drafts.map fun d => (d.protocolArtifact digests runId).sha256) =
      (drafts.map Draft.protocol).map digests.protocol := by
    simp [Draft.protocolArtifact]
  rw [hKeys, noneNewAfter_map (mem_map_of_mem hd) (by simpa using hFree.protocol)] at hNewest
  rw [← hNewest, hLast]
  have hShown : (s.approvalEventPayload action ready).artifact =
      some (d'.protocolArtifact digests runId).shown := by
    simp [WorkflowStore.approvalEventPayload, hType, relevantType, hLast]
  rw [hShown]
  simp [Draft.protocolArtifact, LocalArtifact.shown]

theorem DraftRows.shows_proposal_iff (h : DraftRows digests runId s drafts) (hd : d ∈ drafts)
    (hFree : CollisionFree digests drafts) :
    s.latestContractProposal = some d.proposal ↔
      NoneNewAfter d.proposal (drafts.map Draft.proposal) := by
  obtain ⟨d', hd', hLast⟩ := h.proposal.exists_draft (ne_nil_of_mem hd)
  have hNewest := h.proposal.getLast? (digests.proposal d.proposal)
  have hKeys : (drafts.map fun d => (d.proposalArtifact digests runId).sha256) =
      (drafts.map Draft.proposal).map digests.proposal := by
    simp [Draft.proposalArtifact]
  rw [hKeys, noneNewAfter_map (mem_map_of_mem hd) (by simpa using hFree.proposal)] at hNewest
  rw [← hNewest, hLast, WorkflowStore.latestContractProposal, hLast]
  have hSame : d'.proposal = d.proposal ↔
      digests.proposal d'.proposal = digests.proposal d.proposal :=
    ⟨fun hEq => congrArg digests.proposal hEq, hFree.proposal d' hd' d hd⟩
  simpa [Draft.proposalArtifact] using hSame

theorem contractProposal_eq_latest {ready : Option Bool}
    {proposal : Payload} :
    (s.approvalEventPayload action ready).contractProposal = some (some proposal) ↔
      s.latestContractProposal = some proposal := by
  unfold WorkflowStore.approvalEventPayload WorkflowStore.latestContractProposal
  cases (s.artifactsOfType .evaluationContractProposal).getLast? with
  | none => simp
  | some artifact => simp

/-- The last draft is under review exactly when neither its text nor its proposal was followed,
after it had been drafted for the first time, by one that was new. -/
theorem showsDraft_last_iff (h : Drafted digests runId s drafts) (hLast : drafts.getLast? = some d)
    (hFree : CollisionFree digests drafts)
    (hType : action.type = .approveProtocol) (ready : Option Bool) :
    ShowsDraft digests runId s action ready d ↔
      NoneNewAfter d.protocol (drafts.map Draft.protocol) ∧
        NoneNewAfter d.proposal (drafts.map Draft.proposal) := by
  have hd : d ∈ drafts := mem_of_getLast? hLast
  have hProtocol := h.rows.shows_protocol_iff hd hFree hType ready
  have hProposal := h.rows.shows_proposal_iff hd hFree
  constructor
  · intro hShows
    exact ⟨hProtocol.mp hShows.artifact, hProposal.mp hShows.latest⟩
  · rintro ⟨hText, hContract⟩
    have hLatest := hProposal.mpr hContract
    exact ⟨hLatest, hProtocol.mpr hText, contractProposal_eq_latest.mpr hLatest⟩

def sampleDigests : Digests where
  protocol text := "sha256:" ++ text
  proposal proposal := "sha256:" ++ toString (proposal.map Prod.fst)

def accuracyDraft : Draft := ⟨"Compare the accuracies.", [("accuracy", .null)]⟩

def latencyDraft : Draft := ⟨"Compare the latencies.", [("latency", .null)]⟩

def approveProtocolAction : ActionRecord where
  actionId := "action-1"
  runId := "run-1"
  proposedBy := .orchestrator
  type := .approveProtocol
  policyClassification := .humanApproval
  approvalStatus := .pending
  idempotencyKey := "key-1"

def sampleStore (drafts : List Draft) : WorkflowStore :=
  drafts.foldl (fun s d => s.recordDraft sampleDigests "run-1" d)
    { runId := "run-1", runState := .honeydewDraftingProtocol,
      initialState := .honeydewDraftingProtocol }

theorem drafted_sampleStore (drafts : List Draft) :
    Drafted sampleDigests "run-1" (sampleStore drafts) drafts := by
  induction drafts using List.reverseRecOn with
  | nil => exact .start nofun
  | append_singleton drafts d ih =>
    rw [sampleStore, foldl_append]
    exact .draft d ih

theorem collisionFree_sample
    (h : ∀ d ∈ drafts, d = accuracyDraft ∨ d = latencyDraft) :
    CollisionFree sampleDigests drafts := by
  constructor
  · intro d hd d' hd' hEq
    rcases h d hd with rfl | rfl <;> rcases h d' hd' with rfl | rfl
    · rfl
    · exact absurd hEq (by decide)
    · exact absurd hEq (by decide)
    · rfl
  · intro d hd d' hd' hEq
    rcases h d hd with rfl | rfl <;> rcases h d' hd' with rfl | rfl
    · rfl
    · exact absurd hEq (by decide)
    · exact absurd hEq (by decide)
    · rfl

/-- After a second draft the human is shown that one. -/
theorem showsDraft_latencyDraft :
    ShowsDraft sampleDigests "run-1" (sampleStore [accuracyDraft, latencyDraft])
      approveProtocolAction none latencyDraft :=
  (showsDraft_last_iff (drafted_sampleStore _) rfl (collisionFree_sample (by simp)) rfl none).mpr
    ⟨⟨[accuracyDraft.protocol], [], rfl, by decide, nofun⟩,
      ⟨[accuracyDraft.proposal], [], rfl, by simp [accuracyDraft, latencyDraft], nofun⟩⟩

/-- A third draft that returns to the first is not what the human is shown. -/
theorem not_showsDraft_accuracyDraft :
    Drafted sampleDigests "run-1" (sampleStore [accuracyDraft, latencyDraft, accuracyDraft])
        [accuracyDraft, latencyDraft, accuracyDraft] ∧
      CollisionFree sampleDigests [accuracyDraft, latencyDraft, accuracyDraft] ∧
      approveProtocolAction.type = .approveProtocol ∧
      ShowsDraft sampleDigests "run-1"
        (sampleStore [accuracyDraft, latencyDraft, accuracyDraft]) approveProtocolAction none
        latencyDraft ∧
      ¬ ShowsDraft sampleDigests "run-1"
        (sampleStore [accuracyDraft, latencyDraft, accuracyDraft]) approveProtocolAction none
        accuracyDraft := by
  refine ⟨drafted_sampleStore _, collisionFree_sample (by simp), rfl, ⟨rfl, rfl, rfl⟩, fun h => ?_⟩
  exact absurd h.artifact (by decide)

end Glasslab.Engine.Workflow
