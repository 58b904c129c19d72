import Glasslab.Foundation.History
import Glasslab.Foundation.Machine
import Glasslab.Foundation.Sorting
import Glasslab.Schemas
import Mathlib.Data.String.Basic

/-!
# Conversation bindings

A conversation is bound to knowledge sources and to a Discord thread by three operations, which both
stores have in the same words. Each reads the record of the conversation, builds a new one and saves
it.

`bind_conversation_thread` carries the sources over and `unbind_conversation_source` carries the
thread over, but `bind_conversation_sources` builds its record without the thread. What a sequence
of calls leaves is what was bound last exactly if, for every conversation, the last call that binds
anything binds a thread or none does (`composes_iff`).
-/

namespace Glasslab.Bindings

open Foundation Foundation.Machine List

structure ConversationSourceBinding where
  conversationId : String
  sourceIds : List String := []
  discordThreadId : Option String := none
  createdBy : String := "operator"
  createdAt : Instant
  updatedAt : Instant

/-- How a store keeps the records: saving one replaces the one of the conversation. -/
class BindingStore (σ : Type) where
  empty : σ
  saveConversationBinding : σ → ConversationSourceBinding → σ
  getConversationBinding : σ → String → Option ConversationSourceBinding
  get_empty : ∀ id, getConversationBinding empty id = none
  get_save : ∀ s record id, getConversationBinding (saveConversationBinding s record) id =
    if id = record.conversationId then some record else getConversationBinding s id

/-- `conversation_bindings` of the SQLite store. -/
structure SqliteBindings where
  conversationBindings : List (String × ConversationSourceBinding) := []

/-- `orchestrator_conversation_bindings` of the Postgres store, which has `updated_at` in a column
of its own too. -/
structure PostgresBindings where
  conversationBindings : List (String × ConversationSourceBinding × Instant) := []

instance : BindingStore SqliteBindings where
  empty := {}
  saveConversationBinding s record := ⟨Dict.set record.conversationId record s.conversationBindings⟩
  getConversationBinding s id := s.conversationBindings.lookup id
  get_empty _ := rfl
  get_save _ _ _ := Dict.lookup_set

instance : BindingStore PostgresBindings where
  empty := {}
  saveConversationBinding s record :=
    ⟨Dict.set record.conversationId (record, record.updatedAt) s.conversationBindings⟩
  getConversationBinding s id := (s.conversationBindings.lookup id).map Prod.fst
  get_empty _ := rfl
  get_save s record id := by
    rw [Dict.lookup_set]
    split <;> rfl

/-- The readings of the clock for a record that is built. -/
structure Readings where
  created : Instant
  updated : Instant

section Operations

variable {σ : Type} [BindingStore σ]

open BindingStore

/-- `ConversationSourceBinding(..)`, which refuses an empty id, and `save_conversation_binding`. -/
def saveNew (s : σ) (record : ConversationSourceBinding) :
    Option (σ × ConversationSourceBinding) :=
  if record.conversationId = "" then none else some (saveConversationBinding s record, record)

def bindConversationThread (s : σ) (conversationId threadId : String) (now : Readings) :
    Option (σ × ConversationSourceBinding) :=
  let existing := getConversationBinding s conversationId
  saveNew s
    { conversationId
      sourceIds := existing.elim [] (·.sourceIds)
      discordThreadId := some threadId
      createdBy := existing.elim "operator" (·.createdBy)
      createdAt := existing.elim now.created (·.createdAt)
      updatedAt := now.updated }

def bindConversationSources (s : σ) (conversationId : String) (sourceIds : List String)
    (createdBy : String) (now : Readings) : Option (σ × ConversationSourceBinding) :=
  let existing := getConversationBinding s conversationId
  let merged := sortOn id (existing.elim [] (·.sourceIds) ++ sourceIds).dedup
  saveNew s
    { conversationId
      sourceIds := merged
      createdBy := existing.elim createdBy (·.createdBy)
      createdAt := existing.elim now.created (·.createdAt)
      updatedAt := now.updated }

def unbindConversationSource (s : σ) (conversationId sourceId : String) (now : Readings) :
    σ × Option ConversationSourceBinding :=
  match getConversationBinding s conversationId with
  | none => (s, none)
  | some existing =>
    let remaining := existing.sourceIds.filter (· ≠ sourceId)
    if remaining = existing.sourceIds then (s, some existing)
    else
      let binding := { existing with sourceIds := remaining, updatedAt := now.updated }
      (saveConversationBinding s binding, some binding)

inductive StoreCall where
  | bindThread (conversationId threadId : String) (now : Readings)
  | bindSources (conversationId : String) (sourceIds : List String) (createdBy : String)
    (now : Readings)
  | unbindSource (conversationId sourceId : String) (now : Readings)

def step (s : σ) : StoreCall → σ
  | .bindThread conversationId threadId now =>
    (bindConversationThread s conversationId threadId now).elim s Prod.fst
  | .bindSources conversationId sourceIds createdBy now =>
    (bindConversationSources s conversationId sourceIds createdBy now).elim s Prod.fst
  | .unbindSource conversationId sourceId now =>
    (unbindConversationSource s conversationId sourceId now).1

end Operations

namespace StoreCall

/-- The author and the time of the record, where the call is the first for its conversation. -/
def creation (id : String) : StoreCall → Option (String × Instant)
  | bindThread conversationId _ now =>
    if conversationId = id then some ("operator", now.created) else none
  | bindSources conversationId _ createdBy now =>
    if conversationId = id then some (createdBy, now.created) else none
  | unbindSource .. => none

def threadBound (id : String) : StoreCall → Option String
  | bindThread conversationId threadId _ => if conversationId = id then some threadId else none
  | _ => none

def binding (id : String) : StoreCall → Option (Option String)
  | bindThread conversationId threadId _ =>
    if conversationId = id then some (some threadId) else none
  | bindSources conversationId .. => if conversationId = id then some none else none
  | unbindSource .. => none

def BindsSource (id source : String) : StoreCall → Prop
  | bindSources conversationId sourceIds .. => conversationId = id ∧ source ∈ sourceIds
  | _ => False

def UnbindsSource (id source : String) : StoreCall → Prop
  | unbindSource conversationId sourceId _ => conversationId = id ∧ sourceId = source
  | _ => False

end StoreCall

open StoreCall

/-- The thread of the last `bind_conversation_thread` for a conversation. -/
def lastThread (id : String) (calls : List StoreCall) : Option String :=
  (calls.filterMap (threadBound id)).getLast?

/-- A record is what the calls for its conversation have bound. -/
structure Composed (id : String) (calls : List StoreCall) (record : ConversationSourceBinding) :
    Prop where
  conversation : record.conversationId = id
  thread : record.discordThreadId = lastThread id calls
  sources : ∀ source, source ∈ record.sourceIds ↔
    Since (BindsSource id source) (UnbindsSource id source) calls
  distinct : record.sourceIds.Nodup
  created : calls.findSome? (creation id) = some (record.createdBy, record.createdAt)

def Composes {σ : Type} [BindingStore σ] (s : σ) (calls : List StoreCall) : Prop :=
  ∀ id ≠ "", match BindingStore.getConversationBinding s id with
    | none => calls.findSome? (creation id) = none
    | some record => Composed id calls record

def ThreadsLast (calls : List StoreCall) : Prop :=
  ∀ id ≠ "", (calls.filterMap (binding id)).getLast? ≠ some none ∨
    ∀ thread ∈ calls.filterMap (binding id), thread = none

/-! ## What is stored -/

theorem lastThread_eq (id : String) (calls : List StoreCall) :
    lastThread id calls =
    ((calls.filterMap (binding id)).filterMap fun thread => thread).getLast? := by
  have hCall : ∀ call, threadBound id call = (binding id call).bind fun thread => thread := by
    intro call
    cases call with
    | bindThread conversationId threadId now =>
      simp only [threadBound, binding]
      split <;> rfl
    | bindSources conversationId sourceIds createdBy now =>
      simp only [threadBound, binding]
      split <;> rfl
    | unbindSource conversationId sourceId now => rfl
  rw [lastThread, filterMap_filterMap]
  exact congrArg List.getLast? (filterMap_congr fun call _ => hCall call)

theorem binding_eq_none {id : String} {call : StoreCall} (h : creation id call = none) :
    binding id call = none := by
  cases call with
  | bindThread conversationId threadId now =>
    simp only [creation, ite_eq_right_iff, reduceCtorEq, imp_false] at h
    exact if_neg h
  | bindSources conversationId sourceIds createdBy now =>
    simp only [creation, ite_eq_right_iff, reduceCtorEq, imp_false] at h
    exact if_neg h
  | unbindSource conversationId sourceId now => rfl

/-- What the stores have for a conversation after some calls: as `Composed`, but with the thread
that the last call that binds anything leaves. -/
structure Stored (id : String) (calls : List StoreCall) (record : ConversationSourceBinding) :
    Prop where
  conversation : record.conversationId = id
  thread : record.discordThreadId = (calls.filterMap (binding id)).getLast?.join
  sources : ∀ source, source ∈ record.sourceIds ↔
    Since (BindsSource id source) (UnbindsSource id source) calls
  distinct : record.sourceIds.Nodup
  created : calls.findSome? (creation id) = some (record.createdBy, record.createdAt)

/-- No call has bound anything to a conversation. -/
structure Unbound (id : String) (calls : List StoreCall) : Prop where
  sources : ∀ source, ¬ Since (BindsSource id source) (UnbindsSource id source) calls
  created : calls.findSome? (creation id) = none

def Keeps (id : String) (calls : List StoreCall) : Option ConversationSourceBinding → Prop
  | none => Unbound id calls
  | some record => Stored id calls record

variable {calls : List StoreCall} {id : String}

namespace Keeps

variable {call : StoreCall} {existing : Option ConversationSourceBinding}

section

variable (h : Keeps id calls existing)
include h

theorem mem_sourceIds (source : String) :
    source ∈ existing.elim [] (·.sourceIds) ↔
      Since (BindsSource id source) (UnbindsSource id source) calls := by
  cases existing with
  | none => exact iff_of_false not_mem_nil (h.sources source)
  | some record => exact h.sources source

theorem nodup_sourceIds :
    (existing.elim [] (·.sourceIds)).Nodup := by
  cases existing with
  | none => exact nodup_nil
  | some record => exact h.distinct

/-- The record keeps its author and its time, or has those of the call that is its first. -/
theorem created_concat {createdBy : String} {createdAt : Instant}
    (hCall : creation id call = some (createdBy, createdAt)) :
    (calls ++ [call]).findSome? (creation id) =
      some (existing.elim createdBy (·.createdBy), existing.elim createdAt (·.createdAt)) := by
  cases existing with
  | none => simp [List.findSome?_append, h.created, hCall]
  | some record => simp [List.findSome?_append, h.created]

/-- A call that binds and unbinds nothing of the conversation changes nothing. -/
theorem concat_of_other (hCreation : creation id call = none)
    (hBinding : binding id call = none) (hBinds : ∀ source, ¬ BindsSource id source call)
    (hUnbinds : ∀ source, ¬ UnbindsSource id source call) :
    Keeps id (calls ++ [call]) existing := by
  have hSince :
    ∀ source, Since (BindsSource id source) (UnbindsSource id source) (calls ++ [call]) ↔
      Since (BindsSource id source) (UnbindsSource id source) calls := by
    intro source
    rw [since_concat]
    simp [hBinds source, hUnbinds source]
  have hFirst : (calls ++ [call]).findSome? (creation id) = calls.findSome? (creation id) := by
    simp [List.findSome?_append, hCreation]
  cases existing with
  | none => exact ⟨fun source => (hSince source).not.mpr (h.sources source), hFirst.trans h.created⟩
  | some record =>
    refine ⟨h.conversation, ?_, fun source => (h.sources source).trans (hSince source).symm,
      h.distinct, hFirst.trans h.created⟩
    rw [h.thread, filterMap_append]
    simp [hBinding]

end

end Keeps

section Steps

variable {σ : Type} [BindingStore σ] {s : σ}

open BindingStore

variable {record : ConversationSourceBinding}

theorem get_saveNew (hId : id ≠ "") :
    getConversationBinding ((saveNew s record).elim s Prod.fst) id =
      if id = record.conversationId then some record else getConversationBinding s id := by
  unfold saveNew
  split
  next hEmpty =>
    rw [if_neg (hEmpty ▸ hId)]
    rfl
  next => exact get_save s record id

def Filed (s : σ) : Prop :=
  ∀ id record, getConversationBinding s id = some record → record.conversationId = id

theorem Filed.save (h : Filed s) (record : ConversationSourceBinding) :
    Filed (saveConversationBinding s record) := by
  intro id found hFound
  rw [get_save] at hFound
  split at hFound
  next hSame =>
    cases hFound
    exact hSame.symm
  next => exact h id found hFound

theorem Filed.saveNew (h : Filed s) (record : ConversationSourceBinding) :
    Filed ((saveNew s record).elim s Prod.fst) := by
  unfold Bindings.saveNew
  split
  next => exact h
  next => exact h.save record

theorem Filed.step (h : Filed s) (call : StoreCall) : Filed (step s call) := by
  cases call with
  | bindThread conversationId threadId now => exact h.saveNew _
  | bindSources conversationId sourceIds createdBy now => exact h.saveNew _
  | unbindSource conversationId sourceId now =>
    simp only [Bindings.step, unbindConversationSource]
    split
    next => exact h
    next =>
      split
      next => exact h
      next => exact h.save _

variable {conversationId sourceId : String} {now : Readings}

theorem get_unbindSource_of_ne (hFiled : Filed s) (hOther : id ≠ conversationId) :
    getConversationBinding (unbindConversationSource s conversationId sourceId now).1 id =
      getConversationBinding s id := by
  unfold unbindConversationSource
  split
  next => rfl
  next existing hExisting =>
    dsimp only
    split
    next => rfl
    next =>
      have hSaved : existing.conversationId = conversationId := hFiled _ _ hExisting
      rw [get_save, if_neg (hSaved ▸ hOther)]

theorem keeps_bindThread {threadId : String} (hId : id ≠ "")
    (h : Keeps id calls (getConversationBinding s id)) :
    Keeps id (calls ++ [.bindThread conversationId threadId now])
      (getConversationBinding (step s (.bindThread conversationId threadId now)) id) := by
  simp only [step, bindConversationThread]
  rw [get_saveNew hId]
  split
  next hSame =>
    subst hSame
    have hCall : creation id (.bindThread id threadId now) = some ("operator", now.created) :=
      if_pos rfl
    refine ⟨rfl, ?_, fun source => ?_, h.nodup_sourceIds, h.created_concat hCall⟩
    · simp [binding]
    · rw [since_concat, h.mem_sourceIds source]
      simp [BindsSource, UnbindsSource]
  next hOther =>
    have hNot : ¬ conversationId = id := fun hSame => hOther hSame.symm
    exact h.concat_of_other (if_neg hNot) (if_neg hNot) (fun _ => nofun) (fun _ => nofun)

theorem keeps_bindSources {createdBy : String} {sourceIds : List String} (hId : id ≠ "")
    (h : Keeps id calls (getConversationBinding s id)) :
    Keeps id (calls ++ [.bindSources conversationId sourceIds createdBy now])
      (getConversationBinding
        (step s (.bindSources conversationId sourceIds createdBy now)) id) := by
  simp only [step, bindConversationSources]
  rw [get_saveNew hId]
  split
  next hSame =>
    subst hSame
    have hCall : creation id (.bindSources id sourceIds createdBy now) =
        some (createdBy, now.created) := if_pos rfl
    refine ⟨rfl, ?_, fun source => ?_, ?_, h.created_concat hCall⟩
    · -- the record is built without a thread
      simp [binding]
    · rw [mem_sortOn, mem_dedup, mem_append, since_concat, h.mem_sourceIds source]
      simp [BindsSource, UnbindsSource, or_comm]
    · exact (perm_sortOn _ _).nodup_iff.mpr (nodup_dedup _)
  next hOther =>
    have hNot : ¬ conversationId = id := fun hSame => hOther hSame.symm
    exact h.concat_of_other (if_neg hNot) (if_neg hNot) (fun _ hBinds => hNot hBinds.1)
      (fun _ => nofun)

theorem Stored.unbind {updated : Instant}
    (h : Stored id calls record) :
    Stored id (calls ++ [.unbindSource id sourceId now])
      { record with
        sourceIds := record.sourceIds.filter (· ≠ sourceId)
        updatedAt := updated } := by
  refine ⟨h.conversation, ?_, fun source => ?_, h.distinct.filter _, ?_⟩
  · simpa [binding] using h.thread
  · rw [mem_filter, since_concat, h.sources source]
    have hUnbinds :
        UnbindsSource id source (.unbindSource id sourceId now) ↔ source = sourceId := by
      simp only [UnbindsSource, true_and]
      exact eq_comm
    simp [BindsSource, hUnbinds]
  · simp [List.findSome?_append, h.created]

theorem keeps_unbindSource (hFiled : Filed s) (h : Keeps id calls (getConversationBinding s id)) :
    Keeps id (calls ++ [.unbindSource conversationId sourceId now])
      (getConversationBinding (step s (.unbindSource conversationId sourceId now)) id) := by
  by_cases hSame : id = conversationId
  · subst hSame
    simp only [step, unbindConversationSource]
    cases hExisting : getConversationBinding s id with
    | none =>
      rw [hExisting] at h
      rw [hExisting]
      refine ⟨fun source => ?_, ?_⟩
      · rw [since_concat]
        simp [BindsSource, h.sources source]
      · simp [List.findSome?_append, h.created, creation]
    | some record =>
      rw [hExisting] at h
      dsimp only
      split
      next hNothing =>
        have hStored : Stored id (calls ++ [.unbindSource id sourceId now])
            { record with
              sourceIds := record.sourceIds.filter (· ≠ sourceId)
              updatedAt := record.updatedAt } := Stored.unbind h
        rw [hNothing] at hStored
        rw [hExisting]
        exact hStored
      next =>
        rw [get_save, if_pos h.conversation.symm]
        exact Stored.unbind h
  · simp only [step]
    rw [get_unbindSource_of_ne hFiled hSame]
    exact h.concat_of_other rfl rfl (fun _ => nofun) fun _ hUnbinds => hSame hUnbinds.1.symm

theorem keeps_step (hId : id ≠ "") (hFiled : Filed s)
    (h : Keeps id calls (getConversationBinding s id)) (call : StoreCall) :
    Keeps id (calls ++ [call]) (getConversationBinding (step s call) id) := by
  cases call with
  | bindThread conversationId threadId now => exact keeps_bindThread hId h
  | bindSources conversationId sourceIds createdBy now => exact keeps_bindSources hId h
  | unbindSource conversationId sourceId now => exact keeps_unbindSource hFiled h

theorem filed_exec (calls : List StoreCall) : Filed (exec step (empty : σ) calls) :=
  exec_invariant calls (fun _ call h => h.step call) fun id record hFound => by
    rw [get_empty] at hFound
    cases hFound

theorem keeps_exec (hId : id ≠ "") (calls : List StoreCall) :
    Keeps id calls (getConversationBinding (exec step (empty : σ) calls) id) := by
  induction calls using List.reverseRecOn with
  | nil =>
    rw [exec_nil, get_empty]
    exact ⟨fun _ => not_since_nil, rfl⟩
  | append_singleton calls call ih =>
    rw [exec_append]
    exact keeps_step hId (filed_exec calls) ih call

/-- The records are what was composed exactly if no thread was dropped. -/
theorem composes_exec_iff (calls : List StoreCall) :
    Composes (exec step (empty : σ) calls) calls ↔ ThreadsLast calls := by
  refine forall₂_congr fun id hId => ?_
  have hKeeps : Keeps id calls (getConversationBinding (exec step (empty : σ) calls) id) :=
    keeps_exec hId calls
  cases hRecord : getConversationBinding (exec step (empty : σ) calls) id with
  | none =>
    rw [hRecord] at hKeeps
    refine iff_of_true hKeeps.created (.inr fun thread hThread => ?_)
    obtain ⟨call, hCall, hBinding⟩ := mem_filterMap.mp hThread
    have hNothing := List.findSome?_eq_none_iff.mp hKeeps.created call hCall
    rw [binding_eq_none hNothing] at hBinding
    cases hBinding
  | some record =>
    rw [hRecord] at hKeeps
    rw [← getLast?_join_eq_iff, ← hKeeps.thread, ← lastThread_eq]
    constructor
    · exact Composed.thread
    · intro hThread
      exact ⟨hKeeps.conversation, hThread, hKeeps.sources, hKeeps.distinct, hKeeps.created⟩

end Steps

/-- After every sequence of calls, in either store, every conversation has the thread that was bound
to it last, the sources that were bound to it and not since unbound, and the author and the time of
its first binding, exactly if the last call that binds anything to a conversation binds a thread, or
none does. -/
theorem composes_iff (calls : List StoreCall) :
    (Composes (exec step (BindingStore.empty : SqliteBindings) calls) calls ↔ ThreadsLast calls) ∧
      (Composes (exec step (BindingStore.empty : PostgresBindings) calls) calls ↔
        ThreadsLast calls) :=
  ⟨composes_exec_iff calls, composes_exec_iff calls⟩

def threadThenSource : List StoreCall :=
  [.bindThread "conversation-1" "thread-1" ⟨0, 0⟩,
    .bindSources "conversation-1" ["source-1"] "operator" ⟨1, 1⟩]

theorem not_composes_threadThenSource :
    ¬ Composes (exec step (BindingStore.empty : SqliteBindings) threadThenSource) threadThenSource ∧
      ¬ Composes (exec step (BindingStore.empty : PostgresBindings) threadThenSource)
        threadThenSource := by
  have hDropped : ¬ ThreadsLast threadThenSource := by
    intro h
    rcases h "conversation-1" (by decide) with hLast | hNone
    · exact hLast (by decide)
    · cases hNone (some "thread-1") (by decide)
  exact ⟨(composes_exec_iff _).not.mpr hDropped, (composes_exec_iff _).not.mpr hDropped⟩

end Glasslab.Bindings
