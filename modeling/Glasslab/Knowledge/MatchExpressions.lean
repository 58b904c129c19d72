import Glasslab.Foundation.Spacing
import Glasslab.Knowledge.Retrieval

/-!
# The expressions of full-text search

`search_terms` and its relatives of `app/knowledge_search.py`, the `MATCH` expressions that
`search_knowledge_chunks` and `search_rag_chunks_fts` of `app/storage.py` build from them, and how
FTS5 reads a chain of quoted strings. Terms without a quote and a NUL are read back as they are
(`wellFormed`): for the corpus first all of them, then any of them.
-/

namespace Glasslab.Knowledge.FullText

open Foundation Corpus List

def normalizeToken (token : List Char) : List Char :=
  Foundation.strip (fun c => !(c.isAlphanum || c = '+')) token

def normalizedTokens (query : List Char) : List (List Char) :=
  ((splitWords query).map normalizeToken).filter (· ≠ [])

section Terms

variable (lower : List Char → List Char) (maxTerms : Nat)

/-- `_dedupe`, with what was seen so far. -/
def dedupe : (seen : List (List Char)) → List (List Char) → List (List Char)
  | _, [] => []
  | seen, token :: rest =>
    if lower token ∈ seen then dedupe seen rest
    else if maxTerms ≤ seen.length + 1 then [token]
    else token :: dedupe (lower token :: seen) rest

def filterSearchTerms (query : List Char) : List (List Char) :=
  dedupe lower maxTerms [] ((normalizedTokens query).filter fun token =>
    2 < token.length ∧ token.any Char.isAlphanum ∧ lower token ∉ stopwords)

/-- The tokens of more than one character, to which a query without other terms falls back. -/
def fallbackTerms (query : List Char) : List (List Char) :=
  dedupe lower maxTerms [] ((normalizedTokens query).filter fun token => 1 < token.length)

def searchTerms (query : List Char) : List (List Char) :=
  let terms := filterSearchTerms lower maxTerms query
  if terms ≠ [] then terms else fallbackTerms lower maxTerms query

/-- `sep.join`. -/
def join (operator : List Char) (texts : List (List Char)) : List Char :=
  (' ' :: operator ++ [' ']).intercalate texts

def orQuery (query : List Char) : List Char :=
  let joined := join "OR".toList (searchTerms lower maxTerms query)
  if joined ≠ [] then joined else query

end Terms

def quoted (term : List Char) : List Char := '"' :: term ++ ['"']

def maxSearchTerms : Nat := 24

/-- What `search_knowledge_chunks` searches for, if it searches. -/
def knowledgeExpression (lower : List Char → List Char) (query : List Char) : Option (List Char) :=
  let terms := splitWords (orQuery lower maxSearchTerms query)
  if terms = [] then none else some (join "OR".toList (terms.map quoted))

/-- What `search_rag_chunks_fts` searches for, one after the other until something is found. -/
def ragExpressions (lower : List Char → List Char) (query : List Char) : List (List Char) :=
  let significant := filterSearchTerms lower maxSearchTerms query
  if significant ≠ [] then
    [join "AND".toList (significant.map quoted), join "OR".toList (significant.map quoted)]
  else
    let legacy := fallbackTerms lower maxSearchTerms query
    if legacy = [] then [] else [join "OR".toList (legacy.map quoted)]

/-- The white space between tokens. -/
def isGap (c : Char) : Bool := c ∈ [' ', '\t', '\n', '\r']

/-- Characters of a word that is not quoted. -/
def isBare (c : Char) : Bool := c.isAlphanum ∨ c = '_' ∨ c = '\x1a' ∨ 128 ≤ c.toNat

/-- The rest of a string literal and what follows it. A doubled quote stands for one, and the
literal must end before the first NUL. -/
def literal : List Char → Option (List Char × List Char)
  | [] => none
  | '"' :: '"' :: rest => (literal rest).map fun read => ('"' :: read.1, read.2)
  | '"' :: rest => some ([], rest)
  | c :: rest => if c = '\x00' then none else (literal rest).map fun read => (c :: read.1, read.2)

/-- The operands of string literals chained by one operator, the grammar's `expr` of phrases. -/
def operands (operator : List Char) : (fuel : Nat) → List Char → Option (List (List Char))
  | 0, _ => none
  | fuel + 1, text =>
    match text.dropWhile isGap with
    | '"' :: text => do
      let (operand, text) ← literal text
      let text := text.dropWhile isGap
      if text = [] then pure [operand]
      else if operator <+: text ∧ (text.drop operator.length).head?.all (!isBare ·) then
        let rest ← operands operator fuel (text.drop operator.length)
        pure (operand :: rest)
      else none
    | _ => none

/-- An expression is read as the chain of certain strings. -/
def IsChain (operator : String) (expression : List Char) (terms : List (List Char)) : Prop :=
  operands operator.toList expression.length expression = some terms

instance (operator : String) (expression : List Char) (terms : List (List Char)) :
    Decidable (IsChain operator expression terms) :=
  inferInstanceAs (Decidable (_ = _))

/-- Nothing in a term ends the literal that it is quoted in. -/
def Plain (terms : List (List Char)) : Prop := ∀ term ∈ terms, '"' ∉ term ∧ '\x00' ∉ term

variable {term rest text : List Char} {terms : List (List Char)}

theorem literal_append
    (hQuote : '"' ∉ term) (hNul : '\x00' ∉ term) (hRest : rest.head? ≠ some '"') :
    literal (term ++ '"' :: rest) = some (term, rest) := by
  induction term with
  | nil =>
    cases rest with
    | nil => rfl
    | cons c rest =>
      have hOther : c ≠ '"' := fun hSame => hRest (congrArg some hSame)
      rw [nil_append, literal]
      simpa using hOther
  | cons c term ih =>
    rw [mem_cons, not_or] at hQuote hNul
    rw [cons_append, literal]
    · rw [if_neg (Ne.symm hNul.1), ih hQuote.2 hNul.2]
      rfl
    · intro tail hSame
      exact absurd hSame.symm hQuote.1
    · exact fun hSame => hQuote.1 hSame.symm

theorem toList_OR : "OR".toList = ['O', 'R'] := by simp

variable {operator : List Char}

/-- A chain that was joined from quoted terms is read back. -/
theorem operands_join (hOperator : operator.head?.any (!isGap ·) = true)
    (hPlain : Plain terms)
    (hTerms : terms ≠ []) {fuel : Nat} (hFuel : terms.length ≤ fuel) :
    operands operator fuel (join operator (terms.map quoted)) = some terms := by
  induction terms generalizing fuel with
  | nil => exact absurd rfl hTerms
  | cons term rest ih =>
    obtain ⟨fuel, rfl⟩ := Nat.exists_eq_succ_of_ne_zero (Nat.ne_zero_of_lt hFuel)
    obtain ⟨⟨hQuote, hNul⟩, hRest⟩ := forall_mem_cons.mp hPlain
    cases rest with
    | nil =>
      have hRead := @literal_append term [] hQuote hNul nofun
      have hOpen : join operator [quoted term] = '"' :: (term ++ ['"']) ∧
          ('"' :: (term ++ ['"'])).dropWhile isGap = '"' :: (term ++ ['"']) :=
        ⟨by simp [join, quoted], rfl⟩
      rw [map_singleton, hOpen.1, operands, hOpen.2]
      simp only [hRead, Option.bind_eq_bind, Option.bind_some, dropWhile_nil]
      rfl
    | cons next rest =>
      have hIh := ih hRest (cons_ne_nil _ _) (Nat.le_of_succ_le_succ hFuel)
      have hJoin : join operator ((term :: next :: rest).map quoted) = '"' :: (term ++ '"' :: ' ' ::
          (operator ++ ' ' :: join operator ((next :: rest).map quoted))) := by
        simp [join, quoted, intercalate_cons_cons]
      rw [hJoin]
      generalize join operator ((next :: rest).map quoted) = joined at hIh
      have hRead := @literal_append term (' ' :: (operator ++ ' ' :: joined)) hQuote hNul nofun
      have hGap : (' ' :: (operator ++ ' ' :: joined)).dropWhile isGap =
          operator ++ ' ' :: joined := by
        cases operator with
        | nil => cases hOperator
        | cons c operator =>
          have hNot : isGap c = false := by simpa using hOperator
          have hSpace : isGap ' ' = true := rfl
          simp [hNot, hSpace]
      have hNext : operands operator fuel (' ' :: joined) = some (next :: rest) := by
        rw [← hIh]
        cases fuel <;> rfl
      have hOpen : ('"' :: (term ++ '"' :: ' ' :: (operator ++ ' ' :: joined))).dropWhile isGap =
          '"' :: (term ++ '"' :: ' ' :: (operator ++ ' ' :: joined)) := rfl
      rw [operands, hOpen]
      simp only [hRead, hGap, Option.bind_eq_bind, Option.bind_some]
      rw [if_neg (by simp), if_pos ⟨prefix_append _ _, by simp [show isBare ' ' = false by decide]⟩,
        drop_left, hNext]
      rfl

/-! ## The expressions are well formed -/

variable {lower : List Char → List Char} {query : List Char} {maxTerms : Nat}

theorem dedupe_sublist (seen : List (List Char)) :
    (dedupe lower maxTerms seen terms).Sublist terms := by
  induction terms generalizing seen with
  | nil => exact Sublist.refl _
  | cons token rest ih =>
    rw [dedupe]
    split
    · exact (ih seen).cons token
    · split
      · exact (nil_sublist rest).cons_cons token
      · exact (ih _).cons_cons token

/-- A search term is not empty and has no white space. -/
theorem of_mem_searchTerms (h : term ∈ searchTerms lower maxTerms query) :
    term ≠ [] ∧ ∀ c ∈ term, isSpace c = false := by
  have hToken : term ∈ normalizedTokens query := by
    unfold searchTerms at h
    dsimp only at h
    split at h <;> exact (mem_filter.mp ((dedupe_sublist []).subset h)).1
  obtain ⟨hToken, hSome⟩ := mem_filter.mp hToken
  obtain ⟨token, hMem, rfl⟩ := mem_map.mp hToken
  refine ⟨of_decide_eq_true hSome, fun c hc => (of_mem_pieces hMem).2 c ?_⟩
  exact ((List.rdropWhile_prefix _ _).subset hc |> (dropWhile_suffix _).subset)

/-- What is kept has different lower cases, none of them seen before, and below the limit no other
is left out. -/
theorem dedupe_spec (seen terms : List (List Char)) (hSeen : seen.length < maxTerms) :
    ((dedupe lower maxTerms seen terms).map lower).Nodup ∧
      (∀ term ∈ dedupe lower maxTerms seen terms, lower term ∉ seen) ∧
      seen.length + (dedupe lower maxTerms seen terms).length ≤ maxTerms ∧
      (seen.length + (dedupe lower maxTerms seen terms).length < maxTerms →
        ∀ term ∈ terms, lower term ∈ seen ++ (dedupe lower maxTerms seen terms).map lower) := by
  induction terms generalizing seen with
  | nil =>
    exact ⟨nodup_nil, nofun, hSeen.le, fun _ => nofun⟩
  | cons token rest ih =>
    rw [dedupe]
    split
    next hOld =>
      obtain ⟨hNodup, hNew, hLimit, hAll⟩ := ih seen hSeen
      exact ⟨hNodup, hNew, hLimit, fun h => forall_mem_cons.mpr ⟨mem_append_left _ hOld, hAll h⟩⟩
    next hToken =>
      split
      next hFull =>
        refine ⟨by simp, by simpa using hToken, hSeen, fun h => ?_⟩
        rw [length_singleton] at h
        omega
      next hRoom =>
        obtain ⟨hNodup, hNew, hLimit, hAll⟩ := ih (lower token :: seen) (by rw [length_cons]; omega)
        rw [length_cons] at hLimit hAll
        rw [map_cons, length_cons]
        refine ⟨nodup_cons.mpr ⟨fun h => ?_, hNodup⟩, ?_, by omega, fun h => ?_⟩
        · obtain ⟨term, hMem, hEq⟩ := mem_map.mp h
          exact hNew term hMem (hEq ▸ mem_cons_self)
        · exact forall_mem_cons.mpr
            ⟨hToken, fun term hMem h => hNew term hMem (mem_cons_of_mem _ h)⟩
        · refine forall_mem_cons.mpr ⟨by simp, fun term hMem => ?_⟩
          exact perm_middle.symm.subset (hAll (by omega) term hMem)

/-- The terms stand in the query in this order, no two of them have one lower case, and where they
are fewer than the limit no significant word is left out. -/
theorem searchTerms_exact (lower : List Char → List Char) (query : List Char) :
    (searchTerms lower maxSearchTerms query).Sublist (normalizedTokens query) ∧
      ((searchTerms lower maxSearchTerms query).map lower).Nodup ∧
      (searchTerms lower maxSearchTerms query).length ≤ maxSearchTerms ∧
      ((searchTerms lower maxSearchTerms query).length < maxSearchTerms →
        ∀ token ∈ normalizedTokens query, 2 < token.length → token.any Char.isAlphanum →
    lower token ∉ stopwords →
          lower token ∈ (searchTerms lower maxSearchTerms query).map lower) := by
  have hSpec (terms : List (List Char)) := @dedupe_spec lower maxSearchTerms [] terms (by decide)
  have hKept (terms : List (List Char)) (h : terms.Sublist (normalizedTokens query)) :
      (dedupe lower maxSearchTerms [] terms).Sublist (normalizedTokens query) :=
    (dedupe_sublist []).trans h
  unfold searchTerms
  dsimp only
  split
  next hSome =>
    obtain ⟨hNodup, -, hLimit, hAll⟩ := hSpec ((normalizedTokens query).filter _)
    rw [length_nil, Nat.zero_add] at hLimit hAll
    refine ⟨hKept _ filter_sublist, hNodup, hLimit, fun h token hMem hLong hAny hStop => ?_⟩
    exact hAll h token (mem_filter.mpr ⟨hMem, decide_eq_true ⟨hLong, hAny, hStop⟩⟩)
  next hNone =>
    rw [not_not] at hNone
    obtain ⟨hNodup, -, hLimit, -⟩ := hSpec ((normalizedTokens query).filter _)
    rw [length_nil, Nat.zero_add] at hLimit
    refine ⟨hKept _ filter_sublist, hNodup, hLimit, fun h token hMem hLong hAny hStop => ?_⟩
    -- a significant word would be a term
    obtain ⟨-, -, -, hAll⟩ := hSpec ((normalizedTokens query).filter fun token =>
      2 < token.length ∧ token.any Char.isAlphanum ∧ lower token ∉ stopwords)
    rw [filterSearchTerms] at hNone
    rw [hNone] at hAll
    exact absurd
      (hAll (by decide) token (mem_filter.mpr ⟨hMem, decide_eq_true ⟨hLong, hAny, hStop⟩⟩))
      not_mem_nil

theorem splitWords_join
    (hOperator : operator ≠ [] ∧ ∀ c ∈ operator, isSpace c = false)
    (h : ∀ term ∈ terms, term ≠ [] ∧ ∀ c ∈ term, isSpace c = false) :
    splitWords (join operator terms) = terms.intersperse operator := by
  have hJoin : join operator terms = [' '].intercalate (terms.intersperse operator) ∧
      ∀ l ∈ terms.intersperse operator, l ≠ [] ∧ ∀ c ∈ l, isSpace c = false := by
    induction terms with
    | nil => exact ⟨rfl, nofun⟩
    | cons first rest ih =>
      obtain ⟨hFirst, hRest⟩ := forall_mem_cons.mp h
      obtain ⟨hEq, hWords⟩ := ih hRest
      cases rest with
      | nil => exact ⟨rfl, forall_mem_singleton.mpr hFirst⟩
      | cons next rest =>
        rw [intersperse_cons_cons]
        refine ⟨?_, forall_mem_cons.mpr ⟨hFirst, forall_mem_cons.mpr ⟨hOperator, hWords⟩⟩⟩
        obtain ⟨word, words, hSome⟩ := exists_cons_of_ne_nil
          (show (next :: rest).intersperse operator ≠ [] by cases rest <;> exact cons_ne_nil _ _)
        rw [join] at hEq ⊢
        rw [intercalate_cons_cons, hEq, hSome]
        simp [intercalate_cons_cons]
  rw [hJoin.1]
  exact pieces_joined (by decide) hJoin.2

theorem mem_intersperse (h : term ∈ terms.intersperse operator) :
    term = operator ∨ term ∈ terms := by
  induction terms with
  | nil => exact .inr h
  | cons first rest ih =>
    cases rest with
    | nil => exact .inr h
    | cons next rest =>
      rw [intersperse_cons_cons] at h
      grind

theorem sublist_intersperse (operator : List Char) :
    terms.Sublist (terms.intersperse operator) := by
  induction terms with
  | nil => exact Sublist.refl _
  | cons first rest ih =>
    cases rest with
    | nil => exact Sublist.refl _
    | cons next rest => exact (ih.cons operator).cons_cons first

/-- Any of the terms, if there are any. -/
def AnyOf (expressions : List (List Char)) (terms : List (List Char)) : Prop :=
  (terms = [] → expressions = []) ∧
    (terms ≠ [] → Plain terms → ∃ any, expressions = [any] ∧ IsChain "OR" any terms)

/-- The expressions for a query are chains of quoted strings, where the terms are plain: for the
corpus of all significant terms, or of the terms that it falls back to, and for the sources with the
search terms in their order, or of the words of a query without search terms. -/
structure WellFormed (lower : List Char → List Char) (query : List Char) : Prop where
  corpus : let terms := filterSearchTerms lower maxSearchTerms query
    terms ≠ [] → Plain terms → ∃ all any, ragExpressions lower query = [all, any] ∧
      IsChain "AND" all terms ∧ IsChain "OR" any terms
  fallback : filterSearchTerms lower maxSearchTerms query = [] →
    AnyOf (ragExpressions lower query) (fallbackTerms lower maxSearchTerms query)
  sources : let terms := searchTerms lower maxSearchTerms query
    terms ≠ [] → Plain terms → ∃ expression strings, knowledgeExpression lower query =
      some expression ∧
      IsChain "OR" expression strings ∧ terms.Sublist strings ∧ (terms.length = 1 → strings = terms)
  words : searchTerms lower maxSearchTerms query = [] →
    AnyOf (knowledgeExpression lower query).toList (splitWords query)

theorem isChain_join {operator : String} (hOperator : operator = "OR" ∨ operator = "AND")
    (hTerms : terms ≠ []) (hPlain : Plain terms) :
    IsChain operator (join operator.toList (terms.map quoted)) terms := by
  have hHead : operator.toList.head?.any (!isGap ·) = true := by
    rcases hOperator with rfl | rfl <;> simp [isGap]
  refine operands_join hHead hPlain hTerms ?_
  have hLength : terms.length ≤ (join operator.toList (terms.map quoted)).length := by
    clear hTerms hPlain
    induction terms with
    | nil => exact Nat.zero_le _
    | cons first rest ih =>
      cases rest with
      | nil => simp [join, quoted]
      | cons next rest =>
        rw [join] at ih ⊢
        rw [map_cons, map_cons, intercalate_cons_cons, ← map_cons]
        simp only [length_cons, length_append] at ih ⊢
        omega
  exact hLength

theorem anyOf_join {expressions : List (List Char)}
    (h : expressions = if terms = [] then [] else [join "OR".toList (terms.map quoted)]) :
    AnyOf expressions terms := by
  rw [h]
  refine ⟨fun hTerms => if_pos hTerms, fun hTerms hPlain => ?_⟩
  exact ⟨_, if_neg hTerms, isChain_join (.inl rfl) hTerms hPlain⟩

/-- For every query, and whatever lower case is: the expressions are well formed. -/
theorem wellFormed (lower : List Char → List Char) (query : List Char) :
    WellFormed lower query := by
  constructor
  · intro terms hTerms hPlain
    exact ⟨_, _, if_pos hTerms, isChain_join (.inr rfl) hTerms hPlain,
      isChain_join (.inl rfl) hTerms hPlain⟩
  · intro hNone
    exact anyOf_join (if_neg (not_not.mpr hNone))
  · intro terms hTerms hPlain
    have hOperator : "OR".toList ≠ [] ∧ ∀ c ∈ "OR".toList, isSpace c = false := by
      exact ⟨cons_ne_nil _ _, forall_mem_cons.mpr ⟨rfl, forall_mem_singleton.mpr rfl⟩⟩
    have hWords := @splitWords_join terms "OR".toList hOperator fun _ => of_mem_searchTerms
    have hJoined : join "OR".toList terms ≠ [] := by
      intro hNil
      rw [hNil] at hWords
      have hSub := @sublist_intersperse terms "OR".toList
      rw [← hWords] at hSub
      exact hTerms (sublist_nil.mp hSub)
    have hSub := @sublist_intersperse terms "OR".toList
    have hSome : terms.intersperse "OR".toList ≠ [] := fun hNil =>
      hTerms (sublist_nil.mp (hNil ▸ hSub))
    have hQuery : splitWords (orQuery lower maxSearchTerms query) = terms.intersperse "OR".toList :=
      (congrArg splitWords (if_pos hJoined)).trans hWords
    refine ⟨_, _, ?_, isChain_join (.inl rfl) hSome ?_, hSub, fun hOne => ?_⟩
    · rw [knowledgeExpression, hQuery]
      exact if_neg hSome
    · intro word hWord
      rcases mem_intersperse hWord with rfl | hWord
      · exact of_decide_eq_true rfl
      · exact hPlain word hWord
    · obtain ⟨term, hTerm⟩ := length_eq_one_iff.mp hOne
      rw [hTerm]
      rfl
  · intro hNone
    have hQuery : orQuery lower maxSearchTerms query = query := by
      rw [orQuery, hNone]
      rfl
    refine anyOf_join ?_
    rw [knowledgeExpression, hQuery]
    split <;> rfl

theorem mem_of_mem_splitOnP {text word : List Char} {c : Char} (h : word ∈ text.splitOnP isSpace)
    (hc : c ∈ word) : c ∈ text := by
  induction text generalizing word with
  | nil =>
    rw [splitOnP_nil, mem_singleton] at h
    exact h ▸ hc
  | cons a text ih =>
    obtain ⟨first, rest, hSplit⟩ := exists_cons_of_ne_nil (splitOnP_ne_nil isSpace text)
    rw [hSplit] at ih
    rw [splitOnP_cons_eq_if_modifyHead, hSplit] at h
    split at h
    · rcases mem_cons.mp h with rfl | h
      · cases hc
      · exact mem_cons_of_mem _ (ih h hc)
    · rcases mem_cons.mp h with rfl | h
      · rcases mem_cons.mp hc with rfl | hc
        · exact mem_cons_self
        · exact mem_cons_of_mem _ (ih mem_cons_self hc)
      · exact mem_cons_of_mem _ (ih (mem_cons_of_mem _ h) hc)

theorem not_mem_stopword : ∀ word ∈ stopwords, '1' ∉ word := by
  intro word hMem hDigit
  have hText := mem_of_mem_splitOnP (mem_filter.mp hMem).1 hDigit
  simp only [String.toList_append] at hText
  repeat rw [String.toList_ofList] at hText
  revert hText
  decide +kernel

/-- Two significant words are first searched for together. -/
theorem not_disjunction : ∃ first ∈ (ragExpressions id "b12 c12".toList).head?,
    ∀ terms, ¬IsChain "OR" first terms := by
  have hTokens : normalizedTokens "b12 c12".toList = ["b12".toList, "c12".toList] := by
    decide +kernel
  have hWords :
    ∀ word ∈ ["b12".toList, "c12".toList], (2 < word.length ∧ word.any Char.isAlphanum) ∧
      '1' ∈ word := by decide +kernel
  have hTerms :
      filterSearchTerms id maxSearchTerms "b12 c12".toList = ["b12".toList, "c12".toList] := by
    rw [filterSearchTerms, hTokens, filter_eq_self.mpr fun word hMem => ?_]
    · decide +kernel
    · obtain ⟨⟨hLong, hAny⟩, hDigit⟩ := hWords word hMem
      exact decide_eq_true ⟨hLong, hAny, fun hStop => not_mem_stopword _ hStop hDigit⟩
  rw [ragExpressions, hTerms]
  refine ⟨_, rfl, fun terms h => ?_⟩
  have hNone (text : List Char)
    (hText : text = join "AND".toList (["b12".toList, "c12".toList].map quoted)) :
      operands "OR".toList text.length text = none := by
    rw [hText]
    decide +kernel
  cases h

end Glasslab.Knowledge.FullText
