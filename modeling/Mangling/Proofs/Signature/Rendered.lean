import Mangling.Proofs.Signature.Grammar
import Mathlib.Data.List.Chain

/-! Well-formed lists of tokens: these are what scans give, and their texts are scanned into them. -/

namespace Mangling

/-- A word is made of identifier characters. -/
def IsWord (word : Text) : Prop :=
  word ≠ [] ∧ ∀ char ∈ word, isIdentifierChar char = true

/-- A name is one word or more, with a single space between any two. -/
def IsNameContent (content : Text) : Prop :=
  ∃ words ≠ [], (∀ word ∈ words, IsWord word) ∧ content = [' '].intercalate words

/-- A name holds words, template arguments hold no closing bracket, and the items of brackets are
their content split at every comma. -/
def Token.IsWellFormed : Token → Prop
  | .name content => IsNameContent content
  | .templateArgs content items => '>' ∉ content ∧ items = content.splitOn ','
  | .params content items => items = content.splitOn ','
  -- The other tokens hold nothing.
  | _ => True

/-- Behind a token another one can stand: template arguments behind a name only, and a name behind
everything else. -/
def Token.Precedes (token next : Token) : Prop :=
  (next.kind = .templateArgs → token.kind = .name) ∧
    ¬(token.kind = .name ∧ next.kind = .name)

/-- A path of names, template arguments and separators, of which template arguments follow names and
names do not. -/
structure IsTokenPath (path : List Token) : Prop where
  kinds : ∀ token ∈ path,
    token.kind = .name ∨ token.kind = .templateArgs ∨ token.kind = .scope
  front : ∀ token ∈ path.head?, token.kind ≠ .templateArgs
  joined : path.IsChain Token.Precedes

/-- An ending is the last token, with parameters in front of it or not, and with the member word
between these only inside a scope. -/
inductive IsTokenEnding (inScope : Prop) : List Token → Prop where
  | stop : IsTokenEnding inScope [.stop]
  | params (content : Text) (items : List Text) :
    IsTokenEnding inScope [.params content items, .stop]
  | member (nested : inScope) (content : Text) (items : List Text) :
    IsTokenEnding inScope [.params content items, .const, .stop]

/-- A well-formed list of tokens is a path and an ending, with the member word only if the path has a
separator. -/
structure AreWellFormed (tokens : List Token) : Prop where
  each : ∀ token ∈ tokens, token.IsWellFormed
  shaped : ∃ path ending, tokens = path ++ ending ∧ IsTokenPath path ∧
    IsTokenEnding (.scope ∈ path) ending

/-- The marks and the space are no identifier characters. -/
theorem ne_mark_of_isIdentifierChar {char : Char} (joins : isIdentifierChar char = true) :
    char ≠ ' ' ∧ char ≠ ':' ∧ char ≠ '<' ∧ char ≠ '(' := by
  refine ⟨?_, ?_, ?_, ?_⟩ <;> rintro rfl <;> exact absurd joins (by decide)

/-- A character in one set is in no other one whose ranges are all apart from its own. -/
theorem CharRanges.has_eq_false {ranges others : CharRanges}
    (apart : ∀ range ∈ ranges, ∀ other ∈ others, range.2 < other.1 ∨ other.2 < range.1)
    {char : Char} (inside : ranges.has char = true) : others.has char = false := by
  obtain ⟨range, member, within⟩ := List.any_eq_true.mp inside
  rw [has, List.any_eq_false]
  intro other among
  have between := apart range member other among
  simp only [Bool.and_eq_true, decide_eq_true_eq] at within ⊢
  omega

/-- Identifier characters are visible. -/
theorem isBlank_of_isIdentifierChar {char : Char} (joins : isIdentifierChar char = true) :
    isBlank char = false := by
  simp only [isIdentifierChar, isAlphanumeric, Bool.or_eq_true, beq_iff_eq] at joins
  rcases joins with letter | rfl
  · split at letter
    next =>
      have bounds := toNat_of_isAlphanum letter
      refine @CharRanges.has_eq_false [(48, 122)] blankRanges (by decide) char ?_
      simp [CharRanges.has, bounds]
    next => exact CharRanges.has_eq_false (by decide +kernel) letter
  · decide

/-- What goes on with a name that has begun is the rest of a word, and then words behind spaces. -/
theorem exists_words_of_keptFrom (run : Text) :
    ∃ (word : Text) (words : List Text), (∀ char ∈ word, isIdentifierChar char = true) ∧
      (∀ other ∈ words, IsWord other) ∧
      keptFrom true run = word ++ words.flatMap (' ' :: ·) := by
  induction run with
  | nil => exact ⟨[], [], by simp, by simp, rfl⟩
  | cons char rest ih =>
    obtain ⟨word, words, joined, areWords, kept⟩ := ih
    rw [keptFrom]
    split
    next joins =>
      exact ⟨char :: word, words, List.forall_mem_cons.mpr ⟨joins, joined⟩, areWords,
        by simp [kept]⟩
    next =>
      split
      next between =>
        simp only [Bool.and_true, Bool.and_eq_true] at between
        -- The character behind the kept space begins a word.
        have begun : word ≠ [] := by
          rintro rfl
          cases rest with
          | nil => simp at between
          | cons next others =>
            have joins : isIdentifierChar next = true := by simpa using between.2
            have front := congrArg List.head? kept
            rw [keptFrom, if_pos joins] at front
            cases words with
            | nil => simp at front
            | cons other words =>
              have same : next = ' ' := by simpa using front
              exact (ne_mark_of_isIdentifierChar joins).1 same
        exact ⟨[], word :: words, by simp, List.forall_mem_cons.mpr ⟨⟨begun, joined⟩, areWords⟩,
          by simp [kept]⟩
      next => exact ⟨word, words, joined, areWords, kept⟩

/-- The name of a run that names something is made of words. -/
theorem isNameContent_runName {run : Text} (named : IsNamed run) :
    IsNameContent (runName run) := by
  rw [runName_eq]
  induction run with
  | nil => simp [IsNamed] at named
  | cons char rest ih =>
    rw [keptFrom]
    by_cases joins : isIdentifierChar char = true
    · rw [if_pos joins]
      obtain ⟨word, words, joined, areWords, kept⟩ := exists_words_of_keptFrom rest
      refine ⟨(char :: word) :: words, by simp, ?_, by rw [intercalate_cons, kept]; rfl⟩
      exact List.forall_mem_cons.mpr
        ⟨⟨by simp, List.forall_mem_cons.mpr ⟨joins, joined⟩⟩, areWords⟩
    · have later : IsNamed rest := by
        simpa [IsNamed, joins] using named
      simpa [joins] using ih later

/-- A word is kept whole, and a name has begun with it. -/
theorem keptFrom_word (begun : Bool) {word : Text} (isWord : IsWord word) (rest : Text) :
    keptFrom begun (word ++ rest) = word ++ keptFrom true rest := by
  obtain ⟨nonempty, joins⟩ := isWord
  induction word generalizing begun with
  | nil => exact absurd rfl nonempty
  | cons char others ih =>
    obtain ⟨first, later⟩ := List.forall_mem_cons.mp joins
    rw [List.cons_append, keptFrom, if_pos first]
    cases others with
    | nil => rfl
    | cons other others =>
      rw [ih true (by simp) later]
      rfl

/-- Words behind single spaces are kept whole once a name has begun. -/
theorem keptFrom_words {words : List Text} (areWords : ∀ word ∈ words, IsWord word) :
    keptFrom true (words.flatMap (' ' :: ·)) = words.flatMap (' ' :: ·) := by
  induction words with
  | nil => rfl
  | cons word words ih =>
    obtain ⟨isWord, later⟩ := List.forall_mem_cons.mp areWords
    have separate : isIdentifierChar ' ' = false := by decide
    have follows : (word ++ words.flatMap (' ' :: ·)).head?.any isIdentifierChar = true := by
      obtain ⟨char, others, rfl⟩ := List.exists_cons_of_ne_nil isWord.1
      simpa using isWord.2 char (List.mem_cons_self ..)
    rw [List.flatMap_cons, List.cons_append, keptFrom]
    simp only [separate, follows, Bool.false_eq_true, if_false, beq_self_eq_true, Bool.and_self,
      if_true]
    rw [keptFrom_word true isWord, ih later]

/-- The content of a name is a run that names just this. -/
theorem IsNameContent.run {content : Text} (spelled : IsNameContent content) :
    IsRun content ∧ IsNamed content ∧ runName content = content := by
  obtain ⟨words, nonempty, areWords, rfl⟩ := spelled
  obtain ⟨word, others, rfl⟩ := List.exists_cons_of_ne_nil nonempty
  obtain ⟨isWord, later⟩ := List.forall_mem_cons.mp areWords
  have ordinary : ∀ {char : Char}, char = ' ' ∨ isIdentifierChar char = true →
      char ≠ ':' ∧ char ≠ '<' ∧ char ≠ '(' := by
    rintro char (rfl | joins)
    · decide
    · exact (ne_mark_of_isIdentifierChar joins).2
  rw [intercalate_cons]
  refine ⟨?_, ?_, ?_⟩
  · intro char member
    apply ordinary
    rcases List.mem_append.mp member with first | behind
    · exact Or.inr (isWord.2 char first)
    · obtain ⟨other, inside, spaced⟩ := List.mem_flatMap.mp behind
      exact (List.mem_cons.mp spaced).imp_right ((later other inside).2 char)
  · obtain ⟨char, member⟩ := List.exists_mem_of_ne_nil word isWord.1
    exact ⟨char, List.mem_append_left _ member, isWord.2 char member⟩
  · rw [runName_eq, keptFrom_word false isWord, keptFrom_words later]

/-- A name whose content is made of words is the token of that content as a run. -/
theorem IsNameContent.runTokens {content : Text} (spelled : IsNameContent content) :
    runTokens content = [.name content] := by
  obtain ⟨_, named, same⟩ := spelled.run
  rw [runTokens_of_isNamed named, same]

/-- A separator can stand in front of any path. -/
theorem isTokenPath_scope_cons {path : List Token} :
    IsTokenPath (.scope :: path) ↔ IsTokenPath path := by
  constructor
  · rintro ⟨kinds, -, joined⟩
    rw [List.isChain_cons] at joined
    refine ⟨(List.forall_mem_cons.mp kinds).2, ?_, joined.2⟩
    intro token member bracketed
    exact absurd ((joined.1 token member).1 bracketed) (by decide)
  · rintro ⟨kinds, front, joined⟩
    refine ⟨List.forall_mem_cons.mpr ⟨by decide, kinds⟩, by simp [Token.kind], ?_⟩
    rw [List.isChain_cons]
    refine ⟨fun token member => ⟨fun bracketed => absurd bracketed (front token member), ?_⟩, joined⟩
    exact fun both => absurd both.1 (by decide)

/-- A name and a separator can stand in front of any path. -/
theorem isTokenPath_name_scope {content : Text} {path : List Token} :
    IsTokenPath (.name content :: .scope :: path) ↔ IsTokenPath path := by
  refine Iff.trans ?_ isTokenPath_scope_cons
  constructor
  · rintro ⟨kinds, -, joined⟩
    exact ⟨(List.forall_mem_cons.mp kinds).2, by simp [Token.kind], joined.tail⟩
  · rintro ⟨kinds, front, joined⟩
    refine ⟨List.forall_mem_cons.mpr ⟨Or.inl rfl, kinds⟩, by simp [Token.kind], ?_⟩
    exact List.isChain_cons_cons.mpr ⟨⟨by simp [Token.kind], by simp [Token.kind]⟩, joined⟩

/-- A name with its template arguments can stand in front of any path. -/
theorem isTokenPath_name_templateArgs {name content : Text} {items : List Text}
    {path : List Token} :
    IsTokenPath (.name name :: .templateArgs content items :: path) ↔ IsTokenPath path := by
  constructor
  · rintro ⟨kinds, -, joined⟩
    have behind := List.isChain_cons.mp (List.isChain_cons_cons.mp joined).2
    refine ⟨(List.forall_mem_cons.mp (List.forall_mem_cons.mp kinds).2).2, ?_, behind.2⟩
    intro token member bracketed
    exact absurd ((behind.1 token member).1 bracketed) (by simp [Token.kind])
  · rintro ⟨kinds, front, joined⟩
    refine ⟨List.forall_mem_cons.mpr ⟨Or.inl rfl, List.forall_mem_cons.mpr
      ⟨Or.inr (Or.inl rfl), kinds⟩⟩, by simp [Token.kind], ?_⟩
    refine List.isChain_cons_cons.mpr ⟨⟨fun _ => rfl, by simp [Token.kind]⟩, ?_⟩
    rw [List.isChain_cons]
    refine ⟨fun token member => ⟨fun bracketed => absurd bracketed (front token member), ?_⟩, joined⟩
    simp [Token.kind]

/-- A run gives no path at all, or a single name. -/
theorem isTokenPath_runTokens (run : Text) : IsTokenPath (runTokens run) := by
  rw [runTokens]
  split
  · exact ⟨by simp, by simp, by simp⟩
  · exact ⟨by simp [Token.kind], by simp [Token.kind], by simp⟩

/-- The name of a run is well formed if there is one. -/
theorem isWellFormed_runTokens (run : Text) : ∀ token ∈ runTokens run, token.IsWellFormed := by
  intro token member
  rw [runTokens] at member
  split at member
  · simp at member
  next spelled =>
    rw [List.mem_singleton.mp member]
    have named : IsNamed run := by
      by_contra unnamed
      exact spelled (by simp [runName_eq_nil_iff.mpr unnamed])
    exact isNameContent_runName named

/-- The tokens of a tail are an ending. -/
theorem Tail.IsWellFormed.isTokenEnding {inScope : Bool} {tail : Tail}
    (formed : tail.IsWellFormed inScope) :
    IsTokenEnding (inScope = true) tail.tokens ∧ ∀ token ∈ tail.tokens, token.IsWellFormed := by
  cases tail with
  | nothing => exact ⟨.stop, by simp [tokens, Token.IsWellFormed]⟩
  | params content blanks => exact ⟨.params _ _, by simp [tokens, Token.IsWellFormed, commaPieces]⟩
  | member content between behind =>
    exact ⟨.member formed.1 _ _, by simp [tokens, Token.IsWellFormed, commaPieces]⟩

/-- An ending stays one where the member word is allowed more often. -/
theorem IsTokenEnding.imp {inScope other : Prop} {ending : List Token}
    (isEnding : IsTokenEnding inScope ending) (allowed : inScope → other) :
    IsTokenEnding other ending := by
  cases isEnding with
  | stop => exact .stop
  | params content items => exact .params content items
  | member nested content items => exact .member (allowed nested) content items

/-- The tokens of a well-formed signature are a path and an ending. -/
theorem Signature.IsWellFormed.shaped {inScope : Bool} {signature : Signature}
    (formed : signature.IsWellFormed inScope) :
    (∀ token ∈ signature.tokens, token.IsWellFormed) ∧
      ∃ path ending, signature.tokens = path ++ ending ∧ IsTokenPath path ∧
        IsTokenEnding (inScope = true ∨ .scope ∈ path) ending := by
  induction signature using Signature.frontInduction generalizing inScope with
  | ended run tail =>
    obtain ⟨_, formed⟩ := isWellFormed_ended.mp formed
    obtain ⟨ending, each⟩ := formed.isTokenEnding
    rw [tokens_ended]
    exact ⟨List.forall_mem_append.mpr ⟨isWellFormed_runTokens run, each⟩,
      runTokens run, tail.tokens, rfl, isTokenPath_runTokens run, ending.imp Or.inl⟩
  | nested run rest ih =>
    obtain ⟨_, formed⟩ := isWellFormed_nested.mp formed
    obtain ⟨each, path, ending, split, isPath, isEnding⟩ := ih formed
    rw [tokens_nested, split]
    refine ⟨?_, runTokens run ++ .scope :: path, ending, by simp, ?_,
      isEnding.imp fun _ => Or.inr (by simp)⟩
    · rw [← split]
      exact List.forall_mem_append.mpr ⟨isWellFormed_runTokens run,
        List.forall_mem_cons.mpr ⟨trivial, each⟩⟩
    · rw [runTokens]
      split
      · exact isTokenPath_scope_cons.mpr isPath
      · exact isTokenPath_name_scope.mpr isPath
  | bracketed run content rest ih =>
    obtain ⟨⟨_, named, free⟩, formed⟩ := isWellFormed_bracketed.mp formed
    obtain ⟨each, path, ending, split, isPath, isEnding⟩ := ih formed
    rw [tokens_bracketed]
    refine ⟨List.forall_mem_cons.mpr ⟨isNameContent_runName named,
        List.forall_mem_cons.mpr ⟨⟨free, rfl⟩, each⟩⟩,
      .name (runName run) :: .templateArgs content (commaPieces content) :: path, ending,
      by simp [split], isTokenPath_name_templateArgs.mpr isPath, ?_⟩
    exact isEnding.imp fun either => either.imp_right fun member => by simp [member]

/-- An ending is written as the tail that has its tokens and no blanks. -/
theorem IsTokenEnding.exists_tail {inScope : Prop} (nested : Bool)
    (allowed : inScope → nested = true) {ending : List Token} (isEnding : IsTokenEnding inScope ending)
    (each : ∀ token ∈ ending, token.IsWellFormed) :
    ∃ tail : Tail, tail.IsWellFormed nested ∧ tail.tokens = ending ∧
      tail.text = renderTokens ending := by
  have unblank : AreBlanks [] := by simp [AreBlanks]
  cases isEnding with
  | stop => exact ⟨.nothing, trivial, rfl, rfl⟩
  | params content items =>
    have pieces : items = commaPieces content := each _ (List.mem_cons_self ..)
    exact ⟨.params content [], unblank, by rw [pieces]; rfl,
      by simp [Tail.text, renderTokens, Token.render]⟩
  | member inside content items =>
    have pieces : items = commaPieces content := each _ (List.mem_cons_self ..)
    exact ⟨.member content [] [], ⟨allowed inside, unblank, unblank⟩, by rw [pieces]; rfl,
      by simp [Tail.text, renderTokens, Token.render, TokenKind.label]⟩

/-- A path that can be taken apart at its front, in the ways in which a signature is made from its
front. -/
inductive IsDivided : List Token → Prop where
  | nil : IsDivided []
  | last (content : Text) : IsDivided [.name content]
  | scope {rest : List Token} (divided : IsDivided rest) : IsDivided (.scope :: rest)
  | nested (content : Text) {rest : List Token} (divided : IsDivided rest) :
    IsDivided (.name content :: .scope :: rest)
  | bracketed (name content : Text) (items : List Text) {rest : List Token}
    (divided : IsDivided rest) : IsDivided (.name name :: .templateArgs content items :: rest)

/-- Every path can be taken apart at its front. -/
theorem IsTokenPath.isDivided {path : List Token} (isPath : IsTokenPath path) : IsDivided path := by
  -- A name goes with what follows it, so a step takes one token or two.
  induction length : path.length using Nat.strongRecOn generalizing path with
  | ind length ih =>
    subst length
    cases path with
    | nil => exact .nil
    | cons token rest =>
      have kind := isPath.kinds token (List.mem_cons_self ..)
      cases token with
      | name name =>
        cases rest with
        | nil => exact .last name
        | cons next rest =>
          have nextKind := isPath.kinds next (by simp)
          cases next with
          | scope =>
            exact .nested name (ih _ (by simp only [List.length_cons]; omega)
              (isTokenPath_name_scope.mp isPath) rfl)
          | templateArgs content items =>
            exact .bracketed name content items (ih _ (by simp only [List.length_cons]; omega)
              (isTokenPath_name_templateArgs.mp isPath) rfl)
          | name other => exact absurd ⟨rfl, rfl⟩ (List.isChain_cons_cons.mp isPath.joined).1.2
          | params | const | stop => simp [Token.kind] at nextKind
      | scope => exact .scope (ih _ (by simp) (isTokenPath_scope_cons.mp isPath) rfl)
      | templateArgs content items => exact absurd rfl (isPath.front _ rfl)
      | params | const | stop => simp [Token.kind] at kind

/-- A path and an ending are the tokens of a well-formed signature that is written as they are. -/
theorem IsDivided.exists_signature (inScope : Bool) {path ending : List Token}
    (divided : IsDivided path) (isEnding : IsTokenEnding (inScope = true ∨ .scope ∈ path) ending)
    (each : ∀ token ∈ path ++ ending, token.IsWellFormed) :
    ∃ signature : Signature, signature.IsWellFormed inScope ∧
      signature.tokens = path ++ ending ∧ signature.text = renderTokens (path ++ ending) := by
  have unmarked : IsRun [] := by simp [IsRun]
  have unnamed : runTokens [] = [] := rfl
  induction divided generalizing inScope with
  | nil =>
    obtain ⟨tail, formed, listed, written⟩ := isEnding.exists_tail inScope (by simp) each
    exact ⟨.ended [] tail, Signature.isWellFormed_ended.mpr ⟨unmarked, formed⟩,
      by simp [listed, unnamed], by simp [written]⟩
  | last content =>
    obtain ⟨first, later⟩ := List.forall_mem_cons.mp each
    have spelled : IsNameContent content := first
    obtain ⟨tail, formed, listed, written⟩ := isEnding.exists_tail inScope (by simp) later
    exact ⟨.ended content tail, Signature.isWellFormed_ended.mpr ⟨spelled.run.1, formed⟩,
      by simp [listed, spelled.runTokens], by simp [written, renderTokens, Token.render]⟩
  | scope _ ih =>
    obtain ⟨signature, formed, listed, written⟩ :=
      ih true (isEnding.imp fun _ => Or.inl rfl) (List.forall_mem_cons.mp each).2
    exact ⟨.nested [] signature, Signature.isWellFormed_nested.mpr ⟨unmarked, formed⟩,
      by simp [listed, unnamed], by simp [written, renderTokens, Token.render, TokenKind.label]⟩
  | nested content _ ih =>
    obtain ⟨first, later⟩ := List.forall_mem_cons.mp each
    have spelled : IsNameContent content := first
    obtain ⟨signature, formed, listed, written⟩ :=
      ih true (isEnding.imp fun _ => Or.inl rfl) (List.forall_mem_cons.mp later).2
    exact ⟨.nested content signature, Signature.isWellFormed_nested.mpr ⟨spelled.run.1, formed⟩,
      by simp [listed, spelled.runTokens],
      by simp [written, renderTokens, Token.render, TokenKind.label]⟩
  | bracketed name content items _ ih =>
    obtain ⟨first, second, later⟩ :=
      (List.forall_mem_cons.mp each).imp_right List.forall_mem_cons.mp
    have spelled : IsNameContent name := first
    obtain ⟨free, pieces⟩ : '>' ∉ content ∧ items = commaPieces content := second
    obtain ⟨plain, named, same⟩ := spelled.run
    obtain ⟨signature, formed, listed, written⟩ :=
      ih inScope (isEnding.imp fun either => either.imp_right fun member => by simpa using member)
        later
    exact ⟨.bracketed name content signature,
      Signature.isWellFormed_bracketed.mpr ⟨⟨plain, named, free⟩, formed⟩,
      by simp [listed, same, pieces], by simp [written, renderTokens, Token.render]⟩

/-- Scans give exactly the well-formed lists of tokens, and each of these is what its own text is
scanned into; so the text of what has been scanned is scanned into the same tokens again. -/
theorem scanSignature_renderTokens (tokens : List Token) :
    (AreWellFormed tokens ↔ ∃ signature, (scanSignature signature).result = .ok tokens) ∧
      (AreWellFormed tokens → (scanSignature (renderTokens tokens)).result = .ok tokens) ∧
      ∀ signature, (scanSignature signature).result = .ok tokens →
        (scanSignature (renderTokens tokens)).result = .ok tokens := by
  have formed : ∀ signature, (scanSignature signature).result = .ok tokens →
      AreWellFormed tokens := by
    intro signature scanned
    obtain ⟨divided, isFormed, _, rfl⟩ := exists_signature_of_scanSignature scanned
    obtain ⟨each, path, ending, split, isPath, isEnding⟩ := isFormed.shaped
    exact ⟨each, path, ending, split, isPath, isEnding.imp fun either => by simpa using either⟩
  have rendered : AreWellFormed tokens →
      (scanSignature (renderTokens tokens)).result = .ok tokens := by
    rintro ⟨each, path, ending, rfl, isPath, isEnding⟩
    obtain ⟨signature, isFormed, listed, written⟩ :=
      isPath.isDivided.exists_signature false (isEnding.imp Or.inr) each
    rw [← written, ← listed]
    exact isFormed.scanned
  refine ⟨⟨fun areFormed => ⟨_, rendered areFormed⟩, ?_⟩, rendered, ?_⟩
  · rintro ⟨signature, scanned⟩
    exact formed signature scanned
  · intro signature scanned
    exact rendered (formed signature scanned)

/-- A loosely written member is rendered without what its tokens do not hold. -/
theorem scanSignature_loose_member :
    ∃ tokens, (scanSignature " a ::B<int, C>c::f( g(x) ) const ".toList).result = .ok tokens ∧
      renderTokens tokens = "a::B<int, C>c::f( g(x) )const".toList ∧
      (scanSignature (renderTokens tokens)).result = .ok tokens := by
  refine ⟨[.name "a".toList, .scope, .name "B".toList,
    .templateArgs "int, C".toList ["int".toList, " C".toList], .name "c".toList, .scope,
    .name "f".toList, .params " g(x) ".toList [" g(x) ".toList], .const, .stop], ?_, rfl, ?_⟩
  · with_unfolding_all rfl
  · exact (scanSignature_renderTokens _).2.2 _
      (show (scanSignature " a ::B<int, C>c::f( g(x) ) const ".toList).result = .ok _ by
        with_unfolding_all rfl)

end Mangling
