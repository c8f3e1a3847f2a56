import Mangling.Proofs.Encoding.PlainParameter
import Mangling.Proofs.Symbol.Accepted
import Mangling.Proofs.Symbol.Prototype

/-! Spellings without a base leave no trace in a symbol, unless nothing visible is left of their
list. -/

namespace Mangling

/-- Whether a spelling has a base. -/
def hasBase (spelling : Text) : Bool :=
  !(baseOf spelling).isEmpty

/-- The spellings that count behind a lead, which is what a head has opened and not closed again:
those with a base, and the first one, which goes on with the lead, if there is any. -/
def keptSpellings (lead : Text) (spellings : List Text) : List Text :=
  if lead.isEmpty then spellings.filter hasBase
  else spellings.take 1 ++ (spellings.drop 1).filter hasBase

/-- The content of a parameter list behind a lead. -/
def listContent (lead : Text) (spellings : List Text) : Text :=
  lead ++ [','].intercalate spellings

/-- A tail that ends with an empty list, behind a run, is a parameter list of what is open in front
of the closing parenthesis. -/
theorem Tail.IsWellFormed.exists_lead {inScope : Bool} {tail : Tail}
    (formed : tail.IsWellFormed inScope) {run head : Text} (plain : IsRun run)
    (written : run ++ tail.text = head ++ "()".toList) :
    ∃ lead, tail = .params lead [] ∧ run ++ '(' :: lead = head ++ ['('] := by
  have last : ∀ {text : Text} {char : Char}, text ++ [char] = head ++ "()".toList →
      text = head ++ ['('] ∧ char = ')' := by
    intro text char same
    have ending : head ++ "()".toList = (head ++ ['(']) ++ [')'] := by simp
    rw [ending] at same
    obtain ⟨front, back⟩ := List.append_inj' same rfl
    exact ⟨front, List.singleton_inj.mp back⟩
  -- No other tail ends with a parenthesis.
  cases tail with
  | nothing =>
    rw [text, List.append_nil] at written
    exact absurd rfl (plain '(' (by simp [written])).2.2
  | params content blanks =>
    rcases List.eq_nil_or_concat blanks with rfl | ⟨front, char, rfl⟩
    · exact ⟨content, rfl, (last (by simpa [text] using written)).1⟩
    · have areBlanks : AreBlanks (front.concat char) := formed
      have closing := @last (run ++ '(' :: (content ++ ')' :: front)) char
        (by simpa [text] using written)
      exact absurd (by simp [closing.2]) areBlanks.paren_not_mem
  | member content between behind =>
    rcases List.eq_nil_or_concat behind with rfl | ⟨front, char, rfl⟩
    · have word : constWord = "cons".toList ++ ['t'] := rfl
      have closing := @last (run ++ '(' :: (content ++ ')' :: (between ++ "cons".toList))) 't'
        (by simpa [text, word] using written)
      exact absurd closing.2 (by decide)
    · have areBlanks : AreBlanks (front.concat char) := formed.2.2
      have closing := @last (run ++ '(' :: (content ++ ')' :: (between ++ constWord ++ front))) char
        (by simpa [text] using written)
      exact absurd (by simp [closing.2]) areBlanks.paren_not_mem

/-- A signature that ends with an empty list goes on with any other list in place of it. -/
theorem Signature.IsWellFormed.exists_lead {inScope : Bool} {signature : Signature}
    (formed : signature.IsWellFormed inScope) {head : Text}
    (written : signature.text = head ++ "()".toList) :
    ∃ path lead, signature.tokens = path ++ [.params lead (commaPieces lead), .stop] ∧
      (∀ token ∈ path, token.isFinal = false) ∧ (lead = [] ∨ '(' ∈ lead ∧ '(' ∈ head) ∧
      ∀ content, ∃ filled : Signature, filled.IsWellFormed inScope ∧
        filled.text = head ++ '(' :: (content ++ [')']) ∧
        filled.tokens =
          path ++ [.params (lead ++ content) (commaPieces (lead ++ content)), .stop] := by
  have named : ∀ run, ∀ token ∈ runTokens run, token.isFinal = false :=
    fun run => (isTokenPath_runTokens run).isFinal_eq_false
  induction signature using Signature.frontInduction generalizing inScope head with
  | ended run tail =>
    obtain ⟨plain, tailFormed⟩ := isWellFormed_ended.mp formed
    rw [text_ended] at written
    obtain ⟨lead, rfl, opened⟩ := tailFormed.exists_lead plain written
    refine ⟨runTokens run, lead, tokens_ended .., named run, ?_, ?_⟩
    · -- What is open ends with the parenthesis in front of the empty list.
      rcases List.eq_nil_or_concat lead with none | ⟨front, char, rfl⟩
      · exact Or.inl none
      · have split : (run ++ '(' :: front) ++ [char] = head ++ ['('] := by simpa using opened
        obtain ⟨whole, last⟩ := List.append_inj' split rfl
        rw [← whole, List.singleton_inj.mp last]
        exact Or.inr ⟨by simp, by simp⟩
    · intro content
      refine ⟨.ended run (.params (lead ++ content) []),
        isWellFormed_ended.mpr ⟨plain, tailFormed⟩, ?_, tokens_ended ..⟩
      have longer := congrArg (· ++ (content ++ [')'])) opened
      simpa [Tail.text] using longer
  | nested run rest ih =>
    obtain ⟨plain, restFormed⟩ := isWellFormed_nested.mp formed
    have marked : (run ++ [':']) ++ ':' :: rest.text = head ++ "()".toList := by simpa using written
    obtain ⟨inner, rfl, restWritten⟩ := exists_append_of_mark (by decide) marked
    obtain ⟨path, lead, tokens, going, opened, fill⟩ := ih restFormed restWritten
    refine ⟨runTokens run ++ .scope :: path, lead, by simp [tokens], ?_,
      opened.imp_right fun both => ⟨both.1, by simp [both.2]⟩, ?_⟩
    · exact List.forall_mem_append.mpr ⟨named run, List.forall_mem_cons.mpr ⟨rfl, going⟩⟩
    · intro content
      obtain ⟨filled, isFormed, text, filledTokens⟩ := fill content
      exact ⟨.nested run filled, isWellFormed_nested.mpr ⟨plain, isFormed⟩, by simp [text],
        by simp [filledTokens]⟩
  | bracketed run content rest ih =>
    obtain ⟨front, restFormed⟩ := isWellFormed_bracketed.mp formed
    have marked : (run ++ '<' :: content) ++ '>' :: rest.text = head ++ "()".toList := by
      simpa using written
    obtain ⟨inner, rfl, restWritten⟩ := exists_append_of_mark (by decide) marked
    obtain ⟨path, lead, tokens, going, opened, fill⟩ := ih restFormed restWritten
    refine ⟨.name (runName run) :: .templateArgs content (commaPieces content) :: path, lead,
      by simp [tokens], ?_, opened.imp_right fun both => ⟨both.1, by simp [both.2]⟩, ?_⟩
    · exact List.forall_mem_cons.mpr ⟨rfl, List.forall_mem_cons.mpr ⟨rfl, going⟩⟩
    · intro inside
      obtain ⟨filled, isFormed, text, filledTokens⟩ := fill inside
      exact ⟨.bracketed run content filled, isWellFormed_bracketed.mpr ⟨front, isFormed⟩,
        by simp [text], by simp [filledTokens]⟩

/-- Behind a head that is accepted with an empty list every list is written behind the same path. -/
theorem exists_lead_of_scanSignature {head : Text} {tokens : List Token}
    (accepted : (scanSignature (head ++ "()".toList)).result = .ok tokens) :
    ∃ path lead, tokens = path ++ [.params lead (commaPieces lead), .stop] ∧
      (lead = [] ∨ '(' ∈ lead ∧ '(' ∈ head) ∧ ∃ (symbol : Text) (table : Table), ∀ spellings,
        (mangle (listSignature head spellings)).outcome =
          .ok (symbol ++ (table.encodeList (listContent lead spellings)
            (commaPieces (listContent lead spellings))).1.flatten) := by
  obtain ⟨divided, formed, written, rfl⟩ := exists_signature_of_scanSignature accepted
  obtain ⟨path, lead, split, going, opened, fill⟩ := formed.exists_lead written
  let isConst := path.any (·.kind == .const)
  refine ⟨path, lead, split, opened,
    symbolMark ++ (pathFragments isConst (pathComponents path)).flatten,
    scopeTable (pathComponents path), ?_⟩
  intro spellings
  obtain ⟨filled, isFormed, text, filledTokens⟩ := fill ([','].intercalate spellings)
  have scanned := isFormed.scanned
  rw [text, filledTokens] at scanned
  -- Only the path can hold the member word.
  have member : ∀ content items,
      (path ++ [Token.params content items, .stop]).any (·.kind == .const) = isConst := by
    intro content items
    rw [List.any_append]
    exact Bool.or_false _
  rw [listSignature, mangle_eq_closedSymbol scanned, closedSymbol_params _ _ going, member,
    listContent]

/-- Items describe the parameters of those that have a base. -/
theorem describedParameters_eq (items : List Text) :
    describedParameters items = (items.filter hasBase).map Parameter.spelled := by
  rw [describedParameters, List.filter_map]
  rfl

/-- Items describe no parameters exactly when none of them has a base. -/
theorem describedParameters_eq_nil_iff {items : List Text} :
    describedParameters items = [] ↔ items.filter hasBase = [] := by
  rw [describedParameters_eq, List.map_eq_nil_iff]

/-- The items of a lead come in front of spellings that begin behind a comma. -/
theorem commaPieces_append (lead : Text) {spellings : List Text}
    (free : ∀ spelling ∈ spellings, ',' ∉ spelling) :
    commaPieces (lead ++ spellings.flatMap (',' :: ·)) = commaPieces lead ++ spellings := by
  cases spellings with
  | nil => simp
  | cons first others =>
    have joined : (first :: others).flatMap (',' :: ·) =
        ',' :: [','].intercalate (first :: others) := by
      rw [intercalate_cons]
      rfl
    rw [joined]
    calc
      commaPieces (lead ++ ',' :: [','].intercalate (first :: others)) =
          commaPieces lead ++ commaPieces ([','].intercalate (first :: others)) :=
        List.splitOn_append_cons_self ..
      _ = commaPieces lead ++ first :: others := by
        rw [commaPieces_intercalate (List.cons_ne_nil first others) free]

/-- Behind no lead the spellings with a base count. -/
theorem keptSpellings_nil (spellings : List Text) :
    keptSpellings [] spellings = spellings.filter hasBase := rfl

/-- Behind no lead a list describes what its spellings do. -/
theorem describedParameters_listContent_nil {spellings : List Text}
    (free : ∀ spelling ∈ spellings, ',' ∉ spelling) :
    describedParameters (commaPieces (listContent [] spellings)) =
      describedParameters spellings := by
  rw [listContent, List.nil_append]
  by_cases none : spellings = []
  · -- The one piece of an empty list has no base.
    rw [none]
    rfl
  · rw [commaPieces_intercalate none free]

/-- The spellings that count describe the same parameters as all of them, behind any lead. -/
theorem describedParameters_keptSpellings (lead : Text) {spellings : List Text}
    (free : ∀ spelling ∈ spellings, ',' ∉ spelling) :
    describedParameters (commaPieces (listContent lead (keptSpellings lead spellings))) =
      describedParameters (commaPieces (listContent lead spellings)) := by
  by_cases closed : lead = []
  · have kept : ∀ spelling ∈ spellings.filter hasBase, ',' ∉ spelling :=
      fun spelling member => free spelling (List.mem_filter.mp member).1
    rw [closed, keptSpellings_nil, describedParameters_listContent_nil kept,
      describedParameters_listContent_nil free]
    simp [describedParameters_eq]
  · unfold listContent
    cases spellings with
    | nil => simp [keptSpellings]
    | cons first others =>
      obtain ⟨_, later⟩ := List.forall_mem_cons.mp free
      have kept : ∀ spelling ∈ others.filter hasBase, ',' ∉ spelling :=
        fun spelling member => later spelling (List.mem_filter.mp member).1
      have split : keptSpellings lead (first :: others) = first :: others.filter hasBase := by
        simp [keptSpellings, closed]
      rw [split, intercalate_cons, intercalate_cons, ← List.append_assoc, ← List.append_assoc,
        commaPieces_append _ kept, commaPieces_append _ later]
      simp [describedParameters_eq]

/-- All characters of a text of which trimming leaves nothing are blank. -/
theorem isBlank_of_mem {text : Text} (blank : trimBlanks text = []) {char : Char}
    (member : char ∈ text) : isBlank char = true := by
  have all : text.all isBlank = true := by rw [← isEmpty_trimBlanks, blank, List.isEmpty_nil]
  exact List.all_eq_true.mp all char member

/-- If nothing visible is in a list, then neither is there in what counts of it. -/
theorem trimBlanks_keptSpellings {lead : Text} {spellings : List Text}
    (blank : trimBlanks (listContent lead spellings) = []) :
    trimBlanks (listContent lead (keptSpellings lead spellings)) = [] := by
  match spellings with
  | [] => simpa [keptSpellings] using blank
  | [spelling] =>
    by_cases kept : keptSpellings lead [spelling] = [spelling]
    · rw [kept, blank]
    · -- The only spelling can be left out only behind no lead.
      have closed : lead = [] := by
        by_contra opened
        exact kept (by simp [keptSpellings, opened])
      have dropped : hasBase spelling = false := by
        by_contra based
        exact kept (by simpa [keptSpellings, closed] using based)
      simp [keptSpellings, closed, dropped, listContent, trimBlanks, trim]
  | first :: second :: others =>
    -- A comma is visible.
    have comma := isBlank_of_mem blank (show ',' ∈ listContent lead (first :: second :: others) by
      simp [listContent, List.intercalate_cons_cons])
    exact absurd comma (by decide)

/-- What a list without anything visible describes is not written as the type without values. -/
theorem Table.flatten_encodeAll_ne_void (table : Table) {text : Text}
    (blank : trimBlanks text = []) :
    (table.encodeAll (describedParameters (commaPieces text))).1.flatten ≠ Builtin.void.code := by
  have free : ',' ∉ text := fun member => absurd (isBlank_of_mem blank member) (by decide)
  rw [commaPieces_of_not_mem free, describedParameters_eq]
  cases based : hasBase text with
  | false =>
    simp only [List.filter_singleton, based]
    exact (List.cons_ne_nil _ _).symm
  | true =>
    -- A base of blanks is taken for the name of a class.
    have spelled : (Parameter.spelled text).base ≠ [] := by
      simpa [hasBase, Parameter.spelled] using based
    have covered : ¬(Parameter.spelled text).IsBare := by
      intro bare
      obtain ⟨kind, found⟩ := Option.isSome_iff_exists.mp bare.1
      obtain ⟨⟨char, member, visible⟩, _⟩ := Builtin.characters_of_ofSpelling found
      have inside : char ∈ text := (baseOf_sublist text).subset member
      simp [isBlank_of_mem blank inside] at visible
    have long := table.two_le_length_encode spelled covered
    intro same
    have short : (table.encode (Parameter.spelled text)).1.length = Builtin.void.code.length := by
      simpa [List.filter_singleton, based, encodeAll] using congrArg List.length same
    rw [short] at long
    exact absurd long (by decide)

/-- A list without anything visible is written as the type without values. -/
theorem Table.encodeList_of_blank (table : Table) {content : Text} (blank : trimBlanks content = [])
    (items : List Text) : (table.encodeList content items).1 = [Builtin.void.code] := by
  rw [encodeList, ← isEmpty_trimBlanks, blank]
  rfl

/-- Any other list is written as the parameters that it describes. -/
theorem Table.encodeList_of_visible (table : Table) {content : Text}
    (visible : trimBlanks content ≠ []) (items : List Text) :
    (table.encodeList content items).1 = (table.encodeAll (describedParameters items)).1 := by
  rw [encodeList, ← isEmpty_trimBlanks, if_neg (by simpa using visible)]

/-- A list is written as no code at all exactly when something is visible in it and nothing of it
describes a parameter. -/
theorem Table.encodeList_eq_nil_iff (table : Table) (content : Text) (items : List Text) :
    (table.encodeList content items).1 = [] ↔
      trimBlanks content ≠ [] ∧ describedParameters items = [] := by
  by_cases blank : trimBlanks content = []
  · simp [table.encodeList_of_blank blank, blank]
  · rw [table.encodeList_of_visible blank]
    cases describedParameters items <;> simp [encodeAll, blank]

/-- No code of a list is empty. -/
theorem Table.ne_nil_of_mem_encodeList (table : Table) {content : Text} {items : List Text}
    {code : Text} (member : code ∈ (table.encodeList content items).1) : code ≠ [] := by
  rcases table.code_of_mem_encodeList member with ⟨kind, rfl⟩ | long
  · cases kind <;> decide
  · rintro rfl
    simp at long

/-- What counts of a list is written as the whole list, unless something is visible in the whole
only. -/
theorem Table.flatten_encodeList_keptSpellings (table : Table) (lead : Text) {spellings : List Text}
    (free : ∀ spelling ∈ spellings, ',' ∉ spelling) :
    let content := listContent lead spellings
    let rest := listContent lead (keptSpellings lead spellings)
    (table.encodeList content (commaPieces content)).1.flatten =
        (table.encodeList rest (commaPieces rest)).1.flatten ↔
      (trimBlanks rest = [] → trimBlanks content = []) := by
  intro content rest
  have described : describedParameters (commaPieces rest) =
      describedParameters (commaPieces content) := describedParameters_keptSpellings lead free
  constructor
  · intro same unseen
    by_contra visible
    rw [table.encodeList_of_blank unseen, table.encodeList_of_visible visible, ← described] at same
    exact table.flatten_encodeAll_ne_void unseen (by simpa using same)
  · intro carried
    by_cases blank : trimBlanks content = []
    · rw [table.encodeList_of_blank blank,
        table.encodeList_of_blank (trimBlanks_keptSpellings blank)]
    · rw [table.encodeList_of_visible blank, table.encodeList_of_visible (blank ∘ carried),
        described]

/-- Behind a lead, which has opened a parenthesis if there is any, a list describes no parameter
exactly when there is no lead and nothing of the list counts. -/
theorem describedParameters_listContent_eq_nil_iff {lead : Text} (opened : lead = [] ∨ '(' ∈ lead)
    {spellings : List Text} (free : ∀ spelling ∈ spellings, ',' ∉ spelling) :
    describedParameters (commaPieces (listContent lead spellings)) = [] ↔
      lead = [] ∧ keptSpellings lead spellings = [] := by
  rcases opened with rfl | opened
  · rw [describedParameters_listContent_nil free, describedParameters_eq_nil_iff, keptSpellings_nil]
    simp
  · -- The parenthesis is kept in the base of the item in which it stands.
    obtain ⟨item, member, inside⟩ := exists_mem_commaPieces (show '(' ≠ ',' by decide)
      (show '(' ∈ listContent lead spellings from List.mem_append_left _ opened)
    have based : hasBase item = true := by
      have kept : '(' ∈ baseOf item := mem_baseOf (by decide) (by decide) (by decide) inside
      simpa [hasBase] using List.ne_nil_of_mem kept
    have found : item ∈ (commaPieces (listContent lead spellings)).filter hasBase :=
      List.mem_filter.mpr ⟨member, based⟩
    rw [describedParameters_eq_nil_iff]
    constructor
    · intro none
      simp [none] at found
    · rintro ⟨rfl, _⟩
      simp at opened

/-- Behind a head that is accepted with an empty list, spellings without a base leave no trace in
the symbol, unless something is visible in the list and nothing is in what counts of it. No code of a
list is empty, and a list without anything visible is written as the type without values; there is
no code at all exactly when something is visible in the list, no lead stands in front of it, and no
spelling has a base. -/
theorem mangle_keptSpellings {head : Text} {tokens : List Token}
    (accepted : (scanSignature (head ++ "()".toList)).result = .ok tokens) :
    ∃ path lead, tokens = path ++ [.params lead (commaPieces lead), .stop] ∧
      (lead = [] ∨ '(' ∈ head) ∧ ∃ symbol : Text, ∀ spellings : List Text,
        (∀ spelling ∈ spellings, ',' ∉ spelling) →
          let kept := keptSpellings lead spellings
          let blank := trimBlanks (listContent lead spellings) = []
          ((mangle (listSignature head spellings)).outcome =
              (mangle (listSignature head kept)).outcome ↔
            (trimBlanks (listContent lead kept) = [] → blank)) ∧
            ∃ codes : List Text,
              (mangle (listSignature head spellings)).outcome = .ok (symbol ++ codes.flatten) ∧
                (∀ code ∈ codes, code ≠ []) ∧
                (blank → codes = [Builtin.void.code]) ∧
                (codes = [] ↔ ¬blank ∧ lead = [] ∧ kept = []) := by
  obtain ⟨path, lead, split, opened, symbol, table, written⟩ :=
    exists_lead_of_scanSignature accepted
  refine ⟨path, lead, split, opened.imp_right And.right, symbol, ?_⟩
  intro spellings free kept blank
  refine ⟨?_, _, written spellings, fun _ => table.ne_nil_of_mem_encodeList,
    fun unseen => table.encodeList_of_blank unseen _, ?_⟩
  · rw [written, written, Except.ok.injEq, List.append_cancel_left_eq]
    exact table.flatten_encodeList_keptSpellings lead free
  · rw [table.encodeList_eq_nil_iff,
      describedParameters_listContent_eq_nil_iff (opened.imp_right And.left) free]

/-- Between parameters and behind them spellings without a base are left out of a symbol. -/
theorem mangle_keptSpellings_mixed :
    (scanSignature "a::g()".toList).result =
        .ok [.name "a".toList, .scope, .name "g".toList, .params [] [[]], .stop] ∧
      (mangle "a::g(int*,,const,int*, )".toList).outcome =
        (mangle "a::g(int*,int*)".toList).outcome := by
  have accepted : (scanSignature ("a::g".toList ++ "()".toList)).result =
      .ok [.name "a".toList, .scope, .name "g".toList, .params [] [[]], .stop] := by
    with_unfolding_all rfl
  refine ⟨accepted, ?_⟩
  obtain ⟨_, lead, _, opened, _, each⟩ := mangle_keptSpellings accepted
  have closed : lead = [] := opened.resolve_right (by decide)
  subst closed
  have same := each ["int*".toList, [], "const".toList, "int*".toList, " ".toList] (by decide)
  refine (same.1.mpr ?_).trans (by with_unfolding_all rfl)
  intro unseen
  exact absurd unseen (by with_unfolding_all decide)

/-- A list of two spellings without a base is no blank list, and leaves a function without a code
for its parameters, which is the symbol of a variable. A blank base behind a comma is written as a
class, which it is not on its own. -/
theorem mangle_commas_ne :
    keptSpellings [] [[], []] = [] ∧ keptSpellings [] ["\t".toList, []] = ["\t".toList] ∧
      (mangle "A::g(,)".toList).outcome = .ok "_ZN1A1gE".toList ∧
      (mangle "A::g()".toList).outcome = .ok "_ZN1A1gEv".toList ∧
      (mangle "A::g".toList).outcome = .ok "_ZN1A1gE".toList ∧
      (mangle "g(\t,)".toList).outcome = .ok "_Z1g1\t".toList ∧
      (mangle "g(\t)".toList).outcome = .ok "_Z1gv".toList := by
  refine ⟨?_, ?_, ?_, ?_, ?_, ?_, ?_⟩ <;> with_unfolding_all rfl

end Mangling
