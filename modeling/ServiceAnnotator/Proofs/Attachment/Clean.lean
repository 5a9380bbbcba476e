import ServiceAnnotator.Proofs.Attachment.Printed

/-!
# Documents without errors

In a document without errors the name of a type ends in front of a path, a string literal or the
keyword `on`. None of them starts with a backslash, so the words of the name stay the same words
where the annotation repeats them in front of a brace. The text that the pass prints is then read as
the very words that the pass has put together.
-/

namespace ServiceAnnotator

/-! ## Words -/

namespace Token

/-- What a token says apart from its trivia. -/
def word (token : Token) : Kind × List Char := (token.kind, token.lexeme)

@[simp] theorem word_withLeading (trivia : Trivia) (token : Token) :
    (token.withLeading trivia).word = token.word := rfl

@[simp] theorem word_withoutLeading (token : Token) : token.withoutLeading.word = token.word := rfl

@[simp] theorem word_withoutTrailing (token : Token) :
    token.withoutTrailing.word = token.word := rfl

theorem map_word_modifyHead (trivia : Trivia) (tokens : List Token) :
    (tokens.modifyHead (withLeading trivia)).map word = tokens.map word := by
  cases tokens <;> rfl

theorem map_word_changeLast (tokens : List Token) :
    (Tree.changeLast withoutTrailing tokens).map word = tokens.map word := by
  rcases List.eq_nil_or_concat tokens with rfl | ⟨front, last, rfl⟩
  · rfl
  · simp

theorem word_beforeBrace (token : Token) (notQuote : token.lexeme ≠ ['\'']) :
    token.beforeBrace.word = token.word := by
  rw [beforeBrace_eq_self token notQuote]

/-- Only identifiers and tokens of unknown kind start with a backslash. -/
theorem Reads.startsWith_backslash {token : Token} {after : List Char} (reads : token.Reads after)
    (noIdentifier : token.kind ≠ .identifier) (known : token.kind ≠ .unknown) :
    Scan.startsWith (· == '\\') (token.text ++ after) = false := by
  obtain ⟨first, rest, lexemeEq, counted⟩ := reads.exists_lexeme
  have noBackslash : first ≠ '\\' := by
    rintro rfl
    have kindEq := congrArg Prod.fst counted
    rw [Scan.lexemeTail] at kindEq
    split at kindEq
    · exact noIdentifier kindEq.symm
    · exact known kindEq.symm
  rw [token.text_append]
  refine reads.leads.startsWith_backslash ?_
  simpa [lexemeEq, Scan.startsWith] using noBackslash

/-- An identifier in front of a token of known kind that is no identifier is no quotation mark
alone. -/
theorem Reads.ne_quote {token behind : Token} {after : List Char}
    (reads : token.Reads (behind.text ++ after)) (isIdentifier : token.kind = .identifier)
    (readsBehind : behind.Reads after) (noIdentifier : behind.kind ≠ .identifier)
    (known : behind.kind ≠ .unknown) : token.lexeme ≠ ['\''] :=
  reads.lexeme_ne_quote isIdentifier
    (reads.trails.startsWith_backslash (readsBehind.startsWith_backslash noIdentifier known))

end Token

open TokenStream (Tiles)

/-- A name that ends in front of a token of known kind that is no identifier keeps its words in
front of a brace. -/
theorem map_word_closedName {name behind : List Token} {follow : Token} {ending : List Char}
    (isName : NameTokens name) (tiles : Tiles (name ++ follow :: behind) ending)
    (noIdentifier : follow.kind ≠ .identifier) (known : follow.kind ≠ .unknown) :
    (closedName name).map Token.word = name.map Token.word := by
  have colonWord {colon : Token} {after : List Char} (reads : colon.Reads after)
      (isColon : colon.kind = .colon) : colon.lexeme ≠ ['\''] := by
    rw [reads.lexeme_of_colon isColon]
    decide
  have inFront {front colon : Token} {after : List Char} (reads : front.Reads (colon.text ++ after))
      (isFront : front.kind = .identifier) (readsColon : colon.Reads after)
      (isColon : colon.kind = .colon) : front.lexeme ≠ ['\''] :=
    reads.ne_quote isFront readsColon (by simp [isColon]) (by simp [isColon])
  cases isName with
  | @simple last isLast =>
    simp only [List.cons_append, List.nil_append, Tiles, List.flatMap_cons, List.append_assoc]
      at tiles
    obtain ⟨readsLast, readsFollow, _⟩ := tiles
    have lastWord := readsLast.ne_quote isLast readsFollow noIdentifier known
    simpa using Token.word_beforeBrace last.withoutLeading.withoutTrailing lastWord
  | @unfinished front colon isFront isColon =>
    simp only [List.cons_append, List.nil_append, Tiles, List.flatMap_cons, List.append_assoc]
      at tiles
    obtain ⟨readsFront, readsColon, _⟩ := tiles
    have frontWord := inFront readsFront isFront readsColon isColon
    have isWord := colonWord readsColon isColon
    simpa using And.intro (Token.word_beforeBrace front.withoutLeading frontWord)
      (Token.word_beforeBrace colon.withoutTrailing isWord)
  | @qualified front colon last isFront isColon isLast =>
    simp only [List.cons_append, List.nil_append, Tiles, List.flatMap_cons, List.append_assoc]
      at tiles
    obtain ⟨readsFront, readsColon, readsLast, readsFollow, _⟩ := tiles
    have frontWord := inFront readsFront isFront readsColon isColon
    have lastWord := readsLast.ne_quote isLast readsFollow noIdentifier known
    simpa using And.intro (Token.word_beforeBrace front.withoutLeading frontWord)
      (And.intro (Token.word_beforeBrace colon (colonWord readsColon isColon))
        (Token.word_beforeBrace last.withoutTrailing lastWord))

/-! ## Services without errors -/

namespace Grammar

variable {α : Type} [Kinded α]

/-- Without errors the listeners of a service stand behind its type, or else what they are attached
to. -/
theorem next_rest_serviceType {header : List α} (clean : (serviceParts header).problems = []) :
    next (serviceType header).rest = .slash ∨ next (serviceType header).rest = .stringLiteral ∨
      next (serviceType header).rest = .onKw := by
  by_cases slash : next (serviceType header).rest = .slash
  · exact .inl slash
  by_cases literal : next (serviceType header).rest = .stringLiteral
  · exact .inr (.inl literal)
  refine .inr (.inr (Decidable.byContradiction fun noListeners => ?_))
  have noPoint : attachPoint (serviceType header).rest = .none (serviceType header).rest := by
    rw [attachPoint, if_neg slash, if_neg literal]
  have missing : listenerClause (serviceType header).rest =
      .problem (.expected .onKw) (serviceType header).rest := by
    rw [listenerClause, if_neg noListeners]
  simp [serviceParts, serviceHeader, Parsed.problems, Parsed.andThen, noPoint, missing,
    Parsed.problem] at clean

end Grammar

namespace Attachment

open Grammar (items member metadata serviceParts next)
open Package (annotatedText)

/-- Every child without errors that gets the annotation was read as a member without errors. -/
theorem exists_member_of_mem {tokens : List Token} {child : Tree Token}
    (inside : child ∈ (items tokens).elements) (gets : getsAttachment child)
    (clean : (items tokens).problems = []) :
    ∃ front behind, tokens = front ++ behind ∧ (member behind).elements = [child] ∧
      (member behind).problems = [] := by
  obtain ⟨before, after, split⟩ := List.append_of_mem inside
  obtain ⟨behind, rest, tokensEq, item, _, suffix⟩ := Grammar.exists_firstItem_behind split
  refine ⟨_, behind, tokensEq, ?_⟩
  cases item with
  | importDeclaration _ elements =>
    obtain rfl := List.singleton_inj.mp elements
    cases gets
  | member elements itemsEq =>
    have noReports : (items behind).reports = [] := by
      rw [Parsed.problems, List.map_eq_nil_iff] at clean
      exact List.suffix_nil.mp (clean ▸ suffix)
    rw [itemsEq] at noReports
    have memberReports := (List.append_eq_nil_iff.mp noReports).1
    exact ⟨elements, by rw [Parsed.problems, memberReports, List.map_nil]⟩
  | error => cases gets

/-- The words of an annotated member without errors are read back. -/
theorem map_word_reread {ending : List Char} {tokens : List Token} {child : Tree Token}
    (tiles : Tiles tokens ending) (elements : (member tokens).elements = [child])
    (clean : (member tokens).problems = []) (gets : getsAttachment child) :
    (reread child).leaves.map Token.word = (annotateChild child).leaves.map Token.word := by
  obtain ⟨words, header, type, split, service, noClass, _, typed, isName, headerEq⟩ :=
    exists_service_of_getsAttachment elements gets
  obtain ⟨taken, tokensEq⟩ := (Grammar.composed_metadata tokens).covers.exists_front
  have headerClean : (serviceParts header).problems = [] := by
    rw [Grammar.member_eq, split, Grammar.qualified_service service noClass] at clean
    simp only [Parsed.problems, Parsed.wrap, Parsed.andThen, split,
      Grammar.qualified_service service noClass, List.map_append, List.append_eq_nil_iff] at clean
    exact clean.2
  have headerTiles : Tiles header ending := by
    rw [tokensEq, split, TokenStream.tiles_append, TokenStream.tiles_append] at tiles
    exact tiles.2.2
  have sameName : (closedName type.leaves).map Token.word = type.leaves.map Token.word := by
    have ends := Grammar.next_rest_serviceType headerClean
    rw [headerEq] at headerTiles
    cases follow : (Grammar.serviceType header).rest with
    | nil => simp [follow, next] at ends
    | cons first behind =>
      rw [follow] at headerTiles ends
      have kindEq : first.kind = .slash ∨ first.kind = .stringLiteral ∨ first.kind = .onKw := ends
      apply map_word_closedName isName headerTiles
      · rcases kindEq with same | same | same <;> simp [same]
      · rcases kindEq with same | same | same <;> simp [same]
  obtain ⟨front, leading, behind, found, typed', annotatedLeaves, rereadLeaves⟩ :=
    leaves_annotateChild gets
  obtain rfl : type = found := Option.some.inj (typed.symm.trans typed')
  have sameOpening : (readOpening []).map Token.word = opening.map Token.word := rfl
  have sameType : type.trimmed.leaves.map Token.word = type.leaves.map Token.word := by
    rw [Tree.trimmed, Tree.leaves_mapLast, Tree.leaves_mapFirst, Token.map_word_changeLast]
    exact Token.map_word_modifyHead [] _
  simp only [rereadLeaves, annotatedLeaves, List.map_append, Token.map_word_modifyHead, readTokens,
    sameOpening, sameName, sameType, List.append_assoc]

/-- Other metadata leaves a declaration a declaration of its kind. -/
theorem exists_withMetadata (metadata : Tree Token) (kind : Kind) (children : List (Tree Token)) :
    ∃ others, ServiceView.withMetadata metadata (.node kind children) = .node kind others := by
  rw [ServiceView.withMetadata]
  split
  · exact ⟨_, rfl⟩
  · split
    · exact ⟨_, rfl⟩
    · obtain ⟨edits, shape, _⟩ := Tree.exists_mapFirst_node Token.withoutLeading kind children
      rw [shape]
      exact ⟨_, rfl⟩

/-- What a child of a module says apart from trivia and the nodes inside it: whether it is a node,
its kind, and the words of its tokens. -/
def outline (child : Tree Token) : Bool × Kind × List (Kind × List Char) :=
  (child.isNode, child.kind, child.leaves.map Token.word)

/-- A child without errors is read back with the outline that the pass has given it. -/
theorem outline_reread {ending : List Char} {tokens : List Token} (tiles : Tiles tokens ending)
    (clean : (items tokens).problems = []) {child : Tree Token}
    (inside : child ∈ (items tokens).elements) :
    outline (reread child) = outline (annotateChild child) := by
  cases gets : getsAttachment child with
  | false => rw [reread_eq_self gets, annotateChild_eq_self gets]
  | true =>
    obtain ⟨front, behind, tokensEq, elements, memberClean⟩ :=
      exists_member_of_mem inside gets clean
    rw [tokensEq, TokenStream.tiles_append] at tiles
    have sameWords := map_word_reread tiles.2 elements memberClean gets
    obtain ⟨children, type, childEq, typed⟩ := exists_of_getsAttachment gets
    have sameShape : ∀ metadata, ∃ others,
        ServiceView.withMetadata metadata child = .node .serviceDeclaration others := by
      rw [childEq]
      exact fun metadata => exists_withMetadata metadata _ _
    rw [outline, outline, sameWords, reread_eq gets typed, annotateChild_eq_of_gets gets typed]
    obtain ⟨_, rereadShape⟩ := sameShape (mergeInto (DeclarationView.metadata? child)
      (readAttachment [] type.leaves (lineBreak child)))
    obtain ⟨_, annotatedShape⟩ := sameShape (mergeInto (DeclarationView.metadata? child)
      (Fragment.withLineBreak (lineBreak child) (ofField (field type))))
    rw [rereadShape, annotatedShape]
    rfl

/-- A text without errors that the pass has printed has no errors, and it is read as the children
that the pass has put together. -/
theorem parse_annotatedText {text : List Char} (clean : (SourceTree.parse text).problems = []) :
    (SourceTree.parse (annotatedText text)).problems = [] ∧
      (SourceTree.parse (annotatedText text)).tree.children.map outline =
        (annotateTree (SourceTree.parse text).tree).children.map outline := by
  obtain ⟨tree, problems⟩ := readBack text
  have noReports : (SourceTree.parse text).reports = [] := by
    simpa [SourceTree.problems] using clean
  refine ⟨?_, ?_⟩
  · rw [noReports, List.map_nil, List.map_eq_nil_iff] at problems
    rw [SourceTree.problems, problems, List.map_nil]
  · obtain ⟨pieces, _, _, tiles, _⟩ := TokenStream.tiles_scan text
    have noProblems : (items (TokenStream.scan text).tokens).problems = [] := by
      rw [Parsed.problems, List.map_eq_nil_iff]
      exact noReports
    have sameOutline : ∀ child ∈ (SourceTree.parse text).tree.children,
        outline (reread child) = outline (annotateChild child) := by
      intro child inside
      rcases List.mem_append.mp inside with element | last
      · exact outline_reread tiles noProblems element
      · obtain rfl := List.mem_singleton.mp last
        rfl
    have treeEq : (SourceTree.parse text).tree =
        .node .modulePart (SourceTree.parse text).tree.children := rfl
    rw [tree, treeEq, annotateTree_modulePart]
    simp only [Tree.children, List.map_map]
    exact List.map_congr_left sameOutline

/-- A service without metadata, on a line of its own. -/
theorem parse_annotatedText_service :
    (SourceTree.parse "service Greeter on l {}\n".toList).problems = [] ∧
      (SourceTree.parse (annotatedText "service Greeter on l {}\n".toList)).problems = [] ∧
      (SourceTree.parse (annotatedText "service Greeter on l {}\n".toList)).tree.children.map
          outline =
        (annotateTree (SourceTree.parse "service Greeter on l {}\n".toList).tree).children.map
          outline := by
  have clean : (SourceTree.parse "service Greeter on l {}\n".toList).problems = [] := by
    decide +kernel
  exact ⟨clean, parse_annotatedText clean⟩

end Attachment

end ServiceAnnotator
