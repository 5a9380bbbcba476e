import ServiceAnnotator.Proofs.Attachment.Module
import ServiceAnnotator.Proofs.Attachment.Target

/-!
# Parsing the annotated text

The text that the pass prints is parsed to the tree before the pass, with each annotation in its
place as it is read back. The induction goes from the end of the module to its beginning: what
follows a child has changed at most in its first token, and no rule of the scanner or of the grammar
that ends in front of it can tell.
-/

namespace ServiceAnnotator.Attachment

open Grammar (member metadata metadataParts attachments qualified serviceParts ServiceWords Follows
  next)
open DeclarationView (metadata?)
open Scan (Alike)
open TokenStream (Tiles)

/-! ## A child read back -/

/-- A child of a module after the pass, as it is read back. -/
def reread (child : Tree Token) : Tree Token :=
  match ServiceView.type? child with
  | some type =>
    if getsAttachment child then
      ServiceView.withMetadata
        (mergeInto (metadata? child) (readAttachment [] type.leaves (lineBreak child))) child
    else child
  | none => child

theorem reread_eq_self {child : Tree Token} (kept : getsAttachment child = false) :
    reread child = child := by
  unfold reread
  split
  · rw [kept, if_neg Bool.false_ne_true]
  · rfl

theorem reread_eq {child type : Tree Token} (gets : getsAttachment child)
    (typed : ServiceView.type? child = some type) :
    reread child = ServiceView.withMetadata
      (mergeInto (metadata? child) (readAttachment [] type.leaves (lineBreak child))) child := by
  simp only [reread, typed, gets, ↓reduceIte]

/-- An annotation read back has the text of the annotation. -/
theorem text_readAttachment (type : Tree Token) (lineBreak : List Char) :
    (readAttachment [] type.leaves lineBreak).text =
      (Fragment.withLineBreak lineBreak (ofField (field type))).text := by
  have nameText : (closedName type.leaves).flatMap Token.text = type.trimmedText := by
    simp [closedName, Tree.trimmedText, Tree.trimmed, Tree.text, List.flatMap_map]
  have openingText : (readOpening []).flatMap Token.text =
      "@http:ServiceConfig \x7bserviceType: ".toList := rfl
  rw [text_ofField, Tree.text, leaves_readAttachment, readTokens, List.flatMap_append,
    List.flatMap_append, openingText, nameText]
  simp

/-- The tokens of an annotated child, as they were printed and as they are read back, differ in the
annotation alone. -/
theorem leaves_annotateChild {child : Tree Token} (gets : getsAttachment child) :
    ∃ front leading behind type, ServiceView.type? child = some type ∧
      (annotateChild child).leaves =
        front ++ ((opening ++ type.trimmed.leaves ++ [closing (lineBreak child)]).modifyHead
          (Token.withLeading leading)) ++ behind ∧
      (reread child).leaves =
        front ++ ((readTokens [] type.leaves (lineBreak child)).modifyHead
          (Token.withLeading leading)) ++ behind := by
  obtain ⟨children, type, childEq, typed⟩ := exists_of_getsAttachment gets
  obtain ⟨front, leading, behind, around⟩ :=
    exists_leaves_withMetadata .serviceDeclaration children
  rw [← childEq] at around
  refine ⟨front, leading, behind, type, typed, ?_, ?_⟩
  · rw [annotateChild_eq_of_gets gets typed]
    exact around _ _ _ (leaves_ofField _ _) rfl
  · rw [reread_eq gets typed]
    exact around _ _ _ (leaves_readAttachment _ _ _) rfl

/-- A child read back has the text of the child after the pass. -/
theorem text_reread (child : Tree Token) : (reread child).text = (annotateChild child).text := by
  cases gets : getsAttachment child with
  | false => rw [reread_eq_self gets, annotateChild_eq_self gets]
  | true =>
    obtain ⟨front, leading, behind, type, _, annotatedLeaves, rereadLeaves⟩ :=
      leaves_annotateChild gets
    have sameText := text_readAttachment type (lineBreak child)
    rw [Tree.text, Tree.text, leaves_readAttachment, leaves_ofField] at sameText
    rw [Tree.text, Tree.text, annotatedLeaves, rereadLeaves]
    rw [List.flatMap_append, List.flatMap_append, List.flatMap_append, List.flatMap_append,
      Token.text_modifyHead_withLeading rfl, Token.text_modifyHead_withLeading rfl, sameText]

/-! ## One service -/

/-- The parts of a member that is a service and gets the annotation. -/
theorem exists_service_of_getsAttachment {tokens : List Token} {child : Tree Token}
    (elements : (member tokens).elements = [child]) (gets : getsAttachment child) :
    ∃ words header type, (metadata tokens).rest = words ++ header ∧ ServiceWords words ∧
      next header ≠ .classKw ∧
      child = .node .serviceDeclaration ((metadata tokens).elements ++
        (words.map .leaf ++ (serviceParts header).elements)) ∧
      ServiceView.type? child = some type ∧ NameTokens type.leaves ∧
      header = type.leaves ++ (Grammar.serviceType header).rest := by
  obtain ⟨children, type, childEq, typed⟩ := exists_of_getsAttachment gets
  rw [Grammar.member_eq, Parsed.wrap, Parsed.andThen] at elements
  have nodeEq := (List.cons.inj elements).1
  rw [childEq, Tree.node.injEq] at nodeEq
  obtain ⟨isService, childrenEq⟩ := nodeEq
  obtain ⟨words, header, split, service, noClass⟩ := Grammar.exists_of_qualified_service isService
  rw [split, Grammar.qualified_service service noClass] at childrenEq
  refine ⟨words, header, type, split, service, noClass, ?_, typed, ?_⟩
  · rw [childEq, ← childrenEq]
  · have noMetadata : (metadata tokens).elements.find? ServiceView.isReference = none :=
      Grammar.noNode_metadata (p := Kind.isReference) rfl tokens
    have noWords : (words.map Tree.leaf).find? ServiceView.isReference = none :=
      Grammar.noNode_leaves (p := Kind.isReference) words
    apply Grammar.exists_of_find?_serviceParts
    rw [childEq, ServiceView.type?_eq_find?, Tree.children, ← childrenEq, List.find?_append,
      noMetadata, Option.none_or, List.find?_append, noWords, Option.none_or] at typed
    exact typed

/-- The metadata of a service in front of which an annotation was put. -/
theorem metadata_readTokens {front mid mid' : List Token} (leading : Trivia) {name : List Token}
    (lineBreak : List Char) (ends : (metadata (front ++ mid)).rest = mid)
    (starts : (next mid).startsService) (isName : NameTokens name) (noSign : next mid' ≠ .atSign) :
    (metadata (front ++ (readTokens leading name lineBreak ++ mid'))).elements =
        [.node .metadata ((metadataParts (front ++ mid)).elements ++
          [readAttachment leading name lineBreak])] ∧
      (metadata (front ++ (readTokens leading name lineBreak ++ mid'))).problems =
        (metadataParts (front ++ mid)).problems ∧
      (metadata (front ++ (readTokens leading name lineBreak ++ mid'))).rest = mid' := by
  have follows : Follows mid (readTokens leading name lineBreak ++ mid') := by
    cases mid with
    | nil => cases starts
    | cons first mid => exact .sign _ _ starts rfl
  rw [Grammar.rest_metadata] at ends
  obtain ⟨elements, problems, rest⟩ := Grammar.metadataParts_append follows front ends
  rw [attachments_readTokens isName noSign] at elements problems rest
  rw [Grammar.metadata_eq, elements, if_neg (by simp)]
  refine ⟨?_, ?_, rest⟩
  · rw [Parsed.wrap, elements]
  · exact problems.trans (List.append_nil _)

/-- A service in front of which an annotation was put. -/
theorem member_readTokens {front mid words header : List Token} (leading : Trivia)
    {name : List Token} (lineBreak : List Char) (ends : (metadata (front ++ mid)).rest = mid)
    (starts : (next mid).startsService) (isName : NameTokens name) (service : ServiceWords words)
    (noClass : next header ≠ .classKw) :
    (member (front ++ (readTokens leading name lineBreak ++ (words ++ header)))).elements =
        [.node .serviceDeclaration (.node .metadata ((metadataParts (front ++ mid)).elements ++
          [readAttachment leading name lineBreak]) ::
            (words.map .leaf ++ (serviceParts header).elements))] ∧
      (member (front ++ (readTokens leading name lineBreak ++ (words ++ header)))).problems =
        (metadataParts (front ++ mid)).problems ++ (serviceParts header).problems ∧
      (member (front ++ (readTokens leading name lineBreak ++ (words ++ header)))).rest =
        (serviceParts header).rest := by
  have noSign : next (words ++ header) ≠ .atSign := by
    obtain ⟨first, others, wordsEq, startsFirst⟩ := service.exists_cons
    rw [wordsEq, List.cons_append, next]
    intro isSign
    rw [isSign] at startsFirst
    cases startsFirst
  obtain ⟨elements, problems, rest⟩ := metadata_readTokens leading lineBreak ends starts
    isName noSign
  have qualifiedEq := Grammar.qualified_service service noClass
  rw [Grammar.member_eq, rest, qualifiedEq]
  refine ⟨?_, ?_, ?_⟩
  · simp only [Parsed.wrap, Parsed.andThen, rest, elements, qualifiedEq, List.singleton_append]
  · simp only [Parsed.problems, Parsed.wrap, Parsed.andThen, rest, qualifiedEq, List.map_append]
      at problems ⊢
    rw [problems]
  · simp only [Parsed.rest_wrap, Parsed.rest_andThen, rest, qualifiedEq]

/-- What the reading of one child has to provide for the children in front of it. -/
structure Rewritten (tokens tokens' : List Token) (ending : List Char) : Prop where
  tiles : Tiles tokens' ending
  follows : Follows tokens tokens'
  alike : Alike (tokens.flatMap Token.text ++ ending) (tokens'.flatMap Token.text ++ ending)

variable {ending : List Char} {rest rest' : List Token}

/-- A child that stays as it is. -/
theorem Rewritten.keep (rewritten : Rewritten rest rest' ending) (front : List Token)
    (tiles : Tiles (front ++ rest) ending) : Rewritten (front ++ rest) (front ++ rest') ending where
  tiles := by
    rw [TokenStream.tiles_append] at tiles ⊢
    exact ⟨tiles.1.of_alike rewritten.alike, rewritten.tiles⟩
  follows := rewritten.follows.append_left front
  alike := by
    simp only [List.flatMap_append, List.append_assoc]
    exact rewritten.alike.append_left _

/-- The text of an annotation starts with the trivia in front of it and an at sign. -/
theorem text_readTokens (leading : Trivia) (name : List Token) (lineBreak : List Char) :
    ∃ behind, (readTokens leading name lineBreak).flatMap Token.text =
      leading.text ++ '@' :: behind := by
  refine ⟨((readTokens leading name lineBreak).tail).flatMap Token.text, ?_⟩
  rw [readTokens, readOpening, List.cons_append, List.tail_cons, List.flatMap_cons,
    Token.text_withLeading, List.append_assoc, List.append_assoc]
  rfl

/-- A service gets the annotation in front of its first word, with trivia that may stand in front of
that word. -/
theorem Rewritten.annotateFirst (rewritten : Rewritten rest rest' ending) {first first' : Token}
    {others : List Token} (tiles : Tiles (first :: others ++ rest) ending)
    (starts : first.kind.startsService) (isFirst : first' = first ∨ first' = first.withoutLeading)
    {leading : Trivia} (leads : leading.Leads ['@']) {name : List Token}
    {after lineBreak : List Char} (isName : NameTokens name) (nameTiles : Tiles name after)
    (isBreak : lineBreak = ['\n'] ∨ lineBreak = ['\r', '\n']) :
    Tiles (readTokens leading name lineBreak ++ (first' :: others ++ rest')) ending ∧
      Follows (first :: others ++ rest)
        (readTokens leading name lineBreak ++ (first' :: others ++ rest')) := by
  have kept := (rewritten.keep (first :: others) tiles).tiles
  refine ⟨?_, .sign _ _ starts rfl⟩
  rw [TokenStream.tiles_append]
  refine ⟨tiles_readTokens leads isName nameTiles isBreak _, ?_, kept.2⟩
  rcases isFirst with rfl | rfl
  · exact kept.1
  · exact kept.1.withoutLeading

/-- Directly behind the trivia in front of it, the first word of a service and an at sign look
alike. -/
theorem alike_of_startsService {first : Token} {after : List Char} (reads : first.Reads after)
    (starts : first.kind.startsService) (name : List Token) (lineBreak behind : List Char) :
    first.leading.Leads ['@'] ∧
      Alike (first.text ++ after)
        ((readTokens first.leading name lineBreak).flatMap Token.text ++ behind) := by
  obtain ⟨c, word, lexemeEq, initial⟩ := reads.isServiceInitial starts
  obtain ⟨others, textEq⟩ := text_readTokens first.leading name lineBreak
  have leads := reads.leads
  rw [lexemeEq, List.cons_append] at leads
  refine ⟨leads.of_alike (.atSign _ _ initial), ?_⟩
  rw [textEq, Token.text, lexemeEq, List.append_assoc, List.append_assoc, List.append_assoc]
  exact Alike.append_left _ (.atSign _ _ initial)

/-- A service without metadata gets the annotation in front, with the trivia of its first word. -/
theorem Rewritten.annotateAlone (rewritten : Rewritten rest rest' ending) {first : Token}
    (others : List Token) (tiles : Tiles (first :: others ++ rest) ending)
    (starts : first.kind.startsService) {name : List Token} {after lineBreak : List Char}
    (isName : NameTokens name) (nameTiles : Tiles name after)
    (isBreak : lineBreak = ['\n'] ∨ lineBreak = ['\r', '\n']) :
    Rewritten (first :: others ++ rest)
      (readTokens first.leading name lineBreak ++ (first.withoutLeading :: others ++ rest'))
      ending := by
  have looks := alike_of_startsService tiles.1 starts name lineBreak
    ((first.withoutLeading :: others ++ rest').flatMap Token.text ++ ending)
  obtain ⟨annotated, follows⟩ := rewritten.annotateFirst tiles starts (.inr rfl) looks.1 isName
    nameTiles isBreak
  refine ⟨annotated, follows, ?_⟩
  have alike := looks.2
  simpa using alike

/-- A service with metadata gets the annotation behind it. -/
theorem Rewritten.annotateBehind (rewritten : Rewritten rest rest' ending) {first last : Token}
    (marks others : List Token) (tiles : Tiles (marks ++ last :: (first :: others ++ rest)) ending)
    (starts : first.kind.startsService) {name : List Token} {after lineBreak : List Char}
    (isName : NameTokens name) (nameTiles : Tiles name after)
    (isBreak : lineBreak = ['\n'] ∨ lineBreak = ['\r', '\n']) :
    Rewritten (marks ++ last :: (first :: others ++ rest))
      (marks ++ last :: (readTokens [] name lineBreak ++ (first :: others ++ rest'))) ending := by
  have inner : Tiles (last :: (first :: others ++ rest)) ending :=
    (TokenStream.tiles_append.mp tiles).2
  have leads : Trivia.Leads [] ['@'] := piece?_eq_none_of_mark _ (by decide)
  obtain ⟨annotated, _⟩ := rewritten.annotateFirst inner.2 starts (.inl rfl) leads isName nameTiles
    isBreak
  suffices behind : Rewritten (last :: (first :: others ++ rest))
      (last :: (readTokens [] name lineBreak ++ (first :: others ++ rest'))) ending from
    behind.keep marks tiles
  obtain ⟨behind, textEq⟩ := text_readTokens [] name lineBreak
  rcases inner.1.trails.endsLine_or with endsLine | nothing
  · have noFeed : Scan.startsWith (· == '\n')
        ((readTokens [] name lineBreak ++ (first :: others ++ rest')).flatMap Token.text ++
          ending) = false := by
      rw [List.flatMap_append, textEq]
      rfl
    obtain ⟨reads, alike⟩ := inner.1.of_endsLine endsLine noFeed
    refine ⟨⟨reads, annotated⟩, .same _ _ rfl, ?_⟩
    simpa using alike
  · have bare : first.leading = [] := by
      refine inner.2.1.leads.eq_nil ?_
      simpa [Token.text] using nothing
    have looks := alike_of_startsService inner.2.1 starts name lineBreak
      ((first :: others ++ rest').flatMap Token.text ++ ending)
    rw [bare] at looks
    have alike : Alike ((first :: others ++ rest).flatMap Token.text ++ ending)
        ((readTokens [] name lineBreak ++ (first :: others ++ rest')).flatMap Token.text ++
          ending) := by
      simpa using looks.2
    refine ⟨⟨inner.1.of_alike alike, annotated⟩, .same _ _ rfl, ?_⟩
    simpa using alike.append_left last.text

/-! ## The tree of an annotated service -/

theorem isBreak_lineBreak (service : Tree Token) :
    lineBreak service = ['\n'] ∨ lineBreak service = ['\r', '\n'] := by
  unfold lineBreak
  split
  · exact .inr rfl
  · exact .inl rfl

/-- An annotation read back in front of a service without metadata. -/
theorem withMetadata_readAttachment (first : Token) {more : List (Tree Token)}
    (none : more.find? DeclarationView.isMetadata = none) (name : List Token)
    (lineBreak : List Char) :
    ServiceView.withMetadata (mergeInto (metadata? (.node .serviceDeclaration (.leaf first :: more)))
        (readAttachment [] name lineBreak)) (.node .serviceDeclaration (.leaf first :: more)) =
      .node .serviceDeclaration
        (.node .metadata [readAttachment first.leading name lineBreak] ::
          .leaf first.withoutLeading :: more) := by
  have noMetadata : (Tree.leaf first :: more).find? DeclarationView.isMetadata = .none := by
    rw [List.find?_cons_of_neg (by simp [DeclarationView.isMetadata, Tree.isNode]), none]
  have leadingEq : ServiceView.leadingTrivia (.node .serviceDeclaration (.leaf first :: more)) =
      first.leading := by
    simp [ServiceView.leadingTrivia, Tree.firstLeaf?]
  rw [DeclarationView.metadata?_eq_find?, Tree.children, noMetadata, ServiceView.withMetadata,
    Tree.children, ServiceView.replaceMetadata?_eq_none _ noMetadata, leadingEq]
  cases trivia : first.leading with
  | nil =>
    have same : first.withoutLeading = first := by
      rw [Token.withoutLeading, ← trivia, Token.withLeading_leading]
    rw [same]
    rfl
  | cons piece pieces => rfl

/-- Metadata that takes no token is none. -/
theorem elements_metadata_eq_nil {tokens : List Token} (ends : (metadata tokens).rest = tokens) :
    (metadata tokens).elements = [] := by
  cases tokens with
  | nil =>
    rw [Grammar.metadata_eq, Grammar.metadataParts, Grammar.documentation, Parsed.andThen,
      Grammar.countIn, List.takeWhile_nil, List.length_nil, if_pos rfl, Parsed.rest_none,
      Grammar.attachments]
    rfl
  | cons first behind =>
    by_cases starts : kind first = .documentationLine ∨ kind first = .atSign
    · have shorter : (metadata (first :: behind)).rest.length < (first :: behind).length :=
        Grammar.length_rest_metadata_lt starts
      rw [ends] at shorter
      exact absurd shorter (Nat.lt_irrefl _)
    · rw [Grammar.metadata_eq_none (fun line => starts (.inl line)) fun sign => starts (.inr sign)]
      rfl

/-- What is known of a service that gets the annotation, once its tokens are told apart. -/
structure Target (tokens rest : List Token) (child : Tree Token) where
  first : Token
  others : List Token
  header : List Token
  type : Tree Token
  tokens_metadata : (metadata tokens).rest = first :: others ++ (header ++ rest)
  words : ServiceWords (first :: others)
  noClass : next (header ++ rest) ≠ .classKw
  child_eq : child = .node .serviceDeclaration ((metadata tokens).elements ++
    ((first :: others).map .leaf ++ (serviceParts (header ++ rest)).elements))
  typed : ServiceView.type? child = some type
  isName : NameTokens type.leaves
  named : ∃ behind, header ++ rest = type.leaves ++ behind
  ends : (serviceParts (header ++ rest)).rest = rest

theorem exists_target {tokens : List Token} {child : Tree Token}
    (ends : (member tokens).rest = rest) (elements : (member tokens).elements = [child])
    (gets : getsAttachment child) : Nonempty (Target tokens rest child) := by
  obtain ⟨words, header, type, split, service, noClass, childEq, typed, isName, named⟩ :=
    exists_service_of_getsAttachment elements gets
  obtain ⟨first, others, rfl, _⟩ := service.exists_cons
  rw [Grammar.member_eq, Parsed.rest_wrap, Parsed.rest_andThen, split,
    Grammar.qualified_service service noClass] at ends
  obtain ⟨front, headerEq⟩ := (Grammar.composed_serviceParts header).covers.exists_front
  rw [show (serviceParts header).rest = rest from ends] at headerEq
  subst headerEq
  exact ⟨⟨first, others, front, type, split, service, noClass, childEq, typed, isName, ⟨_, named⟩,
    ends⟩⟩

namespace Target

variable {tokens : List Token} {child : Tree Token}

theorem first_startsService (target : Target tokens rest child) :
    target.first.kind.startsService := by
  obtain ⟨_, _, wordsEq, startsFirst⟩ := target.words.exists_cons
  obtain ⟨rfl, rfl⟩ := List.cons.inj wordsEq
  exact startsFirst

/-- The tokens of a target with an annotation behind what was taken as metadata. -/
def readBack (target : Target tokens rest child) (taken : List Token) (leading : Trivia)
    (first : Token) (rest' : List Token) : List Token :=
  taken ++ (readTokens leading target.type.leaves (lineBreak child) ++
    (first :: target.others ++ (target.header ++ rest')))

/-- The member that these tokens give. -/
theorem member_readBack (target : Target tokens rest child) (follows : Follows rest rest')
    (taken : List Token) (split : tokens = taken ++ (metadata tokens).rest) (leading : Trivia)
    (first : Token) (sameKind : first.kind = target.first.kind) :
    (member (target.readBack taken leading first rest')).elements =
        [.node .serviceDeclaration
          (.node .metadata ((metadataParts tokens).elements ++
            [readAttachment leading target.type.leaves (lineBreak child)]) ::
              ((first :: target.others).map .leaf ++
                (serviceParts (target.header ++ rest)).elements))] ∧
      (member (target.readBack taken leading first rest')).problems = (member tokens).problems ∧
      (member (target.readBack taken leading first rest')).rest = rest' := by
  obtain ⟨partElements, partProblems, partRest⟩ :=
    Grammar.agrees_serviceParts follows target.header [] target.ends
  have noClass : next (target.header ++ rest') ≠ .classKw := fun isClass =>
    target.noClass (((follows.append_left target.header).next_eq_iff .classKw (by decide)).mp isClass)
  have words : ServiceWords (first :: target.others) := target.words.replaceFirst sameKind
  have starts : (next (metadata tokens).rest).startsService := by
    rw [target.tokens_metadata]
    exact target.first_startsService
  have ends : (metadata (taken ++ (metadata tokens).rest)).rest = (metadata tokens).rest := by
    rw [← split]
  obtain ⟨elements, problems, restEq⟩ := member_readTokens leading (lineBreak child) ends starts
    target.isName words noClass
  rw [← split] at elements problems
  refine ⟨?_, ?_, restEq.trans partRest⟩
  · rw [readBack, elements, partElements]
  · rw [readBack, problems, partProblems, ← (Grammar.metadata_parts tokens).1, Grammar.member_eq,
      target.tokens_metadata, Grammar.qualified_service target.words target.noClass]
    simp only [Parsed.problems, Parsed.wrap, Parsed.andThen, target.tokens_metadata,
      Grammar.qualified_service target.words target.noClass, List.map_append]

/-- The tokens of the type are read as they stand in the service. -/
theorem exists_tiles_type (target : Target tokens rest child) (tiles : Tiles tokens ending)
    (taken : List Token) (split : tokens = taken ++ (metadata tokens).rest) :
    ∃ after, Tiles target.type.leaves after := by
  obtain ⟨behind, named⟩ := target.named
  rw [target.tokens_metadata, named] at split
  rw [split, TokenStream.tiles_append, TokenStream.tiles_append, TokenStream.tiles_append] at tiles
  exact ⟨_, tiles.2.2.1⟩

theorem noNode_serviceElements (target : Target tokens rest child) :
    (target.others.map Tree.leaf ++ (serviceParts (target.header ++ rest)).elements).find?
      DeclarationView.isMetadata = none :=
  (Grammar.noNode_leaves (p := (· == .metadata)) _).append (Grammar.noNode_serviceParts _)

/-- A target without metadata is read back with the annotation in front. -/
theorem reread_alone (target : Target tokens rest child) (gets : getsAttachment child)
    (rewritten : Rewritten rest rest' ending) (tiles : Tiles tokens ending)
    (alone : (metadataParts tokens).elements = []) :
    ∃ tokens', Rewritten tokens tokens' ending ∧
      (member tokens').elements = [reread child] ∧
      (member tokens').problems = (member tokens).problems ∧ (member tokens').rest = rest' := by
  have noMetadata : metadata tokens = .none tokens := by
    rw [Grammar.metadata_eq, alone]
    rfl
  have restEq : (metadata tokens).rest = tokens := by rw [noMetadata]; rfl
  have tokensEq : tokens = target.first :: (target.others ++ target.header) ++ rest := by
    refine restEq.symm.trans (target.tokens_metadata.trans ?_)
    simp
  obtain ⟨after, nameTiles⟩ := target.exists_tiles_type tiles [] restEq.symm
  obtain ⟨elements, problems, behind⟩ := target.member_readBack rewritten.follows [] restEq.symm
    target.first.leading target.first.withoutLeading rfl
  refine ⟨_, ?_, ?_, problems, behind⟩
  · have annotated := rewritten.annotateAlone (target.others ++ target.header)
      (tokensEq ▸ tiles) target.first_startsService target.isName nameTiles
      (isBreak_lineBreak child)
    rw [← tokensEq] at annotated
    simpa [readBack] using annotated
  · have childEq : child = .node .serviceDeclaration (.leaf target.first ::
        (target.others.map .leaf ++ (serviceParts (target.header ++ rest)).elements)) := by
      refine target.child_eq.trans ?_
      rw [noMetadata]
      rfl
    rw [elements, alone, reread_eq gets target.typed]
    generalize target.type.leaves = name, lineBreak child = lineBreak
    refine congrArg (fun tree => [tree]) (Eq.symm ?_)
    refine (congrArg (fun node => ServiceView.withMetadata
      (mergeInto (metadata? node) (readAttachment [] name lineBreak)) node) childEq).trans ?_
    exact withMetadata_readAttachment _ target.noNode_serviceElements _ _

/-- A target with metadata is read back with the annotation behind the metadata. -/
theorem reread_behind (target : Target tokens rest child) (gets : getsAttachment child)
    (rewritten : Rewritten rest rest' ending) (tiles : Tiles tokens ending)
    (some : (metadataParts tokens).elements ≠ []) :
    ∃ tokens', Rewritten tokens tokens' ending ∧
      (member tokens').elements = [reread child] ∧
      (member tokens').problems = (member tokens).problems ∧ (member tokens').rest = rest' := by
  have metadataEq : (metadata tokens).elements =
      [.node .metadata (metadataParts tokens).elements] := by
    rw [Grammar.metadata_eq, if_neg (by simpa using some)]
    rfl
  obtain ⟨taken, split⟩ := (Grammar.composed_metadata tokens).covers.exists_front
  have tokensEq : tokens = taken ++ (target.first :: (target.others ++ target.header) ++ rest) := by
    refine split.trans (congrArg (taken ++ ·) (target.tokens_metadata.trans ?_))
    simp
  have isSome : taken ≠ [] := by
    rintro rfl
    have nothing := elements_metadata_eq_nil split.symm
    rw [metadataEq] at nothing
    cases nothing
  obtain ⟨marks, last, takenEq⟩ : ∃ marks last, taken = marks ++ [last] :=
    ⟨_, _, (List.dropLast_concat_getLast isSome).symm⟩
  obtain ⟨after, nameTiles⟩ := target.exists_tiles_type tiles taken split
  obtain ⟨elements, problems, behind⟩ := target.member_readBack rewritten.follows taken split []
    target.first rfl
  refine ⟨_, ?_, ?_, problems, behind⟩
  · have sameTokens : marks ++ last :: (target.first :: (target.others ++ target.header) ++ rest) =
        tokens := by
      refine Eq.trans ?_ tokensEq.symm
      simp [takenEq]
    have annotated :=
      rewritten.annotateBehind marks (target.others ++ target.header) (by rwa [sameTokens])
      target.first_startsService target.isName nameTiles (isBreak_lineBreak child)
    rw [sameTokens] at annotated
    simpa [readBack, takenEq] using annotated
  · have childEq : child = .node .serviceDeclaration ([] ++
        .node .metadata (metadataParts tokens).elements :: ((target.first :: target.others).map .leaf
          ++ (serviceParts (target.header ++ rest)).elements)) := by
      refine target.child_eq.trans ?_
      rw [metadataEq]
      rfl
    have metadataFound : metadata? child = .some (.node .metadata (metadataParts tokens).elements) := by
      refine (congrArg metadata? childEq).trans ?_
      rfl
    rw [elements, reread_eq gets target.typed, metadataFound]
    generalize target.type.leaves = name, lineBreak child = lineBreak
    refine congrArg (fun tree => [tree]) (Eq.symm ?_)
    refine (congrArg (ServiceView.withMetadata _) childEq).trans ?_
    exact ServiceView.withMetadata_append _ _ rfl (by simp)

end Target

/-- A member read back: the same tokens, with an annotation if it gets one, give the same member
with the annotation. -/
theorem Rewritten.reread_member (rewritten : Rewritten rest rest' ending) {front : List Token}
    {child : Tree Token} (tiles : Tiles (front ++ rest) ending)
    (ends : (member (front ++ rest)).rest = rest)
    (elements : (member (front ++ rest)).elements = [child]) :
    ∃ tokens', Rewritten (front ++ rest) tokens' ending ∧
      (member tokens').elements = [reread child] ∧
      (member tokens').problems = (member (front ++ rest)).problems ∧
      (member tokens').rest = rest' := by
  cases gets : getsAttachment child with
  | false =>
    obtain ⟨sameElements, problems, restEq⟩ :=
      Grammar.same_member rewritten.follows front ends
    refine ⟨front ++ rest', rewritten.keep front tiles, ?_, problems, restEq⟩
    rw [sameElements, elements, reread_eq_self gets]
  | true =>
    obtain ⟨target⟩ := exists_target ends elements gets
    by_cases alone : (metadataParts (front ++ rest)).elements = []
    · exact target.reread_alone gets rewritten tiles alone
    · exact target.reread_behind gets rewritten tiles alone

end ServiceAnnotator.Attachment
