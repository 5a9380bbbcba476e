import ServiceAnnotator.Events.Parser
import ServiceAnnotator.Grammar.Module

/-!
# The rules of the grammar as actions

Each rule of the grammar is an action of a parser. The rules decide by the kind of the next token
and write down where nodes open and close. The sets of kinds at which they start, stop and recover
are those of the grammar.
-/

namespace ServiceAnnotator.Events

open Grammar (bracket endsDeclaration)

/-- Takes the tokens up to the first token of a set that stands outside all brackets, or up to a
bracket that closes none of them. Tells whether anything was taken, here or before. -/
def balanced (stop : KindSet) (depth : Nat) (consumed : Bool) : Action Bool :=
  recurring (fun again (depth, consumed) => do
    let kind ← peekKind
    if kind = .endOfFile ∨ (depth = 0 ∧ stop.contains kind) then return consumed
    else
      match bracket kind with
      | .opens =>
        advance
        again (depth + 1, true)
      | .closes =>
        if depth = 0 then return consumed
        else
          advance
          again (depth - 1, true)
      | .neither =>
        advance
        again (depth, true)) (depth, consumed)

/-- Takes a run of tokens in braces, both braces included. -/
def block (unclosed : Problem) : Action Unit := do
  assert ((← peekKind) == .leftBrace)
  advance
  discard (balanced .empty 0 false)
  if ← eat .rightBrace then return else error unclosed

/-- A name, with a module in front of a colon or without. -/
def nameReference (recovery : KindSet) : Action Unit := do
  if (← peekKind) = .identifier then
    let marker ← start
    advance
    if ← eat .colon then
      discard (expect .identifier)
      discard (marker.complete .qualifiedNameReference)
    else discard (marker.complete .simpleNameReference)
  else errorRecover (.expected .identifier) recovery

/-! ## Expressions -/

/-- An expression up to the first token of a set outside all brackets. -/
def expression (stop : KindSet) : Action Bool := do
  let marker ← start
  if ← balanced stop 0 false then
    discard (marker.complete .expression)
    return true
  else
    marker.abandon
    error .expectedExpression
    return false

/-- Expressions separated by commas. -/
def listeners : Action Unit :=
  recurring (fun again _ => do
    if ← expression Grammar.listenerEnd then
      if ← eat .comma then again () else return
    else return) ()

/-- The listener expressions of a service. -/
def expressionList : Action Unit := do
  let marker ← start
  listeners
  discard (marker.complete .expressionList)

/-- The value of a field: a mapping constructor where a brace opens one, else an expression. -/
def fieldValue (mapping : Action Unit) : Action Unit := do
  if (← peekKind) = .leftBrace then mapping
  else discard (expression Grammar.fieldEnd)

/-- The colon behind a key and the value behind the colon, if there is a colon. -/
def valueBehindKey (mapping : Action Unit) : Action Unit := do
  if ← eat .colon then fieldValue mapping else return

/-- A field of a mapping constructor: a spread of an expression, a key with a value, or a key
alone. -/
def field (mapping : Action Unit) : Action Bool := do
  let kind ← peekKind
  if kind = .ellipsis then
    let marker ← start
    advance
    discard (expression Grammar.fieldEnd)
    discard (marker.complete .spreadField)
    return true
  else if kind = .identifier ∨ kind = .stringLiteral then
    let marker ← start
    advance
    valueBehindKey mapping
    discard (marker.complete .specificField)
    return true
  else
    error .expectedFieldName
    return false

/-- What follows a field: a comma and further fields. A comma that is missing in front of a field is
reported. -/
def furtherFields (fields : Action Unit) : Action Unit := do
  if ← eat .comma then fields
  else if Grammar.fieldStart.contains (← peekKind) then
    discard (expect .comma)
    fields
  else return

/-- Fields separated by commas. A comma in the place of a field is reported and skipped. -/
def fields (mapping : Action Unit) : Action Unit :=
  recurring (fun again _ => do
    let kind ← peekKind
    if kind = .rightBrace ∨ kind = .endOfFile then return
    else if kind = .comma then
      errorAndBump .strayComma
      again ()
    else if ← field mapping then furtherFields (again ())
    else return) ()

/-- A mapping constructor with its braces. The values of its fields may be mapping constructors. -/
def mapping : Action Unit :=
  recurring (fun nested _ => do
    let marker ← start
    assert ((← peekKind) == .leftBrace)
    advance
    fields (nested ())
    discard (expect .rightBrace)
    discard (marker.complete .mappingConstructor)) ()

/-! ## Metadata -/

/-- A mapping constructor where a brace opens one, else nothing. -/
def optionalMapping : Action Unit := do
  if (← peekKind) = .leftBrace then mapping else return

/-- An annotation attachment: an at sign, a name and an optional mapping constructor. -/
def attachment : Action Unit := do
  let marker ← start
  advance
  nameReference Grammar.attachmentRecovery
  optionalMapping
  discard (marker.complete .annotationAttachment)

/-- Annotation attachments, one after the other. -/
def attachments : Action Unit :=
  recurring (fun again _ => do
    if (← peekKind) = .atSign then
      attachment
      again ()
    else return) ()

/-- Documentation lines, in a node of their own if there are any. -/
def documentation : Action Unit := do
  if (← peekKind) = .documentationLine then
    let marker ← start
    advanceWhile (· == .documentationLine)
    discard (marker.complete .documentation)
  else return

/-- Documentation lines followed by annotation attachments, in a node if there are any. -/
def metadata : Action (Option CompletedMarker) := do
  let kind ← peekKind
  if kind = .documentationLine ∨ kind = .atSign then
    let marker ← start
    documentation
    attachments
    return some (← marker.complete .metadata)
  else return none

/-! ## Declarations -/

/-- The name of a module that is imported: a run of tokens up to a semicolon or the next import. -/
def importedName : Action Unit := do
  if ← balanced (.ofList [.semicolon, .importKw]) 0 false then return
  else error .expectedModuleName

/-- An import: a run of tokens up to a semicolon, which the next import cuts short. -/
def importDeclaration : Action Unit := do
  let marker ← start
  advance
  importedName
  discard (expect .semicolon)
  discard (marker.complete .importDeclaration)

/-- The rest of a declaration that is kept as it is, inside `depth` brackets. Gives the kind that
the declaration turns out to have. -/
def plainRun (kind : Kind) (depth : Nat) : Action Kind :=
  recurring (fun again (kind, depth) => do
    let next ← peekKind
    if next = .endOfFile then
      error .unexpectedEnd
      return kind
    else if next = .semicolon ∧ depth = 0 then
      advance
      return kind
    else if next = .classKw ∧ depth = 0 ∧ kind = .moduleVarDeclaration then
      advance
      again (.classDefinition, depth)
    else
      match bracket next with
      | .opens =>
        advance
        again (kind, depth + 1)
      | .closes =>
        if depth = 0 then
          errorAndBump .unmatchedCloser
          again (kind, 0)
        else
          advance
          if next = .rightBrace ∧ depth = 1 ∧ endsDeclaration (← peekKind) then return kind
          else again (kind, depth - 1)
      | .neither =>
        advance
        again (kind, depth)) (kind, depth)

/-- Slashes, each with an optional name behind it. -/
def segments : Action Unit :=
  recurring (fun again _ => do
    if ← eat .slash then
      let _ ← eat .identifier
      again ()
    else return) ()

/-- Where a service is attached: a resource path, a string literal, or nothing. -/
def attachPoint : Action Unit := do
  let kind ← peekKind
  if kind = .slash then
    let marker ← start
    segments
    discard (marker.complete .absoluteResourcePath)
  else if kind = .stringLiteral then advance
  else return

/-- The type of a service, if it has one. -/
def serviceType : Action Unit := do
  if (← peekKind) = .identifier then nameReference (.ofList [.onKw, .leftBrace]) else return

/-- The keyword `on` and the listeners behind it. -/
def listenerClause : Action Unit := do
  if ← expect .onKw then expressionList else return

/-- The body of a service. -/
def serviceBody : Action Unit := do
  if (← peekKind) = .leftBrace then
    let marker ← start
    block .unclosedServiceBody
    discard (marker.complete .serviceBody)
  else error .expectedServiceBody

/-- A service from its keyword on, and the kind that it turns out to have. -/
def service : Action Kind := do
  advance
  if (← peekKind) = .classKw then plainRun .classDefinition 0
  else
    serviceType
    attachPoint
    listenerClause
    serviceBody
    return .serviceDeclaration

/-- A declaration behind its metadata and qualifiers, and its kind. -/
def declaration : Action Kind := do
  let next ← peekKind
  if next = .serviceKw then service
  else
    match Grammar.declarationKind? next with
    | some kind => plainRun kind 0
    | none =>
      error .expectedDeclaration
      return .error

/-- Opens a declaration. Its metadata becomes its first child after the metadata is complete. -/
def openMember : Action Marker := do
  match ← metadata with
  | some completed => completed.precede
  | none => start

/-- A declaration with its metadata and qualifiers. -/
def member : Action Unit := do
  let marker ← openMember
  advanceWhile Grammar.qualifiers.contains
  let kind ← declaration
  discard (marker.complete kind)

/-! ## Modules -/

/-- The imports and declarations of a module. -/
def items : Action Unit :=
  recurring (fun again _ => do
    let next ← peekKind
    if next = .endOfFile then return
    else if next = .importKw then
      importDeclaration
      again ()
    else if Grammar.startsMember next then
      member
      again ()
    else if next = .semicolon then
      errorAndBump .straySemicolon
      again ()
    else
      errorAndBump .expectedModuleLevelDeclaration
      again ()) ()

/-- A whole document. -/
def modulePart : Action Unit := do
  let marker ← start
  items
  advanceEndOfFile
  discard (marker.complete .modulePart)

end ServiceAnnotator.Events
