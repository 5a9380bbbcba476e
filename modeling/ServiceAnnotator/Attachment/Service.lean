import ServiceAnnotator.Attachment.Match
import ServiceAnnotator.Syntax.Fragment

/-!
# Service annotations

A service with a declared type gets an annotation `http:ServiceConfig` that names the type, unless
it carries such an annotation already. Everything else in the tree stays as it is.
-/

namespace ServiceAnnotator.Attachment

/-- The module of the annotation. -/
def annotationModule : List Char := "http".toList

/-- The name of the annotation. -/
def annotationName : List Char := "ServiceConfig".toList

/-- The field that holds the type of the service. -/
def typeField : List Char := "serviceType".toList

/-- The field for a declared type. -/
def field (type : Tree Token) : Tree Token := Fragment.specificField typeField type

/-- The annotation with one field. -/
def ofField (field : Tree Token) : Tree Token :=
  Fragment.attachment (Fragment.qualifiedReference annotationModule annotationName)
    (some (Fragment.mapping [field]))

/-- Metadata with an annotation behind all that it held before. -/
def mergeInto (metadata : Option (Tree Token)) (attachment : Tree Token) : Tree Token :=
  match metadata with
  | some metadata => metadata.append attachment
  | none => Fragment.metadata [attachment]

/-- Whether the first line of a text ends with a carriage return and a line feed. -/
def usesCarriageReturn : List Char → Bool
  | [] => false
  | '\n' :: _ => false
  | '\r' :: '\n' :: _ => true
  | _ :: cs => usesCarriageReturn cs

/-- The line break that a declaration uses; without any it is a line feed. -/
def lineBreak (service : Tree Token) : List Char :=
  if usesCarriageReturn service.text then ['\r', '\n'] else ['\n']

/-- Whether a service has a declared type and lacks the annotation. -/
def isMissing (service : Tree Token) : Bool :=
  (ServiceView.type? service).isSome &&
    !present annotationModule annotationName (DeclarationView.metadata? service)

/-- The annotated service, unless it has no declared type or carries the annotation already. -/
def annotate? (service : Tree Token) : Option (Tree Token) :=
  match ServiceView.type? service with
  | none => none
  | some type =>
    let metadata := DeclarationView.metadata? service
    if present annotationModule annotationName metadata then none
    else
      let attachment := Fragment.withLineBreak (lineBreak service) (ofField (field type))
      some (ServiceView.withMetadata (mergeInto metadata attachment) service)

/-- A declaration after the pass: an annotated service, or the declaration itself. -/
def annotateMember (member : Tree Token) : Tree Token :=
  if member.kind = .serviceDeclaration then (annotate? member).getD member else member

/-- The module with its services annotated, unless there is none to annotate. -/
def annotateModule? (root : Tree Token) : Option (Tree Token) :=
  if root.isNode && root.kind == .modulePart && (ModuleView.services root).any isMissing then
    ModuleView.withMembers ((ModuleView.members root).map annotateMember) root
  else none

/-- The tree with its services annotated. -/
def annotateTree (root : Tree Token) : Tree Token := (annotateModule? root).getD root

end ServiceAnnotator.Attachment
