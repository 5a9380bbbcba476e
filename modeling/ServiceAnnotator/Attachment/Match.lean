import ServiceAnnotator.Syntax.View

/-!
# Matching annotation attachments

Whether metadata carries an annotation is decided by the text of the qualified references alone.
What an annotation holds does not matter.
-/

namespace ServiceAnnotator.Attachment

/-- The text in front of the first colon; the whole text where there is none. -/
def beforeColon (text : List Char) : List Char := text.takeWhile (· != ':')

/-- The text behind the last colon; the whole text where there is none. -/
def afterColon (text : List Char) : List Char := (text.reverse.takeWhile (· != ':')).reverse

/-- Whether the text of a qualified reference names something of a module. Blanks around both names
are left out of the comparison. -/
def names (moduleName name text : List Char) : Bool :=
  Text.trim (afterColon text) == name && Text.trim (beforeColon text) == moduleName

/-- Whether an annotation attachment has a qualified reference to a name of a module. -/
def refersTo (moduleName name : List Char) (attachment : Tree Token) : Bool :=
  match AttachmentView.reference? attachment with
  | some reference =>
    reference.kind == .qualifiedNameReference && names moduleName name reference.trimmedText
  | none => false

/-- Whether metadata, if there is any, carries an annotation of a module. -/
def present (moduleName name : List Char) (metadata : Option (Tree Token)) : Bool :=
  metadata.any fun metadata => (MetadataView.attachments metadata).any (refersTo moduleName name)

end ServiceAnnotator.Attachment
