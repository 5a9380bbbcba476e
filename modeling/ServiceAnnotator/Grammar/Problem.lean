import ServiceAnnotator.Syntax.Kind

/-!
# Syntax problems

The grammar reports what is wrong at which token. Tokens are counted from the end of the text: a
report says how many tokens were still ahead, so it needs neither positions nor the text itself.
-/

namespace ServiceAnnotator

/-- What is wrong with the tokens at a point of a document. -/
inductive Problem where
  /-- Another kind of token has to stand here. -/
  | expected (kind : Kind)
  | expectedExpression
  | expectedFieldName
  | expectedModuleName
  | expectedServiceBody
  | expectedDeclaration
  | expectedModuleLevelDeclaration
  /-- A comma stands where a field has to. -/
  | strayComma
  /-- A semicolon stands where a declaration has to. -/
  | straySemicolon
  | unclosedServiceBody
  /-- A bracket closes nothing. -/
  | unmatchedCloser
  /-- The text ends inside a declaration. -/
  | unexpectedEnd
  deriving DecidableEq, Repr

namespace Problem

/-- How a message names a kind that is missing. -/
def describe : Kind → String
  | .semicolon => "`;`"
  | .colon => "`:`"
  | .comma => "`,`"
  | .leftBrace => "`\x7b`"
  | .rightBrace => "`\x7d`"
  | .onKw => "`on`"
  | .serviceKw => "`service`"
  | .identifier => "identifier"
  | .endOfFile => "end of file"
  | _ => "token"

/-- The problem in words. -/
def message : Problem → String
  | expected kind => "expected " ++ describe kind
  | expectedExpression => "expected expression"
  | expectedFieldName => "expected field name"
  | expectedModuleName => "expected module name"
  | expectedServiceBody => "expected service body"
  | expectedDeclaration => "expected a declaration"
  | expectedModuleLevelDeclaration => "expected a module-level declaration"
  | strayComma => "expected field, found `,`"
  | straySemicolon => "expected a declaration, found `;`"
  | unclosedServiceBody => "unclosed service body"
  | unmatchedCloser => "unmatched closing delimiter"
  | unexpectedEnd => "unexpected end of file in declaration"

end Problem

/-- A problem, and how many tokens were ahead of it, the end of the file not counted. -/
structure Report where
  problem : Problem
  ahead : Nat
  deriving DecidableEq, Repr

end ServiceAnnotator
