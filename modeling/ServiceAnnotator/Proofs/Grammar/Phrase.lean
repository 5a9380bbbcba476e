import Mathlib.Computability.Language
import ServiceAnnotator.Grammar.Parsed

/-!
# The language of modules

A module is told here by the kinds of its tokens alone, without saying how it is read. A phrase is a
list of kinds and a construct is the language of its phrases. Only the flat declarations depend on
what stands behind them.
-/

open scoped Computability

namespace ServiceAnnotator.Phrase

open Grammar (next)

/-! ## Depth of brackets -/

/-- What a token adds to the depth of brackets. Brackets of all three shapes count alike. -/
def weight : Kind → Int
  | .leftParen | .leftBrace | .leftBracket => 1
  | .rightParen | .rightBrace | .rightBracket => -1
  | _ => 0

/-- The depth of brackets behind a phrase. -/
def depth : List Kind → Int
  | [] => 0
  | kind :: phrase => weight kind + depth phrase

/-- Tokens between which all brackets are closed, none of them before it is opened. Outside all
brackets none of the tokens is of a kind in a list. -/
structure IsRun (stop : List Kind) (phrase : List Kind) : Prop where
  some : phrase ≠ []
  closed : depth phrase = 0
  inside : ∀ front, front <+: phrase → 0 ≤ depth front
  free : ∀ front kind, front ++ [kind] <+: phrase → depth front = 0 → kind ∉ stop

/-! ## Ways to put languages together -/

/-- One token of a kind. -/
def token (kind : Kind) : Language Kind := {[kind]}

/-- One token of any of some kinds. -/
def oneOf (kinds : List Kind) : Language Kind := {phrase | ∃ kind ∈ kinds, phrase = [kind]}

/-- A phrase that may be missing. -/
def optional (language : Language Kind) : Language Kind := 1 + language

/-- Runs without tokens of some kinds outside all brackets. -/
def run (stop : List Kind) : Language Kind := {phrase | IsRun stop phrase}

/-! ## Names and mapping constructors -/

/-- A name, with a module in front of it or without. -/
def name : Language Kind := token .identifier * optional (token .colon * token .identifier)

/-- Kinds that stand outside all brackets in no expression of a mapping constructor. -/
def fieldEnd : List Kind := [.comma, .rightBrace, .semicolon]

/-- Kinds of the key of a field. -/
def keys : List Kind := [.identifier, .stringLiteral]

mutual

/-- Fields in braces, separated by commas, with a comma behind the last one or without. -/
inductive IsMapping : List Kind → Prop
  | braces {fields : List Kind} : IsFields fields → IsMapping (.leftBrace :: fields)

/-- Fields with their commas, and the closing brace. -/
inductive IsFields : List Kind → Prop
  | close : IsFields [.rightBrace]
  | last {field : List Kind} : IsField field → IsFields (field ++ [.rightBrace])
  | comma {field fields : List Kind} : IsField field → IsFields fields →
      IsFields (field ++ .comma :: fields)

/-- A key alone, a key with a value, or a spread of an expression. -/
inductive IsField : List Kind → Prop
  | key {key : Kind} : key ∈ keys → IsField [key]
  | value {key : Kind} {value : List Kind} : key ∈ keys → IsValue value →
      IsField (key :: .colon :: value)
  | spread {expression : List Kind} : IsRun fieldEnd expression →
      IsField (.ellipsis :: expression)

/-- A mapping constructor, or an expression that does not start like one. -/
inductive IsValue : List Kind → Prop
  | mapping {phrase : List Kind} : IsMapping phrase → IsValue phrase
  | expression {phrase : List Kind} : IsRun fieldEnd phrase → next phrase ≠ .leftBrace →
      IsValue phrase

end

/-- Fields with the closing brace. -/
def fieldList : Language Kind := {phrase | IsFields phrase}

/-- Mapping constructors. -/
def mapping : Language Kind := {phrase | IsMapping phrase}

/-! ## What stands in front of a declaration -/

/-- An annotation attachment. -/
def attachment : Language Kind := token .atSign * name * optional mapping

/-- Documentation lines and attachments, if there are any. -/
def metadata : Language Kind := (token .documentationLine)∗ * attachment∗

/-- Qualifiers, if there are any. -/
def qualifiers : Language Kind := (oneOf [.publicKw, .isolatedKw, .finalKw, .configurableKw])∗

/-! ## Services -/

/-- A slash of a resource path, with a name behind it or without. -/
def segment : Language Kind := token .slash * optional (token .identifier)

/-- A resource path. -/
def path : Language Kind := segment * segment∗

/-- A listener expression. -/
def listener : Language Kind := run [.comma, .leftBrace, .semicolon]

/-- Listener expressions, separated by commas. -/
def listeners : Language Kind := listener * (token .comma * listener)∗

/-- The body of a service. -/
def body : Language Kind := token .leftBrace * optional (run []) * token .rightBrace

/-- A service behind its keyword. No phrase starts with the keyword of a class. -/
def serviceParts : Language Kind :=
  optional name * optional (path + token .stringLiteral) * (token .onKw * listeners) * body

/-! ## Declarations that are not taken apart -/

/-- Kinds in front of which a declaration may end with a closing brace: the end of the file, and
what imports and declarations start with. -/
def MayFollow (kind : Kind) : Prop :=
  kind ∈ [.endOfFile, .importKw, .identifier, .leftBracket, .leftParen] ∨ kind.isMemberStart

/-- Whether a flat declaration ends with a token, given the depth in front of the token and the kind
behind it. -/
def EndsFlat (depth : Int) (kind behind : Kind) : Prop :=
  (depth = 0 ∧ kind = .semicolon) ∨ (depth = 1 ∧ kind = .rightBrace ∧ MayFollow behind)

/-- Tokens up to the first one that ends a flat declaration in front of a kind, without a closing
bracket outside all brackets. -/
structure IsFlat (behind : Kind) (phrase : List Kind) : Prop where
  inside : ∀ front kind, front ++ [kind] <+: phrase → depth front = 0 → weight kind ≠ -1
  ends : ∃ front last, phrase = front ++ [last] ∧ EndsFlat (depth front) last behind
  first : ∀ front kind following, front ++ [kind, following] <+: phrase →
    ¬EndsFlat (depth front) kind following

/-- Kinds that a flat declaration starts with. -/
def flatStart : List Kind :=
  [.functionKw, .listenerKw, .typeKw, .constKw, .classKw, .enumKw, .annotationKw, .identifier,
    .leftBracket, .leftParen]

/-- Whether a phrase starts like a flat declaration. -/
def StartsFlat : List Kind → Prop
  | [] => False
  | first :: rest => first ∈ flatStart ∨ (first = .serviceKw ∧ next rest = .classKw)

/-- Flat declarations in front of a kind. -/
def flat (behind : Kind) : Language Kind := {phrase | StartsFlat phrase ∧ IsFlat behind phrase}

/-! ## Modules -/

/-- An import. -/
def importDeclaration : Language Kind :=
  token .importKw * run [.semicolon, .importKw] * token .semicolon

/-- A declaration in front of a kind. -/
def member (behind : Kind) : Language Kind :=
  metadata * qualifiers * (token .serviceKw * serviceParts + flat behind)

/-- Imports and declarations. -/
inductive IsModule : List Kind → Prop
  | nil : IsModule []
  | cons {item rest : List Kind} : item ∈ importDeclaration + member (next rest) →
      IsModule rest → IsModule (item ++ rest)

end ServiceAnnotator.Phrase
