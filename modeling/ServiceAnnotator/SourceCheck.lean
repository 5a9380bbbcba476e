import ServiceAnnotator.Grammar.Module
import ServiceAnnotator.Syntax.View

/-!
# Checks of a source text

Besides the problems that the grammar reports, a module should not import the same path twice.
-/

namespace ServiceAnnotator.SourceTree

/-- Warnings about imports whose path an earlier import has, given the paths seen so far. An import
without a path is left out. -/
def repeatedImports (seen : List (List Char)) : List (Tree PlacedToken) → List Diagnostic
  | [] => []
  | node :: nodes =>
    let path := ImportView.path (node.map PlacedToken.token)
    if path = [] then repeatedImports seen nodes
    else if seen.contains path then
      let span := node.significantSpan?.getD (.empty 0)
      ⟨.warning, "duplicate import of `" ++ String.ofList path ++ "`", span⟩ ::
        repeatedImports seen nodes
    else repeatedImports (path :: seen) nodes

/-- Everything that a check of a source text reports, in the order of the text. Of diagnostics at
the same position, problems of the grammar come first. -/
def diagnostics (source : SourceTree) : List Diagnostic :=
  let imports := ModuleView.imports source.tree.placed
  (source.problems ++ repeatedImports [] imports).mergeSort fun left right =>
    left.span.start ≤ right.span.start

/-- The diagnostics of a text. -/
def check (text : List Char) : List Diagnostic := (parse text).diagnostics

end ServiceAnnotator.SourceTree
