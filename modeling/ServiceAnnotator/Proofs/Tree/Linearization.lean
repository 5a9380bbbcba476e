import Mathlib.Data.List.Induction
import ServiceAnnotator.Proofs.Tree.Mapping
import ServiceAnnotator.Syntax.Tree.Assembly

/-!
# Assembly inverts linearization

The calls that were made so far can be read off a partly assembled tree. So assembly ends with a
tree if and only if the calls are those of that tree, and where it fails the calls tell why: a node
is closed behind complete trees, a node is never closed, or there is not one node around everything.
-/

namespace ServiceAnnotator

variable {α β : Type}

namespace Tree

@[simp] theorem calls_leaf (item : α) : (leaf item).calls = [.token item] := by rw [calls]

@[simp] theorem calls_node (kind : Kind) (children : List (Tree α)) :
    (node kind children).calls = .start kind :: callsOf children ++ [.finish] := by rw [calls]

@[simp] theorem callsOf_nil : callsOf ([] : List (Tree α)) = [] := by rw [callsOf]

@[simp] theorem callsOf_cons (tree : Tree α) (trees : List (Tree α)) :
    callsOf (tree :: trees) = tree.calls ++ callsOf trees := by rw [callsOf]

@[simp] theorem callsOf_append (left right : List (Tree α)) :
    callsOf (left ++ right) = callsOf left ++ callsOf right := by
  induction left with
  | nil => simp
  | cons tree trees ih => simp [ih]

mutual

/-- The tokens among the calls of a tree are its leaves. -/
theorem token_mem_calls_iff {item : α} (tree : Tree α) :
    Call.token item ∈ tree.calls ↔ item ∈ tree.leaves := by
  cases tree with
  | leaf other => simp [leaves]
  | node kind children => simp [leaves, token_mem_callsOf_iff children]

theorem token_mem_callsOf_iff {item : α} (trees : List (Tree α)) :
    Call.token item ∈ callsOf trees ↔ item ∈ leavesOf trees := by
  cases trees with
  | nil => simp [leavesOf]
  | cons tree trees =>
    simp [leavesOf, token_mem_calls_iff tree, token_mem_callsOf_iff trees]

end

end Tree

namespace Call

/-- The call with a function applied to its token. -/
def map (f : α → β) : Call α → Call β
  | .start kind => .start kind
  | .token item => .token (f item)
  | .finish => .finish

@[simp] theorem map_id (call : Call α) : call.map id = call := by
  cases call <;> rfl

end Call

namespace Tree

mutual

/-- The calls of a tree with other leaves have the other tokens. -/
theorem calls_map (f : α → β) (tree : Tree α) : (tree.map f).calls = tree.calls.map (Call.map f) := by
  cases tree with
  | leaf item => simp [Call.map]
  | node kind children => simp [Call.map, callsOf_mapAll f children]

theorem callsOf_mapAll (f : α → β) (trees : List (Tree α)) :
    callsOf (mapAll f trees) = (callsOf trees).map (Call.map f) := by
  cases trees with
  | nil => simp
  | cons tree trees => simp [calls_map f tree, callsOf_mapAll f trees]

end

end Tree

/-- Calls that close a node where none is open: behind trees that are complete. -/
def ClosesNothing (calls : List (Call α)) : Prop :=
  ∃ trees behind, calls = Tree.callsOf trees ++ .finish :: behind

/-- Calls that open a node and never close it: behind its start there are only complete trees. -/
def LeavesOpen (calls : List (Call α)) : Prop :=
  ∃ before kind trees, calls = before ++ .start kind :: Tree.callsOf trees

namespace Assembly

/-! ## The calls of a partly assembled tree -/

/-- The calls up to the start of the innermost open node. -/
def callsBefore : List (Kind × List (Tree α)) → List (Call α)
  | [] => []
  | (kind, before) :: outer => callsBefore outer ++ Tree.callsOf before.reverse ++ [.start kind]

/-- The calls that lead to a partly assembled tree. -/
def calls (state : Assembly α) : List (Call α) :=
  callsBefore state.enclosing ++ Tree.callsOf state.elements.reverse

theorem calls_of_step {state next : Assembly α} {call : Call α}
    (goesOn : state.step call = .ok next) : next.calls = state.calls ++ [call] := by
  obtain ⟨enclosing, elements⟩ := state
  cases call with
  | start kind =>
    obtain rfl := Except.ok.inj goesOn
    simp [calls, callsBefore]
  | token item =>
    obtain rfl := Except.ok.inj goesOn
    simp [calls]
  | finish =>
    cases enclosing with
    | nil => cases goesOn
    | cons innermost outer =>
      obtain ⟨kind, before⟩ := innermost
      obtain rfl := Except.ok.inj goesOn
      simp [calls, callsBefore]

/-- What was assembled holds all calls that were made. -/
theorem calls_of_foldlM {state last : Assembly α} {made : List (Call α)}
    (assembled : made.foldlM step state = .ok last) : last.calls = state.calls ++ made := by
  induction made generalizing state with
  | nil =>
    obtain rfl := Except.ok.inj assembled
    rw [List.append_nil]
  | cons call made ih =>
    rw [List.foldlM_cons] at assembled
    cases stepped : state.step call with
    | error reason =>
      rw [stepped] at assembled
      cases assembled
    | ok next =>
      rw [stepped] at assembled
      rw [ih assembled, calls_of_step stepped, List.append_assoc, List.singleton_append]

theorem foldlM_append_of_ok {left right : List (Call α)} {state middle : Assembly α}
    (reached : left.foldlM step state = .ok middle) :
    (left ++ right).foldlM step state = right.foldlM step middle := by
  rw [List.foldlM_append, reached]
  rfl

mutual

/-- The calls of a tree put the tree behind the elements that are there already. -/
theorem foldlM_calls (tree : Tree α) (state : Assembly α) :
    tree.calls.foldlM step state = .ok ⟨state.enclosing, tree :: state.elements⟩ := by
  cases tree with
  | leaf item =>
    rw [Tree.calls_leaf]
    rfl
  | node kind children =>
    have opens : [Call.start kind].foldlM step state =
        .ok ⟨(kind, state.elements) :: state.enclosing, []⟩ := rfl
    have inside := foldlM_callsOf children ⟨(kind, state.elements) :: state.enclosing, []⟩
    have closes : [Call.finish].foldlM step
        ⟨(kind, state.elements) :: state.enclosing, children.reverse ++ []⟩ =
        .ok ⟨state.enclosing, .node kind (children.reverse ++ []).reverse :: state.elements⟩ := rfl
    rw [List.append_nil, List.reverse_reverse] at closes
    rw [List.append_nil] at inside
    rw [Tree.calls_node, ← List.singleton_append, List.append_assoc, foldlM_append_of_ok opens,
      foldlM_append_of_ok inside, closes]

/-- The calls of trees that follow each other put the trees behind the elements that are there
already. -/
theorem foldlM_callsOf (trees : List (Tree α)) (state : Assembly α) :
    (Tree.callsOf trees).foldlM step state =
      .ok ⟨state.enclosing, trees.reverse ++ state.elements⟩ := by
  cases trees with
  | nil =>
    rw [Tree.callsOf_nil]
    rfl
  | cons tree trees =>
    have first := foldlM_calls tree state
    have behind := foldlM_callsOf trees ⟨state.enclosing, tree :: state.elements⟩
    rw [Tree.callsOf_cons, foldlM_append_of_ok first, behind, List.reverse_cons, List.append_assoc,
      List.singleton_append]

end

/-- The only call that fails closes a node where none is open. -/
theorem eq_of_step_error {state : Assembly α} {call : Call α} {reason : AssemblyError}
    (fails : state.step call = .error reason) :
    call = .finish ∧ state.enclosing = [] ∧ reason = .unbalancedFinish := by
  cases call with
  | start kind => cases fails
  | token item => cases fails
  | finish =>
    obtain ⟨enclosing, elements⟩ := state
    cases enclosing with
    | nil =>
      cases fails
      exact ⟨rfl, rfl, rfl⟩
    | cons innermost outer => cases fails

theorem foldlM_closes (trees : List (Tree α)) (behind : List (Call α)) :
    (Tree.callsOf trees ++ .finish :: behind).foldlM step empty = .error .unbalancedFinish := by
  rw [foldlM_append_of_ok (foldlM_callsOf trees empty)]
  rfl

/-- Calls that cannot be gone through close a node behind complete trees. -/
theorem closesNothing_of_foldlM {made : List (Call α)} {reason : AssemblyError}
    (fails : made.foldlM step empty = .error reason) :
    ClosesNothing made ∧ reason = .unbalancedFinish := by
  induction made using List.reverseRecOn generalizing reason with
  | nil => cases fails
  | append_singleton made call ih =>
    rw [List.foldlM_append] at fails
    cases before : made.foldlM step empty with
    | error earlier =>
      obtain ⟨⟨trees, behind, rfl⟩, rfl⟩ := ih before
      rw [before] at fails
      cases fails
      exact ⟨⟨trees, behind ++ [call], by simp⟩, rfl⟩
    | ok state =>
      rw [before] at fails
      have stepFails : state.step call = .error reason := by
        have single : state.step call >>= pure = .error reason := fails
        rwa [bind_pure] at single
      obtain ⟨rfl, outermost, rfl⟩ := eq_of_step_error stepFails
      have soFar : state.calls = made := calls_of_foldlM before
      rw [calls, outermost] at soFar
      refine ⟨⟨state.elements.reverse, [], ?_⟩, rfl⟩
      rw [← soFar]
      rfl

/-! ## How assembly ends -/

/-- How assembly of calls ends. -/
inductive Outcome (made : List (Call α)) : Except AssemblyError (Tree α) → Prop
  /-- The calls are those of a single node. -/
  | tree {kind : Kind} {children : List (Tree α)} :
      made = (Tree.node kind children).calls → Outcome made (.ok (.node kind children))
  | unbalancedFinish : ClosesNothing made → Outcome made (.error .unbalancedFinish)
  | unfinishedNodes : ¬ClosesNothing made → LeavesOpen made → Outcome made (.error .unfinishedNodes)
  | notSingleRoot {trees : List (Tree α)} :
      made = Tree.callsOf trees → trees.length ≠ 1 → Outcome made (.error .notSingleRoot)
  | rootIsToken {item : α} : made = [.token item] → Outcome made (.error .rootIsToken)

theorem not_closesNothing {made : List (Call α)} {state : Assembly α}
    (assembled : made.foldlM step empty = .ok state) : ¬ClosesNothing made := by
  rintro ⟨trees, behind, rfl⟩
  rw [foldlM_closes] at assembled
  cases assembled

/-- A node that is never closed is still open at the end. -/
theorem enclosing_ne_nil {made : List (Call α)} {state : Assembly α}
    (assembled : made.foldlM step empty = .ok state) (opens : LeavesOpen made) :
    state.enclosing ≠ [] := by
  obtain ⟨before, kind, trees, rfl⟩ := opens
  cases reached : before.foldlM step empty with
  | error reason =>
    rw [List.foldlM_append, reached] at assembled
    cases assembled
  | ok middle =>
    have started : [Call.start kind].foldlM step middle =
        .ok ⟨(kind, middle.elements) :: middle.enclosing, []⟩ := rfl
    rw [← List.singleton_append, foldlM_append_of_ok reached, foldlM_append_of_ok started,
      foldlM_callsOf] at assembled
    obtain rfl := Except.ok.inj assembled
    exact fun none => nomatch none

theorem finish_of_length_ne_one {elements : List (Tree α)} (several : elements.length ≠ 1) :
    finish ⟨[], elements⟩ = .error .notSingleRoot := by
  match elements with
  | [] => rfl
  | [_] => exact absurd rfl several
  | first :: _ :: _ => cases first <;> rfl

theorem run_of_foldlM {made : List (Call α)} {state : Assembly α}
    (assembled : made.foldlM step empty = .ok state) : run made = state.finish := by
  rw [run, assembled]
  rfl

theorem run_of_foldlM_error {made : List (Call α)} {reason : AssemblyError}
    (fails : made.foldlM step empty = .error reason) : run made = .error reason := by
  rw [run, fails]
  rfl

/-- Assembly of a partly assembled tree ends as its calls tell. -/
theorem outcome_finish {made : List (Call α)} {state : Assembly α}
    (assembled : made.foldlM step empty = .ok state) : Outcome made state.finish := by
  have soFar : state.calls = made := calls_of_foldlM assembled
  obtain ⟨enclosing, elements⟩ := state
  cases enclosing with
  | cons innermost outer =>
    obtain ⟨kind, before⟩ := innermost
    refine .unfinishedNodes (not_closesNothing assembled) ?_
    refine ⟨callsBefore outer ++ Tree.callsOf before.reverse, kind, elements.reverse, ?_⟩
    rw [← soFar, calls, callsBefore, List.append_assoc, List.singleton_append]
  | nil =>
    have complete : made = Tree.callsOf elements.reverse := soFar.symm
    by_cases single : elements.length = 1
    · obtain ⟨root, rfl⟩ := List.length_eq_one_iff.mp single
      cases root with
      | leaf item => exact .rootIsToken (by simpa using complete)
      | node kind children => exact .tree (by simpa using complete)
    · rw [finish_of_length_ne_one single]
      exact .notSingleRoot complete (by rwa [List.length_reverse])

theorem outcome_run (made : List (Call α)) : Outcome made (run made) := by
  cases assembled : made.foldlM step empty with
  | ok state =>
    rw [run_of_foldlM assembled]
    exact outcome_finish assembled
  | error reason =>
    obtain ⟨closes, rfl⟩ := closesNothing_of_foldlM assembled
    rw [run_of_foldlM_error assembled]
    exact .unbalancedFinish closes

theorem Outcome.run_eq {made : List (Call α)} {result : Except AssemblyError (Tree α)}
    (outcome : Outcome made result) : run made = result := by
  cases outcome with
  | tree described =>
    rw [described, run_of_foldlM (foldlM_calls _ empty)]
    rfl
  | unbalancedFinish closes =>
    obtain ⟨trees, behind, rfl⟩ := closes
    exact run_of_foldlM_error (foldlM_closes trees behind)
  | unfinishedNodes balanced opens =>
    cases assembled : made.foldlM step empty with
    | error reason => exact absurd (closesNothing_of_foldlM assembled).1 balanced
    | ok state =>
      have stillOpen := enclosing_ne_nil assembled opens
      rw [run_of_foldlM assembled]
      obtain ⟨enclosing, elements⟩ := state
      cases enclosing with
      | nil => exact absurd rfl stillOpen
      | cons innermost outer => rfl
  | @notSingleRoot trees described several =>
    rw [described, run_of_foldlM (foldlM_callsOf trees empty)]
    exact finish_of_length_ne_one (by simpa [empty] using several)
  | rootIsToken described =>
    rw [described]
    rfl

/-- Assembly of calls ends in a way if and only if the calls tell so. -/
theorem run_eq_iff {made : List (Call α)} {result : Except AssemblyError (Tree α)} :
    run made = result ↔ Outcome made result :=
  ⟨fun same => same ▸ outcome_run made, Outcome.run_eq⟩

/-! ## Tokens read in another way -/

/-- The partly assembled tree with a function applied to each token. -/
def map (f : α → β) (state : Assembly α) : Assembly β where
  enclosing := state.enclosing.map fun (kind, before) => (kind, Tree.mapAll f before)
  elements := Tree.mapAll f state.elements

theorem step_map (f : α → β) (state : Assembly α) (call : Call α) :
    (state.map f).step (call.map f) = (state.step call).map (map f) := by
  obtain ⟨enclosing, elements⟩ := state
  cases call with
  | start kind => rfl
  | token item => rfl
  | finish =>
    cases enclosing with
    | nil => rfl
    | cons innermost outer =>
      simp only [map, Call.map, step, List.map_cons, Except.map, Tree.mapAll_eq_map, Tree.map_node,
        List.map_reverse]

theorem foldlM_step_map (f : α → β) (made : List (Call α)) (state : Assembly α) :
    (made.map (Call.map f)).foldlM step (state.map f) = (made.foldlM step state).map (map f) := by
  induction made generalizing state with
  | nil => rfl
  | cons call made ih =>
    rw [List.map_cons, List.foldlM_cons, List.foldlM_cons, step_map]
    cases state.step call with
    | error reason => rfl
    | ok next => exact ih next

theorem finish_map (f : α → β) (state : Assembly α) :
    (state.map f).finish = state.finish.map (Tree.map f) := by
  obtain ⟨enclosing, elements⟩ := state
  cases enclosing with
  | cons innermost outer => rfl
  | nil =>
    by_cases single : elements.length = 1
    · obtain ⟨root, rfl⟩ := List.length_eq_one_iff.mp single
      cases root <;> simp [map, finish, Except.map]
    · have several : (Tree.mapAll f elements).length ≠ 1 := by
        rwa [Tree.mapAll_eq_map, List.length_map]
      rw [finish_of_length_ne_one single]
      exact finish_of_length_ne_one several

/-- Other tokens in the calls give the same tree over the other tokens. -/
theorem run_map (f : α → β) (made : List (Call α)) :
    run (made.map (Call.map f)) = (run made).map (Tree.map f) := by
  have folded := foldlM_step_map f made empty
  cases assembled : made.foldlM step empty with
  | error reason =>
    rw [assembled] at folded
    rw [run_of_foldlM_error assembled]
    exact run_of_foldlM_error folded
  | ok state =>
    rw [assembled] at folded
    rw [run_of_foldlM assembled, ← finish_map]
    exact run_of_foldlM folded

end Assembly

end ServiceAnnotator
