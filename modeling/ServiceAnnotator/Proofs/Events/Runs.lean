import ServiceAnnotator.Events.Parser

/-!
# What an action comes to

An action runs from a state to a condition if it ends without a fault, in a state and with a result
that satisfy the condition. Each step of an action is run by itself, and the next step goes on from
there.
-/

namespace ServiceAnnotator.Events

variable {β γ : Type}

/-- From a state an action ends, without a fault, and satisfies a condition. -/
def Runs (action : Action β) (parser : Parser) (post : β → Parser → Prop) : Prop :=
  ∃ result behind, (action.run parser).run = some (.ok (result, behind)) ∧ post result behind

variable {parser : Parser} {post : γ → Parser → Prop} {further : β → Action γ}

theorem Runs.pure {result : γ} (holds : post result parser) : Runs (Pure.pure result) parser post :=
  ⟨result, parser, rfl, holds⟩

/-- An action goes on where its first step has ended. -/
theorem Runs.andThen {action : Action β} {middle : β → Parser → Prop}
    (first : Runs action parser middle)
    (second : ∀ result behind, middle result behind → Runs (further result) behind post) :
    Runs (action >>= further) parser post := by
  obtain ⟨result, behind, ended, holds⟩ := first
  obtain ⟨final, last, endedToo, holdsToo⟩ := second result behind holds
  refine ⟨final, last, ?_, holdsToo⟩
  rw [StateT.run_bind, ExceptT.run_bind, ended]
  exact endedToo

theorem Runs.imp {action : Action γ} {middle : γ → Parser → Prop}
    (runs : Runs action parser middle)
    (weaker : ∀ result behind, middle result behind → post result behind) :
    Runs action parser post := by
  obtain ⟨result, behind, ended, holds⟩ := runs
  exact ⟨result, behind, ended, weaker _ _ holds⟩

theorem Runs.discard {action : Action β} {post : Parser → Prop}
    (runs : Runs action parser fun _ behind => post behind) :
    Runs (Functor.discard action) parser fun _ behind => post behind := by
  have forgets : Functor.discard action = action >>= fun _ => Pure.pure PUnit.unit := rfl
  rw [forgets]
  exact runs.andThen fun _ _ holds => .pure holds

/-- Where the first step has one outcome, the action goes on with it. -/
theorem Runs.thence {action : Action β} {result : β} {behind : Parser}
    (ended : (action.run parser).run = some (.ok (result, behind)))
    (runs : Runs (further result) behind post) : Runs (action >>= further) parser post := by
  obtain ⟨final, last, endedToo, holds⟩ := runs
  refine ⟨final, last, ?_, holds⟩
  rw [StateT.run_bind, ExceptT.run_bind, ended]
  exact endedToo

/-- Looking at the next token changes nothing. -/
theorem Runs.peek {further : Kind → Action γ}
    (runs : Runs (further parser.tokenizer.kind) parser post) :
    Runs (peekKind >>= further) parser post := .thence rfl runs

/-! ## Recursion -/

/-- An action where an action that started at this parser uses itself again. -/
def Parser.onward (parser : Parser) (action : Action β) : Action β := fun behind =>
  if behind.tokenizer.ahead < parser.tokenizer.ahead then action behind else none

/-- Behind a token an action can go on. -/
theorem Runs.onward {action : Action γ} {behind : Parser}
    (taken : behind.tokenizer.ahead < parser.tokenizer.ahead) (runs : Runs action behind post) :
    Runs (parser.onward action) behind post := by
  have same : parser.onward action behind = action behind := if_pos taken
  rw [Runs, StateT.run, same]
  exact runs

/-- An action that uses itself again runs as its body does, which goes on behind a token. -/
theorem Runs.recurring {α : Type} {body : (α → Action γ) → α → Action γ} {argument : α}
    (runs : Runs (body (fun argument => parser.onward (recurring body argument)) argument) parser
      post) : Runs (recurring body argument) parser post := by
  rw [Runs, StateT.run, Events.recurring]
  exact runs

/-! ## Nodes that open -/

/-- The state with the event of a node that opens. -/
def Parser.opened (parser : Parser) : Parser :=
  { parser with events := parser.events ++ [.tombstone], markers := parser.markers + 1 }

/-- A marker that holds any position holds the place of its node. -/
theorem runs_start (any : parser.positions = 0) :
    Runs start parser fun marker behind =>
      marker = ⟨parser.events.length⟩ ∧ behind = parser.opened := by
  refine ⟨_, _, rfl, ?_, rfl⟩
  rw [any, Nat.mod_zero]

end ServiceAnnotator.Events
