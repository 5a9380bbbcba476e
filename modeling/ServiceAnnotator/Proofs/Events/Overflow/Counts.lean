import ServiceAnnotator.Proofs.Events.Described
import ServiceAnnotator.Proofs.Events.Overflow.Agree
import ServiceAnnotator.Proofs.Tree.Assembled

/-!
# Events that describe no tree

Events make as many calls that close a node as there are nodes that close, and at most as many calls
that open one as there are nodes with a kind. If there are fewer of these then there is no tree.
-/

namespace ServiceAnnotator

/-! ## Calls that are assembled -/

namespace SourceCall

/-- Number of nodes that calls open. -/
def opened (made : List SourceCall) : Nat := made.countP (· matches .start _)

/-- Number of nodes that calls close. -/
def closed (made : List SourceCall) : Nat := made.countP (· matches .finish)

theorem opened_append (made more : List SourceCall) :
    opened (made ++ more) = opened made + opened more :=
  List.countP_append

theorem closed_append (made more : List SourceCall) :
    closed (made ++ more) = closed made + closed more :=
  List.countP_append

theorem opened_map_start (kinds : List Kind) : opened (kinds.map .start) = kinds.length := by
  rw [opened, List.countP_map]
  exact List.countP_eq_length.mpr fun _ _ => rfl

theorem closed_map_start (kinds : List Kind) : closed (kinds.map .start) = 0 := by
  rw [closed, List.countP_map]
  exact List.countP_eq_zero.mpr fun _ _ => by simp

variable {text : List Char} {state next : Assembly Slice}

/-- A call opens a node, closes one, or leaves the open nodes as they are. -/
theorem length_enclosing_step {call : SourceCall} (steps : step text state call = .ok next) :
    next.enclosing.length + closed [call] = state.enclosing.length + opened [call] := by
  cases call with
  | start kind =>
    cases steps
    rfl
  | token item =>
    obtain ⟨leading, kind, lexeme, trailing⟩ := item
    rw [step, cut] at steps
    cases found : Slice.cut? text leading kind lexeme trailing with
    | none =>
      rw [found] at steps
      cases steps
    | some slice =>
      rw [found] at steps
      cases steps
      rfl
  | finish =>
    obtain ⟨enclosing, elements⟩ := state
    cases enclosing with
    | nil => cases steps
    | cons inner enclosing =>
      cases steps
      rfl

/-- Nodes that are open were opened and not closed. -/
theorem length_enclosing {made : List SourceCall} {last : Assembly Slice}
    (assembled : made.foldlM (step text) state = .ok last) :
    last.enclosing.length + closed made = state.enclosing.length + opened made := by
  induction made generalizing state with
  | nil =>
    obtain rfl := Except.ok.inj assembled
    rfl
  | cons call made ih =>
    rw [List.foldlM_cons] at assembled
    cases steps : step text state call with
    | error reason =>
      rw [steps] at assembled
      cases assembled
    | ok next =>
      rw [steps] at assembled
      have first := length_enclosing_step steps
      have further := ih assembled
      simp only [closed, opened, List.countP_cons, List.countP_nil] at first further ⊢
      omega

/-- Calls that are assembled to a tree close as many nodes as they open. -/
theorem opened_eq_closed {made : List SourceCall} {tree : Tree Slice}
    (assembled : assemble text made = .ok tree) : opened made = closed made := by
  have folds :
      assemble text made = made.foldlM (step text) Assembly.empty >>= Assembly.finish := rfl
  rw [folds] at assembled
  cases reached : made.foldlM (step text) Assembly.empty with
  | error reason =>
    rw [reached] at assembled
    cases assembled
  | ok last =>
    rw [reached] at assembled
    have counted := length_enclosing reached
    obtain ⟨enclosing, elements⟩ := last
    cases enclosing with
    | nil => simpa [Assembly.empty] using counted.symm
    | cons inner enclosing => cases assembled

end SourceCall

namespace Events

/-! ## Fewer nodes than are closed -/

/-- What ends with a fault, or with a result that satisfies a condition. -/
def Settles {β : Type} (outcome : ExceptT Fault Option β) (post : β → Prop) : Prop :=
  (∃ fault, outcome.run = some (.error fault)) ∨
    ∃ result, outcome.run = some (.ok result) ∧ post result

theorem Settles.bind {β γ : Type} {outcome : ExceptT Fault Option β}
    {further : β → ExceptT Fault Option γ} {middle : β → Prop} {post : γ → Prop}
    (first : Settles outcome middle)
    (second : ∀ result, middle result → Settles (further result) post) :
    Settles (outcome >>= further) post := by
  rcases first with ⟨fault, stopped⟩ | ⟨result, ended, holds⟩
  · refine .inl ⟨fault, ?_⟩
    rw [ExceptT.run_bind, stopped]
    rfl
  · have further := second result holds
    rw [Settles, ExceptT.run_bind, ended]
    exact further

theorem Settles.pure {β : Type} {result : β} {post : β → Prop} (holds : post result) :
    Settles (Pure.pure result) post := .inr ⟨result, rfl, holds⟩

theorem Settles.imp {β : Type} {outcome : ExceptT Fault Option β} {middle post : β → Prop}
    (settles : Settles outcome middle) (weaker : ∀ result, middle result → post result) :
    Settles outcome post :=
  settles.imp_right fun ⟨result, ended, holds⟩ => ⟨result, ended, weaker result holds⟩

/-- Number of nodes that have a kind or a parent. -/
def named (events : List Event) : Nat :=
  events.countP fun event => event.isStart && event != .tombstone

theorem named_le_cons (event : Event) (events : List Event) :
    named events ≤ named (event :: events) := by
  rw [named, named, List.countP_cons]
  exact Nat.le_add_right ..

/-- Which events close a node. -/
def finishes (events : List Event) : List Bool := events.map (· == .finish)

/-- A node that is struck out counts no more. -/
theorem named_set {events : List Event} {index : Nat} {event : Event}
    (found : events[index]? = some event) (isStart : event.isStart) :
    named (events.set index .tombstone) + (if event = .tombstone then 0 else 1) = named events := by
  obtain ⟨inside, rfl⟩ := List.getElem?_eq_some_iff.mp found
  have counted : events[index] ≠ .tombstone → 0 < named events := fun stood =>
    List.countP_pos_iff.mpr ⟨_, List.getElem_mem inside, by simp [isStart, stood]⟩
  rw [named] at counted ⊢
  rw [named, List.countP_set inside]
  by_cases struck : events[index] = .tombstone
  · simp [struck]
  · have positive := counted struck
    simp [isStart, struck]
    omega

theorem finishes_set {events : List Event} {index : Nat} {event : Event}
    (found : events[index]? = some event) (isStart : event.isStart) :
    finishes (events.set index .tombstone) = finishes events := by
  refine Agree.map_set_of_eq found ?_
  cases event with
  | start kind parent? => rfl
  | token placed => cases isStart
  | finish => cases isStart

/-- Parents are nodes that are struck out, and all nodes close as before. -/
theorem parents_counts (events : List Event) (index : Nat) (parent? : Option Nat) :
    Settles (parents events index parent?) fun (kinds, rest) =>
      kinds.length + named rest ≤ named events ∧ finishes rest = finishes events := by
  fun_induction parents events index parent? with
  | case1 events index => exact .pure ⟨by simp, rfl⟩
  | case2 events index distance kind parent? found ih =>
    apply ih.bind
    rintro ⟨kinds, rest⟩ ⟨fewer, closes⟩
    refine .pure ⟨?_, closes.trans (finishes_set found rfl)⟩
    have struck := named_set found rfl
    by_cases given : kind = .tombstone
    · simp only [if_pos given]
      omega
    · have real : Event.start kind parent? ≠ .tombstone :=
        fun same => given (Event.start.inj same).1
      simp only [if_neg given, List.length_cons]
      rw [if_neg real] at struck
      omega
  | case3 => exact .inl ⟨_, rfl⟩

/-- Events make a call for each node that closes, and none for a node without a kind. -/
theorem callsUpTo_counts (count : Nat) (events : List Event) (enough : events.length ≤ count) :
    Settles (callsUpTo count events) fun made =>
      SourceCall.opened made ≤ named events ∧
        SourceCall.closed made = (finishes events).count true := by
  induction count generalizing events with
  | zero =>
    obtain rfl := List.length_eq_zero_iff.mp (Nat.le_zero.mp enough)
    exact .pure ⟨Nat.le_refl _, rfl⟩
  | succ count ih =>
    cases events with
    | nil => exact .pure ⟨Nat.le_refl _, rfl⟩
    | cons event behind =>
      have fits : behind.length ≤ count := Nat.le_of_succ_le_succ enough
      cases event with
      | start kind parent? =>
        rw [callsUpTo]
        by_cases given : kind = .tombstone
        · rw [if_pos given]
          apply (ih behind fits).imp
          rintro made ⟨opens, closes⟩
          exact ⟨Nat.le_trans opens (named_le_cons _ behind), closes⟩
        · rw [if_neg given]
          apply (parents_counts (.tombstone :: behind) 0 parent?).bind
          rintro ⟨kinds, rest⟩ ⟨fewer, sameFinishes⟩
          -- Parents are struck out in their places, so there are as many events as before.
          obtain ⟨event, rest, rfl⟩ : ∃ event tail, rest = event :: tail :=
            List.exists_cons_of_length_pos (by
              have lengthEq := congrArg List.length sameFinishes
              simp only [finishes, List.length_map, List.length_cons] at lengthEq
              omega)
          obtain ⟨-, sameFinishes⟩ := List.cons.inj sameFinishes
          have fitsRest : rest.length ≤ count := by
            have lengthEq := congrArg List.length sameFinishes
            simp only [List.length_map] at lengthEq
            omega
          apply (ih rest fitsRest).bind
          rintro made ⟨opens, closes⟩
          have real : Event.start kind parent? ≠ .tombstone := fun same =>
            given (Event.start.inj same).1
          have counted :
              named (.start kind parent? :: behind) = named (.tombstone :: behind) + 1 := by
            simp [named, Event.isStart, real]
          refine .pure ⟨?_, ?_⟩
          · rw [SourceCall.opened_append, SourceCall.opened_map_start, List.length_reverse,
              List.length_cons]
            have := named_le_cons event rest
            omega
          · have opens : finishes (.start kind parent? :: behind) = false :: finishes behind := rfl
            rw [SourceCall.closed_append, SourceCall.closed_map_start, Nat.zero_add, closes, opens,
              List.count_cons_of_ne Bool.false_ne_true]
            exact congrArg (List.count true) sameFinishes
      | token placed =>
        apply (ih behind fits).bind
        rintro made ⟨opens, closes⟩
        exact .pure ⟨opens, closes⟩
      | finish =>
        apply (ih behind fits).bind
        rintro made ⟨opens, closes⟩
        refine .pure ⟨opens, ?_⟩
        simpa [SourceCall.closed, finishes] using closes

/-- If more nodes close than have a kind, the events describe no tree. -/
theorem exists_build_error {events : List Event} (text : List Char)
    (fewer : named events < events.count .finish) :
    ∃ fault, (build text events).run = some (.error fault) := by
  have counted : (finishes events).count true = events.count .finish := by
    rw [finishes, List.count, List.countP_map, List.count]
    exact List.countP_congr fun event _ => by simp
  rcases callsUpTo_counts events.length events (Nat.le_refl _) with
    ⟨fault, stopped⟩ | ⟨made, ended, opens, closes⟩
  · refine ⟨fault, ?_⟩
    rw [build, calls, ExceptT.run_bind, stopped]
    rfl
  · cases assembled : SourceCall.assemble text made with
    | error reason =>
      refine ⟨.assembly reason, ?_⟩
      rw [build, calls, ExceptT.run_bind, ended]
      simp only [Option.bind_eq_bind, Option.bind_some, assembled]
      rfl
    | ok tree =>
      have balanced := SourceCall.opened_eq_closed assembled
      omega

end Events

end ServiceAnnotator
