import ServiceAnnotator.Proofs.Events.Overflow.Calls
import ServiceAnnotator.Proofs.Events.Overflow.Rules
import ServiceAnnotator.Proofs.Events.Parse

/-!
# Parsing with small markers

With small markers a text is parsed as with markers that hold any position, if all its nodes open
among as many events as there are positions. Otherwise parsing stops with a fault.
-/

namespace ServiceAnnotator

namespace Events

variable {positions : Nat} {events more : List Event} {event : Event}
variable {trees : List (Tree PlacedToken)}

/-! ## Events that describe trees -/

theorem Parental.cons (parental : Parental events)
    (parent : ∀ kind distance, event = .start kind (some distance) →
      StartsAt (event :: events) distance) : Parental (event :: events) := by
  intro index kind distance found
  cases index with
  | zero =>
    rw [Nat.zero_add]
    exact parent kind distance (Option.some.inj found)
  | succ index =>
    obtain ⟨parentKind, parent?, found⟩ := parental index kind distance found
    refine ⟨parentKind, parent?, ?_⟩
    rw [Nat.add_right_comm, List.getElem?_cons_succ, found]

/-- An event that is no child needs no parent. -/
theorem Parental.cons_childless (parental : Parental events)
    (childless : ∀ kind distance, event ≠ .start kind (some distance)) :
    Parental (event :: events) :=
  parental.cons fun kind distance same => (childless kind distance same).elim

theorem Parental.cons_root (parental : Parental events) (kind : Kind) :
    Parental (.start kind none :: events) :=
  parental.cons_childless fun _ _ same => nomatch (Event.start.inj same).2

theorem Parental.cons_finish (parental : Parental events) : Parental (.finish :: events) :=
  parental.cons_childless nofun

theorem Parental.append (first : Parental events) (second : Parental more) :
    Parental (events ++ more) := by
  induction events with
  | nil => exact second
  | cons event events ih =>
    refine (ih first.tail).cons ?_
    rintro kind distance rfl
    obtain ⟨parentKind, parent?, found⟩ := first 0 kind distance rfl
    rw [Nat.zero_add] at found
    refine ⟨parentKind, parent?, ?_⟩
    rw [← List.cons_append, List.getElem?_append_left (List.getElem?_eq_some_iff.mp found).1, found]

/-- Where events describe trees, every child has its parent. -/
theorem Describes.parental (describes : Describes events trees) : Parental events := by
  induction describes with
  | nil => exact fun _ _ _ found => by simp at found
  | token placed _ ih => exact ih.cons_childless nofun
  | node real _ _ inside ih =>
    exact (inside.append ih.cons_finish).cons_root _
  | @preceded _ kind front _ _ _ _ _ firstReal real _ _ _ before inside ih =>
    have opens := (inside.append ih.cons_finish).cons_root kind
    refine (before.append opens.cons_finish).cons ?_
    rintro _ _ ⟨⟩
    refine ⟨kind, none, ?_⟩
    rw [List.getElem?_cons_succ, List.getElem?_append_right (Nat.le_succ _)]
    simp

/-- Where events describe trees, as many nodes open as close. -/
theorem Describes.countP_isStart (describes : Describes events trees) :
    events.countP Event.isStart = events.count .finish := by
  induction describes with
  | nil => rfl
  | token placed _ ih => simpa [Event.isStart] using ih
  | node real _ _ inside ih =>
    rw [List.countP_cons_of_pos rfl, List.countP_append, List.countP_cons_of_neg Bool.false_ne_true,
      List.count_cons_of_ne Event.noConfusion, List.count_append, List.count_cons_self, inside, ih,
      Nat.add_assoc]
  | preceded firstReal real _ _ _ before inside ih =>
    rw [List.countP_cons_of_pos rfl, List.countP_append, List.countP_cons_of_neg Bool.false_ne_true,
      List.countP_cons_of_pos rfl, List.countP_append, List.countP_cons_of_neg Bool.false_ne_true,
      List.count_cons_of_ne Event.noConfusion, List.count_append, List.count_cons_self,
      List.count_cons_of_ne Event.noConfusion, List.count_append, List.count_cons_self, before,
      inside, ih]
    omega

/-! ## Nodes that open behind the first events -/

theorem OpensWithin.lt {index : Nat} (within : OpensWithin positions events)
    (starts : StartsAt events index) : index < positions := by
  obtain ⟨kind, parent?, found⟩ := starts
  refine Nat.lt_of_not_le fun behind => ?_
  have dropped : (events.drop positions)[index - positions]? = some (.start kind parent?) := by
    rw [List.getElem?_drop, Nat.add_sub_cancel' behind, found]
  cases within _ (List.mem_of_getElem? dropped)

/-- A node that escapes opens behind the first events. -/
theorem Escapes.not_opensWithin (escapes : Escapes positions events) :
    ¬OpensWithin positions events := by
  intro within
  obtain ⟨index, behind, kind, parent?, found, -⟩ := escapes
  exact Nat.not_lt.mpr behind (within.lt ⟨kind, parent?, found⟩)

/-- The first events have the parents of their nodes among them if no node opens behind them. -/
theorem Parental.take (parental : Parental events) (within : OpensWithin positions events) :
    Parental (events.take positions) := by
  intro index kind distance found
  rw [List.getElem?_take] at found
  split at found
  · have starts := parental index kind distance found
    obtain ⟨parentKind, parent?, foundParent⟩ := starts
    refine ⟨parentKind, parent?, ?_⟩
    rw [List.getElem?_take, if_pos (within.lt ⟨parentKind, parent?, foundParent⟩), foundParent]
  · cases found

/-- If all nodes open among the first events, both make the same calls. -/
theorem Agree.calls_eq {wide narrow : List Event} (agree : Agree positions wide narrow)
    (parental : Parental wide) (within : OpensWithin positions wide) :
    calls narrow = calls wide := by
  obtain ⟨first, behind⟩ := agree.same fun escapes => escapes.not_opensWithin within
  have struck : ∀ event ∈ wide.drop positions, event.isStart → event = .tombstone := by
    intro event found isStart
    cases (within event found).symm.trans isStart
  have sameBehind : calls (narrow.drop positions) = calls (wide.drop positions) := by
    rw [← calls_filter agree.beyond, behind, calls_filter struck]
  obtain ⟨made, further⟩ := exists_calls_append (parental.take within)
  rw [← List.take_append_drop positions narrow, first, further, sameBehind, ← further,
    List.take_append_drop]

/-- If a node opens behind the first events, more nodes close than have a kind. -/
theorem Agree.named_lt {wide narrow : List Event} (agree : Agree positions wide narrow)
    (balanced : wide.countP Event.isStart = wide.count .finish)
    (beyond : ¬OpensWithin positions wide) : named narrow < narrow.count .finish := by
  have few : named narrow ≤ (narrow.take positions).countP Event.isStart := by
    have none : named (narrow.drop positions) = 0 := by
      refine List.countP_eq_zero.mpr fun event found => ?_
      simpa using agree.beyond event found
    rw [← List.take_append_drop positions narrow, named, List.countP_append, ← named, ← named, none,
      List.take_append_drop, Nat.add_zero]
    refine List.countP_mono_left fun event _ isNamed => ?_
    exact (Bool.and_eq_true_iff.mp isNamed).1
  have same : (narrow.take positions).countP Event.isStart =
      (wide.take positions).countP Event.isStart := by
    have counted (events : List Event) : (events.take positions).countP Event.isStart =
        ((events.map Event.isStart).take positions).countP id := by
      rw [← List.map_take, List.countP_map, Function.id_comp]
    rw [counted, counted, agree.starts]
  have fewer : (wide.take positions).countP Event.isStart < wide.countP Event.isStart := by
    have some : 0 < (wide.drop positions).countP Event.isStart := by
      refine List.countP_pos_iff.mpr ?_
      by_contra none
      exact beyond fun event found =>
        Bool.eq_false_iff.mpr fun isStart => none ⟨event, found, isStart⟩
    have split : (wide.take positions ++ wide.drop positions).countP Event.isStart =
        (wide.take positions).countP Event.isStart + (wide.drop positions).countP Event.isStart :=
      List.countP_append
    rw [List.take_append_drop] at split
    omega
  rw [agree.finishes, ← balanced]
  exact Nat.lt_of_le_of_lt (same ▸ few) fewer

/-! ## Parsing -/

theorem written_eq_ok_iff {text : List Char} {parser : Parser} :
    (written positions text).run = some (.ok parser) ↔
      Ends modulePart (.ofText positions text) () parser := by
  rw [written, ExceptT.run_bind, Ends]
  rcases (modulePart.run (.ofText positions text)).run with _ | (fault | ⟨_, last⟩)
  · simp
  · simp
  · constructor
    · intro ended
      cases ended
      rfl
    · intro ended
      cases ended
      rfl

/-- With small markers a text is parsed as with markers that hold any position, if all its
nodes open among as many events as there are positions. Otherwise parsing stops with a fault. -/
theorem parseWithin_cases (some : 0 < positions) {text : List Char} {parser : Parser}
    (ended : (written 0 text).run = .some (.ok parser)) :
    (OpensWithin positions parser.events → (parseWithin positions text).run = (parse text).run) ∧
    (¬OpensWithin positions parser.events →
      ∃ fault, (parseWithin positions text).run = .some (.error fault)) := by
  obtain ⟨_, known, describes, reported, closed⟩ := exists_written text
  obtain rfl := Except.ok.inj (Option.some.inj (ended.symm.trans known))
  have starts : InStep positions (.ofText 0 text) (.ofText positions text) :=
    ⟨rfl, rfl, rfl, .nil positions, rfl⟩
  have follows := (follows_modulePart some).wherever rfl (written_eq_ok_iff.mp ended)
  rcases follows.inStep starts with
    ⟨_, narrow, endedNarrow, rfl, inStep⟩ | ⟨⟨fault, stopped⟩, escapes⟩
  -- A parser with small markers that comes to the end may still have lost nodes. More nodes close
  -- in its events than have a kind then, so that no tree is built from them.
  · have parsed := parseWithin_of_written (written_eq_ok_iff.mpr endedNarrow)
      (inStep.markers.trans closed)
    refine ⟨fun within => ?_, fun beyond => ?_⟩
    · have sameCalls := inStep.agree.calls_eq describes.parental within
      rw [parsed, parse, parseWithin_of_written ended closed, build, build, sameCalls,
        inStep.diagnostics]
    · obtain ⟨fault, stopped⟩ :=
        exists_build_error text (inStep.agree.named_lt describes.countP_isStart beyond)
      refine ⟨fault, ?_⟩
      rw [parsed, ExceptT.run_bind, stopped]
      rfl
  · refine ⟨fun within => (escapes.not_opensWithin within).elim, fun _ => ⟨fault, ?_⟩⟩
    rw [parseWithin, written, bind_assoc, ExceptT.run_bind, stopped]
    rfl

end Events

end ServiceAnnotator
