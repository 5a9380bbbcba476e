import ServiceAnnotator.Events.Parser

/-!
# Events written down with small markers

A marker that holds any position completes the node that it has opened. A small marker wraps around
once there are as many events as it has positions. It then completes another node, if there is one
in its place, and the node that it has opened is never complete. What both write down is compared
here.
-/

namespace ServiceAnnotator.Events

/-- Tells the events at which nodes open. -/
def Event.isStart : Event → Bool
  | .start .. => true
  | .token _ | .finish => false

/-- A node opens at an index. -/
def StartsAt (events : List Event) (index : Nat) : Prop :=
  ∃ kind parent?, events[index]? = some (.start kind parent?)

/-- All nodes open among the first events. -/
def OpensWithin (positions : Nat) (events : List Event) : Prop :=
  ∀ event ∈ events.drop positions, event.isStart = false

/-- A node that opens at an index has a kind, a parent, or a child that opens in front of it. -/
def Claimed (events : List Event) (index : Nat) : Prop :=
  ∃ kind parent?, events[index]? = some (.start kind parent?) ∧
    (Event.start kind parent? ≠ .tombstone ∨
      ∃ child childKind distance,
        events[child]? = some (.start childKind (some distance)) ∧ child + distance = index)

/-- Behind the first events there is a node that is claimed. -/
def Escapes (positions : Nat) (events : List Event) : Prop :=
  ∃ index, positions ≤ index ∧ Claimed events index

/-- The events of small markers agree with those of markers that hold any position. Behind the first
events no node gets a kind, while as many nodes close. As long as no node escapes, the events differ
only in nodes that were given up. -/
structure Agree (positions : Nat) (wide narrow : List Event) : Prop where
  starts : (narrow.map Event.isStart).take positions = (wide.map Event.isStart).take positions
  finishes : narrow.count .finish = wide.count .finish
  beyond : ∀ event ∈ narrow.drop positions, event.isStart → event = .tombstone
  same : ¬Escapes positions wide → narrow.take positions = wide.take positions ∧
    (narrow.drop positions).filter (· ≠ .tombstone) = (wide.drop positions).filter (· ≠ .tombstone)

variable {positions index position : Nat} {events wide narrow : List Event} {event new : Event}

/-! ## Nodes that are claimed -/

theorem Claimed.append (claimed : Claimed events index) (more : List Event) :
    Claimed (events ++ more) index := by
  have keeps {index : Nat} {event : Event} (found : events[index]? = some event) :
      (events ++ more)[index]? = some event := by
    rw [List.getElem?_append_left (List.getElem?_eq_some_iff.mp found).1, found]
  obtain ⟨kind, parent?, found, reason⟩ := claimed
  refine ⟨kind, parent?, keeps found, reason.imp_right ?_⟩
  rintro ⟨child, childKind, distance, foundChild, meets⟩
  exact ⟨child, childKind, distance, keeps foundChild, meets⟩

theorem Escapes.append (escapes : Escapes positions events) (more : List Event) :
    Escapes positions (events ++ more) := by
  obtain ⟨index, behind, claimed⟩ := escapes
  exact ⟨index, behind, claimed.append more⟩

/-- A node that has a kind or a parent is claimed. -/
theorem claimed_set {kind : Kind} {parent? : Option Nat} (inside : index < events.length)
    (real : Event.start kind parent? ≠ .tombstone) :
    Claimed (events.set index (.start kind parent?)) index :=
  ⟨kind, parent?, List.getElem?_set_self inside, .inl real⟩

/-- A node that gets a kind keeps its parent. -/
theorem Escapes.complete {kind former : Kind} {parent? : Option Nat}
    (found : events[position]? = some (.start former parent?)) (real : kind ≠ .tombstone)
    (escapes : Escapes positions events) :
    Escapes positions (events.set position (.start kind parent?)) := by
  obtain ⟨index, behind, formerKind, formerParent?, foundIndex, reason⟩ := escapes
  have inside := (List.getElem?_eq_some_iff.mp found).1
  refine ⟨index, behind, ?_⟩
  by_cases here : position = index
  · subst here
    exact claimed_set inside fun same => real (Event.start.inj same).1
  · refine ⟨formerKind, formerParent?, by rw [List.getElem?_set_ne here, foundIndex],
      reason.imp_right ?_⟩
    rintro ⟨child, childKind, distance, foundChild, meets⟩
    by_cases atChild : position = child
    · subst atChild
      obtain rfl := (Event.start.inj (Option.some.inj (found.symm.trans foundChild))).2
      exact ⟨position, kind, distance, List.getElem?_set_self inside, meets⟩
    · exact ⟨child, childKind, distance, by rw [List.getElem?_set_ne atChild, foundChild], meets⟩

theorem Escapes.lt_length (escapes : Escapes positions events) : positions < events.length := by
  obtain ⟨index, behind, kind, parent?, found, _⟩ := escapes
  exact Nat.lt_of_le_of_lt behind (List.getElem?_eq_some_iff.mp found).1

/-- A node that opens behind the first events escapes when it gets a child. -/
theorem escapes_precede {kind : Kind} {parent? : Option Nat} {last : Nat}
    (found : events[position]? = some (.start kind parent?))
    (opened : events[last]? = some .tombstone) (before : position ≤ last)
    (behind : positions ≤ last) :
    Escapes positions (events.set position (.start kind (some (last - position)))) := by
  have inside := (List.getElem?_eq_some_iff.mp found).1
  by_cases apart : position = last
  · subst apart
    exact ⟨position, behind, claimed_set inside (by simp [Event.tombstone])⟩
  · refine ⟨last, behind, .tombstone, none, ?_, .inr ⟨position, kind, last - position,
      List.getElem?_set_self inside, by omega⟩⟩
    rw [List.getElem?_set_ne apart, opened]
    rfl

/-! ## Events that agree -/

namespace Agree

theorem nil (positions : Nat) : Agree positions [] [] :=
  ⟨rfl, rfl, by simp, fun _ => ⟨rfl, rfl⟩⟩

/-- There are as many events, or more than markers can tell apart. -/
theorem length (agree : Agree positions wide narrow) :
    narrow.length = wide.length ∨ positions ≤ wide.length ∧ positions ≤ narrow.length := by
  have sameLength := congrArg List.length agree.starts
  simp only [List.length_take, List.length_map] at sameLength
  omega

/-- Among the first events the nodes open at the same places. -/
theorem startsAt (agree : Agree positions wide narrow) (below : position < positions)
    (starts : StartsAt wide position) : StartsAt narrow position := by
  obtain ⟨kind, parent?, found⟩ := starts
  have atPosition := congrArg (·[position]?) agree.starts
  simp only [List.getElem?_take, if_pos below, List.getElem?_map, found, Option.map_some]
    at atPosition
  obtain ⟨event, foundEvent, isStart⟩ := Option.map_eq_some_iff.mp atPosition
  cases event with
  | start kind parent? => exact ⟨kind, parent?, foundEvent⟩
  | token _ | finish => cases isStart

/-- What is written down next is written down by both. -/
theorem concat (agree : Agree positions wide narrow)
    (harmless : event.isStart → event = .tombstone) :
    Agree positions (wide ++ [event]) (narrow ++ [event]) := by
  -- Both are equally long, or no position is left for the event in either of them.
  have rest : positions - narrow.length = positions - wide.length := by
    have := agree.length
    omega
  have dropped (events : List Event) :
      (events ++ [event]).drop positions =
        events.drop positions ++ [event].drop (positions - events.length) := List.drop_append
  have taken (events : List Event) :
      (events ++ [event]).take positions =
        events.take positions ++ [event].take (positions - events.length) := List.take_append
  refine ⟨?_, ?_, ?_, ?_⟩
  · rw [List.map_append, List.map_append, List.take_append, List.take_append, agree.starts,
      List.length_map, List.length_map, rest]
  · rw [List.count_append, List.count_append, agree.finishes]
  · intro other found
    rw [dropped, List.mem_append] at found
    rcases found with found | found
    · exact agree.beyond other found
    · obtain rfl := List.mem_singleton.mp (List.mem_of_mem_drop found)
      exact harmless
  · intro inside
    obtain ⟨first, behind⟩ := agree.same fun escapes => inside (escapes.append _)
    rw [taken, taken, dropped, dropped, List.filter_append, List.filter_append, first, behind, rest]
    exact ⟨rfl, rfl⟩

/-- A node that was given up behind the first events makes no difference. -/
theorem givenUp (agree : Agree positions wide narrow) (behind : positions ≤ narrow.length) :
    Agree positions wide (narrow ++ [.tombstone]) := by
  have dropped :
      (narrow ++ [Event.tombstone]).drop positions = narrow.drop positions ++ [.tombstone] :=
    List.drop_append_of_le_length behind
  refine ⟨?_, ?_, ?_, ?_⟩
  · rw [List.map_append, List.take_append_of_le_length (by rwa [List.length_map]), agree.starts]
  · rw [List.count_append, agree.finishes]
    rfl
  · intro other found isStart
    rw [dropped, List.mem_append, List.mem_singleton] at found
    exact found.elim (agree.beyond other · isStart) id
  · intro inside
    obtain ⟨first, last⟩ := agree.same inside
    rw [dropped, List.filter_append, last, List.take_append_of_le_length behind, first]
    exact ⟨rfl, by simp⟩

theorem map_set_of_eq {β : Type} {f : Event → β} (found : events[index]? = some event)
    (same : f new = f event) : (events.set index new).map f = events.map f := by
  obtain ⟨inside, rfl⟩ := List.getElem?_eq_some_iff.mp found
  rw [List.map_set, same, ← List.getElem_map f (h := by rwa [List.length_map]),
    List.set_getElem_self]

theorem count_finish_set (found : events[index]? = some event) (isStart : event.isStart)
    (isStartNew : new.isStart) : (events.set index new).count .finish = events.count .finish := by
  obtain ⟨inside, rfl⟩ := List.getElem?_eq_some_iff.mp found
  have ne {event : Event} (isStart : event.isStart) : event ≠ .finish := by
    rintro rfl
    cases isStart
  rw [List.count_set inside, if_neg (by simpa using ne isStart),
    if_neg (by simpa using ne isStartNew)]
  rfl

/-- The event of a node is overwritten, and the small marker overwrites one among the first events.
Unless a node escapes by it, this is the same event. -/
theorem set {other : Nat} {eventOther newOther : Event} (agree : Agree positions wide narrow)
    (found : wide[position]? = some event) (isStart : event.isStart) (isStartNew : new.isStart)
    (foundOther : narrow[other]? = some eventOther) (isStartOther : eventOther.isStart)
    (isStartNewOther : newOther.isStart) (below : other < positions)
    (same : ¬Escapes positions (wide.set position new) →
      ¬Escapes positions wide ∧ position = other ∧ (event = eventOther → new = newOther)) :
    Agree positions (wide.set position new) (narrow.set other newOther) := by
  refine ⟨?_, ?_, ?_, ?_⟩
  · rw [map_set_of_eq found (isStartNew.trans isStart.symm),
      map_set_of_eq foundOther (isStartNewOther.trans isStartOther.symm), agree.starts]
  · rw [count_finish_set found isStart isStartNew,
      count_finish_set foundOther isStartOther isStartNewOther, agree.finishes]
  · rw [List.drop_set_of_lt below]
    exact agree.beyond
  · intro inside
    obtain ⟨insideBefore, rfl, newEq⟩ := same inside
    obtain ⟨first, behind⟩ := agree.same insideBefore
    have sameEvent : event = eventOther := by
      have atPosition := congrArg (·[position]?) first
      simp only [List.getElem?_take, if_pos below, found, foundOther] at atPosition
      exact (Option.some.inj atPosition).symm
    rw [List.drop_set_of_lt below, List.drop_set_of_lt below, List.take_set, List.take_set, first,
      newEq sameEvent]
    exact ⟨rfl, behind⟩

end Agree

end ServiceAnnotator.Events
