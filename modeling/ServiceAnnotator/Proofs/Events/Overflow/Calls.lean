import ServiceAnnotator.Proofs.Events.Overflow.Counts

/-!
# Nodes that were given up

Events among which every child has its parent make the same calls whatever comes behind. Where no
node opens behind them, nodes that were given up there make no difference.
-/

namespace ServiceAnnotator.Events

/-- Every child among the events has its parent among them. -/
def Parental (events : List Event) : Prop :=
  ∀ index kind distance, events[index]? = some (Event.start kind (some distance)) →
    StartsAt events (index + distance)

variable {events front : List Event} {event : Event} {index : Nat}

theorem StartsAt.set (starts : StartsAt events index) (struck : Nat) :
    StartsAt (events.set struck .tombstone) index := by
  obtain ⟨kind, parent?, found⟩ := starts
  by_cases here : struck = index
  · subst here
    exact ⟨.tombstone, none, List.getElem?_set_self (List.getElem?_eq_some_iff.mp found).1⟩
  · exact ⟨kind, parent?, by rw [List.getElem?_set_ne here, found]⟩

theorem Parental.tail (parental : Parental (event :: events)) : Parental events := by
  intro index kind distance found
  obtain ⟨parentKind, parent?, parent⟩ := parental (index + 1) kind distance found
  rw [Nat.add_right_comm, List.getElem?_cons_succ] at parent
  exact ⟨parentKind, parent?, parent⟩

/-- A node that is struck out may still be a parent. -/
theorem Parental.set (parental : Parental events) (struck : Nat) :
    Parental (events.set struck .tombstone) := by
  intro child kind distance found
  by_cases here : struck = child
  · subst here
    have inside : struck < (events.set struck .tombstone).length :=
      (List.getElem?_eq_some_iff.mp found).1
    rw [List.length_set] at inside
    rw [List.getElem?_set_self inside] at found
    cases found
  · rw [List.getElem?_set_ne here] at found
    exact (parental child kind distance found).set struck

/-- The parents of a node are looked up among the events in front. -/
theorem exists_parents_append {parent? : Option Nat} (parental : Parental front)
    (starts : ∀ distance, parent? = some distance → StartsAt front (index + distance)) :
    ∃ kinds rest, Parental rest ∧ rest.length = front.length ∧ ∀ behind,
      parents (front ++ behind) index parent? = pure (kinds, rest ++ behind) := by
  fun_induction parents front index parent? with
  | case1 front index =>
    exact ⟨[], front, parental, rfl, fun behind => parents_none _ _⟩
  | case2 front index distance kind parent? found ih =>
    obtain ⟨kinds, rest, parentalRest, lengthEq, further⟩ := ih (parental.set _) (by
      rintro next rfl
      exact (parental _ _ _ found).set _)
    have inside := (List.getElem?_eq_some_iff.mp found).1
    refine ⟨if kind = .tombstone then kinds else kind :: kinds, rest, parentalRest,
      lengthEq.trans List.length_set, fun behind => ?_⟩
    have foundThere : (front ++ behind)[index + distance]? = some (.start kind parent?) := by
      rw [List.getElem?_append_left inside, found]
    have struck : (front ++ behind).set (index + distance) .tombstone =
        front.set (index + distance) .tombstone ++ behind := List.set_append_left _ _ inside
    rw [parents]
    split
    · rename_i same
      cases foundThere.symm.trans same
      rw [struck, further]
      rfl
    · rename_i other
      exact (other _ _ foundThere).elim
  | case3 front index distance missing =>
    obtain ⟨kind, parent?, found⟩ := starts distance rfl
    exact (missing _ _ found).elim

/-- Events among which every child has its parent make their calls, whatever comes behind. -/
theorem exists_calls_append (parental : Parental front) :
    ∃ made, ∀ behind, calls (front ++ behind) = (made ++ ·) <$> calls behind := by
  induction length : front.length generalizing front with
  | zero =>
    obtain rfl := List.length_eq_zero_iff.mp length
    exact ⟨[], fun behind => by simp⟩
  | succ count ih =>
    cases front with
    | nil => cases length
    | cons event rest =>
      have shorter : rest.length = count := Nat.succ.inj length
      obtain ⟨made, further⟩ := ih parental.tail shorter
      cases event with
      | token placed =>
        refine ⟨.token placed.raw :: made, fun behind => ?_⟩
        rw [List.cons_append, calls_token, further, Functor.map_map]
        rfl
      | finish =>
        refine ⟨.finish :: made, fun behind => ?_⟩
        rw [List.cons_append, calls_finish, further, Functor.map_map]
        rfl
      | start kind parent? =>
        by_cases given : kind = .tombstone
        · refine ⟨made, fun behind => ?_⟩
          rw [List.cons_append, calls, List.length_cons, callsUpTo, if_pos given, ← calls, further]
        · have starts (distance : Nat) (isParent : parent? = some distance) :
              StartsAt ((Event.start kind parent? :: rest).set 0 .tombstone) (0 + distance) :=
            (parental 0 kind distance (isParent ▸ rfl)).set 0
          obtain ⟨kinds, struck, parentalStruck, lengthEq, found⟩ :=
            exists_parents_append (parental.set 0) starts
          cases struck with
          | nil => cases lengthEq
          | cons event tail =>
            have sameLength : tail.length = rest.length := Nat.succ.inj lengthEq
            obtain ⟨more, furtherStruck⟩ := ih parentalStruck.tail (sameLength.trans shorter)
            refine ⟨(kind :: kinds).reverse.map .start ++ more, fun behind => ?_⟩
            have lengthBehind : (rest ++ behind).length = (tail ++ behind).length := by
              rw [List.length_append, List.length_append, sameLength]
            have foundHere := found behind
            rw [List.set_cons_zero, List.cons_append] at foundHere
            rw [List.cons_append, calls, List.length_cons, callsUpTo, if_neg given, foundHere,
              pure_bind]
            simp only [List.cons_append, List.tail_cons, lengthBehind]
            rw [← calls, furtherStruck]
            simp

/-- Nodes that were given up make no calls, where there are no other nodes. -/
theorem calls_filter {events : List Event}
    (struck : ∀ event ∈ events, event.isStart → event = .tombstone) :
    calls (events.filter (· ≠ .tombstone)) = calls events := by
  induction events with
  | nil => rfl
  | cons event behind ih =>
    have further := ih fun event found => struck event (.tail _ found)
    cases event with
    | token placed =>
      rw [List.filter_cons_of_pos (by simp [Event.tombstone]), calls_token, calls_token, further]
    | finish =>
      rw [List.filter_cons_of_pos (by simp [Event.tombstone]), calls_finish, calls_finish, further]
    | start kind parent? =>
      rw [struck _ (.head _) rfl, List.filter_cons_of_neg (by simp), calls_tombstone, further]

end ServiceAnnotator.Events
