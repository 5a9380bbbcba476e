import ServiceAnnotator.Events.Build

/-!
# Events that describe trees

Completed nodes stand in the list of events one behind the other, and each describes a tree. A node
that has got a parent describes no tree by itself: the parent opens behind it and takes it as first
child.
-/

namespace ServiceAnnotator.Events

/-- Events that describe trees which follow each other. -/
inductive Describes : List Event → List (Tree PlacedToken) → Prop
  | nil : Describes [] []
  | token (placed : PlacedToken) {events : List Event} {trees : List (Tree PlacedToken)}
      (behind : Describes events trees) :
      Describes (.token placed :: events) (.leaf placed :: trees)
  | node {kind : Kind} {inner events : List Event} {children trees : List (Tree PlacedToken)}
      (real : kind ≠ .tombstone) (inside : Describes inner children)
      (behind : Describes events trees) :
      Describes (.start kind none :: (inner ++ .finish :: events)) (.node kind children :: trees)
  | preceded {first kind : Kind} {front inner events : List Event}
      {parts children trees : List (Tree PlacedToken)}
      (firstReal : first ≠ .tombstone) (real : kind ≠ .tombstone) (before : Describes front parts)
      (inside : Describes inner children) (behind : Describes events trees) :
      Describes
        (.start first (some (front.length + 2)) ::
          (front ++ .finish :: .start kind none :: (inner ++ .finish :: events)))
        (.node kind (.node first parts :: children) :: trees)

theorem Describes.append {left right : List Event} {trees more : List (Tree PlacedToken)}
    (first : Describes left trees) (second : Describes right more) :
    Describes (left ++ right) (trees ++ more) := by
  induction first with
  | nil => exact second
  | token placed _ ih => exact .token placed ih
  | node real inside _ _ ih =>
    simpa only [List.cons_append, List.append_assoc] using Describes.node real inside ih
  | preceded firstReal real before inside _ _ _ ih =>
    simpa only [List.cons_append, List.append_assoc] using
      Describes.preceded firstReal real before inside ih

/-- One complete node. -/
theorem Describes.wrap {kind : Kind} {inner : List Event} {children : List (Tree PlacedToken)}
    (inside : Describes inner children) (real : kind ≠ .tombstone) :
    Describes (.start kind none :: (inner ++ [.finish])) [.node kind children] :=
  .node real inside .nil

/-- Where there is no tree there are no events. -/
theorem Describes.eq_nil {events : List Event} (describes : Describes events []) : events = [] := by
  cases describes
  rfl

/-! ## The calls -/

theorem parents_none (events : List Event) (index : Nat) :
    parents events index none = pure ([], events) := by
  rw [parents]

/-- A parent is struck out, and the parents of the parent are looked up from there on. -/
theorem parents_some {events : List Event} {index distance : Nat} {kind : Kind}
    {parent? : Option Nat} (real : kind ≠ .tombstone)
    (found : events[index + distance]? = some (.start kind parent?)) :
    parents events index (some distance) = Prod.map (kind :: ·) id <$>
      parents (events.set (index + distance) .tombstone) (index + distance) parent? := by
  rw [parents]
  split
  · rename_i same
    cases found.symm.trans same
    simp only [if_neg real]
    rfl
  · rename_i other
    exact absurd found (other kind parent?)

theorem calls_nil : calls [] = pure [] := rfl

theorem calls_token (placed : PlacedToken) (behind : List Event) :
    calls (.token placed :: behind) = (.token placed.raw :: ·) <$> calls behind := rfl

theorem calls_finish (behind : List Event) :
    calls (.finish :: behind) = (.finish :: ·) <$> calls behind := rfl

theorem calls_tombstone (behind : List Event) : calls (.tombstone :: behind) = calls behind := rfl

theorem calls_start {kind : Kind} (real : kind ≠ .tombstone) (behind : List Event) :
    calls (.start kind none :: behind) = (.start kind :: ·) <$> calls behind := by
  rw [calls, List.length_cons, callsUpTo, if_neg real, parents_none]
  rfl

/-- A node with a parent opens behind its parent. -/
theorem calls_preceded {first kind : Kind} (firstReal : first ≠ .tombstone)
    (real : kind ≠ .tombstone) (between behind : List Event) :
    calls (.start first (some (between.length + 1)) :: (between ++ .start kind none :: behind)) =
      ([.start kind, .start first] ++ ·) <$> calls (between ++ .tombstone :: behind) := by
  have found :
      (Event.tombstone :: (between ++ .start kind none :: behind))[0 + (between.length + 1)]? =
        some (.start kind none) := by
    simp
  have struck : (Event.tombstone :: (between ++ .start kind none :: behind)).set
      (0 + (between.length + 1)) .tombstone = .tombstone :: (between ++ .tombstone :: behind) := by
    simp
  have lengthEq : (between ++ .start kind none :: behind).length =
      (between ++ .tombstone :: behind).length := by
    simp
  rw [calls, List.length_cons, lengthEq, callsUpTo, if_neg firstReal, parents_some real found,
    struck, parents_none]
  rfl

/-- Events that describe trees make the calls that describe the trees. -/
theorem Describes.calls_append {events : List Event} {trees : List (Tree PlacedToken)}
    (describes : Describes events trees) (behind : List Event) :
    calls (events ++ behind) =
      (Tree.callsOf (Tree.mapAll PlacedToken.raw trees) ++ ·) <$> calls behind := by
  induction describes generalizing behind with
  | nil => simp [Tree.callsOf, Tree.mapAll]
  | token placed _ ih =>
    simp only [List.cons_append, calls_token, ih, Functor.map_map]
    rfl
  | node real _ _ inside ih =>
    simp only [List.cons_append, List.append_assoc, calls_start real, inside, calls_finish, ih,
      Functor.map_map]
    simp [Tree.callsOf, Tree.mapAll, Tree.calls, Tree.map]
  | @preceded _ _ front inner events _ _ _ firstReal real _ _ _ before inside ih =>
    -- The parent opens first and its own event is struck out, so the events behind the front are
    -- those of the children.
    have opens := calls_preceded firstReal real (front ++ [.finish])
      (inner ++ .finish :: (events ++ behind))
    simp only [List.length_append, List.length_cons, List.length_nil, List.append_assoc,
      List.cons_append, List.nil_append] at opens
    simp only [List.cons_append, List.append_assoc, opens, before, inside, calls_finish,
      calls_tombstone, ih, Functor.map_map]
    simp [Tree.callsOf, Tree.mapAll, Tree.calls, Tree.map]

end ServiceAnnotator.Events
