import Bindery.Syntax.Node

set_option autoImplicit false

/-! Things that nodes leave behind for a node around them. In a tree where everything that is left
behind stands within a node that takes it, and no such node within another, a node that takes finds
what the nodes below it have left, and nothing else. -/

namespace Bindery.Syntax

/-- The nodes below a node, in the order of reading. -/
def Node.below (node : Node) : List Node :=
  Forest.postorderFrom node.start (some node.kind) node.children

/-- The kinds of nodes that leave a certain thing behind, and of those that take it. -/
structure Slot where
  leaves : Kind → Bool
  takes : Kind → Bool

namespace Slot

/-- Whether a node may stand within a node that takes, or outside of all of them. -/
def admits (slot : Slot) (inside : Bool) (kind : Kind) : Bool :=
  if slot.takes kind then !inside else inside || !slot.leaves kind

end Slot

mutual

def Tree.sheltered (slot : Slot) (inside : Bool) : Tree → Bool
  | .token _ _ => true
  | .node kind children =>
      slot.admits inside kind && Forest.sheltered slot (inside || slot.takes kind) children

def Forest.sheltered (slot : Slot) (inside : Bool) : Forest → Bool
  | [] => true
  | tree :: rest => tree.sheltered slot inside && Forest.sheltered slot inside rest

end

theorem sheltered_append (slot : Slot) (inside : Bool) (left right : Forest) :
    Forest.sheltered slot inside (left ++ right) =
      (Forest.sheltered slot inside left && Forest.sheltered slot inside right) := by
  induction left with
  | nil => exact (Bool.true_and _).symm
  | cons tree rest ih =>
      rw [List.cons_append, Forest.sheltered, Forest.sheltered, ih, Bool.and_assoc]

namespace Slot

variable {α : Type} {slot : Slot}

/-- A step over nodes works on such things: a node that takes them takes all, and where there are
none, only a node that leaves one makes a difference. -/
structure Governs (slot : Slot) (step : List α → Node → List α) : Prop where
  taken : ∀ items node, slot.takes node.kind = true → step items node = []
  kept : ∀ node, slot.leaves node.kind = false → step [] node = []

/-- The nodes behind the last that takes. -/
def since (slot : Slot) (nodes : List Node) : List Node :=
  nodes.foldl (fun kept node => if slot.takes node.kind then [] else kept ++ [node]) []

/-- What there is was left by the nodes behind the last that takes, wherever these stand. -/
theorem Governs.foldl_since {step : List α → Node → List α} (governs : slot.Governs step)
    (nodes : List Node) : nodes.foldl step [] = (slot.since nodes).foldl step [] := by
  -- The nodes kept so far are generalised, as the step runs on from what they leave.
  suffices run : ∀ kept : List Node, nodes.foldl step (kept.foldl step []) =
      (nodes.foldl (fun kept node => if slot.takes node.kind then [] else kept ++ [node])
        kept).foldl step [] from run []
  induction nodes with
  | nil => exact fun kept => rfl
  | cons node rest ih =>
      intro kept
      rw [List.foldl_cons, List.foldl_cons, ← ih]
      cases takes : slot.takes node.kind with
      | true =>
          rw [governs.taken _ _ takes, if_pos rfl]
          rfl
      | false => rw [if_neg Bool.false_ne_true, List.foldl_append, List.foldl_cons, List.foldl_nil]

theorem takes_since (slot : Slot) (nodes : List Node) :
    ∀ node ∈ slot.since nodes, slot.takes node.kind = false := by
  suffices run : ∀ kept : List Node, (∀ node ∈ kept, slot.takes node.kind = false) →
      ∀ node ∈ nodes.foldl (fun kept node => if slot.takes node.kind then [] else kept ++ [node])
        kept, slot.takes node.kind = false from run [] (List.forall_mem_nil _)
  induction nodes with
  | nil => exact fun kept idle => idle
  | cons node rest ih =>
      intro kept idle
      rw [List.foldl_cons]
      apply ih
      cases takes : slot.takes node.kind with
      | true =>
          rw [if_pos rfl]
          exact List.forall_mem_nil _
      | false =>
          rw [if_neg Bool.false_ne_true, List.forall_mem_append]
          exact ⟨idle, List.forall_mem_singleton.mpr takes⟩

/-- What every node finds. -/
def stops (step : List α → Node → List α) : List α → List Node → List (List α × Node)
  | _, [] => []
  | items, node :: rest => (items, node) :: stops step (step items node) rest

theorem stops_append (step : List α → Node → List α) (items : List α) (before after : List Node) :
    stops step items (before ++ after) =
      stops step items before ++ stops step (before.foldl step items) after := by
  induction before generalizing items with
  | nil => rfl
  | cons node rest ih => exact congrArg ((items, node) :: ·) (ih (step items node))

theorem mem_of_mem_stops {step : List α → Node → List α} {items : List α} {nodes : List Node}
    {stop : List α × Node} (member : stop ∈ stops step items nodes) : stop.2 ∈ nodes := by
  induction nodes generalizing items with
  | nil => cases member
  | cons node rest ih =>
      rcases List.mem_cons.mp member with first | later
      · rw [first]
        exact List.mem_cons_self
      · exact List.mem_cons_of_mem _ (ih later)

/-- A node that takes finds what the nodes below it leave, and none of these takes anything. -/
def Own (slot : Slot) (step : List α → Node → List α) (stop : List α × Node) : Prop :=
  slot.takes stop.2.kind = true →
    stop.1 = stop.2.below.foldl step [] ∧ ∀ inner ∈ stop.2.below, slot.takes inner.kind = false

theorem own_of_not_takes {step : List α → Node → List α} {stop : List α × Node}
    (idle : slot.takes stop.2.kind = false) : slot.Own step stop := by
  intro takes
  rw [idle] at takes
  cases takes

end Slot

variable {α : Type} {slot : Slot} {step : List α → Node → List α}

/-! ### Within a node that takes -/

mutual

theorem Tree.takes_inside (start : Nat) (parent : Option Kind) : (tree : Tree) →
    tree.sheltered slot true = true →
      ∀ node ∈ tree.postorderFrom start parent, slot.takes node.kind = false
  | .token .., _, node, member => by cases member
  | .node kind children, sheltered, node, member => by
      rw [Tree.sheltered, Bool.and_eq_true, Bool.true_or] at sheltered
      rcases List.mem_append.mp member with inner | itself
      · exact Forest.takes_inside start (some kind) children sheltered.2 node inner
      · rw [List.mem_singleton.mp itself]
        have admitted := sheltered.1
        unfold Slot.admits at admitted
        cases takes : slot.takes kind with
        | false => rfl
        | true =>
            rw [takes] at admitted
            cases admitted

theorem Forest.takes_inside (start : Nat) (parent : Option Kind) : (forest : Forest) →
    Forest.sheltered slot true forest = true →
      ∀ node ∈ Forest.postorderFrom start parent forest, slot.takes node.kind = false
  | [], _, node, member => by cases member
  | tree :: rest, sheltered, node, member => by
      rw [Forest.sheltered, Bool.and_eq_true] at sheltered
      rcases List.mem_append.mp member with first | later
      · exact tree.takes_inside start parent sheltered.1 node first
      · exact Forest.takes_inside _ parent rest sheltered.2 node later

end

/-! ### Outside of the nodes that take -/

mutual

/-- What is left within a sheltered tree is taken within it. -/
theorem Tree.nothing_left (governs : slot.Governs step) (start : Nat) (parent : Option Kind) :
    (tree : Tree) → tree.sheltered slot false = true →
      (tree.postorderFrom start parent).foldl step [] = []
  | .token .., _ => rfl
  | .node kind children, sheltered => by
      rw [Tree.sheltered, Bool.and_eq_true, Bool.false_or] at sheltered
      rw [Tree.postorderFrom, List.foldl_append, List.foldl_cons, List.foldl_nil]
      cases takes : slot.takes kind with
      | true => exact governs.taken _ _ takes
      | false =>
          have admitted := sheltered.1
          rw [Slot.admits, takes, if_neg Bool.false_ne_true, Bool.false_or, Bool.not_eq_true']
            at admitted
          rw [Forest.nothing_left governs start (some kind) children (takes ▸ sheltered.2)]
          exact governs.kept _ admitted

theorem Forest.nothing_left (governs : slot.Governs step) (start : Nat) (parent : Option Kind) :
    (forest : Forest) → Forest.sheltered slot false forest = true →
      (Forest.postorderFrom start parent forest).foldl step [] = []
  | [], _ => rfl
  | tree :: rest, sheltered => by
      rw [Forest.sheltered, Bool.and_eq_true] at sheltered
      rw [Forest.postorderFrom, List.foldl_append,
        tree.nothing_left governs start parent sheltered.1]
      exact Forest.nothing_left governs _ parent rest sheltered.2

end

mutual

theorem Tree.own_stops (governs : slot.Governs step) (start : Nat) (parent : Option Kind) :
    (tree : Tree) → tree.sheltered slot false = true →
      ∀ stop ∈ Slot.stops step [] (tree.postorderFrom start parent), slot.Own step stop
  | .token .., _, stop, member => by cases member
  | .node kind children, sheltered, stop, member => by
      rw [Tree.sheltered, Bool.and_eq_true, Bool.false_or] at sheltered
      rw [Tree.postorderFrom, Slot.stops_append] at member
      rcases List.mem_append.mp member with inner | itself
      · cases takes : slot.takes kind with
        | false =>
            exact Forest.own_stops governs start (some kind) children (takes ▸ sheltered.2) stop
              inner
        | true =>
            -- No node below this one takes anything.
            have idle := Forest.takes_inside start (some kind) children (takes ▸ sheltered.2)
            exact Slot.own_of_not_takes (idle _ (Slot.mem_of_mem_stops inner))
      · rw [List.mem_singleton.mp itself]
        intro takes
        exact ⟨rfl, Forest.takes_inside start (some kind) children (takes ▸ sheltered.2)⟩

theorem Forest.own_stops (governs : slot.Governs step) (start : Nat) (parent : Option Kind) :
    (forest : Forest) → Forest.sheltered slot false forest = true →
      ∀ stop ∈ Slot.stops step [] (Forest.postorderFrom start parent forest), slot.Own step stop
  | [], _, stop, member => by cases member
  | tree :: rest, sheltered, stop, member => by
      rw [Forest.sheltered, Bool.and_eq_true] at sheltered
      rw [Forest.postorderFrom, Slot.stops_append,
        tree.nothing_left governs start parent sheltered.1] at member
      rcases List.mem_append.mp member with first | later
      · exact tree.own_stops governs start parent sheltered.1 stop first
      · exact Forest.own_stops governs _ parent rest sheltered.2 stop later

end

end Bindery.Syntax
