import ImportAtlas.Dictionary

/-!
# Depth-first walks with low links

A walk enters nodes, numbers them, and reads their successors one after the other. A node that is
met for the first time is entered at once, before the rest of the successors of the node it was met
from; that node waits in a frame. The low link of a node is the least number known to be reached
from it among the nodes on the stack. A node whose low link is still its own number when all its
successors are read closes a component: itself and all nodes above it on the stack.

The walk ends since each step enters a node, reads a successor or leaves a frame
(`Walk.measure_step_lt`).
-/

namespace ImportAtlas

/-- Nodes with their successors. A node that is no key has none. -/
abbrev Adjacency := Dictionary Int (List Int)

namespace Adjacency

/-- The successors of a node. -/
def successors (a : Adjacency) (v : Int) : List Int :=
  (a.get? v).getD []

/-- All nodes: the keys and their successors. -/
def nodes (a : Adjacency) : List Int :=
  a.keys ++ a.values.flatten

/-- A node that is no key has no successors. -/
theorem successors_eq_nil {a : Adjacency} {v : Int} (hv : v ∉ a.keys) : a.successors v = [] := by
  rw [successors, Dictionary.get?_eq_none_iff.2 hv]
  rfl

/-- A node that has a successor is a key. -/
theorem mem_keys_of_mem_successors {a : Adjacency} {u v : Int} (h : v ∈ a.successors u) :
    u ∈ a.keys := by
  refine Classical.byContradiction fun hu => ?_
  rw [successors_eq_nil hu] at h
  exact List.not_mem_nil h

/-- Successors are nodes. -/
theorem successors_subset_nodes (a : Adjacency) (v : Int) : a.successors v ⊆ a.nodes := by
  intro w hw
  unfold successors at hw
  -- A node without an entry has no successors.
  cases h : a.get? v with
  | none => simp [h] at hw
  | some ws =>
    simp only [h, Option.getD_some] at hw
    have hws : ws ∈ a.values := List.mem_map.2 ⟨_, Dictionary.mem_of_get? h, rfl⟩
    exact List.mem_append_right _ (List.mem_flatten.2 ⟨ws, hws, hw⟩)

end Adjacency

/-- A node that a walk has entered and not left, with those of its successors that are not read. -/
structure Frame (a : Adjacency) where
  node : Int
  unread : List Int
  unread_subset : unread ⊆ a.nodes

/-- The frame of a node that is entered. -/
def Frame.ofNode (a : Adjacency) (v : Int) : Frame a :=
  ⟨v, a.successors v, a.successors_subset_nodes v⟩

/-- How far a walk has come. -/
structure Walk (a : Adjacency) where
  /-- How many nodes have been entered. -/
  count : Nat := 0
  /-- The numbers of the nodes that have been entered. -/
  index : Dictionary Int Nat := []
  lowlink : Dictionary Int Nat := []
  /-- The nodes that have been entered and are in no component yet, the latest first. -/
  stack : List Int := []
  /-- The nodes of the stack, for looking them up. -/
  onStack : List Int := []
  /-- The nodes that have been entered and not left, the latest first. -/
  frames : List (Frame a) := []
  /-- The components, each in ascending order, in the order in which they are closed. -/
  components : List (List Int) := []

/-- The part of a stack down to a node, and the part below it. -/
def popTo (v : Int) : List Int → List Int × List Int
  | [] => ([], [])
  | w :: stack =>
    if w = v then ([w], stack)
    else ((w :: (popTo v stack).1), (popTo v stack).2)

namespace Walk

variable {a : Adjacency}

/-- The number of a node. -/
def indexOf (w : Walk a) (v : Int) : Nat :=
  (w.index.get? v).getD 0

/-- The low link of a node. -/
def lowlinkOf (w : Walk a) (v : Int) : Nat :=
  (w.lowlink.get? v).getD 0

/-- Enters a node. -/
def enter (w : Walk a) (v : Int) : Walk a :=
  { w with
    count := w.count + 1
    index := w.index.put v w.count
    lowlink := w.lowlink.put v w.count
    stack := v :: w.stack
    onStack := v :: w.onStack
    frames := Frame.ofNode a v :: w.frames }

/-- Lowers the low link of a node to a number, unless it is lower already. -/
def lower (w : Walk a) (v : Int) (number : Nat) : Walk a :=
  { w with lowlink := w.lowlink.put v (min (w.lowlinkOf v) number) }

/-- Closes the component of a node: the stack down to the node. -/
def close (w : Walk a) (v : Int) : Walk a :=
  let popped := popTo v w.stack
  { w with
    stack := popped.2
    onStack := w.onStack.filter fun x => !popped.1.contains x
    components := w.components ++ [popped.1.mergeSort fun x y => x ≤ y] }

/-- Reads a successor of the node `v`, which has the latest frame. -/
def read (w : Walk a) (v next : Int) : Walk a :=
  if !w.index.has next then w.enter next
  else if w.onStack.contains next then w.lower v (w.indexOf next)
  else w

/-- Goes back from the node `v`, all of whose successors are read, to the latest frame. -/
def leave (w : Walk a) (v : Int) : Walk a :=
  let back := match w.frames with
    | [] => w
    | caller :: _ => w.lower caller.node (w.lowlinkOf v)
  if back.lowlinkOf v = back.indexOf v then back.close v else back

/-- One step from the latest frame; `frames` are those below it. -/
def step (w : Walk a) (frame : Frame a) (frames : List (Frame a)) : Walk a :=
  match frame with
  | ⟨v, next :: unread, h⟩ =>
    { w with frames := ⟨v, unread, fun _ hx => h (.tail _ hx)⟩ :: frames }.read v next
  | ⟨v, [], _⟩ => { w with frames }.leave v

/-! ## Termination -/

/-- The nodes that have not been entered. -/
def fresh (w : Walk a) : List Int :=
  a.nodes.filter fun v => !w.index.has v

/-- How many successors are not read and how many frames are not left. -/
def pending (w : Walk a) : Nat :=
  w.frames.foldr (fun frame left => frame.unread.length + 1 + left) 0

/-- A node that is entered is not fresh any more, and all others are as they were. -/
theorem fresh_enter (w : Walk a) (v : Int) :
    (w.enter v).fresh = w.fresh.filter fun x => x != v := by
  simp only [fresh, List.filter_filter]
  congr 1
  funext x
  rw [Bool.eq_iff_iff]
  simp only [Bool.and_eq_true, Bool.not_eq_true', ← Bool.not_eq_true, Dictionary.has_iff, enter,
    Dictionary.mem_keys_put, bne_iff_ne, ne_eq, not_or]

/-- Entering a node leaves fewer that have not been entered. -/
theorem length_fresh_enter_lt (w : Walk a) {v : Int} (hv : v ∈ a.nodes)
    (h : w.index.has v = false) : (w.enter v).fresh.length < w.fresh.length := by
  rw [fresh_enter]
  refine List.length_filter_lt_length_iff_exists.2 ⟨v, ?_, by simp⟩
  exact List.mem_filter.2 ⟨hv, by simp [h]⟩

@[simp] theorem fresh_lower (w : Walk a) (v : Int) (n : Nat) : (w.lower v n).fresh = w.fresh := rfl

@[simp] theorem pending_lower (w : Walk a) (v : Int) (n : Nat) :
    (w.lower v n).pending = w.pending := rfl

@[simp] theorem fresh_leave (w : Walk a) (v : Int) : (w.leave v).fresh = w.fresh := by
  unfold leave
  cases w.frames <;> dsimp only <;> split <;> rfl

@[simp] theorem pending_leave (w : Walk a) (v : Int) : (w.leave v).pending = w.pending := by
  unfold leave
  cases w.frames <;> dsimp only <;> split <;> rfl

/-- What is left of a walk: nodes to enter, and for the same nodes successors and frames. -/
def measure (w : Walk a) : Nat × Nat :=
  (w.fresh.length, w.pending)

/-- Each step enters a node, or has less left to read. -/
theorem measure_step_lt (w : Walk a) {frame : Frame a} {frames : List (Frame a)}
    (h : w.frames = frame :: frames) :
    Prod.Lex (· < ·) (· < ·) (w.step frame frames).measure w.measure := by
  obtain ⟨v, unread, hsub⟩ := frame
  cases unread with
  | nil =>
    simp only [step, measure, fresh_leave, pending_leave]
    refine Prod.Lex.right _ ?_
    simp [pending, h]
  | cons next unread =>
    by_cases hnew : w.index.has next
    · -- Nothing is entered, and one successor fewer is to be read.
      have hstep : (w.step ⟨v, next :: unread, hsub⟩ frames).measure =
          (w.fresh.length,
            unread.length + 1 + frames.foldr (fun f left => f.unread.length + 1 + left) 0) := by
        simp only [step, read, hnew, Bool.not_true, Bool.false_eq_true, ↓reduceIte, measure]
        split <;> rfl
      rw [hstep]
      refine Prod.Lex.right _ ?_
      simp [pending, h]
    · simp only [step, read, hnew, Bool.not_false, ↓reduceIte]
      exact Prod.Lex.left _ _ (length_fresh_enter_lt { w with frames := _ }
        (hsub List.mem_cons_self) (Bool.eq_false_iff.2 hnew))

/-- Goes on until all frames are left. -/
def run (w : Walk a) : Walk a :=
  match _ : w.frames with
  | [] => w
  | frame :: frames => run (w.step frame frames)
termination_by w.measure
decreasing_by exact measure_step_lt w ‹_›

/-- Goes from a node as far as it has not been gone, if the node has not been entered. -/
def visit (w : Walk a) (root : Int) : Walk a :=
  if w.index.has root then w else (w.enter root).run

end Walk

end ImportAtlas
