import ImportAtlas.Graph.Walk
import Mathlib.Data.List.Nodup
import Mathlib.Logic.Relation

/-!
# What a depth-first walk knows

The stack of a walk falls into layers, one for each frame: the node of the frame, and above it the
nodes that were entered from it and belong to its component. The low link of the node of a frame
bounds from below the numbers of all that is known to be reached from its layer (`Walk.Layer`).
Each step keeps the layers and what is known of the closed components (`Walk.Sound.step`).

## Key results

- `Walk.Layered.reaches`: all below a frame on the stack reaches its node
- `Walk.Lawful.close`: what is popped is one strongly connected component
- `Walk.Sound.step`: a step keeps the invariant
-/

namespace ImportAtlas

namespace Adjacency

variable {a : Adjacency} {v u x : Int}

/-- A node reaches another along successors; each node reaches itself. -/
def Reaches (a : Adjacency) : Int → Int → Prop :=
  Relation.ReflTransGen fun v u => u ∈ a.successors v

/-- Two nodes reach each other. -/
def Mutual (a : Adjacency) (v u : Int) : Prop :=
  a.Reaches v u ∧ a.Reaches u v

theorem Reaches.refl (v : Int) : a.Reaches v v :=
  Relation.ReflTransGen.refl

theorem Reaches.trans (h : a.Reaches v u) (h' : a.Reaches u x) : a.Reaches v x :=
  Relation.ReflTransGen.trans h h'

theorem Reaches.of_mem (h : u ∈ a.successors v) : a.Reaches v u :=
  Relation.ReflTransGen.single h

/-- What is reached from a set that contains its successors is in the set. -/
theorem Reaches.mem_of_closed {s : Int → Prop} (hs : ∀ v, s v → ∀ u ∈ a.successors v, s u)
    (h : a.Reaches v u) (hv : s v) : s u := by
  induction h with
  | refl => exact hv
  | tail _ harc ih => exact hs _ ih _ harc

theorem Mutual.refl (v : Int) : a.Mutual v v :=
  ⟨.refl v, .refl v⟩

theorem Mutual.symm (h : a.Mutual v u) : a.Mutual u v :=
  ⟨h.2, h.1⟩

theorem Mutual.trans (h : a.Mutual v u) (h' : a.Mutual u x) : a.Mutual v x :=
  ⟨h.1.trans h'.1, h'.2.trans h.2⟩

/-- A list is a strongly connected component: the class of each of its nodes. -/
structure IsComponent (a : Adjacency) (c : List Int) : Prop where
  ne_nil : c ≠ []
  mem_iff : ∀ v ∈ c, ∀ u, u ∈ c ↔ a.Mutual v u

end Adjacency

/-- A stack that holds a node once is popped down to it. -/
theorem popTo_append {v : Int} {above : List Int} (below : List Int) (h : v ∉ above) :
    popTo v (above ++ v :: below) = (above ++ [v], below) := by
  induction above with
  | nil => simp [popTo]
  | cons x above ih =>
    -- The top of the stack is another node, so it is popped and the search goes on.
    obtain ⟨hx, habove⟩ := not_or.1 (mt List.mem_cons.2 h)
    simp only [List.cons_append, popTo, if_neg (Ne.symm hx), ih habove]

namespace Walk

variable {a : Adjacency} {w w' : Walk a} {v u x : Int}

/-- The nodes of the components that are closed. -/
def closed (w : Walk a) : List Int :=
  w.components.flatten

/-! ## Numbers and low links after a step -/

/-- Entering a node adds its key to those that are there. -/
theorem mem_keys_enter : x ∈ (w.enter v).index.keys ↔ x = v ∨ x ∈ w.index.keys :=
  Dictionary.mem_keys_put

@[simp] theorem indexOf_enter_self (w : Walk a) (v : Int) : (w.enter v).indexOf v = w.count := by
  simp [indexOf, enter]

/-- The indices of other nodes are kept when one is entered. -/
theorem indexOf_enter_of_ne (h : v ≠ x) : (w.enter v).indexOf x = w.indexOf x := by
  simp [indexOf, enter, Dictionary.get?_put_of_ne _ _ h]

@[simp] theorem lowlinkOf_enter_self (w : Walk a) (v : Int) :
    (w.enter v).lowlinkOf v = w.count := by
  simp [lowlinkOf, enter]

/-- So are their low links. -/
theorem lowlinkOf_enter_of_ne (h : v ≠ x) : (w.enter v).lowlinkOf x = w.lowlinkOf x := by
  simp [lowlinkOf, enter, Dictionary.get?_put_of_ne _ _ h]

@[simp] theorem lowlinkOf_lower_self (w : Walk a) (v : Int) (n : Nat) :
    (w.lower v n).lowlinkOf v = min (w.lowlinkOf v) n := by
  simp [lowlinkOf, lower]

/-- Lowering the low link of one node keeps those of the others. -/
theorem lowlinkOf_lower_of_ne (n : Nat) (h : v ≠ x) :
    (w.lower v n).lowlinkOf x = w.lowlinkOf x := by
  simp [lowlinkOf, lower, Dictionary.get?_put_of_ne _ _ h]

@[simp] theorem lowlinkOf_close (w : Walk a) (v x : Int) :
    (w.close v).lowlinkOf x = w.lowlinkOf x := rfl

/-- The first node of a search has no caller to pass its low link on to. -/
theorem leave_nil (w : Walk a) (v : Int) :
    ({ w with frames := [] } : Walk a).leave v =
      if w.lowlinkOf v = w.indexOf v then ({ w with frames := [] } : Walk a).close v
      else { w with frames := [] } := rfl

/-- Any other node passes its low link on to its caller, and closes its component if it is the first
of one. -/
theorem leave_cons {c : Frame a} (frames : List (Frame a)) (hne : c.node ≠ v) :
    { w with frames := c :: frames }.leave v =
      if w.lowlinkOf v = w.indexOf v then
        ({ w with frames := c :: frames }.lower c.node (w.lowlinkOf v)).close v
      else { w with frames := c :: frames }.lower c.node (w.lowlinkOf v) := by
  -- Lowering the link of the caller leaves that of `v`, which decides what is done.
  have hlow : ({ w with frames := c :: frames }.lower c.node (w.lowlinkOf v)).lowlinkOf v =
      w.lowlinkOf v := lowlinkOf_lower_of_ne _ hne
  exact if_congr (iff_of_eq (congrArg (· = w.indexOf v) hlow)) rfl rfl

/-! ## Entered and closed nodes -/

/-- What holds of the entered nodes whatever the frames are: they are on the stack, in descending
order of their numbers, or closed; and the closed ones form components, none of which reaches a
later one. -/
structure Lawful (w : Walk a) : Prop where
  /-- What has been entered is on the stack or in a component. -/
  mem_keys_iff : ∀ x, x ∈ w.index.keys ↔ x ∈ w.stack ∨ x ∈ w.closed
  not_mem_closed : ∀ x ∈ w.stack, x ∉ w.closed
  mem_onStack_iff : ∀ x, x ∈ w.onStack ↔ x ∈ w.stack
  indexOf_lt : ∀ x ∈ w.index.keys, w.indexOf x < w.count
  /-- The latest stand first. -/
  descending : w.stack.Pairwise fun x y => w.indexOf y < w.indexOf x
  reached : ∀ x ∈ w.index.keys, ∃ k ∈ a.keys, a.Reaches k x
  /-- Nothing leads out of the components that are closed. -/
  successors_closed : ∀ x ∈ w.closed, ∀ y ∈ a.successors x, y ∈ w.closed
  component : ∀ c ∈ w.components, a.IsComponent c
  nodup_closed : w.closed.Nodup
  /-- An earlier component does not lead to a later one. -/
  order : w.components.Pairwise fun c d => ∀ x ∈ c, ∀ y ∈ d, ¬ a.Reaches x y

/-- A walk that has not begun. -/
theorem lawful_start : ({} : Walk a).Lawful := by
  constructor <;> simp [closed, Dictionary.keys]

namespace Lawful

variable {above below : List Int}

/-- No node is on the stack twice, since each has an index of its own. -/
theorem nodup_stack (hw : w.Lawful) : w.stack.Nodup :=
  hw.descending.imp fun h heq => by simp [heq] at h

/-- Where a node stands on the stack is seen from its number. -/
theorem indexOf_of_stack_eq (hw : w.Lawful) (hstack : w.stack = above ++ v :: below) :
    (∀ x ∈ above, w.indexOf v < w.indexOf x) ∧ ∀ x ∈ below, w.indexOf x < w.indexOf v := by
  have h := hw.descending
  rw [hstack, List.pairwise_append, List.pairwise_cons] at h
  obtain ⟨-, ⟨hbelow, -⟩, habove⟩ := h
  exact ⟨fun x hx => habove x hx v List.mem_cons_self, hbelow⟩

/-- What is on the stack with no smaller number than a node is popped with it. -/
theorem mem_of_indexOf_le (hw : w.Lawful) (hstack : w.stack = above ++ v :: below)
    (hx : x ∈ w.stack) (hle : w.indexOf v ≤ w.indexOf x) : x ∈ above ++ [v] := by
  rw [hstack, List.mem_append, List.mem_cons] at hx
  rcases hx with habove | rfl | hbelow
  · exact List.mem_append_left _ habove
  · simp
  · exact absurd hle (Nat.not_le.2 ((hw.indexOf_of_stack_eq hstack).2 x hbelow))

/-- Entering a node that is new and reached from a key. -/
theorem enter (hw : w.Lawful) (hv : v ∉ w.index.keys) (hreached : ∃ k ∈ a.keys, a.Reaches k v) :
    (w.enter v).Lawful := by
  have hne (x) (hx : x ∈ w.index.keys) : v ≠ x := fun h => hv (h ▸ hx)
  have hstack (x) (hx : x ∈ w.stack) : x ∈ w.index.keys := (hw.mem_keys_iff x).2 (.inl hx)
  constructor
  case mem_keys_iff =>
    intro x
    rw [mem_keys_enter, hw.mem_keys_iff x, ← or_assoc]
    exact or_congr_left List.mem_cons.symm
  case not_mem_closed =>
    intro x hx
    rcases List.mem_cons.1 hx with rfl | hx
    · exact fun hclosed => hv ((hw.mem_keys_iff x).2 (.inr hclosed))
    · exact hw.not_mem_closed x hx
  case mem_onStack_iff =>
    intro x
    exact (List.mem_cons.trans (or_congr_right (hw.mem_onStack_iff x))).trans List.mem_cons.symm
  case indexOf_lt =>
    intro x hx
    rcases mem_keys_enter.1 hx with rfl | hx
    · rw [indexOf_enter_self]
      exact Nat.lt_succ_self _
    · rw [indexOf_enter_of_ne (hne x hx)]
      exact Nat.lt_succ_of_lt (hw.indexOf_lt x hx)
  case descending =>
    refine List.pairwise_cons.2 ⟨?_, ?_⟩
    · -- The new number is above all that were given.
      intro x hx
      rw [indexOf_enter_self, indexOf_enter_of_ne (hne x (hstack x hx))]
      exact hw.indexOf_lt x (hstack x hx)
    · -- The nodes below keep their numbers.
      refine hw.descending.imp_of_mem fun {x y} hx hy h => ?_
      rwa [indexOf_enter_of_ne (hne x (hstack x hx)), indexOf_enter_of_ne (hne y (hstack y hy))]
  case reached =>
    intro x hx
    rcases mem_keys_enter.1 hx with rfl | hx
    · exact hreached
    · exact hw.reached x hx
  case successors_closed => exact hw.successors_closed
  case component => exact hw.component
  case nodup_closed => exact hw.nodup_closed
  case order => exact hw.order

/-- What is reached from a closed node is closed. -/
theorem closed_of_reaches (hw : w.Lawful) (h : a.Reaches v u) (hv : v ∈ w.closed) :
    u ∈ w.closed :=
  h.mem_of_closed hw.successors_closed hv

/-- Nodes on top of the stack that lead nowhere else but to closed nodes, and that the lowest of
them is mutual with, are a component. -/
theorem isComponent (hw : w.Lawful) (hstack : w.stack = above ++ v :: below)
    (hmutual : ∀ x ∈ above, a.Mutual v x)
    (hinside : ∀ x ∈ above ++ [v], ∀ y ∈ a.successors x, y ∈ w.closed ∨ y ∈ above ++ [v]) :
    a.IsComponent (above ++ [v]) := by
  have hclass (x) (hx : x ∈ above ++ [v]) : a.Mutual v x := by
    rcases List.mem_append.1 hx with hx | hx
    · exact hmutual x hx
    · rw [List.mem_singleton.1 hx]
      exact .refl v
  refine ⟨by simp, fun x hx y => ⟨fun hy => (hclass x hx).symm.trans (hclass y hy), ?_⟩⟩
  rintro ⟨hxy, hyx⟩
  -- The closed nodes and the popped ones together contain their successors.
  have hy : y ∈ w.closed ∨ y ∈ above ++ [v] := by
    refine hxy.mem_of_closed (s := fun y => y ∈ w.closed ∨ y ∈ above ++ [v]) ?_ (Or.inr hx)
    rintro z (hz | hz) z' hz'
    · exact .inl (hw.successors_closed z hz z' hz')
    · exact hinside z hz z' hz'
  -- A closed node would lead back to a closed one, but `x` is on the stack.
  refine hy.resolve_left fun hclosed => hw.not_mem_closed x ?_ (hw.closed_of_reaches hyx hclosed)
  rw [hstack, List.append_cons]
  exact List.mem_append_left _ hx

/-- The nodes from the top of the stack down to a node are popped. -/
theorem popTo_stack (hw : w.Lawful) (hstack : w.stack = above ++ v :: below) :
    popTo v w.stack = (above ++ [v], below) := by
  have hnodup := hw.nodup_stack
  rw [hstack] at hnodup ⊢
  exact popTo_append below fun h => List.disjoint_of_nodup_append hnodup h List.mem_cons_self

/-- A closed component goes off the stack. -/
theorem stack_close (hw : w.Lawful) (hstack : w.stack = above ++ v :: below) :
    (w.close v).stack = below := by
  simp only [Walk.close, hw.popTo_stack hstack]

/-- Its nodes are not marked as being on the stack any more. -/
theorem onStack_close (hw : w.Lawful) (hstack : w.stack = above ++ v :: below) :
    (w.close v).onStack = w.onStack.filter fun x => !(above ++ [v]).contains x := by
  simp only [Walk.close, hw.popTo_stack hstack]

/-- It is added to the components, in order. -/
theorem components_close (hw : w.Lawful) (hstack : w.stack = above ++ v :: below) :
    (w.close v).components = w.components ++ [(above ++ [v]).mergeSort fun x y => x ≤ y] := by
  simp only [Walk.close, hw.popTo_stack hstack]

/-- What is popped is closed with what was closed before. -/
theorem mem_closed_close (hw : w.Lawful) (hstack : w.stack = above ++ v :: below) :
    x ∈ (w.close v).closed ↔ x ∈ w.closed ∨ x ∈ above ++ [v] := by
  rw [closed, hw.components_close hstack, List.flatten_append, List.mem_append,
    List.flatten_singleton, List.mem_mergeSort]
  rfl

/-- The popped nodes in ascending order are a component if they are one as they were popped. -/
theorem isComponent_mergeSort {c : List Int} (hc : a.IsComponent c) :
    a.IsComponent (c.mergeSort fun x y => x ≤ y) where
  ne_nil h := hc.ne_nil (by simpa using congrArg List.length h)
  mem_iff x hx y := by
    rw [List.mem_mergeSort] at hx ⊢
    exact hc.mem_iff x hx y

/-- What is popped was on the stack. -/
theorem mem_stack_of_mem_popped (hstack : w.stack = above ++ v :: below) (hx : x ∈ above ++ [v]) :
    x ∈ w.stack := by
  rw [hstack, List.append_cons]
  exact List.mem_append_left _ hx

/-- No node is closed twice. -/
theorem nodup_closed_close (hw : w.Lawful) (hstack : w.stack = above ++ v :: below) :
    (w.close v).closed.Nodup := by
  have hpopped : (above ++ [v]).Nodup := by
    have hnodup := hw.nodup_stack
    rw [hstack, List.append_cons] at hnodup
    exact hnodup.of_append_left
  rw [closed, hw.components_close hstack, List.flatten_append, List.flatten_singleton,
    List.nodup_append]
  -- What is popped was on the stack, where nothing that is closed stands.
  refine ⟨hw.nodup_closed, (List.mergeSort_perm _ _).nodup_iff.2 hpopped, ?_⟩
  rintro x hx y hy rfl
  exact hw.not_mem_closed x (mem_stack_of_mem_popped hstack (List.mem_mergeSort.1 hy)) hx

/-- What was closed before reaches closed nodes only, and the popped ones were not closed. -/
theorem order_close (hw : w.Lawful) (hstack : w.stack = above ++ v :: below) :
    (w.close v).components.Pairwise fun c d => ∀ x ∈ c, ∀ y ∈ d, ¬ a.Reaches x y := by
  rw [hw.components_close hstack, List.pairwise_append]
  refine ⟨hw.order, List.pairwise_singleton _ _, fun c hc d hd x hx y hy hxy => ?_⟩
  rw [List.mem_singleton.1 hd, List.mem_mergeSort] at hy
  have hxclosed : x ∈ w.closed := List.mem_flatten.2 ⟨c, hc, hx⟩
  exact hw.not_mem_closed y (mem_stack_of_mem_popped hstack hy)
    (hw.closed_of_reaches hxy hxclosed)

/-- Closing a component. -/
theorem close (hw : w.Lawful) (hstack : w.stack = above ++ v :: below)
    (hmutual : ∀ x ∈ above, a.Mutual v x)
    (hinside : ∀ x ∈ above ++ [v], ∀ y ∈ a.successors x, y ∈ w.closed ∨ y ∈ above ++ [v]) :
    (w.close v).Lawful := by
  have hsplit : w.stack = (above ++ [v]) ++ below := by rw [hstack, List.append_cons]
  have hnodup := hw.nodup_stack
  rw [hsplit, List.nodup_append] at hnodup
  obtain ⟨-, -, hdisjoint⟩ := hnodup
  have hbelowStack (x) (hx : x ∈ below) : x ∈ w.stack := hsplit ▸ List.mem_append_right _ hx
  constructor
  case mem_keys_iff =>
    -- What leaves the stack is closed.
    intro x
    rw [hw.stack_close hstack, hw.mem_closed_close hstack, ← or_assoc, or_right_comm,
      or_comm (a := x ∈ below), ← List.mem_append, ← hsplit]
    exact hw.mem_keys_iff x
  case not_mem_closed =>
    intro x hx
    rw [hw.stack_close hstack] at hx
    rw [hw.mem_closed_close hstack]
    exact not_or.2 ⟨hw.not_mem_closed x (hbelowStack x hx), fun h => hdisjoint x h x hx rfl⟩
  case mem_onStack_iff =>
    intro x
    rw [hw.onStack_close hstack, hw.stack_close hstack, List.mem_filter, hw.mem_onStack_iff, hsplit,
      List.mem_append]
    have hnot : x ∈ below → x ∉ above ++ [v] := fun hx h => hdisjoint x h x hx rfl
    simp only [Bool.not_eq_true', List.contains_eq_mem, decide_eq_false_iff_not]
    tauto
  case indexOf_lt => exact hw.indexOf_lt
  case descending =>
    rw [hw.stack_close hstack]
    exact ((List.pairwise_append.1 (hsplit ▸ hw.descending)).2).1
  case reached => exact hw.reached
  case successors_closed =>
    intro x hx y hy
    rw [hw.mem_closed_close hstack] at hx ⊢
    rcases hx with hx | hx
    · exact .inl (hw.successors_closed x hx y hy)
    · exact hinside x hx y hy
  case component =>
    intro c hc
    rw [hw.components_close hstack, List.mem_append, List.mem_singleton] at hc
    -- The new component is what was popped, in ascending order.
    rcases hc with hc | rfl
    · exact hw.component c hc
    · exact isComponent_mergeSort (hw.isComponent hstack hmutual hinside)
  case nodup_closed => exact hw.nodup_closed_close hstack
  case order => exact hw.order_close hstack

end Lawful

/-! ## Layers of the stack -/

/-- A walk that has come further: it knows at least as much. -/
structure Extends (w w' : Walk a) : Prop where
  keys : w.index.keys ⊆ w'.index.keys
  indexOf_eq : ∀ x ∈ w.index.keys, w'.indexOf x = w.indexOf x
  closed : w.closed ⊆ w'.closed

/-- A node is closed, or has been entered and has a number that is not below `low`. -/
def Settled (w : Walk a) (low : Nat) (x : Int) : Prop :=
  x ∈ w.closed ∨ (x ∈ w.index.keys ∧ low ≤ w.indexOf x)

/-- What is settled stays settled in an extension, also for a smaller low link. -/
theorem Settled.mono {low low' : Nat} (h : w.Settled low x) (hw : w.Extends w')
    (hlow : low' ≤ low) : w'.Settled low' x := by
  rcases h with h | ⟨hx, hle⟩
  · exact .inl (hw.closed h)
  · refine .inr ⟨hw.keys hx, ?_⟩
    rw [hw.indexOf_eq x hx]
    exact Nat.le_trans hlow hle

/-- A layer of the stack: the node of a frame, with the nodes above it up to the next frame; `below`
is the rest of the stack. -/
structure Layer (w : Walk a) (f : Frame a) (above below : List Int) : Prop where
  unread_subset : f.unread ⊆ a.successors f.node
  mutual_above : ∀ x ∈ above, a.Mutual f.node x
  low_le : w.lowlinkOf f.node ≤ w.indexOf f.node
  low_reached : ∃ u ∈ f.node :: below,
    w.indexOf u = w.lowlinkOf f.node ∧ a.Reaches f.node u
  settled_above : ∀ x ∈ above, ∀ y ∈ a.successors x, w.Settled (w.lowlinkOf f.node) y
  settled_read : ∀ y ∈ a.successors f.node, y ∈ f.unread ∨ w.Settled (w.lowlinkOf f.node) y

namespace Layer

variable {f : Frame a} {above below : List Int}

/-- Reading a successor, or none, while the walk comes further. A low link that is lowered is
lowered to the number of a node that is reached. -/
theorem update (h : w.Layer f above below) (hw : w.Extends w')
    (hkeys : ∀ x ∈ f.node :: below, x ∈ w.index.keys) {f' : Frame a} (hnode : f'.node = f.node)
    (hunread : f'.unread ⊆ f.unread) (hle : w'.lowlinkOf f.node ≤ w.lowlinkOf f.node)
    (hlow : w'.lowlinkOf f.node = w.lowlinkOf f.node ∨
      ∃ u ∈ f.node :: below, w'.indexOf u = w'.lowlinkOf f.node ∧ a.Reaches f.node u)
    (hread : ∀ y ∈ f.unread, y ∈ f'.unread ∨ w'.Settled (w'.lowlinkOf f.node) y) :
    w'.Layer f' above below := by
  have hnodeKeys : f.node ∈ w.index.keys := hkeys _ List.mem_cons_self
  constructor <;> rw [hnode]
  case unread_subset => exact fun y hy => h.unread_subset (hunread hy)
  case mutual_above => exact h.mutual_above
  case low_le =>
    rw [hw.indexOf_eq _ hnodeKeys]
    exact Nat.le_trans hle h.low_le
  case low_reached =>
    -- An unchanged low link keeps the node that it is the number of.
    rcases hlow with hlow | hlow
    · obtain ⟨u, hu, hindex, hreaches⟩ := h.low_reached
      exact ⟨u, hu, by rw [hw.indexOf_eq u (hkeys u hu), hindex, hlow], hreaches⟩
    · exact hlow
  case settled_above => exact fun x hx y hy => (h.settled_above x hx y hy).mono hw hle
  case settled_read =>
    intro y hy
    rcases h.settled_read y hy with hy | hy
    · exact hread y hy
    · exact .inr (hy.mono hw hle)

/-- A layer is one in an extension, too, if its node keeps its low link. -/
theorem mono (h : w.Layer f above below) (hw : w.Extends w')
    (hkeys : ∀ x ∈ f.node :: below, x ∈ w.index.keys)
    (hlow : w'.lowlinkOf f.node = w.lowlinkOf f.node) : w'.Layer f above below :=
  h.update hw hkeys rfl (List.Subset.refl _) (Nat.le_of_eq hlow) (.inl hlow) fun _ hy => .inl hy

/-- A layer takes in nodes above it that it is mutual with and whose successors are settled. -/
theorem absorb (h : w.Layer f above below) {more : List Int}
    (hmutual : ∀ x ∈ more, a.Mutual f.node x)
    (hsettled : ∀ x ∈ more, ∀ y ∈ a.successors x, w.Settled (w.lowlinkOf f.node) y) :
    w.Layer f (more ++ above) below where
  unread_subset := h.unread_subset
  mutual_above x hx := (List.mem_append.1 hx).elim (hmutual x) (h.mutual_above x)
  low_le := h.low_le
  low_reached := h.low_reached
  settled_above x hx := (List.mem_append.1 hx).elim (hsettled x) (h.settled_above x)
  settled_read := h.settled_read

/-- Once all successors of its node are read, those of the whole layer are settled. -/
theorem settled {hsub : [] ⊆ a.nodes} (h : w.Layer ⟨v, [], hsub⟩ above below) :
    ∀ x ∈ above ++ [v], ∀ y ∈ a.successors x, w.Settled (w.lowlinkOf v) y := by
  intro x hx y hy
  rcases List.mem_append.1 hx with hx | hx
  · exact h.settled_above x hx y hy
  · rw [List.mem_singleton.1 hx] at hy
    exact (h.settled_read y hy).resolve_left List.not_mem_nil

end Layer

/-- The stack consists of layers, one for each frame, and each frame was entered from the one
below. -/
def Layered (w : Walk a) : List (Frame a) → List Int → Prop
  | [], stack => stack = []
  | f :: frames, stack => ∃ above below, stack = above ++ f.node :: below ∧
      w.Layer f above below ∧ w.Layered frames below ∧
      ∀ g ∈ frames.head?, f.node ∈ a.successors g.node

namespace Layered

variable {frames : List (Frame a)} {stack : List Int}

/-- The nodes of the open frames are on the stack. -/
theorem node_mem (h : w.Layered frames stack) : ∀ f ∈ frames, f.node ∈ stack := by
  induction frames generalizing stack with
  | nil => simp
  | cons g frames ih =>
    -- The nodes of the frames below lie further down on the stack.
    obtain ⟨above, below, rfl, -, hframes, -⟩ := h
    intro f hf
    rcases List.mem_cons.1 hf with rfl | hf
    · simp
    · exact List.mem_append_right _ (List.mem_cons_of_mem _ (ih hframes f hf))

/-- Everything on the stack reaches what the topmost frame leads to. -/
theorem reaches (h : w.Layered frames stack) (hv : ∀ g ∈ frames.head?, v ∈ a.successors g.node) :
    ∀ x ∈ stack, a.Reaches x v := by
  induction frames generalizing stack v with
  | nil =>
    rw [h]
    simp
  | cons f frames ih =>
    obtain ⟨above, below, rfl, hlayer, hframes, hcalled⟩ := h
    have hf : a.Reaches f.node v := .of_mem (hv f rfl)
    intro x hx
    -- Nodes of the layer reach its node, the node reaches `v`, and those below reach the node.
    rcases List.mem_append.1 hx with hx | hx
    · exact (hlayer.mutual_above x hx).2.trans hf
    · rcases List.mem_cons.1 hx with rfl | hx
      · exact hf
      · exact (ih hframes hcalled x hx).trans hf

/-- So are layers above each other, if what is on the stack keeps its low links. -/
theorem mono (h : w.Layered frames stack) (hw : w.Extends w')
    (hkeys : ∀ x ∈ stack, x ∈ w.index.keys)
    (hlow : ∀ x ∈ stack, w'.lowlinkOf x = w.lowlinkOf x) : w'.Layered frames stack := by
  induction frames generalizing stack with
  | nil => exact h
  | cons f frames ih =>
    obtain ⟨above, below, rfl, hlayer, hframes, hcalled⟩ := h
    -- What holds of the stack holds of the part below the frame's own nodes.
    have hkeys' (x) (hx : x ∈ f.node :: below) := hkeys x (List.mem_append_right _ hx)
    have hlow' (x) (hx : x ∈ f.node :: below) := hlow x (List.mem_append_right _ hx)
    refine ⟨above, below, rfl, ?_, ?_, hcalled⟩
    · exact hlayer.mono hw hkeys' (hlow' _ List.mem_cons_self)
    · exact ih hframes (fun x hx => hkeys' x (.tail _ hx)) fun x hx => hlow' x (.tail _ hx)

end Layered

/-! ## Steps -/

/-- The invariant of a walk. -/
structure Sound (w : Walk a) : Prop extends w.Lawful where
  layered : w.Layered w.frames w.stack

/-- To enter a new node is to extend a walk. -/
theorem extends_enter (hv : v ∉ w.index.keys) : w.Extends (w.enter v) where
  keys _ hx := mem_keys_enter.2 (.inr hx)
  indexOf_eq _ hx := indexOf_enter_of_ne fun h => hv (h ▸ hx)
  closed := List.Subset.refl _

/-- To lower a low link changes neither indices nor components. -/
theorem extends_lower (n : Nat) : w.Extends (w.lower v n) where
  keys := List.Subset.refl _
  indexOf_eq _ _ := rfl
  closed := List.Subset.refl _

/-- To close a component keeps those that were closed before. -/
theorem extends_close : w.Extends (w.close v) where
  keys := List.Subset.refl _
  indexOf_eq _ _ := rfl
  closed _ hx := by
    rw [closed, close, List.flatten_append]
    exact List.mem_append_left _ hx

/-- The frames are of no account. -/
theorem extends_frames (frames : List (Frame a)) : w.Extends { w with frames } where
  keys := List.Subset.refl _
  indexOf_eq _ _ := rfl
  closed := List.Subset.refl _

theorem Extends.trans {w'' : Walk a} (h : w.Extends w') (h' : w'.Extends w'') :
    w.Extends w'' where
  keys := List.Subset.trans h.keys h'.keys
  indexOf_eq x hx := (h'.indexOf_eq x (h.keys hx)).trans (h.indexOf_eq x hx)
  closed := List.Subset.trans h.closed h'.closed

/-- The laws say nothing of frames. -/
theorem Lawful.withFrames (hw : w.Lawful) (frames : List (Frame a)) :
    { w with frames }.Lawful :=
  { hw with }

/-- Nor do they say anything of low links. -/
theorem Lawful.lower (hw : w.Lawful) (v : Int) (n : Nat) : (w.lower v n).Lawful :=
  { hw with }

/-- Entering a node from the topmost frame, if there is one. -/
theorem Lawful.enter_sound (hw : w.Lawful) (hv : v ∉ w.index.keys)
    (hreached : ∃ k ∈ a.keys, a.Reaches k v) (hlayered : (w.enter v).Layered w.frames w.stack)
    (hcalled : ∀ g ∈ w.frames.head?, v ∈ a.successors g.node) : (w.enter v).Sound where
  toLawful := hw.enter hv hreached
  layered := by
    -- The new frame has no node above it yet and has read no successor.
    refine ⟨[], w.stack, rfl, ?_, hlayered, hcalled⟩
    constructor
    case unread_subset => exact List.Subset.refl _
    case mutual_above => simp
    case low_le => simp [Frame.ofNode]
    case low_reached => exact ⟨v, List.mem_cons_self, by simp [Frame.ofNode], .refl v⟩
    case settled_above => simp
    case settled_read => exact fun y hy => .inl hy

namespace Sound

variable {next : Int} {unread : List Int} {frames : List (Frame a)}

/-- What is on the stack has been entered. -/
theorem mem_keys (hw : w.Sound) : ∀ x ∈ w.stack, x ∈ w.index.keys :=
  fun x hx => (hw.mem_keys_iff x).2 (.inl hx)

/-- After a successor is read the stack is layered as before, if the successor is settled and the
low link is the same, or the number of the successor. -/
theorem layered_read (hw : w.Sound) {hsub : next :: unread ⊆ a.nodes} {hsub' : unread ⊆ a.nodes}
    (hframes : w.frames = ⟨v, next :: unread, hsub⟩ :: frames) (hext : w.Extends w')
    (hother : ∀ x ∈ w.stack, x ≠ v → w'.lowlinkOf x = w.lowlinkOf x)
    (hle : w'.lowlinkOf v ≤ w.lowlinkOf v)
    (hlow : w'.lowlinkOf v = w.lowlinkOf v ∨
      next ∈ w.stack ∧ w.indexOf next = w'.lowlinkOf v)
    (hnext : w'.Settled (w'.lowlinkOf v) next) :
    w'.Layered (⟨v, unread, hsub'⟩ :: frames) w.stack := by
  have hlayered := hw.layered
  rw [hframes] at hlayered
  obtain ⟨above, below, hstack, hlayer, hbelow, hcalled⟩ := hlayered
  have hmem (x) (hx : x ∈ v :: below) : x ∈ w.stack := hstack ▸ List.mem_append_right _ hx
  have hnodup := hw.nodup_stack
  rw [hstack, List.nodup_append, List.nodup_cons] at hnodup
  refine ⟨above, below, hstack, ?_, ?_, hcalled⟩
  · refine hlayer.update hext (fun x hx => hw.mem_keys x (hmem x hx)) rfl
      (List.subset_cons_self _ _) hle (hlow.imp_right ?_) ?_
    · rintro ⟨hnextStack, hindex⟩
      refine ⟨next, ?_, ?_, .of_mem (hlayer.unread_subset List.mem_cons_self)⟩
      · rw [hstack, List.mem_append] at hnextStack
        refine hnextStack.resolve_left fun habove => ?_
        -- A node above has a larger number than `v`, and so than the low link of `v`.
        have hgt : w.indexOf v < w.indexOf next := (hw.indexOf_of_stack_eq hstack).1 next habove
        have hlowLe : w.lowlinkOf v ≤ w.indexOf v := hlayer.low_le
        omega
      · rw [hext.indexOf_eq next (hw.mem_keys next hnextStack), hindex]
    · intro y hy
      rcases List.mem_cons.1 hy with rfl | hy
      · exact .inr hnext
      · exact .inl hy
  · -- The frames below have no say in the low link of the top one.
    refine hbelow.mono hext (fun x hx => hw.mem_keys x (hmem x (.tail _ hx))) fun x hx => ?_
    exact hother x (hmem x (.tail _ hx)) fun heq => hnodup.2.1.1 (heq ▸ hx)

/-- Reading a successor. -/
theorem read (hw : w.Sound) {hsub : next :: unread ⊆ a.nodes} {hsub' : unread ⊆ a.nodes}
    (hframes : w.frames = ⟨v, next :: unread, hsub⟩ :: frames) :
    ({ w with frames := ⟨v, unread, hsub'⟩ :: frames }.read v next).Sound := by
  have hlayered := hw.layered
  rw [hframes] at hlayered
  obtain ⟨above, below, hstack, hlayer, -, -⟩ := hlayered
  have hv : v ∈ w.stack := by simp [hstack]
  have harc : next ∈ a.successors v := hlayer.unread_subset List.mem_cons_self
  have hlowLe : w.lowlinkOf v ≤ w.indexOf v := hlayer.low_le
  have hext := extends_frames (w := w) (⟨v, unread, hsub'⟩ :: frames)
  have hlawful := hw.withFrames (⟨v, unread, hsub'⟩ :: frames)
  unfold Walk.read
  by_cases hnew : w.index.has next
  · have hentered : next ∈ w.index.keys := Dictionary.has_iff.1 hnew
    rw [if_neg (by simpa using hnew)]
    by_cases hon : next ∈ w.stack
    · -- The successor is in an open component, so the low link is lowered to its number.
      rw [if_pos (by simpa [hw.mem_onStack_iff] using hon)]
      have hself := lowlinkOf_lower_self { w with frames := ⟨v, unread, hsub'⟩ :: frames } v
        (w.indexOf next)
      refine ⟨hlawful.lower _ _, hw.layered_read hframes (hext.trans (extends_lower _)) ?_ ?_ ?_ ?_⟩
      · exact fun x _ hx => lowlinkOf_lower_of_ne _ hx.symm
      · exact hself ▸ Nat.min_le_left _ _
      · rcases Nat.le_total (w.lowlinkOf v) (w.indexOf next) with h | h
        · exact .inl (hself.trans (Nat.min_eq_left h))
        · exact .inr ⟨hon, (hself.trans (Nat.min_eq_right h)).symm⟩
      · exact .inr ⟨hentered, hself ▸ Nat.min_le_right _ _⟩
    · -- The successor is closed, and nothing changes.
      rw [if_neg (by simpa [hw.mem_onStack_iff] using hon)]
      have hclosed : next ∈ w.closed := ((hw.mem_keys_iff next).1 hentered).resolve_left hon
      exact ⟨hlawful, hw.layered_read hframes hext (fun _ _ _ => rfl) (Nat.le_refl _) (.inl rfl)
        (.inl hclosed)⟩
  · -- The successor is new. It is entered with the largest number so far.
    have hfresh : next ∉ w.index.keys := mt Dictionary.has_iff.2 hnew
    rw [if_pos (by simpa using hnew)]
    have hne (x) (hx : x ∈ w.stack) : next ≠ x := fun h => hfresh (h ▸ hw.mem_keys x hx)
    have hlow (x) (hx : x ∈ w.stack) :
        ({ w with frames := ⟨v, unread, hsub'⟩ :: frames }.enter next).lowlinkOf x =
          w.lowlinkOf x := lowlinkOf_enter_of_ne (hne x hx)
    obtain ⟨k, hk, hkv⟩ := hw.reached v (hw.mem_keys v hv)
    refine hlawful.enter_sound hfresh ⟨k, hk, hkv.trans (.of_mem harc)⟩ ?_ ?_
    · refine hw.layered_read hframes (hext.trans (extends_enter hfresh)) (fun x hx _ => hlow x hx)
        (Nat.le_of_eq (hlow v hv)) (.inl (hlow v hv)) (.inr ⟨mem_keys_enter.2 (.inl rfl), ?_⟩)
      rw [hlow v hv, indexOf_enter_self]
      exact Nat.le_of_lt (Nat.lt_of_le_of_lt hlowLe (hw.indexOf_lt v (hw.mem_keys v hv)))
    · rintro _ ⟨⟩
      exact harc

/-- Where all successors of the topmost node are read and its low link is its own number, its layer
leads nowhere else but to closed nodes. -/
theorem inside_of_low_eq (hw : w.Sound) {hsub : [] ⊆ a.nodes} {above below : List Int}
    (hstack : w.stack = above ++ v :: below) (hlayer : w.Layer ⟨v, [], hsub⟩ above below)
    (hlow : w.lowlinkOf v = w.indexOf v) :
    ∀ x ∈ above ++ [v], ∀ y ∈ a.successors x, y ∈ w.closed ∨ y ∈ above ++ [v] := by
  intro x hx y hy
  refine or_iff_not_imp_left.2 fun hopen => ?_
  obtain ⟨hkeys, hle⟩ := (hlayer.settled x hx y hy).resolve_left hopen
  -- On the stack, whatever has no smaller index than `v` stands no lower.
  exact hw.mem_of_indexOf_le hstack (((hw.mem_keys_iff y).1 hkeys).resolve_right hopen)
    (hlow ▸ hle)

/-- The layer of a node whose low link is below its own number goes to the layer of its caller. -/
theorem layer_of_low_ne (hw : w.Sound) {hsub : [] ⊆ a.nodes} {c : Frame a}
    {above below above' below' : List Int} (hstack : w.stack = above ++ v :: below)
    (hbelow : below = above' ++ c.node :: below') (hlayer : w.Layer ⟨v, [], hsub⟩ above below)
    (hlayer' : w.Layer c above' below') (hreaches : ∀ x ∈ below', a.Reaches x c.node)
    (hcalled : v ∈ a.successors c.node) (hne : w.lowlinkOf v ≠ w.indexOf v)
    (hext : w.Extends w')
    (hlow : w'.lowlinkOf c.node = min (w.lowlinkOf c.node) (w.lowlinkOf v)) :
    w'.Layer c ((above ++ [v]) ++ above') below' := by
  have hmem (x) (hx : x ∈ c.node :: below') : x ∈ w.index.keys :=
    hw.mem_keys x (by rw [hstack, hbelow]; simp [List.mem_cons.1 hx])
  have hlow_le : w.lowlinkOf v ≤ w.indexOf v := hlayer.low_le
  -- The low link is the number of a node `u` that `v` reaches below its own layer.
  obtain ⟨u, hu, hindex, hvu⟩ := hlayer.low_reached
  have hu : u ∈ above' ++ c.node :: below' := by
    rw [← hbelow]
    exact (List.mem_cons.1 hu).resolve_left fun h => hne (by rw [← hindex, h])
  -- From `u` the caller is reached, so `v` and the caller are mutual.
  have hmutual : a.Mutual c.node v := by
    refine ⟨.of_mem hcalled, Adjacency.Reaches.trans hvu ?_⟩
    rcases List.mem_append.1 hu with hu | hu
    · exact (hlayer'.mutual_above u hu).2
    · rcases List.mem_cons.1 hu with rfl | hu
      · exact .refl _
      · exact hreaches u hu
  refine (hlayer'.update hext hmem rfl (List.Subset.refl _) (hlow ▸ Nat.min_le_left _ _) ?_
    fun _ hy => .inl hy).absorb ?_ ?_
  · rcases Nat.le_total (w.lowlinkOf c.node) (w.lowlinkOf v) with h | h
    · exact .inl (hlow.trans (Nat.min_eq_left h))
    · right
      have hu : u ∈ c.node :: below' := by
        refine (List.mem_append.1 hu).resolve_left fun habove => ?_
        -- Such a node has a larger number than the caller, and so than both low links.
        have hgt : w.indexOf c.node < w.indexOf u :=
          (hw.indexOf_of_stack_eq (by rw [hstack, hbelow, ← List.cons_append,
            ← List.append_assoc])).1 u (by simp [habove])
        have hlow_le' := hlayer'.low_le
        have hindex : w.indexOf u = w.lowlinkOf v := hindex
        omega
      refine ⟨u, hu, ?_, hmutual.1.trans hvu⟩
      rw [hext.indexOf_eq u (hmem u hu), hindex, hlow, Nat.min_eq_right h]
  · intro x hx
    rcases List.mem_append.1 hx with hx | hx
    · exact hmutual.trans (hlayer.mutual_above x hx)
    · rw [List.mem_singleton.1 hx]
      exact hmutual
  · intro x hx y hy
    exact (hlayer.settled x hx y hy).mono hext (hlow ▸ Nat.min_le_right _ _)

/-- Leaving the node of the last frame: nothing is below it, so its low link is its own number. -/
theorem leave_last (hw : w.Sound) {hsub : [] ⊆ a.nodes} (hframes : w.frames = [⟨v, [], hsub⟩]) :
    (({ w with frames := [] } : Walk a).leave v).Sound := by
  have hlayered := hw.layered
  rw [hframes] at hlayered
  obtain ⟨above, below, hstack, hlayer, rfl, -⟩ := hlayered
  obtain ⟨u, hu, hindex, -⟩ := hlayer.low_reached
  -- The low link of the last frame is its own index, since nothing lies below it.
  have hlow : w.lowlinkOf v = w.indexOf v := by
    rw [List.mem_singleton.1 hu] at hindex
    exact hindex.symm
  have hlawful := hw.withFrames []
  rw [leave_nil, if_pos hlow]
  exact ⟨hlawful.close hstack hlayer.mutual_above (hw.inside_of_low_eq hstack hlayer hlow),
    hlawful.stack_close hstack⟩

/-- Leaving a node for the frame `c` below it, which takes over what the node reaches. -/
theorem leave_inner (hw : w.Sound) {hsub : [] ⊆ a.nodes} {c : Frame a}
    (hframes : w.frames = ⟨v, [], hsub⟩ :: c :: frames) :
    ({ w with frames := c :: frames }.leave v).Sound := by
  have hlayered := hw.layered
  rw [hframes] at hlayered
  obtain ⟨above, below, hstack, hlayer, hbelow, hcalled⟩ := hlayered
  have hstack : w.stack = above ++ v :: below := hstack
  have hmem (x) (hx : x ∈ below) : x ∈ w.stack := by simp [hstack, hx]
  have hindex : w.indexOf c.node < w.indexOf v :=
    (hw.indexOf_of_stack_eq hstack).2 _ (hbelow.node_mem c List.mem_cons_self)
  have hne : c.node ≠ v := fun h => by simp [h] at hindex
  rw [leave_cons frames hne]
  have hlawful := (hw.withFrames (c :: frames)).lower c.node (w.lowlinkOf v)
  have hext := (extends_frames (w := w) (c :: frames)).trans
    (extends_lower (v := c.node) (w.lowlinkOf v))
  have hlow : ({ w with frames := c :: frames }.lower c.node (w.lowlinkOf v)).lowlinkOf c.node =
      min (w.lowlinkOf c.node) (w.lowlinkOf v) := lowlinkOf_lower_self _ _ _
  have hother (x) (hx : c.node ≠ x) :
      ({ w with frames := c :: frames }.lower c.node (w.lowlinkOf v)).lowlinkOf x =
        w.lowlinkOf x := lowlinkOf_lower_of_ne _ hx
  have hbelow' := hbelow
  obtain ⟨above', below', rfl, hlayer', hframes', hcalled'⟩ := hbelow'
  by_cases hroot : w.lowlinkOf v = w.indexOf v
  · -- The layer is closed as a component; the layers below stay.
    rw [if_pos hroot]
    refine ⟨hlawful.close hstack hlayer.mutual_above
      (hw.inside_of_low_eq hstack hlayer hroot), ?_⟩
    rw [hlawful.stack_close hstack]
    refine hbelow.mono (hext.trans extends_close) (fun x hx => hw.mem_keys x (hmem x hx)) ?_
    intro x hx
    rw [lowlinkOf_close]
    by_cases hxc : c.node = x
    · -- The low link of the node is its own number, which is above all that the caller reaches.
      have hlow_le' := hlayer'.low_le
      rw [← hxc, hlow, Nat.min_eq_left (by omega)]
    · exact hother x hxc
  · -- The layer goes to the caller; the layers below the caller stay.
    rw [if_neg hroot]
    refine ⟨hlawful, (above ++ [v]) ++ above', below', ?_, ?_, ?_, hcalled'⟩
    · exact hstack.trans (by simp)
    · exact hw.layer_of_low_ne hstack rfl hlayer hlayer' (hframes'.reaches hcalled')
        (hcalled c rfl) hroot hext hlow
    · refine hframes'.mono hext (fun x hx => hw.mem_keys x (hmem x (by simp [hx]))) ?_
      intro x hx
      refine hother x fun h => ?_
      have hnodup := hw.nodup_stack
      simp [hstack, List.nodup_append, h, hx] at hnodup

/-- Leaving a node all of whose successors are read. -/
theorem leave (hw : w.Sound) {hsub : [] ⊆ a.nodes} (hframes : w.frames = ⟨v, [], hsub⟩ :: frames) :
    ({ w with frames }.leave v).Sound := by
  cases frames with
  | nil => exact hw.leave_last hframes
  | cons c frames => exact hw.leave_inner hframes

/-- A step keeps the invariant. -/
theorem step (hw : w.Sound) {frame : Frame a} (hframes : w.frames = frame :: frames) :
    (w.step frame frames).Sound := by
  obtain ⟨v, _ | ⟨next, unread⟩, hsub⟩ := frame
  · exact hw.leave hframes
  · exact hw.read hframes

end Sound

/-- A step forgets no node that was entered. -/
theorem keys_subset_step (w : Walk a) (frame : Frame a) (frames : List (Frame a)) :
    w.index.keys ⊆ (w.step frame frames).index.keys := by
  obtain ⟨v, _ | ⟨next, unread⟩, hsub⟩ := frame
  · simp only [step, leave]
    -- Leaving a node changes low links and components, and no index.
    cases frames <;> dsimp only <;> split <;> exact List.Subset.refl _
  · simp only [step, read]
    split
    · exact fun x hx => mem_keys_enter.2 (.inr hx)
    · split <;> exact List.Subset.refl _

end Walk

end ImportAtlas
