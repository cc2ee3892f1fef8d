import ImportAtlas.Graph.Component
import ImportAtlas.Proofs.Graph.Walk
import Mathlib.Algebra.BigOperators.Group.List.Basic
import Mathlib.Algebra.GroupWithZero.Nat
import Mathlib.Data.List.Dedup

/-!
# The components are the classes of mutual reachability

A run of a walk keeps the invariant of its steps and ends without frames, so that all nodes it has
entered are closed. It ends because each step reads a successor or leaves a node, and no node is
entered twice. From this follows what the components are: they share out the nodes that are
reached from the keys, two nodes are together if and only if each reaches the other, and no
component reaches a later one.

## Key results

- `Walk.work_step`, `Walk.exists_iterate_eq_run`: how many steps a run takes
- `Adjacency.mem_components_iff`: which nodes are in a component
- `Adjacency.isComponent_of_mem`: each component is a class of mutual reachability
- `Adjacency.pairwise_components`: no component reaches a later one
- `Adjacency.components_spec`: the components, told by reachability alone
-/

namespace ImportAtlas

namespace Walk

variable {a : Adjacency} {w : Walk a} {root : Int}

/-! ## The number of steps -/

/-- One step from the latest frame. A walk without frames stays where it is. -/
def advance (w : Walk a) : Walk a :=
  match w.frames with
  | [] => w
  | frame :: frames => w.step frame frames

/-- How many steps a walk can take at most: for each node that is not entered one for each of its
successors and one for leaving it, and as many for what is pending. -/
def work (w : Walk a) : Nat :=
  (w.fresh.dedup.map fun v => (a.successors v).length + 1).sum + w.pending

/-- Entering a node is no work: what had to be done for it is pending now. -/
theorem work_enter (w : Walk a) {v : Int} (hv : v ∈ a.nodes) (h : w.index.has v = false) :
    (w.enter v).work = w.work := by
  have hfresh : v ∈ w.fresh := List.mem_filter.2 ⟨hv, by simp [h]⟩
  -- Entering a node takes it, and only it, off the fresh ones.
  have hperm : w.fresh.dedup.Perm (v :: (w.enter v).fresh.dedup) := by
    refine (List.perm_ext_iff_of_nodup (List.nodup_dedup _) ?_).2 fun x => ?_
    · rw [List.nodup_cons, List.mem_dedup, fresh_enter]
      exact ⟨by simp, List.nodup_dedup _⟩
    · rw [fresh_enter, List.mem_cons, List.mem_dedup, List.mem_dedup, List.mem_filter, bne_iff_ne]
      by_cases hx : x = v
      · simp [hx, hfresh]
      · simp [hx]
  have hpending : (w.enter v).pending = (a.successors v).length + 1 + w.pending := rfl
  rw [work, work, (hperm.map _).sum_eq, List.map_cons, List.sum_cons, hpending]
  omega

/-- Reading a successor is no work: it is entered, or nothing but a low link changes. -/
theorem work_read (w : Walk a) (v : Int) {next : Int} (hnext : next ∈ a.nodes) :
    (w.read v next).work = w.work := by
  unfold read
  split
  · rename_i hnew
    exact w.work_enter hnext (by simpa using hnew)
  · split <;> rfl

/-- Each step does one part of the work: it takes a successor from those that are not read, or a
frame from those that are not left. -/
theorem work_step (w : Walk a) {frame : Frame a} {frames : List (Frame a)}
    (h : w.frames = frame :: frames) : (w.step frame frames).work + 1 = w.work := by
  obtain ⟨v, _ | ⟨next, unread⟩, hsub⟩ := frame
  · have hpending : w.pending = 1 + ({ w with frames } : Walk a).pending := by
      rw [pending, h]
      rfl
    have hfresh : ({ w with frames } : Walk a).fresh = w.fresh := rfl
    rw [step, work, work, fresh_leave, pending_leave, hfresh, hpending]
    omega
  · -- A node that is read is either entered or not; both are counted by `work_read`.
    have hunread : unread ⊆ a.nodes := fun _ hx => hsub (.tail _ hx)
    have hwork : ({ w with frames := ⟨v, unread, hunread⟩ :: frames } : Walk a).work + 1 =
        w.work := by
      have hfresh : ({ w with frames := ⟨v, unread, hunread⟩ :: frames } : Walk a).fresh =
          w.fresh := rfl
      simp only [work, hfresh, pending, h, List.foldr_cons, List.length_cons]
      omega
    rw [step, work_read _ v (hsub List.mem_cons_self), hwork]

/-- A run takes a number of steps, at most as many as there is work, and ends without frames. -/
theorem exists_iterate_eq_run (w : Walk a) :
    ∃ n ≤ w.work, advance^[n] w = w.run ∧ w.run.frames = [] := by
  induction w using run.induct with
  | case1 w hframes =>
    rw [run, hframes]
    exact ⟨0, Nat.zero_le _, rfl, hframes⟩
  | case2 w frame frames hframes ih =>
    obtain ⟨n, hn, hrun, hend⟩ := ih
    -- A step leaves less work, so the count stays within the bound.
    have hwork := w.work_step hframes
    have hadvance : w.advance = w.step frame frames := by
      rw [advance, hframes]
    rw [run, hframes]
    exact ⟨n + 1, by omega, by rw [Function.iterate_succ_apply, hadvance, hrun], hend⟩

/-! ## What a run leads to -/

/-- A run keeps the invariant and ends without frames. -/
theorem Sound.run (hw : w.Sound) :
    w.run.Sound ∧ w.run.frames = [] ∧ w.index.keys ⊆ w.run.index.keys := by
  -- Along the recursion of the run, which goes on while there are frames.
  induction w using run.induct with
  | case1 w hframes =>
    rw [Walk.run, hframes]
    exact ⟨hw, hframes, List.Subset.refl _⟩
  | case2 w frame frames hframes ih =>
    obtain ⟨hsound, hend, hkeys⟩ := ih (hw.step hframes)
    rw [Walk.run, hframes]
    exact ⟨hsound, hend, List.Subset.trans (keys_subset_step w frame frames) hkeys⟩

/-- A walk between two visits: it has no frames, so that nothing is on the stack. -/
structure Resting (w : Walk a) : Prop extends w.Sound where
  frames_eq : w.frames = []

namespace Resting

theorem stack_eq (hw : w.Resting) : w.stack = [] := by
  have hlayered := hw.layered
  rwa [hw.frames_eq] at hlayered

/-- All nodes that were entered are closed. -/
theorem mem_closed_iff (hw : w.Resting) (x : Int) : x ∈ w.closed ↔ x ∈ w.index.keys := by
  rw [hw.mem_keys_iff x, hw.stack_eq]
  simp

/-- A visit to a key enters it, if it was not entered before. -/
theorem visit (hw : w.Resting) (hroot : root ∈ a.keys) :
    (w.visit root).Resting ∧ root ∈ (w.visit root).index.keys ∧
      w.index.keys ⊆ (w.visit root).index.keys := by
  unfold Walk.visit
  by_cases hentered : w.index.has root
  · rw [if_pos hentered]
    exact ⟨hw, Dictionary.has_iff.1 hentered, List.Subset.refl _⟩
  · have hfresh : root ∉ w.index.keys := mt Dictionary.has_iff.2 hentered
    rw [if_neg hentered]
    -- Entered without a caller, the key is the only layer of the stack.
    have hsound : (w.enter root).Sound := by
      refine hw.enter_sound hfresh ⟨root, hroot, .refl root⟩ ?_ ?_
      · rw [hw.frames_eq]
        exact hw.stack_eq
      · simp [hw.frames_eq]
    obtain ⟨hrun, hend, hkeys⟩ := hsound.run
    exact ⟨⟨hrun, hend⟩, hkeys (mem_keys_enter.2 (.inl rfl)),
      fun x hx => hkeys (mem_keys_enter.2 (.inr hx))⟩

/-- Visits to keys enter all of them. -/
theorem visits (hw : w.Resting) {roots : List Int} (hroots : roots ⊆ a.keys) :
    (roots.foldl Walk.visit w).Resting ∧
      ∀ x, x ∈ roots ∨ x ∈ w.index.keys → x ∈ (roots.foldl Walk.visit w).index.keys := by
  induction roots generalizing w with
  | nil => simpa using hw
  | cons root roots ih =>
    obtain ⟨hroot, hroots⟩ := List.cons_subset.1 hroots
    obtain ⟨hvisit, hentered, hkeys⟩ := hw.visit hroot
    obtain ⟨hall, hentered'⟩ := ih hvisit hroots
    refine ⟨hall, ?_⟩
    -- A root is entered by its own visit or a later one; a key stays.
    rintro x (hx | hx)
    · rcases List.mem_cons.1 hx with rfl | hx
      · exact hentered' x (.inr hentered)
      · exact hentered' x (.inl hx)
    · exact hentered' x (.inr (hkeys hx))

end Resting

theorem resting_start : ({} : Walk a).Resting where
  toLawful := lawful_start
  layered := rfl
  frames_eq := rfl

end Walk

namespace Adjacency

/-- The walk whose components are those of the adjacency. -/
private theorem resting_walk (a : Adjacency) :
    (a.keys.foldl Walk.visit ({} : Walk a)).Resting ∧
      ∀ x ∈ a.keys, x ∈ (a.keys.foldl Walk.visit ({} : Walk a)).index.keys := by
  obtain ⟨hrest, hentered⟩ := Walk.resting_start.visits (List.Subset.refl a.keys)
  exact ⟨hrest, fun x hx => hentered x (.inl hx)⟩

/-- Each component is a class of mutual reachability. -/
theorem isComponent_of_mem {a : Adjacency} {c : List Int} (hc : c ∈ a.components) :
    a.IsComponent c :=
  (resting_walk a).1.component c hc

/-- No node is in two components, or twice in one. -/
theorem nodup_flatten_components (a : Adjacency) : a.components.flatten.Nodup :=
  (resting_walk a).1.nodup_closed

/-- The nodes of the components are those that are reached from the keys. -/
theorem mem_components_iff {a : Adjacency} {v : Int} :
    (∃ c ∈ a.components, v ∈ c) ↔ ∃ k ∈ a.keys, a.Reaches k v := by
  obtain ⟨hrest, hentered⟩ := resting_walk a
  have hclosed : (∃ c ∈ a.components, v ∈ c) ↔
      v ∈ (a.keys.foldl Walk.visit ({} : Walk a)).closed := List.mem_flatten.symm
  rw [hclosed]
  -- All that was entered is closed, and all keys were entered.
  constructor
  · intro hv
    exact hrest.reached v ((hrest.mem_closed_iff v).1 hv)
  · rintro ⟨k, hk, hkv⟩
    exact hrest.closed_of_reaches hkv ((hrest.mem_closed_iff k).2 (hentered k hk))

/-- No component reaches a later one. -/
theorem pairwise_components (a : Adjacency) :
    a.components.Pairwise fun c d => ∀ x ∈ c, ∀ y ∈ d, ¬ a.Reaches x y :=
  (resting_walk a).1.order

/-- The nodes of the components are the keys and their successors. -/
theorem exists_reaches_iff {a : Adjacency} {v : Int} :
    (∃ k ∈ a.keys, a.Reaches k v) ↔ v ∈ a.keys ∨ ∃ k ∈ a.keys, v ∈ a.successors k := by
  constructor
  · rintro ⟨k, hk, hreaches⟩
    cases hreaches with
    | refl => exact .inl hk
    | @tail u _ _ harc => exact .inr ⟨u, mem_keys_of_mem_successors harc, harc⟩
  · rintro (hv | ⟨k, hk, harc⟩)
    · exact ⟨v, hv, .refl v⟩
    · exact ⟨k, hk, .of_mem harc⟩

/-- The components share out the keys and their successors by mutual reachability, and each stands
before the others from which it is reached. No run on the way to them goes on for ever. -/
theorem components_spec (a : Adjacency) :
    (∀ w : Walk a, ∃ n ≤ w.work, Walk.advance^[n] w = w.run ∧ w.run.frames = []) ∧
    (∀ c ∈ a.components, c ≠ [] ∧ c.Nodup) ∧
    a.components.Pairwise List.Disjoint ∧
    (∀ v, (∃ c ∈ a.components, v ∈ c) ↔ v ∈ a.keys ∨ ∃ k ∈ a.keys, v ∈ a.successors k) ∧
    (∀ v, v ∉ a.keys → a.successors v = []) ∧
    (∀ c ∈ a.components, ∀ v ∈ c, ∀ u, u ∈ c ↔ a.Reaches v u ∧ a.Reaches u v) ∧
    ∀ (i j : Nat) (hi : i < a.components.length) (hj : j < a.components.length), i ≠ j →
      (∃ x ∈ a.components[i], ∃ y ∈ a.components[j], a.Reaches y x) → i < j := by
  have hnodup := List.nodup_flatten.1 a.nodup_flatten_components
  refine ⟨Walk.exists_iterate_eq_run, fun c hc => ⟨(isComponent_of_mem hc).ne_nil, hnodup.1 c hc⟩,
    hnodup.2, fun v => mem_components_iff.trans exists_reaches_iff, ?_,
    fun c hc => (isComponent_of_mem hc).mem_iff, ?_⟩
  · exact fun v hv => successors_eq_nil hv
  · rintro i j hi hj hne ⟨x, hx, y, hy, hreaches⟩
    -- No component reaches a later one.
    refine (Nat.lt_or_gt_of_ne hne).resolve_right fun hlt => ?_
    exact List.pairwise_iff_getElem.1 a.pairwise_components j i hj hi hlt y hy x hx hreaches

end Adjacency

end ImportAtlas
