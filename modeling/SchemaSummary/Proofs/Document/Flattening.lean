import Mathlib.Data.List.Nodup
import SchemaSummary.Document.OfSchema

/-! # Flattening

  The loop over pending messages and the recursion on declaration trees give the same records.

  Which record belongs to which declaration is said by positions: the position of a message is
  its index in every list on the way down to it. `emissionOrder` lists the positions of a forest
  in the order of the records, and `DepthFirst` says what that order is like:

    * every message of the forest has one record and no other record is there,
    * a message comes after the messages that it is nested in,
    * a message and all that is nested in it are one block.
-/

namespace SchemaSummary

namespace MessageDescriptor

/-! ## Declaration trees -/

theorem treeSize_le_forestSize {c : MessageDescriptor} {cs : List MessageDescriptor}
    (h : c ∈ cs) : c.treeSize ≤ forestSize cs := by
  induction cs with
  | nil => cases h
  | cons d cs ih =>
    rw [forestSize]
    rcases List.mem_cons.mp h with rfl | h
    · omega
    · have := ih h
      omega

/-- **Induction on declaration trees**: a property of all messages nested in a message carries
    over to the message itself. -/
theorem tree_induction {P : MessageDescriptor → Prop}
    (step : ∀ m, (∀ c ∈ m.nested, P c) → P m) (m : MessageDescriptor) : P m := by
  apply step
  intro c hc
  exact tree_induction step c
termination_by m.treeSize
decreasing_by
  have := treeSize_le_forestSize hc
  rw [treeSize_eq m]
  omega

theorem walkNested_eq (full : String) (cs : List MessageDescriptor) :
    walkNested full cs = cs.reverse.flatMap fun c => c.walk (qualify full c.simpleName) := by
  induction cs with
  | nil => rw [walkNested]; rfl
  | cons c cs ih => rw [walkNested, ih]; simp

/-- The nested trees are walked from last to first. -/
theorem walk_eq (full : String) (m : MessageDescriptor) :
    m.walk full =
      m.record full :: m.nested.reverse.flatMap fun c => c.walk (qualify full c.simpleName) := by
  obtain ⟨name, fields, nested⟩ := m
  rw [walk, walkNested_eq]

end MessageDescriptor

/-! ## The loop and the recursion -/

/-- Pending messages are walked one after the other. -/
theorem drain_eq_flatMap_walk (pending : List Pending) :
    drain pending = pending.flatMap fun p => p.2.walk p.1 := by
  fun_induction drain pending with
  | case1 => rfl
  | case2 full m rest ih =>
    rw [ih, List.flatMap_cons, MessageDescriptor.walk_eq full m]
    -- The children that are pushed in front are the ones that the recursion visits.
    simp [MessageDescriptor.children, List.flatMap_map, ← List.map_reverse]

/-- Top-level messages, with their qualified names. -/
def topLevel (scope : String) (messages : List MessageDescriptor) : List Pending :=
  messages.map fun m => (qualify scope m.simpleName, m)

theorem flattenMessages_eq_flatMap_walk (scope : String) (messages : List MessageDescriptor) :
    flattenMessages scope messages =
      messages.flatMap fun m => m.walk (qualify scope m.simpleName) := by
  simp [flattenMessages, drain_eq_flatMap_walk]

/-! ## Positions -/

/-- Where a message stands in a forest: its index in every list on the way down. -/
abbrev Position := List Nat

/-- The message at a position below a message; the empty position is the message itself. -/
def below? : Pending → Position → Option Pending
  | p, [] => some p
  | p, i :: q => (p.2.children p.1)[i]?.bind fun c => below? c q

/-- The message at a position in a forest. -/
def at? (pending : List Pending) : Position → Option Pending
  | [] => none
  | i :: q => pending[i]?.bind fun p => below? p q

/-- The record of a message that is known with its qualified name. -/
def recordOf (p : Pending) : MessageRecord := p.2.record p.1

mutual

/-- The positions below a message in the order of its records. -/
def MessageDescriptor.positions : MessageDescriptor → List Position
  | ⟨_, _, nested⟩ => [] :: MessageDescriptor.nestedPositions 0 nested

/-- The positions of nested messages of which the first one has the index `i`. -/
def MessageDescriptor.nestedPositions (i : Nat) : List MessageDescriptor → List Position
  | [] => []
  | c :: cs => nestedPositions (i + 1) cs ++ c.positions.map (i :: ·)

end

/-- The positions in the tree of a message that stands at an index. -/
def treePositions (p : MessageDescriptor × Nat) : List Position := p.1.positions.map (p.2 :: ·)

/-- The positions of a forest in the order of its records. -/
def emissionOrder (messages : List MessageDescriptor) : List Position :=
  messages.zipIdx.flatMap treePositions

theorem nestedPositions_eq (i : Nat) (cs : List MessageDescriptor) :
    MessageDescriptor.nestedPositions i cs = (cs.zipIdx i).reverse.flatMap treePositions := by
  induction cs generalizing i with
  | nil => rw [MessageDescriptor.nestedPositions]; rfl
  | cons c cs ih => rw [MessageDescriptor.nestedPositions, ih]; simp [treePositions]

theorem positions_eq (m : MessageDescriptor) :
    m.positions = [] :: m.nested.zipIdx.reverse.flatMap treePositions := by
  obtain ⟨name, fields, nested⟩ := m
  rw [MessageDescriptor.positions, nestedPositions_eq]

/-! ### What stands at a position -/

theorem mem_flatMap_treePositions {trees : List (MessageDescriptor × Nat)} {i : Nat}
    {q : Position} :
    i :: q ∈ trees.flatMap treePositions ↔ ∃ m, (m, i) ∈ trees ∧ q ∈ m.positions := by
  simp only [List.mem_flatMap, treePositions, List.mem_map, Prod.exists, List.cons.injEq]
  constructor
  · intro h
    obtain ⟨m, j, hm, q', hq', rfl, rfl⟩ := h
    exact ⟨m, hm, hq'⟩
  · intro h
    obtain ⟨m, hm, hq⟩ := h
    exact ⟨m, i, hm, q, hq, rfl, rfl⟩

theorem nil_notMem_flatMap_treePositions (trees : List (MessageDescriptor × Nat)) :
    [] ∉ trees.flatMap treePositions := by
  simp [treePositions]

theorem getElem?_children (full : String) (m : MessageDescriptor) (i : Nat) :
    (m.children full)[i]? = m.nested[i]?.map fun c => (qualify full c.simpleName, c) := by
  simp [MessageDescriptor.children]

/-- The positions below a message are those at which a message stands. -/
theorem mem_positions_iff (m : MessageDescriptor) :
    ∀ (full : String) (q : Position), q ∈ m.positions ↔ (below? (full, m) q).isSome := by
  induction m using MessageDescriptor.tree_induction with
  | step m ih =>
    intro full q
    rw [positions_eq]
    cases q with
    | nil => simp [below?]
    | cons i q =>
      have hne : (i :: q ∈ ([] : Position) :: m.nested.zipIdx.reverse.flatMap treePositions) ↔
          i :: q ∈ m.nested.zipIdx.reverse.flatMap treePositions := by simp
      -- The first index tells the nested tree in which the rest of the position lies.
      rw [hne, mem_flatMap_treePositions, below?, getElem?_children]
      simp only [List.mem_reverse, List.mem_zipIdx_iff_getElem?]
      cases hc : m.nested[i]? with
      | none => simp
      | some c =>
        have hmem : c ∈ m.nested := List.mem_of_getElem? hc
        simp [ih c hmem (qualify full c.simpleName) q]

/-- The records of listed trees are those of the messages at their positions. -/
theorem map_some_flatMap_walk (scope : String) (messages : List MessageDescriptor)
    (trees : List (MessageDescriptor × Nat)) (htrees : ∀ p ∈ trees, p ∈ messages.zipIdx)
    (hrecords : ∀ m ∈ messages, ∀ full,
      (m.walk full).map some = m.positions.map fun q => (below? (full, m) q).map recordOf) :
    ((trees.map Prod.fst).flatMap fun m => m.walk (qualify scope m.simpleName)).map some =
      (trees.flatMap treePositions).map fun q =>
        (at? (topLevel scope messages) q).map recordOf := by
  rw [List.flatMap_map, List.map_flatMap, List.map_flatMap]
  apply List.flatMap_congr
  intro p hm
  obtain ⟨m, i⟩ := p
  have hi : messages[i]? = some m := by
    simpa [List.mem_zipIdx_iff_getElem?] using htrees _ hm
  rw [hrecords m (List.mem_of_getElem? hi)]
  simp [treePositions, at?, topLevel, hi]

/-- The records of a tree are those of the messages at its positions. -/
theorem map_some_walk (m : MessageDescriptor) :
    ∀ full, (m.walk full).map some =
      m.positions.map fun q => (below? (full, m) q).map recordOf := by
  induction m using MessageDescriptor.tree_induction with
  | step m ih =>
    intro full
    have hnested := map_some_flatMap_walk full m.nested m.nested.zipIdx.reverse (by simp) ih
    rw [List.map_reverse, List.zipIdx_map_fst] at hnested
    rw [MessageDescriptor.walk_eq, positions_eq, List.map_cons, hnested, List.map_cons]
    congr 1
    -- Below a message a position is looked up among its children.
    apply List.map_congr_left
    intro q hq
    cases q with
    | nil => exact absurd hq (nil_notMem_flatMap_treePositions _)
    | cons i q => rfl

/-! ### The order of positions -/

/-- Positions of trees with different indices are in order if those of each tree are. -/
theorem pairwise_flatMap_treePositions {trees : List (MessageDescriptor × Nat)}
    (hindex : (trees.map Prod.snd).Nodup)
    (htrees : ∀ p ∈ trees, p.1.positions.Pairwise fun q r => ¬ r <+: q) :
    (trees.flatMap treePositions).Pairwise fun q r => ¬ r <+: q := by
  rw [List.pairwise_flatMap]
  constructor
  · intro p hp
    rw [treePositions, List.pairwise_map]
    exact (htrees p hp).imp fun h => by simpa [List.cons_prefix_cons] using h
  · rw [List.Nodup, List.pairwise_map] at hindex
    refine hindex.imp ?_
    intro c d hne q hq r hr hprefix
    -- Positions with different first indices are no prefixes of one another.
    obtain ⟨q, -, rfl⟩ := List.mem_map.mp hq
    obtain ⟨r, -, rfl⟩ := List.mem_map.mp hr
    exact hne (List.cons_prefix_cons.mp hprefix).1.symm

theorem nodup_map_snd_zipIdx {α : Type} (xs : List α) : (xs.zipIdx.map Prod.snd).Nodup := by
  rw [List.zipIdx_map_snd]
  exact List.nodup_range'

/-- The nested trees in the order of the walk have different indices. -/
theorem nodup_map_snd_nested (m : MessageDescriptor) :
    (m.nested.zipIdx.reverse.map Prod.snd).Nodup := by
  rw [List.map_reverse, List.nodup_reverse]
  exact nodup_map_snd_zipIdx m.nested

theorem mem_nested_of_mem {m c : MessageDescriptor} {i : Nat}
    (h : (c, i) ∈ m.nested.zipIdx.reverse) : c ∈ m.nested := by
  rw [List.mem_reverse, List.mem_zipIdx_iff_getElem?] at h
  exact List.mem_of_getElem? h

/-- No position comes after a position below it. -/
theorem pairwise_positions (m : MessageDescriptor) :
    m.positions.Pairwise fun q r => ¬ r <+: q := by
  induction m using MessageDescriptor.tree_induction with
  | step m ih =>
    rw [positions_eq, List.pairwise_cons]
    constructor
    · intro r hr hprefix
      rw [List.prefix_nil.mp hprefix] at hr
      exact nil_notMem_flatMap_treePositions _ hr
    · exact pairwise_flatMap_treePositions (nodup_map_snd_nested m)
        fun p hp => ih p.1 (mem_nested_of_mem hp)

/-! ### Blocks -/

theorem filter_treePositions (p : MessageDescriptor × Nat) (i : Nat) (q : Position) :
    (treePositions p).filter (i :: q).isPrefixOf =
      if p.2 = i then (p.1.positions.filter q.isPrefixOf).map (i :: ·) else [] := by
  rw [treePositions, List.filter_map]
  split
  · rename_i h
    rw [h]
    congr 2
    funext r
    simp [List.isPrefixOf]
  · rename_i h
    rw [List.map_eq_nil_iff, List.filter_eq_nil_iff]
    intro r _
    simp [List.isPrefixOf, Ne.symm h]

/-- What lies below a position is one block of several trees if it is one block of each. -/
theorem filter_flatMap_treePositions_infix {trees : List (MessageDescriptor × Nat)}
    (hindex : (trees.map Prod.snd).Nodup)
    (htrees : ∀ p ∈ trees, ∀ q : Position,
      p.1.positions.filter q.isPrefixOf <:+: p.1.positions) (q : Position) :
    (trees.flatMap treePositions).filter q.isPrefixOf <:+: trees.flatMap treePositions := by
  cases q with
  | nil => simp [List.isPrefixOf]
  | cons i q =>
    induction trees with
    | nil => simp
    | cons p trees ih =>
      rw [List.map_cons, List.nodup_cons] at hindex
      have hrest := ih hindex.2 fun p hp => htrees p (List.mem_cons_of_mem _ hp)
      rw [List.flatMap_cons, List.filter_append, filter_treePositions]
      split
      · -- The block is in the first tree, and no other tree has its index.
        rename_i h
        have hnone : (trees.flatMap treePositions).filter (i :: q).isPrefixOf = [] := by
          rw [List.filter_eq_nil_iff]
          intro r hr hprefix
          rw [List.isPrefixOf_iff_prefix] at hprefix
          obtain ⟨r, rfl⟩ := hprefix
          obtain ⟨m, hm, -⟩ := mem_flatMap_treePositions.mp hr
          exact hindex.1 (h ▸ List.mem_map_of_mem hm)
        rw [hnone, List.append_nil]
        have hblock := (htrees p List.mem_cons_self q).map (p.2 :: ·)
        rw [← h]
        exact hblock.trans (List.prefix_append _ _).isInfix
      · -- Nothing of the block is in the first tree.
        rw [List.nil_append]
        exact hrest.trans (List.suffix_append _ _).isInfix

/-- A message and all that is nested in it are one block. -/
theorem filter_positions_infix (m : MessageDescriptor) :
    ∀ q : Position, m.positions.filter q.isPrefixOf <:+: m.positions := by
  induction m using MessageDescriptor.tree_induction with
  | step m ih =>
    intro q
    cases q with
    | nil => simp [List.isPrefixOf]
    | cons i q =>
      rw [positions_eq]
      have hnested := filter_flatMap_treePositions_infix (nodup_map_snd_nested m)
        (fun p hp => ih p.1 (mem_nested_of_mem hp)) (i :: q)
      -- The message itself stands above, and so it is not in the block.
      have hroot : (([] : Position) :: m.nested.zipIdx.reverse.flatMap treePositions).filter
          (i :: q).isPrefixOf =
          (m.nested.zipIdx.reverse.flatMap treePositions).filter (i :: q).isPrefixOf := by
        simp [List.isPrefixOf]
      rw [hroot]
      exact hnested.trans (List.suffix_cons _ _).isInfix

/-! ## Depth first -/

/-- What it means that the positions `order` are those of the records of a forest, depth first. -/
structure DepthFirst (scope : String) (messages : List MessageDescriptor)
    (records : List MessageRecord) (order : List Position) : Prop where
  /-- The records are those of the messages at the positions, one for each. -/
  records : records.map some =
    order.map fun q => (at? (topLevel scope messages) q).map recordOf
  /-- Every message of the forest is there. -/
  mem_iff : ∀ q, q ∈ order ↔ (at? (topLevel scope messages) q).isSome
  /-- No message is there twice. -/
  nodup : order.Nodup
  /-- No message comes before one that it is nested in. -/
  ancestors_first : order.Pairwise fun q r => ¬ r <+: q
  /-- A message and all that is nested in it are one block. -/
  subtree_block : ∀ q : Position, order.filter q.isPrefixOf <:+: order

theorem mem_emissionOrder_iff (scope : String) (messages : List MessageDescriptor)
    (q : Position) : q ∈ emissionOrder messages ↔ (at? (topLevel scope messages) q).isSome := by
  cases q with
  | nil => simp [at?, emissionOrder, treePositions]
  | cons i q =>
    rw [emissionOrder, mem_flatMap_treePositions]
    simp only [List.mem_zipIdx_iff_getElem?, at?, topLevel, List.getElem?_map]
    cases hm : messages[i]? with
    | none => simp
    | some m => simp [mem_positions_iff m (qualify scope m.simpleName)]

theorem depthFirst_flattenMessages (scope : String) (messages : List MessageDescriptor) :
    DepthFirst scope messages (flattenMessages scope messages) (emissionOrder messages) where
  records := by
    have h := map_some_flatMap_walk scope messages messages.zipIdx (fun _ hp => hp)
      fun m _ => map_some_walk m
    rw [List.zipIdx_map_fst] at h
    rw [flattenMessages_eq_flatMap_walk, h, emissionOrder]
  mem_iff := mem_emissionOrder_iff scope messages
  nodup := by
    have h := pairwise_flatMap_treePositions (nodup_map_snd_zipIdx messages)
      fun p _ => pairwise_positions p.1
    refine h.imp ?_
    intro q r hprefix heq
    rw [heq] at hprefix
    exact hprefix List.prefix_rfl
  ancestors_first :=
    pairwise_flatMap_treePositions (nodup_map_snd_zipIdx messages)
      fun p _ => pairwise_positions p.1
  subtree_block :=
    filter_flatMap_treePositions_infix (nodup_map_snd_zipIdx messages)
      fun p _ => filter_positions_infix p.1

/-- **The loop walks the forest**: the records are those of the declaration trees one after the
    other, where the record of a message is followed by the trees nested in it from last to first.
    So they come depth first. -/
theorem flattenMessages_walks (scope : String) (messages : List MessageDescriptor) :
    flattenMessages scope messages =
        messages.flatMap (fun m => m.walk (qualify scope m.simpleName)) ∧
      (∀ full (m : MessageDescriptor), m.walk full = ⟨full, m.fieldRecords⟩ ::
        m.nested.reverse.flatMap fun c => c.walk (qualify full c.simpleName)) ∧
      DepthFirst scope messages (flattenMessages scope messages) (emissionOrder messages) :=
  ⟨flattenMessages_eq_flatMap_walk scope messages, MessageDescriptor.walk_eq,
    depthFirst_flattenMessages scope messages⟩

end SchemaSummary
