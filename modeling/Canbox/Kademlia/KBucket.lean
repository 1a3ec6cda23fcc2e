import Canbox.Kademlia.Node

/-!
# `KBucket` (`routing.js`)

A bucket is a range of ids, a `Map` of at most `ksize` nodes keyed by id, a
replacement cache, and the time it was last touched. This file renders its
methods and gives each the small lemmas the table-level proofs use instead of
unfolding it: what `addNode` and `removeNode` do to the size of the main set,
and that `split` hands every node to exactly one half.

`split` is rendered as two filters of the node list. The source builds two fresh
`Map`s by `set` in the old map's order, which for distinct keys is the same
thing. Its test is `midpoint.gt(id, 16)`: an id *below* the midpoint goes to the
first half and every other id, the midpoint itself among them, to the second,
whose range starts at `midpoint + 1`.
-/

set_option autoImplicit false

namespace Canbox.Kademlia

/-! ## The node map -/

/-- `KBucket.nodes`: a JS `Map` from node id to node, in insertion order. Ids
are its keys, so they are distinct. -/
structure NodeMap where
  values : List Node
  nodup : (values.map Node.id).Nodup
deriving DecidableEq

namespace NodeMap

/-- `new Map`. -/
def empty : NodeMap := ⟨[], List.nodup_nil⟩

/-- `keys()`. -/
def keys (m : NodeMap) : List Nat := m.values.map Node.id

/-- `size`. -/
def size (m : NodeMap) : Nat := m.values.length

/-- `has(id)`. -/
def has (m : NodeMap) (id : Nat) : Bool := decide (id ∈ m.keys)

/-- `delete(id)`. -/
def delete (m : NodeMap) (id : Nat) : NodeMap :=
  ⟨m.values.filter (·.id ≠ id), ((List.filter_sublist _).map _).nodup m.nodup⟩

theorem nodup_map_replace (m : NodeMap) (n : Node) :
    ((m.values.map fun x => if x.id = n.id then n else x).map Node.id).Nodup := by
  rw [List.map_map]
  convert m.nodup using 1
  refine List.map_congr_left fun x _ => ?_
  by_cases h : x.id = n.id <;> simp [h]

/-- `set(id, node)`: the value of a present key is replaced where it stands; a
new key goes to the end. -/
def set (m : NodeMap) (n : Node) : NodeMap :=
  if h : n.id ∈ m.keys then ⟨m.values.map fun x => if x.id = n.id then n else x, nodup_map_replace m n⟩
  else ⟨m.values ++ [n], by
    rw [List.map_append]
    exact List.nodup_append.2 ⟨m.nodup, List.nodup_singleton _,
      fun _ hx hx' => h (List.mem_singleton.1 hx' ▸ hx)⟩⟩

/-- The nodes a predicate keeps, in order. -/
def filter (m : NodeMap) (p : Node → Bool) : NodeMap :=
  ⟨m.values.filter p, ((List.filter_sublist _).map _).nodup m.nodup⟩

@[simp] theorem values_empty : empty.values = [] := rfl

@[simp] theorem has_eq {m : NodeMap} {id : Nat} : m.has id = decide (id ∈ m.keys) := rfl

@[simp] theorem values_filter (m : NodeMap) (p : Node → Bool) :
    (m.filter p).values = m.values.filter p := rfl

theorem size_set_le (m : NodeMap) (n : Node) : (m.set n).size ≤ m.size + 1 := by
  unfold set size; split <;> simp

theorem size_set_of_mem {m : NodeMap} {n : Node} (h : n.id ∈ m.keys) : (m.set n).size = m.size := by
  simp [set, size, h]

theorem size_delete_le (m : NodeMap) (id : Nat) : (m.delete id).size ≤ m.size :=
  List.length_filter_le _ _

/-- Deleting a present key shrinks the map. -/
theorem size_delete_lt {m : NodeMap} {id : Nat} (h : id ∈ m.keys) : (m.delete id).size < m.size := by
  obtain ⟨x, hx, rfl⟩ := List.mem_map.1 h
  exact List.length_filter_lt_length_iff_exists.2 ⟨x, hx, by simp⟩

theorem size_filter_le (m : NodeMap) (p : Node → Bool) : (m.filter p).size ≤ m.size :=
  List.length_filter_le _ _

/-- Every node of `set m n` is `n` or a node of `m`. -/
theorem mem_set {m : NodeMap} {n x : Node} (hx : x ∈ (m.set n).values) : x = n ∨ x ∈ m.values := by
  unfold set at hx
  split at hx
  · obtain ⟨y, hy, rfl⟩ := List.mem_map.1 hx
    by_cases h : y.id = n.id <;> simp [h, hy]
  · simpa [or_comm] using hx

end NodeMap

/-! ## The bucket -/

/-- `KBucket`: its `range` in `10⁻²⁰`s, the main set, the replacement cache,
`lastUpdated`, and the `ksize` it was built with. -/
structure KBucket where
  range : Nat × Nat
  nodes : NodeMap
  replacementNodes : OrderedSet Node
  lastUpdated : Int
  ksize : Nat
deriving DecidableEq

namespace KBucket

/-- `new KBucket(rangeLower, rangeUpper, ksize)`, built when the clock reads
`now`. -/
def new (rangeLower rangeUpper ksize : Nat) (now : Int) : KBucket :=
  ⟨(rangeLower, rangeUpper), .empty, .empty, now, ksize⟩

/-- `touchLastUpdated()`. -/
def touchLastUpdated (b : KBucket) (now : Int) : KBucket := { b with lastUpdated := now }

/-- `getNodes()`. -/
def getNodes (b : KBucket) : List Node := b.nodes.values

/-- `len`. -/
def len (b : KBucket) : Nat := b.nodes.size

/-- `split()`: both halves are built at `now`, with empty replacement caches. -/
def split (b : KBucket) (now : Int) : KBucket × KBucket :=
  let midpoint := half (b.range.1 + b.range.2)
  (⟨(b.range.1, midpoint), b.nodes.filter (fun n => BN n.id < midpoint), .empty, now, b.ksize⟩,
   ⟨(midpoint + unit, b.range.2), b.nodes.filter (fun n => ¬ BN n.id < midpoint), .empty, now,
    b.ksize⟩)

/-- `removeNode(node)`: a present node is deleted and, if the cache is not
empty, its newest entry is promoted into the main set. -/
def removeNode (b : KBucket) (node : Node) : KBucket :=
  if node.id ∈ b.nodes.keys then
    match b.replacementNodes.pop with
    | some (newnode, rest) =>
      { b with nodes := (b.nodes.delete node.id).set newnode, replacementNodes := rest }
    | none => { b with nodes := b.nodes.delete node.id }
  else b

/-- `hasInRange(node)`. -/
def hasInRange (b : KBucket) (node : Node) : Bool :=
  b.range.1 ≤ BN node.id && BN node.id ≤ b.range.2

/-- `isNewNode(node)`. -/
def isNewNode (b : KBucket) (node : Node) : Bool := !b.nodes.has node.id

/-- `addNode(node)`: a present node moves to the tail, a new one is appended
while there is room, and otherwise it goes to the replacement cache and the call
answers `false`. -/
def addNode (b : KBucket) (node : Node) : Bool × KBucket :=
  if node.id ∈ b.nodes.keys then (true, { b with nodes := (b.nodes.delete node.id).set node })
  else if b.len < b.ksize then (true, { b with nodes := b.nodes.set node })
  else (false, { b with replacementNodes := b.replacementNodes.push node })

/-- `depth()`: the length of the bit prefix the node ids share. An empty bucket
throws, in `sharedPrefix`. -/
def depth (b : KBucket) : Option Nat :=
  (sharedPrefix (b.nodes.keys.map fun id => bytesToBitString (idBytes id))).map List.length

/-- `head()`. -/
def head (b : KBucket) : Option Node := b.getNodes.head?

/-! ### What each method does to the fields -/

@[simp] theorem split_fst_range (b : KBucket) (now : Int) :
    (b.split now).1.range = (b.range.1, half (b.range.1 + b.range.2)) := rfl
@[simp] theorem split_snd_range (b : KBucket) (now : Int) :
    (b.split now).2.range = (half (b.range.1 + b.range.2) + unit, b.range.2) := rfl
@[simp] theorem split_fst_ksize (b : KBucket) (now : Int) : (b.split now).1.ksize = b.ksize := rfl
@[simp] theorem split_snd_ksize (b : KBucket) (now : Int) : (b.split now).2.ksize = b.ksize := rfl
@[simp] theorem removeNode_ksize (b : KBucket) (n : Node) : (b.removeNode n).ksize = b.ksize := by
  unfold removeNode; split <;> [split <;> rfl; rfl]
@[simp] theorem addNode_ksize (b : KBucket) (n : Node) : (b.addNode n).2.ksize = b.ksize := by
  unfold addNode; split_ifs <;> rfl
@[simp] theorem addNode_range (b : KBucket) (n : Node) : (b.addNode n).2.range = b.range := by
  unfold addNode; split_ifs <;> rfl

/-- `addNode` answers `false` exactly when the node is new and the bucket full,
and then only the cache changes. -/
theorem addNode_false {b b' : KBucket} {n : Node} (h : b.addNode n = (false, b')) :
    n.id ∉ b.nodes.keys ∧ b.ksize ≤ b.len ∧
      b' = { b with replacementNodes := b.replacementNodes.push n } := by
  unfold addNode at h
  split_ifs at h with h1 h2 <;> cases h
  exact ⟨h1, Nat.le_of_not_lt h2, rfl⟩

/-! ### The size of the main set -/

/-- `addNode` keeps the main set within `ksize` if it was. -/
theorem len_addNode_le {b : KBucket} (n : Node) (h : b.len ≤ b.ksize) :
    (b.addNode n).2.len ≤ b.ksize := by
  unfold addNode
  unfold len at *
  split_ifs with h1 h2
  · have := NodeMap.size_delete_lt h1
    have := NodeMap.size_set_le (b.nodes.delete n.id) n
    dsimp only; omega
  · have := NodeMap.size_set_le b.nodes n
    dsimp only; omega
  · exact h

/-- `removeNode` never grows the main set: a promotion refills the slot the
removed node left. -/
theorem len_removeNode_le (b : KBucket) (n : Node) : (b.removeNode n).len ≤ b.len := by
  unfold removeNode len
  split
  · rename_i hmem
    have := NodeMap.size_delete_lt hmem
    split
    · exact Nat.le_trans (NodeMap.size_set_le _ _) (by omega)
    · exact Nat.le_of_lt this
  · exact Nat.le_refl _

theorem len_split_fst_le (b : KBucket) (now : Int) : (b.split now).1.len ≤ b.len :=
  NodeMap.size_filter_le _ _

theorem len_split_snd_le (b : KBucket) (now : Int) : (b.split now).2.len ≤ b.len :=
  NodeMap.size_filter_le _ _

/-! ### The size of the replacement cache -/

@[simp] theorem split_fst_replacementNodes (b : KBucket) (now : Int) :
    (b.split now).1.replacementNodes = .empty := rfl
@[simp] theorem split_snd_replacementNodes (b : KBucket) (now : Int) :
    (b.split now).2.replacementNodes = .empty := rfl

/-- When `addNode` succeeds the cache is as it was. -/
theorem replacementNodes_addNode_of_true {b : KBucket} {n : Node} (h : (b.addNode n).1 = true) :
    (b.addNode n).2.replacementNodes = b.replacementNodes := by
  unfold addNode at *
  split_ifs at * <;> rfl

/-- `addNode` pushes at most the node it is given onto the cache. -/
theorem size_addNode_le (b : KBucket) (n : Node) :
    (b.addNode n).2.replacementNodes.size ≤ b.replacementNodes.size + 1 := by
  unfold addNode
  split_ifs
  · exact Nat.le_succ _
  · exact Nat.le_succ _
  · exact OrderedSet.size_push_le _ _

/-- `removeNode` never grows the cache: a promotion pops from it. -/
theorem size_removeNode_le (b : KBucket) (n : Node) :
    (b.removeNode n).replacementNodes.size ≤ b.replacementNodes.size := by
  unfold removeNode
  split
  · split
    · rename_i hpop
      simp only [OrderedSet.size, (OrderedSet.pop_eq_some hpop).1, List.length_dropLast]
      omega
    · exact le_rfl
  · exact le_rfl

end KBucket

end Canbox.Kademlia
