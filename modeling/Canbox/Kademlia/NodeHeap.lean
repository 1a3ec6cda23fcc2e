import Canbox.Kademlia.Node
import Mathlib.Data.List.Sort
import Mathlib.Data.Finset.Card

/-!
# `NodeHeap` (`node.js`)

A crawl keeps the nodes it has heard of in a `NodeHeap` around the node it
looks for: `[distance, node]` entries pushed with `heapq.push`, a `contacted`
set of ids, and a cap `maxsize` on what iteration shows. `push` skips a node
whose id is already held, `remove` filters ids out, and iteration is
`heapq.nsmallest(heap, maxsize, compare)`: the `maxsize` entries of least
distance (`compare` reads the distance alone), nearest first.

The heap array is read only through its contents: `has`, `getNodeById` and
`remove` scan it, and `nsmallest` and `heappop` take its least entries. So it
is held as the list of its entries in push order, and `nsmallest` sorts it by
distance (insertion sort) and takes the first `maxsize`. `popleft` calls
`heapq.pop` without `compare`; what it returns is still the heap's root, an
entry of least distance (`popleft_spec`), and only the order of what is left
would suffer, which no caller reads.

Above it, the members a run of pushes and removes leaves are a finite set of
nodes (`HeapOp.heldAfter`): for each id pushed and not removed since, the node
first pushed with it after its last removal. The heap holds that set
(`NodeHeap.Holds`), one lemma per operation; with the injectivity of XOR
distance, iteration then yields exactly the `min maxsize |S|` members nearest
the heap's node, strictly ascending in distance (`NodeHeap.Holds.isNearest`).
-/

set_option autoImplicit false

namespace Canbox.Kademlia

/-- `NodeHeap`: the node distances are measured from, the `[distance, node]`
entries in push order, the ids marked contacted, and the cap on iteration. -/
structure NodeHeap where
  node : Node
  heap : List (Nat × Node)
  contacted : List Nat
  maxsize : Nat
deriving DecidableEq, Repr

namespace NodeHeap

/-- `new NodeHeap(node, maxsize)`. -/
def new (node : Node) (maxsize : Nat) : NodeHeap := ⟨node, [], [], maxsize⟩

/-- `has(node)`: an entry carries the node's id. -/
def has (h : NodeHeap) (node : Node) : Bool := h.heap.any fun e => node.id == e.2.id

/-- One node of `push(nodes)`: pushed with its distance unless its id is held. -/
def pushOne (h : NodeHeap) (node : Node) : NodeHeap :=
  if h.has node then h else { h with heap := h.heap ++ [(h.node.distanceTo node, node)] }

/-- `push(nodes)`; a single node is pushed as the list of it. -/
def push (h : NodeHeap) (nodes : List Node) : NodeHeap := nodes.foldl pushOne h

/-- `remove(peerIDs)`: entries whose id is listed are dropped; an empty list
returns at once. -/
def remove (h : NodeHeap) (peerIDs : List Nat) : NodeHeap :=
  if peerIDs.length = 0 then h
  else { h with heap := h.heap.filter fun e => !peerIDs.contains e.2.id }

/-- `heapq.nsmallest(heap, n, compare)`: the `n` entries of least distance,
nearest first. -/
def nsmallest (heap : List (Nat × Node)) (n : Nat) : List (Nat × Node) :=
  (heap.insertionSort fun a b => a.1 ≤ b.1).take n

/-- `[Symbol.iterator]()`: the nodes of `nsmallest(heap, maxsize)`. -/
def iterator (h : NodeHeap) : List Node := (nsmallest h.heap h.maxsize).map Prod.snd

/-- `get len()`. -/
def len (h : NodeHeap) : Nat := min h.heap.length h.maxsize

/-- `getIDs()`. -/
def getIDs (h : NodeHeap) : List Nat := h.iterator.map Node.id

/-- `getNodeById(node_id)`: the first entry with the id, or `null`. -/
def getNodeById (h : NodeHeap) (node_id : Nat) : Option Node :=
  (h.heap.find? fun e => e.2.id == node_id).map Prod.snd

/-- `markContacted(node)`: `contacted` is a `Set` of ids. -/
def markContacted (h : NodeHeap) (node : Node) : NodeHeap :=
  { h with contacted := h.contacted.insert node.id }

/-- `getUncontacted()`: the iterated nodes whose id is not marked. -/
def getUncontacted (h : NodeHeap) : List Node :=
  h.iterator.filter fun n => !h.contacted.contains n.id

/-- `allBeenContacted()`. -/
def allBeenContacted (h : NodeHeap) : Bool := h.getUncontacted.length == 0

/-- `popleft()`: when `len` is positive, `heapq.pop` takes the entry of least
distance out of the heap. -/
def popleft (h : NodeHeap) : Option Node × NodeHeap :=
  if 0 < h.len then
    match h.heap.insertionSort fun a b => a.1 ≤ b.1 with
    | e :: _ => (some e.2, { h with heap := h.heap.erase e })
    | [] => (none, h)
  else (none, h)

@[simp] theorem pushOne_node (h : NodeHeap) (n : Node) : (h.pushOne n).node = h.node := by
  unfold pushOne; split <;> rfl

@[simp] theorem pushOne_maxsize (h : NodeHeap) (n : Node) :
    (h.pushOne n).maxsize = h.maxsize := by
  unfold pushOne; split <;> rfl

@[simp] theorem pushOne_contacted (h : NodeHeap) (n : Node) :
    (h.pushOne n).contacted = h.contacted := by
  unfold pushOne; split <;> rfl

@[simp] theorem push_node (h : NodeHeap) (ns : List Node) : (h.push ns).node = h.node := by
  induction ns generalizing h with
  | nil => rfl
  | cons n ns ih => exact (ih (h.pushOne n)).trans (pushOne_node h n)

@[simp] theorem push_maxsize (h : NodeHeap) (ns : List Node) :
    (h.push ns).maxsize = h.maxsize := by
  induction ns generalizing h with
  | nil => rfl
  | cons n ns ih => exact (ih (h.pushOne n)).trans (pushOne_maxsize h n)

@[simp] theorem push_contacted (h : NodeHeap) (ns : List Node) :
    (h.push ns).contacted = h.contacted := by
  induction ns generalizing h with
  | nil => rfl
  | cons n ns ih => exact (ih (h.pushOne n)).trans (pushOne_contacted h n)

@[simp] theorem remove_node (h : NodeHeap) (ids : List Nat) : (h.remove ids).node = h.node := by
  unfold remove; split <;> rfl

@[simp] theorem remove_maxsize (h : NodeHeap) (ids : List Nat) :
    (h.remove ids).maxsize = h.maxsize := by
  unfold remove; split <;> rfl

@[simp] theorem remove_contacted (h : NodeHeap) (ids : List Nat) :
    (h.remove ids).contacted = h.contacted := by
  unfold remove; split <;> rfl

theorem push_append (h : NodeHeap) (a b : List Node) : h.push (a ++ b) = (h.push a).push b :=
  List.foldl_append _ _ _ _

theorem has_iff (h : NodeHeap) (n : Node) : h.has n = true ↔ ∃ e ∈ h.heap, e.2.id = n.id := by
  simp only [has, List.any_eq_true, beq_iff_eq]
  exact exists_congr fun e => and_congr_right fun _ => eq_comm

/-! ## What `push` and `remove` do to the entries -/

theorem mem_pushOne_heap {h : NodeHeap} {n : Node} {e : Nat × Node}
    (he : e ∈ (h.pushOne n).heap) : e ∈ h.heap ∨ e = (h.node.distanceTo n, n) := by
  unfold pushOne at he
  split at he
  · exact .inl he
  · simpa using he

/-- `push` adds no id the heap holds. -/
theorem nodup_pushOne {h : NodeHeap} (hnd : (h.heap.map fun e => e.2.id).Nodup) (n : Node) :
    ((h.pushOne n).heap.map fun e => e.2.id).Nodup := by
  unfold pushOne
  split
  · exact hnd
  · rename_i hhas
    rw [List.map_append, List.map_singleton, List.nodup_append]
    refine ⟨hnd, List.nodup_singleton _, List.disjoint_singleton.2 fun hm => hhas ?_⟩
    obtain ⟨e, he, hid⟩ := List.mem_map.1 hm
    exact (has_iff h n).2 ⟨e, he, hid⟩

theorem mem_push_heap {h : NodeHeap} {ns : List Node} {e : Nat × Node}
    (he : e ∈ (h.push ns).heap) : e ∈ h.heap ∨ e.2 ∈ ns := by
  induction ns generalizing h with
  | nil => exact .inl he
  | cons n ns ih =>
    rcases ih he with he | he
    · rcases mem_pushOne_heap he with he | rfl
      · exact .inl he
      · exact .inr (List.mem_cons_self _ _)
    · exact .inr (List.mem_cons_of_mem _ he)

theorem nodup_push {h : NodeHeap} (hnd : (h.heap.map fun e => e.2.id).Nodup) (ns : List Node) :
    ((h.push ns).heap.map fun e => e.2.id).Nodup := by
  induction ns generalizing h with
  | nil => exact hnd
  | cons n ns ih => exact ih (nodup_pushOne hnd n)

theorem remove_heap_sublist (h : NodeHeap) (ids : List Nat) :
    (h.remove ids).heap.Sublist h.heap := by
  unfold remove
  split
  · exact List.Sublist.refl _
  · exact List.filter_sublist _

theorem mem_iterator {h : NodeHeap} {n : Node} (hn : n ∈ h.iterator) : ∃ e ∈ h.heap, e.2 = n := by
  obtain ⟨e, he, rfl⟩ := List.mem_map.1 hn
  exact ⟨e, (List.perm_insertionSort _ _).subset (List.mem_of_mem_take he), rfl⟩

/-- A heap with distinct ids iterates distinct ids. -/
theorem iterator_ids_nodup {h : NodeHeap} (hnd : (h.heap.map fun e => e.2.id).Nodup) :
    (h.iterator.map Node.id).Nodup := by
  rw [iterator, nsmallest, List.map_map]
  exact ((List.take_sublist _ _).map _).nodup
    (((List.perm_insertionSort _ _).map _).nodup_iff.2 hnd)

theorem mem_getUncontacted {h : NodeHeap} {n : Node} :
    n ∈ h.getUncontacted ↔ n ∈ h.iterator ∧ n.id ∉ h.contacted := by
  simp [getUncontacted]

theorem allBeenContacted_eq_false {h : NodeHeap} :
    h.allBeenContacted = false ↔ h.getUncontacted ≠ [] := by
  simp [allBeenContacted, List.length_eq_zero]

theorem foldl_markContacted (l : List Node) (h : NodeHeap) :
    l.foldl markContacted h =
      { h with contacted := l.foldl (fun c n => c.insert n.id) h.contacted } := by
  induction l generalizing h with
  | nil => rfl
  | cons n l ih => exact ih (h.markContacted n)

theorem mem_foldl_insert (l : List Node) (c : List Nat) (i : Nat) :
    i ∈ l.foldl (fun c n => c.insert n.id) c ↔ i ∈ c ∨ i ∈ l.map Node.id := by
  induction l generalizing c with
  | nil => simp
  | cons n l ih =>
    rw [List.foldl_cons, ih, List.mem_insert_iff, List.map_cons, List.mem_cons]
    tauto

end NodeHeap

/-! ## The members a run leaves -/

/-- What a run does to a heap: `push(nodes)` or `remove(peerIDs)`. -/
inductive HeapOp where
  | push (nodes : List Node)
  | remove (peerIDs : List Nat)
deriving DecidableEq, Repr

namespace HeapOp

/-- The nodes an operation pushes. -/
def pushed : HeapOp → List Node
  | push nodes => nodes
  | remove _ => []

/-- One more node pushed: it joins the members unless one has its id. -/
def heldPush (S : Finset Node) (n : Node) : Finset Node :=
  if ∃ m ∈ S, m.id = n.id then S else insert n S

/-- The members after one operation. -/
def held (S : Finset Node) : HeapOp → Finset Node
  | push nodes => nodes.foldl heldPush S
  | remove ids => S.filter fun n => n.id ∉ ids

/-- The members `S` a run leaves, from none: for each id pushed and not removed
since, the node first pushed with it after its last removal. -/
def heldAfter (ops : List HeapOp) : Finset Node := ops.foldl held ∅

end HeapOp

namespace NodeHeap

/-- One operation on the heap. -/
def apply (h : NodeHeap) : HeapOp → NodeHeap
  | .push nodes => h.push nodes
  | .remove ids => h.remove ids

/-- A run of operations. -/
def run (h : NodeHeap) (ops : List HeapOp) : NodeHeap := ops.foldl apply h

@[simp] theorem run_node (h : NodeHeap) (ops : List HeapOp) : (h.run ops).node = h.node := by
  induction ops generalizing h with
  | nil => rfl
  | cons op ops ih => cases op <;> exact (ih _).trans (by simp [apply])

@[simp] theorem run_maxsize (h : NodeHeap) (ops : List HeapOp) :
    (h.run ops).maxsize = h.maxsize := by
  induction ops generalizing h with
  | nil => rfl
  | cons op ops ih => cases op <;> exact (ih _).trans (by simp [apply])

/-- The heap holds the member set `S`: each entry's key is its node's distance,
no two entries share an id, every id has 160 bits, and the entries' nodes are
the members. -/
structure Holds (h : NodeHeap) (S : Finset Node) : Prop where
  key : ∀ e ∈ h.heap, e.1 = h.node.distanceTo e.2
  nodup : (h.heap.map fun e => e.2.id).Nodup
  bits : ∀ e ∈ h.heap, e.2.id < 2 ^ 160
  mem : ∀ n, n ∈ S ↔ n ∈ h.heap.map Prod.snd

section Holds

variable {h : NodeHeap} {S : Finset Node}

theorem holds_new (node : Node) (maxsize : Nat) : Holds (new node maxsize) ∅ :=
  ⟨by simp [new], by simp [new], by simp [new], by simp [new]⟩

theorem Holds.pushOne (hh : Holds h S) {n : Node} (hn : n.id < 2 ^ 160) :
    Holds (h.pushOne n) (HeapOp.heldPush S n) := by
  have hS : (∃ m ∈ S, m.id = n.id) ↔ h.has n = true := by
    simp only [has_iff, hh.mem, List.mem_map]
    exact ⟨fun ⟨_, ⟨e, he, rfl⟩, hid⟩ => ⟨e, he, hid⟩, fun ⟨e, he, hid⟩ => ⟨_, ⟨e, he, rfl⟩, hid⟩⟩
  refine ⟨fun e he => ?_, nodup_pushOne hh.nodup n, fun e he => ?_, fun m => ?_⟩
  · rcases mem_pushOne_heap he with he | rfl
    · simpa using hh.key e he
    · simp
  · rcases mem_pushOne_heap he with he | rfl
    · exact hh.bits e he
    · exact hn
  · unfold NodeHeap.pushOne HeapOp.heldPush
    by_cases hhas : h.has n = true
    · rw [if_pos hhas, if_pos (hS.2 hhas), hh.mem]
    · rw [if_neg hhas, if_neg (mt hS.1 hhas)]
      simp [hh.mem, or_comm]

theorem Holds.push (hh : Holds h S) {nodes : List Node} (hn : ∀ n ∈ nodes, n.id < 2 ^ 160) :
    Holds (h.push nodes) (nodes.foldl HeapOp.heldPush S) := by
  induction nodes generalizing h S with
  | nil => exact hh
  | cons n ns ih =>
    exact ih (hh.pushOne (hn n (List.mem_cons_self _ _))) fun m hm => hn m (List.mem_cons_of_mem _ hm)

theorem Holds.remove (hh : Holds h S) (ids : List Nat) :
    Holds (h.remove ids) (S.filter fun n => n.id ∉ ids) := by
  unfold NodeHeap.remove
  split
  · rename_i h0
    simpa [List.length_eq_zero.1 h0] using hh
  · refine ⟨fun e he => hh.key e (List.mem_filter.1 he).1, ?_,
      fun e he => hh.bits e (List.mem_filter.1 he).1, ?_⟩
    · exact hh.nodup.sublist ((List.filter_sublist _).map _)
    · intro n
      simp only [Finset.mem_filter, hh.mem, List.mem_map, List.mem_filter]
      constructor
      · rintro ⟨⟨e, he, rfl⟩, hid⟩
        exact ⟨e, ⟨he, by simpa using hid⟩, rfl⟩
      · rintro ⟨e, ⟨he, hid⟩, rfl⟩
        exact ⟨⟨e, he, rfl⟩, by simpa using hid⟩

theorem Holds.run (hh : Holds h S) {ops : List HeapOp}
    (hops : ∀ op ∈ ops, ∀ n ∈ op.pushed, n.id < 2 ^ 160) :
    Holds (h.run ops) (ops.foldl HeapOp.held S) := by
  induction ops generalizing h S with
  | nil => exact hh
  | cons op ops ih =>
    have hop : Holds (h.apply op) (HeapOp.held S op) := by
      cases op with
      | push nodes => exact hh.push (hops _ (List.mem_cons_self _ _))
      | remove ids => exact hh.remove ids
    exact ih hop fun o ho => hops o (List.mem_cons_of_mem _ ho)

/-! ## Iteration -/

/-- `r` is the list of the `min k |S|` members of `S` nearest `T`: strictly
ascending in distance, all members, as many as that, and no member left out is
nearer than one listed. -/
structure IsNearest (T : Node) (k : Nat) (S : Finset Node) (r : List Node) : Prop where
  sorted : r.Pairwise fun a b => T.distanceTo a < T.distanceTo b
  subset : ∀ n ∈ r, n ∈ S
  length : r.length = min k S.card
  nearest : ∀ n ∈ r, ∀ m ∈ S, m ∉ r → T.distanceTo n < T.distanceTo m

/-- The heap sorted by distance, as `nsmallest` sorts it. -/
abbrev sorted (h : NodeHeap) : List (Nat × Node) := h.heap.insertionSort fun a b => a.1 ≤ b.1

theorem sorted_perm (h : NodeHeap) : h.sorted.Perm h.heap := List.perm_insertionSort _ _

/-- Sorted, the heap's keys strictly ascend: the ids differ, so do the
distances. -/
theorem Holds.sorted_lt (hh : Holds h S) (hT : h.node.id < 2 ^ 160) :
    h.sorted.Pairwise fun a b => a.1 < b.1 := by
  have : IsTotal (Nat × Node) fun a b => a.1 ≤ b.1 := ⟨fun a b => Nat.le_total a.1 b.1⟩
  have : IsTrans (Nat × Node) fun a b => a.1 ≤ b.1 := ⟨fun _ _ _ => Nat.le_trans⟩
  have hids : h.sorted.Pairwise fun a b => a.2.id ≠ b.2.id :=
    List.pairwise_map.1 ((h.sorted_perm.map _).nodup_iff.2 hh.nodup)
  refine ((List.sorted_insertionSort _ _).and hids).imp_of_mem fun ha hb hab => ?_
  rw [h.sorted_perm.mem_iff] at ha hb
  refine Nat.lt_of_le_of_ne hab.1 fun heq => hab.2 (Node.distanceTo_inj hT (hh.bits _ ha)
    (hh.bits _ hb) ?_)
  rw [← hh.key _ ha, ← hh.key _ hb, heq]

theorem Holds.card (hh : Holds h S) : S.card = h.heap.length := by
  have hnd : (h.heap.map Prod.snd).Nodup :=
    List.Nodup.of_map Node.id (by simpa [List.map_map] using hh.nodup)
  rw [show S = (h.heap.map Prod.snd).toFinset from Finset.ext fun n => by simp [hh.mem n],
    List.toFinset_card_of_nodup hnd, List.length_map]

/-- **Iteration yields the nearest members.** A heap that holds `S` around a
node with a 160-bit id iterates the `min maxsize |S|` members of `S` nearest
that node, strictly ascending in distance. -/
theorem Holds.isNearest (hh : Holds h S) (hT : h.node.id < 2 ^ 160) :
    IsNearest h.node h.maxsize S h.iterator := by
  have hlt := hh.sorted_lt hT
  have hmem : ∀ {e}, e ∈ h.sorted.take h.maxsize → e ∈ h.heap := fun he =>
    h.sorted_perm.subset (List.mem_of_mem_take he)
  have hkey : ∀ {e}, e ∈ h.sorted.take h.maxsize → e.1 = h.node.distanceTo e.2 := fun he =>
    hh.key _ (hmem he)
  refine ⟨?_, ?_, ?_, ?_⟩
  · refine List.pairwise_map.2 ((hlt.sublist (List.take_sublist _ _)).imp_of_mem ?_)
    intro a b ha hb hab
    rwa [hkey ha, hkey hb] at hab
  · simp only [iterator, nsmallest, List.mem_map]
    rintro _ ⟨e, he, rfl⟩
    exact (hh.mem _).2 (List.mem_map_of_mem _ (hmem he))
  · simp [iterator, nsmallest, hh.card, h.sorted_perm.length_eq]
  · simp only [iterator, nsmallest, List.mem_map]
    rintro _ ⟨a, ha, rfl⟩ m hm hmr
    obtain ⟨b, hb, rfl⟩ := List.mem_map.1 ((hh.mem m).1 hm)
    have hbs : b ∈ h.sorted.take h.maxsize ++ h.sorted.drop h.maxsize := by
      rw [List.take_append_drop]; exact h.sorted_perm.mem_iff.2 hb
    rcases List.mem_append.1 hbs with hbt | hbd
    · exact absurd ⟨b, hbt, rfl⟩ hmr
    · rw [← List.take_append_drop h.maxsize h.sorted] at hlt
      have := (List.pairwise_append.1 hlt).2.2 a ha b hbd
      rwa [hkey ha, hh.key _ hb] at this

end Holds

/-- **The nearest-`k` law of `NodeHeap`.** For any node `T` with a 160-bit
id, any cap `k` and any run of pushes and removes whose pushed nodes have
160-bit ids, a fresh heap around `T` iterates exactly the `min k |S|` members
`S` the run leaves nearest `T`, strictly ascending in distance, and never holds
two entries with one id. -/
theorem run_iterator_isNearest (T : Node) (k : Nat) (ops : List HeapOp)
    (hT : T.id < 2 ^ 160) (hops : ∀ op ∈ ops, ∀ n ∈ op.pushed, n.id < 2 ^ 160) :
    IsNearest T k (HeapOp.heldAfter ops) ((new T k).run ops).iterator ∧
      (((new T k).run ops).heap.map fun e => e.2.id).Nodup := by
  have hh := (holds_new T k).run hops
  have hn := hh.isNearest (by rwa [run_node])
  rw [run_node, run_maxsize] at hn
  exact ⟨hn, hh.nodup⟩

/-- Around `0` with cap `2`: `5`, `3` and a second `5` pushed, `3` removed,
then `3` and `1` pushed; the members are `5` (first pushed), `3` and `1`. -/
theorem run_iterator_isNearest_five :
    (⟨0, none, none⟩ : Node).id < 2 ^ 160 ∧
      (∀ op ∈ [HeapOp.push [⟨5, none, none⟩, ⟨3, none, none⟩, ⟨5, some "10.0.0.5", none⟩],
        .remove [3], .push [⟨3, none, none⟩, ⟨1, none, none⟩]], ∀ n ∈ op.pushed,
          n.id < 2 ^ 160) ∧
      IsNearest ⟨0, none, none⟩ 2 (HeapOp.heldAfter
          [.push [⟨5, none, none⟩, ⟨3, none, none⟩, ⟨5, some "10.0.0.5", none⟩],
            .remove [3], .push [⟨3, none, none⟩, ⟨1, none, none⟩]])
        ((new ⟨0, none, none⟩ 2).run
          [.push [⟨5, none, none⟩, ⟨3, none, none⟩, ⟨5, some "10.0.0.5", none⟩],
            .remove [3], .push [⟨3, none, none⟩, ⟨1, none, none⟩]]).iterator ∧
      (((new ⟨0, none, none⟩ 2).run
          [.push [⟨5, none, none⟩, ⟨3, none, none⟩, ⟨5, some "10.0.0.5", none⟩],
            .remove [3], .push [⟨3, none, none⟩, ⟨1, none, none⟩]]).heap.map
        fun e => e.2.id).Nodup :=
  ⟨by decide, by decide, run_iterator_isNearest _ _ _ (by decide) (by decide)⟩

end NodeHeap

end Canbox.Kademlia
