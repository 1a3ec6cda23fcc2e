import Canbox.Kademlia.KBucket
import Mathlib.Data.List.Sort

/-!
# `RoutingTable` (`routing.js`)

The table is the local node, `ksize`, and the list of buckets; `protocol` is
only used to ping, and a ping is returned to the caller as the node to ping.

`addContact` calls itself after every split. Its body is `addContactStep`, which
ends in one of three ways (`AddStep`), and `addContact fuel` runs it until it
stops splitting, or answers `none` when the fuel runs out or the body throws.
The tables the code can build are the `Reachable` ones: `flush()`, then any
sequence of `addContact` calls that return and of `removeContact` calls.

Everything proved of the buckets of reachable tables goes through
`Reachable.forall_bucket` and `Reachable.rec`, from one lemma per operation:
`addContactStep_cases` says once what a pass can do, and the run lemma
`addContact_preserves` lifts it over the recursion.
-/

set_option autoImplicit false

namespace Canbox.Kademlia

/-- `RoutingTable`: the node that represents this server, `ksize`, and the
buckets, in order. -/
structure RoutingTable where
  node : Node
  ksize : Nat
  buckets : List KBucket
deriving DecidableEq

/-- What one pass through the body of `addContact` ends in. -/
inductive AddStep where
  /-- `bucket.addNode(node)` succeeded. -/
  | added (t : RoutingTable)
  /-- The bucket was full and is not split: `callPing(bucket.head())`. -/
  | pinged (t : RoutingTable) (head : Node)
  /-- The bucket was full and has been split; the call goes round again. -/
  | split (t : RoutingTable)

/-- The table a pass leaves, however it ended. -/
def AddStep.table : AddStep → RoutingTable
  | .added t | .pinged t _ | .split t => t

namespace RoutingTable

/-- `flush()`, which the constructor calls: one bucket over `[0, 2 ^ 160]`. -/
def flush (node : Node) (ksize : Nat) (now : Int) : RoutingTable :=
  ⟨node, ksize, [KBucket.new (BN 0) (BN (2 ^ 160)) ksize now]⟩

/-- `this.buckets[index] = b`. -/
def setBucket (t : RoutingTable) (index : Nat) (b : KBucket) : RoutingTable :=
  { t with buckets := t.buckets.set index b }

/-- `splitBucket(index)`: the bucket is replaced by its two halves, in order. -/
def splitBucket (t : RoutingTable) (index : Nat) (now : Int) : Option RoutingTable := do
  let b ← t.buckets[index]?
  let (one, two) := b.split now
  pure { t with buckets := t.buckets.take index ++ [one, two] ++ t.buckets.drop (index + 1) }

/-- `getBucketFor(node)`: the first bucket whose upper bound is at least the
id; `undefined` past the last bucket. -/
def getBucketFor (t : RoutingTable) (node : Node) : Option Nat :=
  t.buckets.findIdx? fun b => BN node.id ≤ b.range.2

/-- `getLonelyBuckets()`: the buckets not touched in the hour before `now`. -/
def getLonelyBuckets (t : RoutingTable) (now : Int) : List KBucket :=
  t.buckets.filter fun b => b.lastUpdated < now - 3600000

/-- `removeContact(node)`. -/
def removeContact (t : RoutingTable) (node : Node) : Option RoutingTable := do
  let index ← t.getBucketFor node
  let bucket ← t.buckets[index]?
  pure (t.setBucket index (bucket.removeNode node))

/-- `isNewNode(node)`. -/
def isNewNode (t : RoutingTable) (node : Node) : Option Bool := do
  let index ← t.getBucketFor node
  let bucket ← t.buckets[index]?
  pure (bucket.isNewNode node)

/-- One pass through `addContact(node)`. The bucket is split when it covers the
local node or its depth is not a multiple of 5; `depth()` runs in either case,
before the test. `none` is a throw. -/
def addContactStep (t : RoutingTable) (node : Node) (now : Int) : Option AddStep := do
  let index ← t.getBucketFor node
  let bucket ← t.buckets[index]?
  match bucket.addNode node with
  | (true, b) => pure (.added (t.setBucket index b))
  | (false, b) =>
    let rng := b.hasInRange t.node
    let mod := decide ((← b.depth) % 5 ≠ 0)
    if rng || mod then .split <$> (t.setBucket index b).splitBucket index now
    else .pinged (t.setBucket index b) <$> b.head

/-- `addContact(node)`, going round after each split while `fuel` lasts. It
answers the new table and the node it pinged, if any. -/
def addContact : Nat → RoutingTable → Node → Int → Option (RoutingTable × Option Node)
  | 0, _, _, _ => none
  | fuel + 1, t, node, now =>
    match t.addContactStep node now with
    | some (.added t') => some (t', none)
    | some (.pinged t' head) => some (t', some head)
    | some (.split t') => addContact fuel t' node now
    | none => none

/-- The rest of a `TableTraverser`'s iteration, once the start bucket's nodes
are used up: while it is the left side's turn and a bucket is left there, the
nearest one on the left; otherwise the last one on the right, which hands the
turn back to the left. It stops when the right side has none left. Each
bucket's nodes come popped from the end. -/
def TableTraverser.rest : Nat → List KBucket → List KBucket → Bool → List Node
  | 0, _, _, _ => []
  | n + 1, leftBuckets, rightBuckets, left =>
    match left, leftBuckets.getLast?, rightBuckets.getLast? with
    | true, some b, _ => b.getNodes.reverse ++ rest n leftBuckets.dropLast rightBuckets false
    | _, _, some b => b.getNodes.reverse ++ rest n leftBuckets rightBuckets.dropLast true
    | _, _, none => []

/-- The nodes a `TableTraverser` started at bucket `index` yields, in order. -/
def traversal (t : RoutingTable) (index : Nat) (start : KBucket) : List Node :=
  start.getNodes.reverse ++
    TableTraverser.rest t.buckets.length (t.buckets.take index) (t.buckets.drop (index + 1)) true

/-- The loop of `findNeighbors`: the nodes kept, in the order met, up to the
first time `k` are kept. -/
def collectNeighbors (k : Nat) (keep : Node → Bool) : List Node → List Node → List Node
  | nodes, [] => nodes
  | nodes, neighbor :: rest =>
    let nodes := if keep neighbor then nodes ++ [neighbor] else nodes
    if nodes.length = k then nodes else collectNeighbors k keep nodes rest

/-- `findNeighbors(node, k, exclude)`: the traverser touches the bucket for
`node`; the neighbors met, other than `node`'s id and `exclude`'s address, are
kept until there are `k` (`k || this.ksize`), and the `k` nearest to `node` are
answered, nearest first. -/
def findNeighbors (t : RoutingTable) (node : Node) (k : Option Nat) (exclude : Option Node)
    (now : Int) : Option (RoutingTable × List Node) := do
  let k := match k with
    | some (k + 1) => k + 1
    | _ => t.ksize
  let index ← t.getBucketFor node
  let bucket ← t.buckets[index]?
  let t := t.setBucket index (bucket.touchLastUpdated now)
  let keep (neighbor : Node) : Bool :=
    neighbor.id != node.id && exclude.all fun e => !neighbor.sameHomeAs e
  let nodes := collectNeighbors k keep [] (t.traversal index bucket)
  pure (t, (nodes.insertionSort fun a b => node.distanceTo a ≤ node.distanceTo b).take k)

/-! ## What the operations do to the bucket list -/

@[simp] theorem node_setBucket (t : RoutingTable) (i : Nat) (b : KBucket) :
    (t.setBucket i b).node = t.node := rfl
@[simp] theorem ksize_setBucket (t : RoutingTable) (i : Nat) (b : KBucket) :
    (t.setBucket i b).ksize = t.ksize := rfl
@[simp] theorem buckets_setBucket (t : RoutingTable) (i : Nat) (b : KBucket) :
    (t.setBucket i b).buckets = t.buckets.set i b := rfl

theorem splitBucket_eq_some {t t' : RoutingTable} {i : Nat} {now : Int}
    (h : t.splitBucket i now = some t') :
    ∃ b, t.buckets[i]? = some b ∧ t'.node = t.node ∧ t'.ksize = t.ksize ∧
      t'.buckets = t.buckets.take i ++ [(b.split now).1, (b.split now).2] ++ t.buckets.drop (i + 1) := by
  unfold splitBucket at h
  cases hb : t.buckets[i]? with
  | none => simp [hb] at h
  | some b =>
    simp only [hb, Option.bind_eq_bind, Option.some_bind, Option.pure_def, Option.some.injEq] at h
    exact ⟨b, rfl, by subst h; simp⟩

/-- **What one pass of `addContact` can do.** It finds the bucket `b` for the
node, and either `addNode` succeeds there, or it fails and the table (with the
node pushed on `b`'s cache) is pinged at the bucket's head or has `b` split. -/
theorem addContactStep_cases {t : RoutingTable} {n : Node} {now : Int} {r : AddStep}
    (h : t.addContactStep n now = some r) :
    ∃ i b, t.getBucketFor n = some i ∧ t.buckets[i]? = some b ∧
      (((b.addNode n).1 = true ∧ r = .added (t.setBucket i (b.addNode n).2)) ∨
       ((b.addNode n).1 = false ∧ ∃ head, (b.addNode n).2.head = some head ∧
          r = .pinged (t.setBucket i (b.addNode n).2) head) ∨
       ((b.addNode n).1 = false ∧ ∃ t', (t.setBucket i (b.addNode n).2).splitBucket i now = some t' ∧
          r = .split t')) := by
  unfold addContactStep at h
  cases hi : t.getBucketFor n with
  | none => simp [hi] at h
  | some i =>
    cases hb : t.buckets[i]? with
    | none => simp [hi, hb] at h
    | some b =>
      refine ⟨i, b, rfl, hb, ?_⟩
      simp only [hi, hb, Option.bind_eq_bind, Option.some_bind] at h
      rcases hab : b.addNode n with ⟨ok, b'⟩
      rw [hab] at h
      cases ok with
      | true => exact .inl ⟨rfl, by simpa using h.symm⟩
      | false =>
        cases hd : b'.depth with
        | none => simp [hd] at h
        | some d =>
          simp only [hd, Option.some_bind] at h
          split at h
          · obtain ⟨t', ht', rfl⟩ := Option.map_eq_some'.1 h
            exact .inr (.inr ⟨rfl, t', ht', rfl⟩)
          · obtain ⟨head, hh, rfl⟩ := Option.map_eq_some'.1 h
            exact .inr (.inl ⟨rfl, head, hh, rfl⟩)

theorem addContact_succ (fuel : Nat) (t : RoutingTable) (n : Node) (now : Int) :
    t.addContact (fuel + 1) n now =
      match t.addContactStep n now with
      | some (.added t') => some (t', none)
      | some (.pinged t' head) => some (t', some head)
      | some (.split t') => t'.addContact fuel n now
      | none => none := rfl

/-- A fresh table answers its one bucket for every 160-bit id. -/
theorem getBucketFor_flush (node : Node) (ksize : Nat) (now : Int) {n : Node}
    (h : n.id ≤ 2 ^ 160) : (flush node ksize now).getBucketFor n = some 0 := by
  show ([KBucket.new (BN 0) (BN (2 ^ 160)) ksize now].findIdx? fun b => BN n.id ≤ b.range.2) =
    some 0
  rw [List.findIdx?_cons]
  exact if_pos (decide_eq_true (Nat.mul_le_mul_right unit h))

/-- Adding a node to a fresh table appends it to the one bucket, whatever the
node: nothing compares it with the table's own node. -/
theorem addContact_flush (node : Node) {ksize : Nat} (now : Int) (fuel : Nat) {n : Node}
    (h : n.id ≤ 2 ^ 160) (hk : 0 < ksize) :
    (flush node ksize now).addContact (fuel + 1) n now =
      some ((flush node ksize now).setBucket 0
        { KBucket.new (BN 0) (BN (2 ^ 160)) ksize now with nodes := NodeMap.empty.set n }, none) := by
  have hadd : (KBucket.new (BN 0) (BN (2 ^ 160)) ksize now).addNode n =
      (true, { KBucket.new (BN 0) (BN (2 ^ 160)) ksize now with nodes := NodeMap.empty.set n }) := by
    simp only [KBucket.addNode, KBucket.new, KBucket.len, NodeMap.size, NodeMap.keys,
      NodeMap.values_empty, List.map_nil, List.not_mem_nil, if_false, List.length_nil, if_pos hk]
  have hb : (flush node ksize now).buckets[0]? =
      some (KBucket.new (BN 0) (BN (2 ^ 160)) ksize now) := rfl
  rw [addContact_succ]
  simp only [addContactStep, getBucketFor_flush node ksize now h, hb, hadd, Option.bind_eq_bind,
    Option.some_bind]

/-- **The run lemma.** A property of tables that every pass of `addContact`
keeps holds of the table any call that returns leaves. -/
theorem addContact_preserves {P : RoutingTable → Prop} {n : Node} {now : Int}
    (hstep : ∀ {t : RoutingTable} {r : AddStep}, P t → t.addContactStep n now = some r → P r.table) :
    ∀ {fuel : Nat} {t t' : RoutingTable} {p : Option Node}, P t →
      t.addContact fuel n now = some (t', p) → P t'
  | 0, _, _, _, _, h => by cases h
  | fuel + 1, t, t', p, ht, h => by
    rw [addContact_succ] at h
    cases hs : t.addContactStep n now with
    | none => simp [hs] at h
    | some r =>
      have hr := hstep ht hs
      cases r with
      | added t₁ => simp only [hs, Option.some.injEq, Prod.mk.injEq] at h; exact h.1 ▸ hr
      | pinged t₁ head => simp only [hs, Option.some.injEq, Prod.mk.injEq] at h; exact h.1 ▸ hr
      | split t₁ => simp only [hs] at h; exact addContact_preserves hstep hr h

/-! ## Properties of every bucket -/

section ForallBucket

variable {P : KBucket → Prop}

theorem forall_mem_set {l : List KBucket} {i : Nat} {b : KBucket} (hl : ∀ x ∈ l, P x) (hb : P b) :
    ∀ x ∈ l.set i b, P x :=
  fun _ hx => (List.mem_or_eq_of_mem_set hx).elim (hl _) (· ▸ hb)

theorem forall_mem_splice {l : List KBucket} {i : Nat} {a b : KBucket} (hl : ∀ x ∈ l, P x)
    (ha : P a) (hb : P b) : ∀ x ∈ l.take i ++ [a, b] ++ l.drop (i + 1), P x := by
  intro x hx
  simp only [List.append_assoc, List.cons_append, List.nil_append, List.mem_append,
    List.mem_cons] at hx
  rcases hx with hx | rfl | rfl | hx
  exacts [hl x (List.mem_of_mem_take hx), ha, hb, hl x (List.mem_of_mem_drop hx)]

/-- One pass of `addContact` keeps a bucket property that `addNode` and both
halves of `split` keep. -/
theorem addContactStep_forall_bucket
    (hadd : ∀ b n, P b → P (b.addNode n).2)
    (hsplit : ∀ b now, P b → P (b.split now).1 ∧ P (b.split now).2)
    {t : RoutingTable} {n : Node} {now : Int} {r : AddStep}
    (ht : ∀ b ∈ t.buckets, P b) (h : t.addContactStep n now = some r) : ∀ b ∈ r.table.buckets, P b := by
  obtain ⟨i, b, -, hb, hr⟩ := addContactStep_cases h
  have hP : P (b.addNode n).2 := hadd b n (ht b (List.getElem?_mem hb))
  have hset := forall_mem_set (i := i) ht hP
  rcases hr with ⟨-, rfl⟩ | ⟨-, head, -, rfl⟩ | ⟨-, t', hsp, rfl⟩
  · exact hset
  · exact hset
  · obtain ⟨b', hb', -, -, hbs⟩ := splitBucket_eq_some hsp
    have hlen : i < t.buckets.length := (List.getElem?_eq_some_iff.1 hb).1
    rw [buckets_setBucket, List.getElem?_set_self hlen, Option.some.injEq] at hb'
    subst hb'
    simp only [AddStep.table, hbs]
    exact forall_mem_splice hset (hsplit _ now hP).1 (hsplit _ now hP).2

/-- `removeContact` finds the bucket for the node and runs `removeNode` there. -/
theorem removeContact_eq_some {t t' : RoutingTable} {n : Node} (h : t.removeContact n = some t') :
    ∃ i b, t.getBucketFor n = some i ∧ t.buckets[i]? = some b ∧
      t' = t.setBucket i (b.removeNode n) := by
  unfold removeContact at h
  cases hi : t.getBucketFor n with
  | none => simp [hi] at h
  | some i =>
    cases hb : t.buckets[i]? with
    | none => simp [hi, hb] at h
    | some b =>
      simp only [hi, hb, Option.bind_eq_bind, Option.some_bind, Option.pure_def,
        Option.some.injEq] at h
      exact ⟨i, b, rfl, hb, h.symm⟩

theorem removeContact_forall_bucket (hremove : ∀ b n, P b → P (b.removeNode n))
    {t t' : RoutingTable} {n : Node} (ht : ∀ b ∈ t.buckets, P b) (h : t.removeContact n = some t') :
    ∀ b ∈ t'.buckets, P b := by
  obtain ⟨i, b, -, hb, rfl⟩ := removeContact_eq_some h
  exact forall_mem_set ht (hremove b n (ht b (List.getElem?_mem hb)))

end ForallBucket

/-! ## Reachable tables -/

/-- The tables that the `RoutingTable` of local node `node` and bucket size
`ksize` reaches: `flush()`, then any sequence of `addContact` calls that return
and `removeContact` calls. -/
inductive Reachable (node : Node) (ksize : Nat) : RoutingTable → Prop where
  | flush (now : Int) : Reachable node ksize (flush node ksize now)
  | addContact {t t' : RoutingTable} {p : Option Node} (fuel : Nat) (n : Node) (now : Int) :
      Reachable node ksize t → t.addContact fuel n now = some (t', p) → Reachable node ksize t'
  | removeContact {t t' : RoutingTable} (n : Node) :
      Reachable node ksize t → t.removeContact n = some t' → Reachable node ksize t'

/-- A call a user of the table makes: `addContact(node)`, given `fuel` passes,
or `removeContact(node)`. -/
inductive Op where
  | addContact (fuel : Nat) (n : Node) (now : Int)
  | removeContact (n : Node)

/-- The calls one after another, as long as each returns. -/
def runOps : RoutingTable → List Op → Option RoutingTable
  | t, [] => some t
  | t, .addContact fuel n now :: ops => (t.addContact fuel n now).bind fun r => runOps r.1 ops
  | t, .removeContact n :: ops => (t.removeContact n).bind fun t' => runOps t' ops

/-- Calls that return lead from a reachable table to a reachable table. -/
theorem Reachable.runOps {node : Node} {ksize : Nat} :
    ∀ {t t' : RoutingTable} {ops : List Op}, Reachable node ksize t →
      t.runOps ops = some t' → Reachable node ksize t'
  | _, _, [], h, he => by cases he; exact h
  | _, _, .addContact fuel n now :: _, h, he => by
    obtain ⟨⟨t₁, p⟩, h₁, h₂⟩ := Option.bind_eq_some.1 he
    exact Reachable.runOps (.addContact fuel n now h h₁) h₂
  | _, _, .removeContact n :: _, h, he => by
    obtain ⟨t₁, h₁, h₂⟩ := Option.bind_eq_some.1 he
    exact Reachable.runOps (.removeContact n h h₁) h₂

/-- **Bucket invariants.** A property of single buckets that holds of the first
bucket and that `addNode`, `removeNode` and both halves of `split` keep holds of
every bucket of every reachable table. -/
theorem Reachable.forall_bucket {node : Node} {ksize : Nat} {P : KBucket → Prop}
    (hflush : ∀ now, P (KBucket.new (BN 0) (BN (2 ^ 160)) ksize now))
    (hadd : ∀ b n, P b → P (b.addNode n).2)
    (hsplit : ∀ b now, P b → P (b.split now).1 ∧ P (b.split now).2)
    (hremove : ∀ b n, P b → P (b.removeNode n))
    {t : RoutingTable} (h : Reachable node ksize t) : ∀ b ∈ t.buckets, P b := by
  induction h with
  | flush now =>
    intro b hb
    simp only [RoutingTable.flush, List.mem_singleton] at hb
    exact hb ▸ hflush now
  | addContact fuel n now _ hc ih =>
    exact addContact_preserves (P := fun t => ∀ b ∈ t.buckets, P b)
      (addContactStep_forall_bucket hadd hsplit) ih hc
  | removeContact n _ hc ih => exact removeContact_forall_bucket hremove ih hc

end RoutingTable

end Canbox.Kademlia
