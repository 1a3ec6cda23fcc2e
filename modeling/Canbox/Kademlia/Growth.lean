import Canbox.Kademlia.RoutingInvariants
import Mathlib.Algebra.BigOperators.Group.List
import Mathlib.Algebra.Order.Ring.Nat

/-!
# How far a table grows

The spec bounds a table by 160 buckets of `ksize` nodes, and each bucket's
replacement queue by a bound of its own. Neither bound holds of the code.

*Buckets.* The first range, `[0, 2 ^ 160]`, holds `2 ^ 160 + 1` ids, and
the bucket that covers the local node is split while a new id falls into it:
`more_than_160_buckets` halves it down to `[0, 1]` and reaches 161 buckets
with `ksize = 1` after two calls.
What does bound the main sets is the number of buckets, `ksize` nodes each
(`main_sets_le`).

*Replacement lists.* A full bucket that is not split keeps every node offered
to it, and the list is keyed by `[ id, ip, port ]`: one id offered from ever new
ports fills it without end (`replacement_list_unbounded`). What is bounded is
how fast the lists grow: an `addContact` call adds at most one entry to all of
them together, since a split drops the split bucket's list, and `removeContact`
adds none; so a table reached by any calls holds at most one entry per
`addContact` call (`replacement_lists_grow_by_one`).
-/

set_option autoImplicit false

namespace Canbox.Kademlia

namespace RoutingTable

/-- `addContact` of each node in turn, each call given `fuel` passes. -/
def addContacts (fuel : Nat) (now : Int) : RoutingTable → List Node → Option RoutingTable
  | t, [] => some t
  | t, n :: ns => (t.addContact fuel n now).bind fun r => addContacts fuel now r.1 ns

theorem Reachable.addContacts {node : Node} {ksize fuel : Nat} {now : Int} :
    ∀ {t t' : RoutingTable} {ns : List Node}, Reachable node ksize t →
      t.addContacts fuel now ns = some t' → Reachable node ksize t'
  | _, _, [], h, he => by cases he; exact h
  | _, _, n :: _, h, he => by
    obtain ⟨⟨t₁, p⟩, h₁, h₂⟩ := Option.bind_eq_some.1 he
    exact Reachable.addContacts (.addContact fuel n now h h₁) h₂

/-! ## A table that keeps filling one list -/

section Unbounded

/-- The upper half after the first split of a table for the local id `0`
with `ksize = 1`: it holds `2 ^ 159 + 1`, and its replacement list is `c`. -/
def upperHalf (c : OrderedSet Node) : KBucket :=
  ⟨(BN (2 ^ 159) + unit, BN (2 ^ 160)), ⟨[⟨2 ^ 159 + 1, none, none⟩], List.nodup_singleton _⟩, c, 0, 1⟩

/-- The table after that split. -/
def withCache (c : OrderedSet Node) : RoutingTable :=
  ⟨⟨0, none, none⟩, 1, [KBucket.new (BN 0) (BN (2 ^ 159)) 1 0, upperHalf c]⟩

/-- The id `2 ^ 159 + 2`, from port `p`. -/
def portNode (p : Nat) : Node := ⟨2 ^ 159 + 2, none, some p⟩

/-- The replacement list once the ports `0, …, B` have been offered. -/
def portCache : Nat → OrderedSet Node
  | 0 => OrderedSet.empty.push (portNode 0)
  | B + 1 => (portCache B).push (portNode (B + 1))

/-- When the bucket for a node is full, holds another id, does not cover the
local node, and has a depth that is a multiple of 5, one pass pings its head and
pushes the node onto its replacement list. -/
theorem addContactStep_of_full {t : RoutingTable} {n : Node} {now : Int} {i : Nat} {b : KBucket}
    {d : Nat} {head : Node} (hi : t.getBucketFor n = some i) (hb : t.buckets[i]? = some b)
    (hnew : n.id ∉ b.nodes.keys) (hfull : ¬ b.len < b.ksize) (hrng : b.hasInRange t.node = false)
    (hd : b.depth = some d) (hmod : d % 5 = 0) (hhead : b.head = some head) :
    t.addContactStep n now =
      some (.pinged (t.setBucket i { b with replacementNodes := b.replacementNodes.push n }) head) := by
  have hadd : b.addNode n = (false, { b with replacementNodes := b.replacementNodes.push n }) := by
    simp [KBucket.addNode, hnew, hfull]
  simp only [addContactStep, hi, hb, hadd, Option.bind_eq_bind, Option.some_bind]
  have hd' : ({ b with replacementNodes := b.replacementNodes.push n } : KBucket).depth = some d := hd
  have hh' : ({ b with replacementNodes := b.replacementNodes.push n } : KBucket).head = some head :=
    hhead
  have hr' : ({ b with replacementNodes := b.replacementNodes.push n } : KBucket).hasInRange t.node =
    false := hrng
  simp [hd', hh', hr', hmod]

theorem getBucketFor_withCache (c : OrderedSet Node) (p : Nat) :
    (withCache c).getBucketFor (portNode p) = some 1 := by
  show (withCache .empty).getBucketFor ⟨2 ^ 159 + 2, none, none⟩ = some 1
  decide

theorem hasInRange_upperHalf (c : OrderedSet Node) :
    (upperHalf c).hasInRange ⟨0, none, none⟩ = false := by
  show (upperHalf .empty).hasInRange ⟨0, none, none⟩ = false
  decide

theorem depth_upperHalf (c : OrderedSet Node) : (upperHalf c).depth = some 160 := by
  simp [KBucket.depth, upperHalf, NodeMap.keys, sharedPrefix_singleton, length_bytesToBitString,
    length_idBytes]

/-- Offering the id from one more port pings `2 ^ 159 + 1` and lengthens the
list. -/
theorem addContact_withCache (c : OrderedSet Node) (p : Nat) :
    (withCache c).addContact 1 (portNode p) 0 =
      some (withCache (c.push (portNode p)), some ⟨2 ^ 159 + 1, none, none⟩) := by
  rw [addContact_succ, addContactStep_of_full (b := upperHalf c) (getBucketFor_withCache c p) rfl
    (by show (2 ^ 159 + 2 : Nat) ∉ [2 ^ 159 + 1]; decide) (Nat.lt_irrefl 1) (hasInRange_upperHalf c)
    (depth_upperHalf c) (by decide) rfl]
  rfl

theorem mem_portCache : ∀ {B : Nat} {y : Node}, y ∈ (portCache B).items → ∃ p ≤ B, y = portNode p
  | 0, y, h => ⟨0, le_rfl, by simpa [portCache, OrderedSet.empty] using h⟩
  | B + 1, y, h => by
    simp only [portCache, OrderedSet.items_push, List.mem_append, List.mem_singleton] at h
    rcases h with h | rfl
    · obtain ⟨p, hp, rfl⟩ := mem_portCache (List.mem_of_mem_erase h)
      exact ⟨p, by omega, rfl⟩
    · exact ⟨B + 1, le_rfl, rfl⟩

theorem size_portCache : ∀ B : Nat, (portCache B).size = B + 1
  | 0 => rfl
  | B + 1 => by
    rw [portCache, OrderedSet.size_push_of_not_mem, size_portCache B]
    intro h
    obtain ⟨p, hp, he⟩ := mem_portCache h
    have : B + 1 = p := congrArg (fun n : Node => n.port.getD 0) he
    omega

set_option maxRecDepth 4000 in
theorem reachable_withCache : ∀ B : Nat, Reachable ⟨0, none, none⟩ 1 (withCache (portCache B))
  | 0 => by
    have h : (flush ⟨0, none, none⟩ 1 0).addContacts 2 0 [⟨2 ^ 159 + 1, none, none⟩, portNode 0] =
        some (withCache (portCache 0)) := by
      decide
    exact (Reachable.flush 0).addContacts h
  | B + 1 => .addContact 1 (portNode (B + 1)) 0 (reachable_withCache B) (addContact_withCache _ _)

end Unbounded

/-! ## Buckets -/

set_option maxRecDepth 4000 in
/-- **More than 160 buckets.** `ksize = 1`, local id `0`: adding the ids `1`
and `2` splits the bucket covering `0` until 161 buckets stand. -/
theorem more_than_160_buckets :
    ∃ t, Reachable ⟨0, none, none⟩ 1 t ∧ 160 < t.buckets.length := by
  have h : ((flush ⟨0, none, none⟩ 1 0).addContacts 170 0
      [⟨1, none, none⟩, ⟨2, none, none⟩]).map (·.buckets.length) = some 161 := by
    decide
  obtain ⟨t, ht, hlen⟩ := Option.map_eq_some'.1 h
  exact ⟨t, (Reachable.flush 0).addContacts ht, by omega⟩

/-- Buckets of at most `ksize` nodes each hold at most `ksize` nodes per
bucket in all. -/
theorem sum_len_le {ksize : Nat} :
    ∀ l : List KBucket, (∀ b ∈ l, b.len ≤ ksize) → (l.map KBucket.len).sum ≤ l.length * ksize
  | [], _ => by simp
  | b :: bs, hl => by
    have := hl b (List.mem_cons_self _ _)
    have := sum_len_le bs fun x hx => hl x (List.mem_cons_of_mem _ hx)
    simp only [List.map_cons, List.sum_cons, List.length_cons, Nat.succ_mul]
    omega

/-- **A table holds at most `ksize` nodes per bucket.** In every reachable
table every bucket's main set holds at most `ksize` nodes, so the main sets
together hold at most `ksize` times as many nodes as there are buckets. -/
theorem main_sets_le {node : Node} {ksize : Nat} {t : RoutingTable} (h : Reachable node ksize t) :
    (∀ b ∈ t.buckets, b.len ≤ ksize) ∧ (t.buckets.map KBucket.len).sum ≤ t.buckets.length * ksize :=
  have hb : ∀ b ∈ t.buckets, b.len ≤ ksize := fun b hb => (ksize_len_le h b hb).2
  ⟨hb, sum_len_le _ hb⟩

theorem main_sets_le_of_ports :
    Reachable ⟨0, none, none⟩ 1 (withCache (portCache 0)) ∧
      (∀ b ∈ (withCache (portCache 0)).buckets, b.len ≤ 1) ∧
      ((withCache (portCache 0)).buckets.map KBucket.len).sum ≤ (withCache (portCache 0)).buckets.length * 1 :=
  ⟨reachable_withCache 0, main_sets_le (reachable_withCache 0)⟩

/-! ## Replacement lists -/

/-- **No bound on a replacement list.** `ksize = 1`, local id `0`: whatever
`B`, after `2 ^ 159 + 1`, the id `2 ^ 159 + 2` offered from the ports
`0, …, B` splits the table once and then leaves `B + 1` entries in the upper
bucket's list. -/
theorem replacement_list_unbounded :
    ¬ ∃ B : Nat, ∀ t, Reachable ⟨0, none, none⟩ 1 t → ∀ b ∈ t.buckets, b.replacementNodes.size ≤ B := by
  rintro ⟨B, hB⟩
  have h := hB _ (reachable_withCache B) (upperHalf (portCache B)) (by simp [withCache])
  rw [show (upperHalf (portCache B)).replacementNodes = portCache B from rfl, size_portCache] at h
  omega

/-- The entries of all the replacement lists of a table. -/
def cacheTotal (t : RoutingTable) : Nat := (t.buckets.map fun b => b.replacementNodes.size).sum

section Sums

variable {l : List KBucket} {i : Nat} {b : KBucket} (f : KBucket → Nat)

theorem sum_map_set (hb : l[i]? = some b) (b' : KBucket) :
    ((l.set i b').map f).sum + f b = (l.map f).sum + f b' := by
  obtain ⟨hi, rfl⟩ := List.getElem?_eq_some_iff.1 hb
  rw [List.set_eq_take_append_cons_drop, if_pos hi]
  conv_rhs => rw [← List.take_append_drop i l, ← List.getElem_cons_drop l i hi]
  simp only [List.map_append, List.map_cons, List.sum_append, List.sum_cons]
  omega

theorem sum_map_splice (hb : l[i]? = some b) (x y : KBucket) :
    ((l.take i ++ [x, y] ++ l.drop (i + 1)).map f).sum + f b = (l.map f).sum + f x + f y := by
  obtain ⟨hi, rfl⟩ := List.getElem?_eq_some_iff.1 hb
  conv_rhs => rw [← List.take_append_drop i l, ← List.getElem_cons_drop l i hi]
  simp only [List.map_append, List.map_cons, List.map_nil, List.sum_append, List.sum_cons,
    List.sum_nil]
  omega

end Sums

/-- One pass of `addContact` adds at most one entry to the replacement lists,
and a pass that splits adds none: the split bucket's list, with the node just
pushed on it, is dropped. -/
theorem addContactStep_cacheTotal {t : RoutingTable} {n : Node} {now : Int} {r : AddStep}
    (h : t.addContactStep n now = some r) :
    cacheTotal r.table ≤ cacheTotal t + 1 ∧ ∀ t', r = .split t' → cacheTotal t' ≤ cacheTotal t := by
  obtain ⟨i, b, -, hb, hr⟩ := addContactStep_cases h
  have hset := sum_map_set (fun b => b.replacementNodes.size) hb (b.addNode n).2
  have hle := b.size_addNode_le n
  rcases hr with ⟨-, rfl⟩ | ⟨-, head, -, rfl⟩ | ⟨-, t', hsp, rfl⟩
  · refine ⟨?_, fun _ h => by cases h⟩
    simp only [AddStep.table, cacheTotal, buckets_setBucket]; omega
  · refine ⟨?_, fun _ h => by cases h⟩
    simp only [AddStep.table, cacheTotal, buckets_setBucket]; omega
  · obtain ⟨b', hb', -, -, hbs⟩ := splitBucket_eq_some hsp
    have hlen : i < t.buckets.length := (List.getElem?_eq_some_iff.1 hb).1
    rw [buckets_setBucket, List.getElem?_set_self hlen, Option.some.injEq] at hb'
    subst hb'
    have hsplice := sum_map_splice (fun b => b.replacementNodes.size)
      (l := t.buckets.set i (b.addNode n).2) (List.getElem?_set_self hlen)
      ((b.addNode n).2.split now).1 ((b.addNode n).2.split now).2
    have ht' : cacheTotal t' ≤ cacheTotal t := by
      simp only [cacheTotal, hbs, buckets_setBucket, KBucket.split_fst_replacementNodes,
        KBucket.split_snd_replacementNodes, OrderedSet.size_empty] at hsplice hset ⊢
      omega
    exact ⟨by simp only [AddStep.table]; omega, fun _ h => by cases h; exact ht'⟩

/-- An `addContact` call that returns adds at most one entry to the
replacement lists, however many passes it makes. -/
theorem addContact_cacheTotal {n : Node} {now : Int} :
    ∀ {fuel : Nat} {t t' : RoutingTable} {p : Option Node},
      t.addContact fuel n now = some (t', p) → cacheTotal t' ≤ cacheTotal t + 1
  | 0, _, _, _, h => by cases h
  | fuel + 1, t, t', p, h => by
    rw [addContact_succ] at h
    cases hs : t.addContactStep n now with
    | none => simp [hs] at h
    | some r =>
      have hr := addContactStep_cacheTotal hs
      cases r with
      | added t₁ => simp only [hs, Option.some.injEq, Prod.mk.injEq] at h; exact h.1 ▸ hr.1
      | pinged t₁ head => simp only [hs, Option.some.injEq, Prod.mk.injEq] at h; exact h.1 ▸ hr.1
      | split t₁ =>
        simp only [hs] at h
        exact (addContact_cacheTotal h).trans (Nat.add_le_add_right (hr.2 t₁ rfl) 1)

theorem removeContact_cacheTotal {t t' : RoutingTable} {n : Node} (h : t.removeContact n = some t') :
    cacheTotal t' ≤ cacheTotal t := by
  obtain ⟨i, b, -, hb, rfl⟩ := removeContact_eq_some h
  have hset := sum_map_set (fun b => b.replacementNodes.size) hb (b.removeNode n)
  have hle := b.size_removeNode_le n
  simp only [cacheTotal, buckets_setBucket]
  omega

/-- Whether a call is an `addContact`. -/
def Op.isAddContact : Op → Bool
  | .addContact .. => true
  | .removeContact _ => false

/-- Calls one after another add at most one entry per `addContact` among them. -/
theorem runOps_cacheTotal : ∀ {ops : List Op} {t t' : RoutingTable}, t.runOps ops = some t' →
    cacheTotal t' ≤ cacheTotal t + ops.countP Op.isAddContact
  | [], _, _, h => by cases h; simp
  | .addContact fuel n now :: ops, t, t', h => by
    obtain ⟨⟨t₁, p⟩, h₁, h₂ : t₁.runOps ops = some t'⟩ := Option.bind_eq_some.1 h
    have := addContact_cacheTotal h₁
    have := runOps_cacheTotal h₂
    simp only [List.countP_cons, Op.isAddContact, if_true]
    omega
  | .removeContact n :: ops, t, t', h => by
    obtain ⟨t₁, h₁, h₂⟩ := Option.bind_eq_some.1 h
    have := removeContact_cacheTotal h₁
    have := runOps_cacheTotal h₂
    simp only [List.countP_cons, Op.isAddContact, Bool.false_eq_true, if_false]
    omega

theorem cacheTotal_flush (node : Node) (ksize : Nat) (now : Int) :
    cacheTotal (flush node ksize now) = 0 :=
  rfl

/-- **One entry per call.** An `addContact` call adds at most one entry to the
replacement lists of a table in all, and a `removeContact` call adds none. So a
table reached from `flush()` by any calls holds at most as many replacement
entries in all as there were `addContact` calls among them. -/
theorem replacement_lists_grow_by_one :
    (∀ (fuel : Nat) (t t' : RoutingTable) (n : Node) (now : Int) (p : Option Node),
      t.addContact fuel n now = some (t', p) → cacheTotal t' ≤ cacheTotal t + 1) ∧
    (∀ (t t' : RoutingTable) (n : Node), t.removeContact n = some t' → cacheTotal t' ≤ cacheTotal t) ∧
    ∀ (node : Node) (ksize : Nat) (now : Int) (ops : List Op) (t : RoutingTable),
      (flush node ksize now).runOps ops = some t → cacheTotal t ≤ ops.countP Op.isAddContact :=
  ⟨fun _ _ _ _ _ _ => addContact_cacheTotal, fun _ _ _ => removeContact_cacheTotal,
    fun node ksize now _ _ h => by simpa [cacheTotal_flush node ksize now] using runOps_cacheTotal h⟩

set_option maxRecDepth 4000 in
/-- `2 ^ 159 + 1`, then the id `2 ^ 159 + 2` from ports `0` and `1`: three
`addContact` calls, a split, and two entries in the upper bucket's list. -/
theorem replacement_lists_grow_by_one_ports :
    ∃ t, (flush ⟨0, none, none⟩ 1 0).runOps
        [.addContact 2 ⟨2 ^ 159 + 1, none, none⟩ 0, .addContact 2 (portNode 0) 0,
          .addContact 1 (portNode 1) 0] = some t ∧ cacheTotal t = 2 ∧
      cacheTotal t ≤ [Op.addContact 2 ⟨2 ^ 159 + 1, none, none⟩ 0, .addContact 2 (portNode 0) 0,
          .addContact 1 (portNode 1) 0].countP Op.isAddContact := by
  have h : ((flush ⟨0, none, none⟩ 1 0).runOps
      [.addContact 2 ⟨2 ^ 159 + 1, none, none⟩ 0, .addContact 2 (portNode 0) 0,
        .addContact 1 (portNode 1) 0]).map cacheTotal = some 2 := by
    decide
  obtain ⟨t, ht, hc⟩ := Option.map_eq_some'.1 h
  exact ⟨t, ht, hc, replacement_lists_grow_by_one.2.2 _ _ _ _ _ ht⟩

end RoutingTable

end Canbox.Kademlia
