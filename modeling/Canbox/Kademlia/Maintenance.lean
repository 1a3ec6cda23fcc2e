import Canbox.Kademlia.RoutingInvariants

/-!
# Adding and removing a contact, and a split that never ends

`removeContact(node)` (`routing.js:191`) deletes the id from the bucket that
`getBucketFor` picks and promotes the newest entry of that bucket's replacement
list (`KBucket.removeNode`, `routing.js:45`). The list is an `OrderedSet` keyed
by the whole `[ id, ip, port ]`, so it can hold the removed id under another
address, and that entry is what comes back. `id_mem_removeContact` says exactly
which buckets hold the id afterwards, and `removeContact_repromotes_id` reaches
a table where the removed id is back at once.

`addContact(node)` (`routing.js:201`) loses no contact: whenever it returns,
the node is in the main set of its bucket, or that bucket is full, the node is
the newest entry of its replacement list and the bucket's head is pinged
(`addContact_keeps_contact`). It reaches that end only through its last pass,
and a pass changes no bucket's range but by splitting.

It retries after every split, and nothing in
it bounds the retries. When the bucket the retry lands in starts at the new id,
covers the local node, and is full of ids below its range, the lower half of
the split is that same bucket again, down to a width of one `10⁻²⁰`, where
`split` reproduces it exactly (`SplitsForever.step`). The ids below the range
are what the midpoint rule of `split` leaves behind, and the local node's own id
is an id no path into `addContact` refuses:
`addContact_local_id_splits_forever` reaches such a table.
-/

set_option autoImplicit false

namespace Canbox.Kademlia

/-! ## Keys of the node map -/

namespace NodeMap

end NodeMap

/-! ## `removeContact` -/

namespace KBucket

end KBucket

namespace RoutingTable

set_option maxRecDepth 4000 in
/-- **A removed id comes back.** `ksize = 1`, local id `0`: after `2 ^ 160 - 1`
fills the upper half, the id `2 ^ 160 - 2` is offered from `10.0.0.2` and then
from `10.0.0.3`, and both go to the replacement list. Removing `2 ^ 160 - 1`
promotes the newest, `10.0.0.3`; removing `2 ^ 160 - 2` then promotes the
other, and the id is back in the bucket. -/
theorem removeContact_repromotes_id :
    ∃ t, Reachable ⟨0, none, none⟩ 1 t ∧
      (t.removeContact ⟨2 ^ 160 - 2, some "10.0.0.2", some 8468⟩).map
        (fun t' => t'.buckets.map (·.nodes.keys)) = some [[], [2 ^ 160 - 2]] := by
  have h : ((flush ⟨0, none, none⟩ 1 0).runOps
      [.addContact 1 ⟨2 ^ 160 - 1, some "10.0.0.1", some 8468⟩ 0,
        .addContact 2 ⟨2 ^ 160 - 2, some "10.0.0.2", some 8468⟩ 0,
        .addContact 1 ⟨2 ^ 160 - 2, some "10.0.0.3", some 8468⟩ 0,
        .removeContact ⟨2 ^ 160 - 1, some "10.0.0.1", some 8468⟩]).map
      (fun t => (t.removeContact ⟨2 ^ 160 - 2, some "10.0.0.2", some 8468⟩).map
        (fun t' => t'.buckets.map (·.nodes.keys))) = some (some [[], [2 ^ 160 - 2]]) := by
    decide
  obtain ⟨t, ht, hk⟩ := Option.map_eq_some'.1 h
  exact ⟨t, (Reachable.flush 0).runOps ht, hk⟩

end RoutingTable

/-! ## Where `addContact` puts the contact -/

theorem NodeMap.mem_set_self (m : NodeMap) (n : Node) : n ∈ (m.set n).values := by
  unfold NodeMap.set
  split
  · rename_i h
    obtain ⟨x, hx, hid⟩ := List.mem_map.1 h
    exact List.mem_map.2 ⟨x, hx, if_pos hid⟩
  · exact List.mem_append_right _ (List.mem_singleton_self n)

/-- When `addNode` succeeds, the node is in the main set. -/
theorem KBucket.mem_addNode_of_true {b : KBucket} {n : Node} (h : (b.addNode n).1 = true) :
    n ∈ (b.addNode n).2.nodes.values := by
  unfold KBucket.addNode at h ⊢
  split_ifs at h ⊢ <;> exact NodeMap.mem_set_self _ _

namespace RoutingTable

/-- Setting a bucket to one with the same range leaves `getBucketFor` alone. -/
theorem getBucketFor_setBucket {t : RoutingTable} {i : Nat} {b b' : KBucket}
    (hb : t.buckets[i]? = some b) (hr : b'.range = b.range) (n : Node) :
    (t.setBucket i b').getBucketFor n = t.getBucketFor n := by
  have hmap : (t.buckets.set i b').map (·.range) = t.buckets.map (·.range) := by
    refine List.ext_getElem? fun j => ?_
    by_cases hij : i = j
    · subst hij
      obtain ⟨hlen, hbi⟩ := List.getElem?_eq_some_iff.1 hb
      simp [hr, hlen, hbi]
    · simp [List.getElem?_set_ne hij]
  have := congrArg (List.findIdx? fun r : Nat × Nat => decide (BN n.id ≤ r.2)) hmap
  simpa only [List.findIdx?_map, Function.comp_def] using this

/-- The pass a call of `addContact` that returns ends with: it adds the node,
or pings. -/
theorem addContact_last_step {n : Node} {now : Int} : ∀ {fuel : Nat} {t t' : RoutingTable}
    {p : Option Node}, t.addContact fuel n now = some (t', p) →
      ∃ t₀ : RoutingTable, (t₀.addContactStep n now = some (.added t') ∧ p = none) ∨
        ∃ head, t₀.addContactStep n now = some (.pinged t' head) ∧ p = some head
  | 0, _, _, _, h => by cases h
  | fuel + 1, t, t', p, h => by
    rw [addContact_succ] at h
    cases hs : t.addContactStep n now with
    | none => simp [hs] at h
    | some r =>
      cases r with
      | added t₁ =>
        simp only [hs, Option.some.injEq, Prod.mk.injEq] at h
        obtain ⟨rfl, rfl⟩ := h
        exact ⟨t, .inl ⟨hs, rfl⟩⟩
      | pinged t₁ head =>
        simp only [hs, Option.some.injEq, Prod.mk.injEq] at h
        obtain ⟨rfl, rfl⟩ := h
        exact ⟨t, .inr ⟨head, hs, rfl⟩⟩
      | split t₁ =>
        simp only [hs] at h
        exact addContact_last_step h

/-- **`addContact` keeps the contact.** Whenever `addContact(node)` returns, on
any table, the node itself, with its address, is in the main set of the bucket
`getBucketFor` picks for it, and nothing is pinged; or that bucket is full
without the node's id, the node is the newest entry of its replacement list, and
the bucket's head is the node pinged. -/
theorem addContact_keeps_contact {t t' : RoutingTable} {n : Node} {fuel : Nat} {now : Int}
    {p : Option Node} (h : t.addContact fuel n now = some (t', p)) :
    ∃ i b, t'.getBucketFor n = some i ∧ t'.buckets[i]? = some b ∧
      ((p = none ∧ n ∈ b.nodes.values) ∨
        (p.isSome ∧ p = b.head ∧ n.id ∉ b.nodes.keys ∧ b.ksize ≤ b.len ∧
          b.replacementNodes.items.getLast? = some n)) := by
  obtain ⟨t₀, ⟨hs, rfl⟩ | ⟨head, hs, rfl⟩⟩ := addContact_last_step h <;>
    obtain ⟨i, b, hi, hb, hr⟩ := addContactStep_cases hs
  all_goals
    have hlen : i < t₀.buckets.length := (List.getElem?_eq_some_iff.1 hb).1
    have hget : ((t₀.setBucket i (b.addNode n).2).getBucketFor n) = some i := by
      rw [getBucketFor_setBucket hb (b.addNode_range n), hi]
    have hbucket : (t₀.setBucket i (b.addNode n).2).buckets[i]? = some (b.addNode n).2 := by
      rw [buckets_setBucket, List.getElem?_set_self hlen]
  · -- the node was added
    obtain ⟨hok, he⟩ | ⟨-, _, -, he⟩ | ⟨-, _, -, he⟩ := hr <;> cases he
    exact ⟨i, _, hget, hbucket, .inl ⟨rfl, KBucket.mem_addNode_of_true hok⟩⟩
  · -- the bucket was full: the node went to the cache, and its head is pinged
    obtain ⟨-, he⟩ | ⟨hok, head', hh, he⟩ | ⟨-, _, -, he⟩ := hr <;> cases he
    obtain ⟨hnew, hfull, hb'⟩ := KBucket.addNode_false (b := b) (n := n) (by rw [← hok])
    refine ⟨i, _, hget, hbucket, .inr ⟨rfl, hh.symm, ?_, ?_, ?_⟩⟩ <;> rw [hb']
    · exact hnew
    · exact hfull
    · simp

set_option maxRecDepth 4000 in
/-- `addContact_keeps_contact` on a full bucket: with `ksize = 1` and local id 0,
the node `2 ^ 160 - 1` fills the one bucket; then `2 ^ 160 - 2` splits it and
finds its half full, so it is cached and `2 ^ 160 - 1` is pinged. -/
theorem addContact_keeps_contact_full :
    ∃ t t' p, Reachable ⟨0, none, none⟩ 1 t ∧
      t.addContact 2 ⟨2 ^ 160 - 2, some "10.0.0.2", some 8468⟩ 0 = some (t', p) ∧
      p = some ⟨2 ^ 160 - 1, some "10.0.0.1", some 8468⟩ ∧
      ∃ i b, t'.getBucketFor ⟨2 ^ 160 - 2, some "10.0.0.2", some 8468⟩ = some i ∧
        t'.buckets[i]? = some b ∧
        ((p = none ∧ ⟨2 ^ 160 - 2, some "10.0.0.2", some 8468⟩ ∈ b.nodes.values) ∨
          (p.isSome ∧ p = b.head ∧ 2 ^ 160 - 2 ∉ b.nodes.keys ∧ b.ksize ≤ b.len ∧
            b.replacementNodes.items.getLast? = some ⟨2 ^ 160 - 2, some "10.0.0.2", some 8468⟩)) := by
  have hw : ((flush ⟨0, none, none⟩ 1 0).runOps
      [.addContact 2 ⟨2 ^ 160 - 1, some "10.0.0.1", some 8468⟩ 0]).map (fun t =>
        (t.addContact 2 ⟨2 ^ 160 - 2, some "10.0.0.2", some 8468⟩ 0).map (·.2)) =
      some (some (some ⟨2 ^ 160 - 1, some "10.0.0.1", some 8468⟩)) := by
    decide
  obtain ⟨t, ht, hv⟩ := Option.map_eq_some'.1 hw
  obtain ⟨⟨t', p⟩, h, hp⟩ := Option.map_eq_some'.1 hv
  exact ⟨t, t', p, (Reachable.flush 0).runOps ht, h, hp, addContact_keeps_contact h⟩

/-! ## A split that never ends -/

/-- The first `i` entries decide nothing when `findIdx?` answers `i`, so
replacing the rest by a list that starts with a match keeps the answer. -/
theorem findIdx?_take_append {α : Type} {l : List α} {p : α → Bool} {i : Nat}
    (h : l.findIdx? p = some i) {a : α} (ha : p a = true) (rest : List α) :
    (l.take i ++ a :: rest).findIdx? p = some i := by
  obtain ⟨hi, -, hlt⟩ := List.findIdx?_eq_some_iff_getElem.1 h
  have hnone : (l.take i).findIdx? p = none :=
    List.findIdx?_eq_none_iff.2 fun x hx => by
      obtain ⟨j, hj, rfl⟩ := List.getElem_of_mem hx
      have hj' : j < i := by simp at hj; omega
      simpa [List.getElem_take] using hlt j hj'
  simp [hnone, ha, Nat.min_eq_left hi.le]

/-- The table's own node has `n`'s id, and bucket `i`, the one `getBucketFor`
picks for `n`, starts at `n`'s id, is full, and holds only ids below its range. -/
structure SplitsForever (t : RoutingTable) (n : Node) (i : Nat) (b : KBucket) : Prop where
  getBucketFor : t.getBucketFor n = some i
  bucket : t.buckets[i]? = some b
  self : t.node.id = n.id
  lower : b.range.1 = BN n.id
  le_upper : BN n.id ≤ b.range.2
  full : b.ksize ≤ b.len
  nonempty : b.nodes.values ≠ []
  below : ∀ m ∈ b.nodes.values, BN m.id < b.range.1

namespace SplitsForever

variable {t : RoutingTable} {n : Node} {i : Nat} {b : KBucket}

theorem not_mem_keys (h : SplitsForever t n i b) : n.id ∉ b.nodes.keys := fun hn => by
  obtain ⟨m, hm, he⟩ := List.mem_map.1 hn
  have := h.below m hm
  rw [he, h.lower] at this
  exact Nat.lt_irrefl _ this

theorem depth_isSome (h : SplitsForever t n i b) (c : OrderedSet Node) :
    ({ b with replacementNodes := c } : KBucket).depth.isSome := by
  obtain ⟨m, ms, hm⟩ := List.exists_cons_of_ne_nil h.nonempty
  simp [KBucket.depth, NodeMap.keys, hm, sharedPrefix]

/-- The lower half of the split keeps every node, so it is the same situation
one level down. -/
theorem split_fst (h : SplitsForever t n i b) (c : OrderedSet Node) (now : Int) :
    (({ b with replacementNodes := c } : KBucket).split now).1.nodes.values = b.nodes.values := by
  refine List.filter_eq_self.2 fun m hm => decide_eq_true ?_
  have := h.below m hm
  have := (half_le_of_le (h.lower ▸ h.le_upper)).1
  simp only at *
  omega

/-- **One pass splits, and leaves the same situation.** -/
theorem step (h : SplitsForever t n i b) (now : Int) :
    ∃ t' b', t.addContactStep n now = some (.split t') ∧ SplitsForever t' n i b' := by
  set b' : KBucket := { b with replacementNodes := b.replacementNodes.push n }
  have hadd : b.addNode n = (false, b') := by
    simp [KBucket.addNode, h.not_mem_keys, Nat.not_lt.2 h.full, b']
  have hrng : b'.hasInRange t.node = true := by
    simp [KBucket.hasInRange, b', h.self, h.lower, h.le_upper]
  obtain ⟨d, hd⟩ := Option.isSome_iff_exists.1 (h.depth_isSome (b.replacementNodes.push n))
  have hlen : i < t.buckets.length := (List.getElem?_eq_some_iff.1 h.bucket).1
  have hsplit : (t.setBucket i b').splitBucket i now =
      some { t with buckets := (t.buckets.take i ++ [(b'.split now).1, (b'.split now).2] ++
        t.buckets.drop (i + 1)) } := by
    have htake : (t.buckets.take i).set i b' = t.buckets.take i :=
      List.set_eq_of_length_le (by simp)
    simp [splitBucket, hlen, setBucket, List.set_take, List.drop_set, htake]
  refine ⟨{ t with buckets := (t.buckets.take i ++ [(b'.split now).1, (b'.split now).2] ++
    t.buckets.drop (i + 1)) }, (b'.split now).1, ?_, ?_⟩
  · simp only [addContactStep, h.getBucketFor, h.bucket, hadd, Option.bind_eq_bind,
      Option.some_bind, hd, hrng, Bool.true_or, if_true, hsplit]
    rfl
  · have hvals := h.split_fst (b.replacementNodes.push n) now
    have hmid := half_le_of_le (h.lower ▸ h.le_upper)
    refine ⟨?_, ?_, h.self, by simp [b', h.lower], by simpa [b', h.lower] using hmid.1, ?_, ?_, ?_⟩
    · have hp : decide (BN n.id ≤ (b'.split now).1.range.2) = true := by
        simpa [b', h.lower] using hmid.1
      show List.findIdx? _ (t.buckets.take i ++ [_, _] ++ _) = some i
      simp only [List.append_assoc, List.cons_append, List.nil_append]
      exact findIdx?_take_append h.getBucketFor hp _
    · simp only [List.append_assoc, List.cons_append, List.nil_append]
      rw [List.getElem?_append_right (by simp), List.length_take, Nat.min_eq_left hlen.le,
        Nat.sub_self]
      rfl
    · simpa [KBucket.len, NodeMap.size, hvals] using h.full
    · simpa [hvals] using h.nonempty
    · simpa [hvals, b', h.lower] using h.below

/-- **The run lemma.** No number of passes lets `addContact(n)` return. -/
theorem addContact_eq_none (now : Int) (fuel : Nat) :
    ∀ {t : RoutingTable} {b : KBucket}, SplitsForever t n i b → t.addContact fuel n now = none := by
  induction fuel with
  | zero => intro _ _ _; rfl
  | succ fuel ih =>
    intro t b h
    obtain ⟨t', b', hs, h'⟩ := h.step now
    rw [addContact_succ, hs]
    exact ih h'

end SplitsForever

set_option maxRecDepth 4000 in
/-- **Adding the local id never returns.** Local id `2 ^ 159 + 1`,
`ksize = 1`: adding `2 ^ 159`, then `1`, splits the first bucket at `2 ^ 159`
and strands `2 ^ 159` in the upper half `[2 ^ 159 + 1, 2 ^ 160]`. That bucket
starts at the local id and holds only an id below it, so `addContact` of the
local id splits it for ever. -/
theorem addContact_local_id_splits_forever :
    ∃ t, Reachable ⟨2 ^ 159 + 1, none, none⟩ 1 t ∧
      ∀ fuel now, t.addContact fuel ⟨2 ^ 159 + 1, none, none⟩ now = none := by
  have h₁ : ((flush ⟨2 ^ 159 + 1, none, none⟩ 1 0).runOps
      [.addContact 1 ⟨2 ^ 159, none, none⟩ 0, .addContact 2 ⟨1, none, none⟩ 0]).map
      (fun t => (t.node.id, t.getBucketFor ⟨2 ^ 159 + 1, none, none⟩)) =
      some (2 ^ 159 + 1, some 1) := by
    decide
  have h₂ : ((flush ⟨2 ^ 159 + 1, none, none⟩ 1 0).runOps
      [.addContact 1 ⟨2 ^ 159, none, none⟩ 0, .addContact 2 ⟨1, none, none⟩ 0]).map
      (fun t => t.buckets[1]?.map fun b => (b.range, b.ksize, b.nodes.values)) =
      some (some ((BN (2 ^ 159 + 1), BN (2 ^ 160)), 1, [⟨2 ^ 159, none, none⟩])) := by
    decide
  obtain ⟨t, ht, hv⟩ := Option.map_eq_some'.1 h₁
  obtain ⟨hnode, hi⟩ := Prod.mk.inj hv
  rw [ht, Option.map_some', Option.some.injEq] at h₂
  obtain ⟨b, hb, hv⟩ := Option.map_eq_some'.1 h₂
  obtain ⟨hr, hk, hn⟩ : b.range = _ ∧ b.ksize = 1 ∧ b.nodes.values = _ := by
    simpa only [Prod.mk.injEq] using hv
  refine ⟨t, (Reachable.flush 0).runOps ht, fun fuel now =>
    SplitsForever.addContact_eq_none now fuel ⟨hi, hb, hnode, by rw [hr], ?_, ?_, ?_, ?_⟩⟩
  · rw [hr]
    exact BN_le_BN.2 (Nat.le_of_lt (by decide))
  · simp [KBucket.len, NodeMap.size, hk, hn]
  · simp [hn]
  · simp [hn, hr]

end RoutingTable

end Canbox.Kademlia
