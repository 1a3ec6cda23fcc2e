import Canbox.Kademlia.Lookup

/-!
# The order of a `TableTraverser`

`new TableTraverser(table, startNode)` starts at the bucket `getBucketFor`
selects and keeps the buckets left and right of it. Its iterator pops the
current bucket's nodes from the end. Once they are used up it takes, when it is
the left side's turn, the left side's last bucket, the nearest; otherwise the
right side's last bucket, the farthest, which hands the turn back to the left.
It stops at the right side's turn when the right side is empty.

In closed form (`rest_eq_zigzag`, `traversal_eq_zigzag`): after the start
bucket come the left buckets nearest first, each followed by the farthest right
bucket left; once the left side is used up, the rest of the right side,
farthest first; once the right side is used up first, one more left bucket, and
the end (`zigzag`).

The spec walks outward from the start bucket, left and right alternately while
both sides have buckets, nearest first on both (`alternate`, `specTraversal`).
For distinct buckets the two orders agree exactly when at most one bucket lies
right of the start and at most one more lies left of it than right
(`zigzag_reverse_eq_alternate_iff`), and then the traversal is the spec's
(`traversal_eq_specTraversal`). Every bucket is visited, once, exactly when at
most one more lies left than right (`zigzag_perm_iff`), and then the traversal
yields every node of the table once (`traversal_perm`).
`traverser_skips_and_reverses` shows both failures on a reachable table of
three buckets.
-/

set_option autoImplicit false

namespace Canbox.Kademlia

namespace RoutingTable

namespace TableTraverser

/-! ## Two orders -/

section Order

variable {α : Type}

/-- The traverser's order after the start bucket, given the left buckets
nearest first and the right buckets farthest first. -/
def zigzag : List α → List α → List α
  | l :: ls, r :: rs => l :: r :: zigzag ls rs
  | l :: _, [] => [l]
  | [], rs => rs

/-- The spec's order after the start bucket, given both sides nearest first:
left and right alternately, then the rest of the longer side. -/
def alternate : List α → List α → List α
  | l :: ls, r :: rs => l :: r :: alternate ls rs
  | ls, [] => ls
  | [], rs => rs

@[simp] theorem alternate_nil_right (ls : List α) : alternate ls [] = ls := by
  cases ls <;> rfl

theorem length_zigzag : ∀ ls rs : List α,
    (zigzag ls rs).length = min ls.length (rs.length + 1) + rs.length
  | _ :: ls, _ :: rs => by simp [zigzag, length_zigzag ls rs]; omega
  | _ :: _, [] => by simp [zigzag]
  | [], rs => by simp [zigzag]

/-- The traverser's order is a rearrangement of both sides exactly when the
left side has at most one bucket more than the right. -/
theorem zigzag_perm_iff {ls rs : List α} :
    (zigzag ls rs).Perm (ls ++ rs) ↔ ls.length ≤ rs.length + 1 := by
  refine ⟨fun h => ?_, fun h => ?_⟩
  · have := h.length_eq
    rw [length_zigzag, List.length_append] at this
    omega
  · induction ls, rs using zigzag.induct with
    | case1 l ls r rs ih =>
      have := ih (by simp only [List.length_cons] at h; omega)
      exact ((this.cons r).trans List.perm_middle.symm).cons l
    | case2 l ls =>
      obtain rfl : ls = [] := List.length_eq_zero.1 (by simpa using h)
      exact List.Perm.refl _
    | case3 rs => exact List.Perm.refl _

theorem zigzag_nil_right_eq_iff (ls : List α) : zigzag ls [] = ls ↔ ls.length ≤ 1 := by
  rcases ls with _ | ⟨l, _ | ⟨l', ls⟩⟩ <;> simp [zigzag]

/-- With at most one bucket right of the start and at most one more left of it,
the traverser's order is the spec's. -/
theorem zigzag_reverse_eq_alternate {ls rs : List α} (hr : rs.length ≤ 1)
    (hl : ls.length ≤ rs.length + 1) : zigzag ls rs.reverse = alternate ls rs := by
  rcases rs with _ | ⟨r, _ | ⟨r', rs⟩⟩
  · rcases ls with _ | ⟨l, _ | ⟨l', ls⟩⟩
    · rfl
    · rfl
    · simp at hl
  · rcases ls with _ | ⟨l, ls⟩
    · rfl
    · simpa [zigzag, alternate] using (zigzag_nil_right_eq_iff ls).2 (by simpa using hl)
  · simp at hr

/-- **When the two orders agree.** For sides without a repeated bucket, the
traverser's order is the spec's exactly when at most one bucket lies right of
the start and at most one more lies left of it. -/
theorem zigzag_reverse_eq_alternate_iff {ls rs : List α} (hnd : (ls ++ rs).Nodup) :
    zigzag ls rs.reverse = alternate ls rs ↔ rs.length ≤ 1 ∧ ls.length ≤ rs.length + 1 := by
  refine ⟨fun h => ?_, fun h => zigzag_reverse_eq_alternate h.1 h.2⟩
  rcases rs with _ | ⟨r, _ | ⟨r', rs⟩⟩
  · exact ⟨by simp, by simpa using (zigzag_nil_right_eq_iff ls).1 (by simpa using h)⟩
  · rcases ls with _ | ⟨l, ls⟩
    · simp
    · simpa using (zigzag_nil_right_eq_iff ls).1 (by simpa [zigzag, alternate] using h)
  · -- two buckets or more on the right: the farthest comes where the nearest should
    exfalso
    have hr : r ∉ r' :: rs := (List.nodup_cons.1 (List.nodup_append.1 hnd).2.1).1
    obtain ⟨z, tail, hz⟩ := List.exists_cons_of_ne_nil
      (List.reverse_ne_nil_iff.2 (List.cons_ne_nil r' rs))
    have hzm : z ∈ r' :: rs := List.mem_reverse.1 (hz ▸ List.mem_cons_self z tail)
    rw [List.reverse_cons, hz, List.cons_append] at h
    rcases ls with _ | ⟨l, ls⟩
    · exact hr ((List.cons.inj h).1 ▸ hzm)
    · exact hr ((List.cons.inj (List.cons.inj h).2).1 ▸ hzm)

end Order

/-! ## The traversal in closed form -/

/-- The iterator at the right side's turn with the right side empty stops. -/
theorem rest_false_nil (n : Nat) (left : List KBucket) : rest n left [] false = [] := by
  cases n <;> rfl

/-- **The traverser's iteration.** With the left side's buckets `ls` nearest
first and the right side's `rs` farthest first, and fuel for every bucket, the
iteration after the start bucket yields the buckets in `zigzag` order, each
bucket's nodes from the end. -/
theorem rest_eq_zigzag : ∀ (n : Nat) (ls rs : List KBucket), ls.length + rs.length ≤ n →
    rest n ls.reverse rs.reverse true = ((zigzag ls rs).map fun b => b.getNodes.reverse).flatten
  | 0, ls, rs, h => by
    obtain rfl : ls = [] := List.length_eq_zero.1 (by omega)
    obtain rfl : rs = [] := List.length_eq_zero.1 (by omega)
    rfl
  | _ + 1, [], [], _ => rfl
  | n + 1, [], r :: rs, h => by
    rw [rest.eq_3 _ _ n true r (by simp) fun _ _ h => by simp at h]
    simp only [List.reverse_cons, List.dropLast_concat]
    rw [rest_eq_zigzag n [] rs (by simp at h ⊢; omega)]
    rfl
  | n + 1, l :: ls, [], _ => by
    rw [rest.eq_2 _ _ n l (by simp)]
    simp [rest_false_nil, zigzag]
  | 1, _ :: _, _ :: _, h => by simp only [List.length_cons] at h; omega
  | m + 2, l :: ls, r :: rs, h => by
    rw [rest.eq_2 _ _ (m + 1) l (by simp), rest.eq_3 _ _ m false r (by simp) fun _ h => nomatch h]
    simp only [List.reverse_cons, List.dropLast_concat]
    rw [rest_eq_zigzag m ls rs (by simp at h; omega)]
    simp [zigzag]

end TableTraverser

/-- What the spec says a traverser started at bucket `index` yields: the start
bucket's nodes, then the other buckets' in order of increasing index distance,
alternating left and right while both sides have buckets left. Within a bucket
the nodes come in the order the code pops them. -/
def specTraversal (t : RoutingTable) (index : Nat) (start : KBucket) : List Node :=
  start.getNodes.reverse ++ ((TableTraverser.alternate (t.buckets.take index).reverse
    (t.buckets.drop (index + 1))).map fun b => b.getNodes.reverse).flatten

theorem traversal_eq_zigzag (t : RoutingTable) (index : Nat) (start : KBucket) :
    t.traversal index start = start.getNodes.reverse ++
      ((TableTraverser.zigzag (t.buckets.take index).reverse (t.buckets.drop (index + 1)).reverse).map
        fun b => b.getNodes.reverse).flatten := by
  rw [traversal, ← TableTraverser.rest_eq_zigzag t.buckets.length _ _ (by simp; omega),
    List.reverse_reverse, List.reverse_reverse]

/-- With at most one bucket right of the start and at most one more left of it,
the traversal is the spec's. -/
theorem traversal_eq_specTraversal (t : RoutingTable) {index : Nat} (start : KBucket)
    (h₁ : t.buckets.length ≤ index + 2) (h₂ : 2 * index ≤ t.buckets.length) :
    t.traversal index start = t.specTraversal index start := by
  rw [traversal_eq_zigzag, specTraversal,
    TableTraverser.zigzag_reverse_eq_alternate (by simp; omega) (by simp; omega)]

theorem perm_flatten_map_reverse {α β : Type} (g : α → List β) :
    ∀ l : List α, (l.map fun b => (g b).reverse).flatten.Perm (l.map g).flatten
  | [] => .refl _
  | _ :: l => (List.reverse_perm _).append (perm_flatten_map_reverse g l)

/-- **Every node, once, when the left side is not too long.** Started at the
bucket at `index`, with at most one more bucket left of it than right, the
traverser yields every node of the table exactly once, in some order. -/
theorem traversal_perm (t : RoutingTable) {index : Nat} {start : KBucket}
    (hs : t.buckets[index]? = some start) (h : 2 * index ≤ t.buckets.length) :
    (t.traversal index start).Perm (t.buckets.map KBucket.getNodes).flatten := by
  obtain ⟨hlt, hget⟩ := List.getElem?_eq_some_iff.1 hs
  have hz : (TableTraverser.zigzag (t.buckets.take index).reverse
      (t.buckets.drop (index + 1)).reverse).Perm (t.buckets.take index ++ t.buckets.drop (index + 1)) :=
    (TableTraverser.zigzag_perm_iff.2 (by simp; omega)).trans
      ((List.reverse_perm _).append (List.reverse_perm _))
  have hsplit : t.buckets = t.buckets.take index ++ start :: t.buckets.drop (index + 1) := by
    rw [← hget, ← List.drop_eq_getElem_cons hlt, List.take_append_drop]
  rw [traversal_eq_zigzag]
  refine .trans ?_ (perm_flatten_map_reverse KBucket.getNodes t.buckets)
  refine (((hz.map _).flatten).append_left _).trans ?_
  conv_rhs => rw [hsplit]
  simpa only [List.map_append, List.flatten_append, List.map_cons, List.flatten_cons]
    using List.perm_append_comm_assoc _ _ _

set_option maxRecDepth 4000 in
/-- `traversal_perm` from the middle of a reachable table of three buckets. -/
theorem traversal_perm_middle :
    ∃ t b, Reachable ⟨2 ^ 160 - 1, none, none⟩ 1 t ∧ t.buckets[1]? = some b ∧
      2 * 1 ≤ t.buckets.length ∧ (t.traversal 1 b).Perm (t.buckets.map KBucket.getNodes).flatten := by
  have h : ((flush ⟨2 ^ 160 - 1, none, none⟩ 1 0).runOps
      [.addContact 1 ⟨0, none, none⟩ 0, .addContact 2 ⟨2 ^ 160 - 2, none, none⟩ 0,
        .addContact 2 ⟨2 ^ 159 + 1, none, none⟩ 0]).map
      (fun t => (t.buckets.length, t.buckets[1]?.isSome)) = some (3, true) := by
    decide
  obtain ⟨t, ht, hv⟩ := Option.map_eq_some'.1 h
  obtain ⟨hlen, hb⟩ := Prod.mk.inj hv
  obtain ⟨b, hb⟩ := Option.isSome_iff_exists.1 hb
  exact ⟨t, b, (Reachable.flush 0).runOps ht, hb, by omega, traversal_perm t hb (by omega)⟩

set_option maxRecDepth 4000 in
/-- **The traverser skips the far left and walks the right side backwards.**
Local id `2 ^ 160 - 1`, `ksize = 1`: adding `0`, `2 ^ 160 - 2` and
`2 ^ 159 + 1` leaves three buckets, one node each. From `2 ^ 160 - 3`, in the
last bucket, the traverser yields the last bucket and the middle one, and never
`0`. From `1`, in the first bucket, it yields the last bucket before the middle
one. The spec's walk yields all three, nearest bucket first. -/
theorem traverser_skips_and_reverses :
    ∃ t, Reachable ⟨2 ^ 160 - 1, none, none⟩ 1 t ∧
      t.buckets.map (·.nodes.keys) = [[0], [2 ^ 159 + 1], [2 ^ 160 - 2]] ∧
      t.getBucketFor ⟨2 ^ 160 - 3, none, none⟩ = some 2 ∧ t.getBucketFor ⟨1, none, none⟩ = some 0 ∧
      (t.buckets[2]?.map fun b =>
          ((t.traversal 2 b).map (·.id), (t.specTraversal 2 b).map (·.id))) =
        some ([2 ^ 160 - 2, 2 ^ 159 + 1], [2 ^ 160 - 2, 2 ^ 159 + 1, 0]) ∧
      (t.buckets[0]?.map fun b =>
          ((t.traversal 0 b).map (·.id), (t.specTraversal 0 b).map (·.id))) =
        some ([0, 2 ^ 160 - 2, 2 ^ 159 + 1], [0, 2 ^ 159 + 1, 2 ^ 160 - 2]) := by
  have h₁ : ((flush ⟨2 ^ 160 - 1, none, none⟩ 1 0).runOps
      [.addContact 1 ⟨0, none, none⟩ 0, .addContact 2 ⟨2 ^ 160 - 2, none, none⟩ 0,
        .addContact 2 ⟨2 ^ 159 + 1, none, none⟩ 0]).map
      (fun t => (t.buckets.map (·.nodes.keys),
        t.getBucketFor ⟨2 ^ 160 - 3, none, none⟩, t.getBucketFor ⟨1, none, none⟩)) =
      some ([[0], [2 ^ 159 + 1], [2 ^ 160 - 2]], some 2, some 0) := by
    decide
  have h₂ : ((flush ⟨2 ^ 160 - 1, none, none⟩ 1 0).runOps
      [.addContact 1 ⟨0, none, none⟩ 0, .addContact 2 ⟨2 ^ 160 - 2, none, none⟩ 0,
        .addContact 2 ⟨2 ^ 159 + 1, none, none⟩ 0]).map
      (fun t => (t.buckets[2]?.map fun b =>
          ((t.traversal 2 b).map (·.id), (t.specTraversal 2 b).map (·.id)),
        t.buckets[0]?.map fun b =>
          ((t.traversal 0 b).map (·.id), (t.specTraversal 0 b).map (·.id)))) =
      some (some ([2 ^ 160 - 2, 2 ^ 159 + 1], [2 ^ 160 - 2, 2 ^ 159 + 1, 0]),
        some ([0, 2 ^ 160 - 2, 2 ^ 159 + 1], [0, 2 ^ 159 + 1, 2 ^ 160 - 2])) := by
    decide
  obtain ⟨t, ht, hv⟩ := Option.map_eq_some'.1 h₁
  obtain ⟨t', ht', hv'⟩ := Option.map_eq_some'.1 h₂
  obtain rfl : t = t' := Option.some.inj (ht.symm.trans ht')
  simp only [Prod.mk.injEq] at hv hv'
  exact ⟨t, (Reachable.flush 0).runOps ht, hv.1, hv.2.1, hv.2.2, hv'.1, hv'.2⟩

end RoutingTable

end Canbox.Kademlia
