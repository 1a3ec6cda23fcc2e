import Canbox.Kademlia.Protocol
import Canbox.Kademlia.RoutingInvariants

/-!
# The routing table of a running protocol

`RoutingTable.Reachable` describes the tables that `flush()` followed by
`addContact` and `removeContact` calls reach, and every bucket invariant of the
development is proved over it. A running `KademliaProtocol` reaches its table
through its handlers, and those also call `findNeighbors`, which touches a
bucket's last-updated stamp. No operation but `getLonelyBuckets` reads that
stamp, and the halves of a split are stamped with the time of the split.

So the two are compared with the stamps cleared (`unstamped`). Each operation
commutes with clearing them (`addContactStep_unstamped`,
`removeContact_unstamped`, `findNeighbors_unstamped`), and every table a
protocol reaches by handling any requests and call responses agrees, stamps
aside, with a reachable table (`KademliaProtocol.Reachable.touched`). The
bucket bound and the tiling of the ranges then hold of the running protocol
(`Reachable.len_le`, `Reachable.bucket_ranges_tile`).
-/

set_option autoImplicit false

namespace Canbox.Kademlia

open Canbox.Rpcudp (Value Address)

/-! ## Clearing the stamps -/

/-- The bucket with its last-updated stamp cleared. -/
def KBucket.unstamped (b : KBucket) : KBucket := { b with lastUpdated := 0 }

/-- The table with every bucket's stamp cleared. -/
def RoutingTable.unstamped (t : RoutingTable) : RoutingTable :=
  { t with buckets := t.buckets.map KBucket.unstamped }

/-- A pass's result, stamps cleared. -/
def AddStep.unstamped : AddStep → AddStep
  | .added t => .added t.unstamped
  | .pinged t head => .pinged t.unstamped head
  | .split t => .split t.unstamped

namespace KBucket

variable (b : KBucket)

@[simp] theorem unstamped_unstamped : b.unstamped.unstamped = b.unstamped := rfl

theorem addNode_unstamped (n : Node) :
    b.unstamped.addNode n = ((b.addNode n).1, (b.addNode n).2.unstamped) := by
  cases b
  dsimp only [addNode, unstamped, len]
  split_ifs <;> rfl

theorem removeNode_unstamped (n : Node) :
    b.unstamped.removeNode n = (b.removeNode n).unstamped := by
  cases b
  dsimp only [removeNode, unstamped]
  split_ifs
  · split <;> rfl
  · rfl

end KBucket

namespace RoutingTable

variable (t : RoutingTable)

@[simp] theorem unstamped_unstamped : t.unstamped.unstamped = t.unstamped := by
  simp [unstamped, Function.comp_def, KBucket.unstamped_unstamped]

theorem getBucketFor_unstamped (n : Node) : t.unstamped.getBucketFor n = t.getBucketFor n := by
  simp only [getBucketFor, unstamped, List.findIdx?_map]
  rfl

theorem getElem?_unstamped (i : Nat) :
    t.unstamped.buckets[i]? = t.buckets[i]?.map KBucket.unstamped :=
  List.getElem?_map _ _ _

theorem setBucket_unstamped (i : Nat) (b : KBucket) :
    t.unstamped.setBucket i b.unstamped = (t.setBucket i b).unstamped := by
  simp [setBucket, unstamped, List.map_set]

theorem splitBucket_unstamped (i : Nat) (now : Int) :
    (t.unstamped.splitBucket i now).map unstamped = (t.splitBucket i now).map unstamped := by
  unfold splitBucket
  rw [getElem?_unstamped]
  cases t.buckets[i]? with
  | none => rfl
  | some b =>
    simp [unstamped, List.map_take, List.map_drop, Function.comp_def]
    exact ⟨rfl, rfl⟩

theorem addContactStep_unstamped (n : Node) (now : Int) :
    (t.unstamped.addContactStep n now).map AddStep.unstamped =
      (t.addContactStep n now).map AddStep.unstamped := by
  unfold addContactStep
  rw [getBucketFor_unstamped]
  cases t.getBucketFor n with
  | none => rfl
  | some i =>
    simp only [Option.bind_eq_bind, Option.some_bind, getElem?_unstamped]
    cases t.buckets[i]? with
    | none => rfl
    | some b =>
      simp only [Option.map_some', Option.some_bind, KBucket.addNode_unstamped]
      rcases b.addNode n with ⟨_ | _, b'⟩
      · have hd : b'.unstamped.depth = b'.depth := rfl
        have hr : b'.unstamped.hasInRange t.unstamped.node = b'.hasInRange t.node := rfl
        have hh : b'.unstamped.head = b'.head := rfl
        simp only [hd, hr, hh, setBucket_unstamped]
        cases b'.depth with
        | none => rfl
        | some d =>
          simp only [Option.some_bind]
          by_cases hc : (b'.hasInRange t.node || decide (d % 5 ≠ 0)) = true
          · rw [if_pos hc, if_pos hc]
            calc (((t.setBucket i b').unstamped.splitBucket i now).map AddStep.split).map
                  AddStep.unstamped
                _ = ((((t.setBucket i b').unstamped.splitBucket i now).map unstamped).map
                  AddStep.split) := by rw [Option.map_map, Option.map_map]; rfl
                _ = ((((t.setBucket i b').splitBucket i now).map unstamped).map AddStep.split) := by
                  rw [splitBucket_unstamped]
                _ = ((((t.setBucket i b').splitBucket i now).map AddStep.split).map
                  AddStep.unstamped) := by rw [Option.map_map, Option.map_map]; rfl
          · rw [if_neg hc, if_neg hc]
            cases b'.head <;>
              simp only [Option.map_eq_map, Option.map_none', Option.map_some', AddStep.unstamped,
                unstamped_unstamped]
      · simp only [setBucket_unstamped, Option.pure_def, Option.map_some', AddStep.unstamped,
          unstamped_unstamped]

theorem removeContact_unstamped (n : Node) :
    (t.unstamped.removeContact n).map unstamped = (t.removeContact n).map unstamped := by
  unfold removeContact
  rw [getBucketFor_unstamped]
  cases t.getBucketFor n with
  | none => rfl
  | some i =>
    simp only [Option.bind_eq_bind, Option.some_bind, getElem?_unstamped]
    cases t.buckets[i]? with
    | none => rfl
    | some b =>
      simp only [Option.map_some', Option.some_bind, Option.pure_def, KBucket.removeNode_unstamped,
        setBucket_unstamped, unstamped_unstamped]

/-- `findNeighbors` touches a bucket and changes nothing else. -/
theorem findNeighbors_unstamped {t' : RoutingTable} {node : Node} {k : Option Nat}
    {exclude : Option Node} {now : Int} {ns : List Node}
    (h : t.findNeighbors node k exclude now = some (t', ns)) : t'.unstamped = t.unstamped := by
  unfold findNeighbors at h
  cases hi : t.getBucketFor node with
  | none => simp [hi] at h
  | some i =>
    cases hb : t.buckets[i]? with
    | none => simp [hi, hb] at h
    | some b =>
      simp only [hi, hb, Option.bind_eq_bind, Option.some_bind, Option.pure_def, Option.some.injEq,
        Prod.mk.injEq] at h
      rw [← h.1, ← setBucket_unstamped,
        show (b.touchLastUpdated now).unstamped = b.unstamped from rfl]
      simp only [setBucket, unstamped]
      rw [set_self_of_getElem? (by simp [hb])]

/-! ## Tables that agree up to stamps -/

section Congr

variable {t u : RoutingTable} (h : t.unstamped = u.unstamped) (n : Node) (now : Int)
include h

theorem addContactStep_congr :
    (t.addContactStep n now).map AddStep.unstamped =
      (u.addContactStep n now).map AddStep.unstamped := by
  rw [← addContactStep_unstamped t, h, addContactStep_unstamped]

theorem removeContact_congr :
    (t.removeContact n).map unstamped = (u.removeContact n).map unstamped := by
  rw [← removeContact_unstamped t, h, removeContact_unstamped]

end Congr

theorem addContact_congr {n : Node} {now : Int} : ∀ (fuel : Nat) {t u : RoutingTable},
    t.unstamped = u.unstamped →
    (t.addContact fuel n now).map (fun r => (r.1.unstamped, r.2)) =
      (u.addContact fuel n now).map (fun r => (r.1.unstamped, r.2))
  | 0, _, _, _ => rfl
  | fuel + 1, t, u, h => by
    have hs := addContactStep_congr h n now
    rw [addContact_succ, addContact_succ]
    cases ht : t.addContactStep n now with
    | none =>
      cases hu : u.addContactStep n now with
      | none => rfl
      | some r => simp [ht, hu] at hs
    | some r =>
      cases hu : u.addContactStep n now with
      | none => simp [ht, hu] at hs
      | some r' =>
        simp only [ht, hu, Option.map_some', Option.some.injEq] at hs
        cases r <;> cases r' <;> simp only [AddStep.unstamped, reduceCtorEq, AddStep.added.injEq,
          AddStep.pinged.injEq, AddStep.split.injEq] at hs
        · simp only [Option.map_some', hs]
        · simp only [Option.map_some', hs]
        · exact addContact_congr fuel hs

/-! ## Reachable up to stamps -/

/-- The tables that agree with a reachable one up to the buckets' stamps. -/
def Touched (node : Node) (ksize : Nat) (u : RoutingTable) : Prop :=
  ∃ t, Reachable node ksize t ∧ t.unstamped = u.unstamped

namespace Touched

variable {node : Node} {ksize : Nat} {u u' : RoutingTable}

theorem flush (now : Int) : Touched node ksize (flush node ksize now) := ⟨_, .flush now, rfl⟩

theorem congr (h : Touched node ksize u) (h' : u'.unstamped = u.unstamped) :
    Touched node ksize u' :=
  let ⟨t, ht, he⟩ := h
  ⟨t, ht, he.trans h'.symm⟩

theorem addContact (h : Touched node ksize u) {fuel : Nat} {n : Node} {now : Int} {p : Option Node}
    (hc : u.addContact fuel n now = some (u', p)) : Touched node ksize u' := by
  obtain ⟨t, ht, he⟩ := h
  have hm := @addContact_congr n now fuel _ _ he
  rw [hc, Option.map_some'] at hm
  obtain ⟨⟨t', p'⟩, htc, hF⟩ := Option.map_eq_some'.1 hm
  exact ⟨t', .addContact fuel n now ht htc, (Prod.mk.inj hF).1⟩

theorem removeContact (h : Touched node ksize u) {n : Node} (hc : u.removeContact n = some u') :
    Touched node ksize u' := by
  obtain ⟨t, ht, he⟩ := h
  have hm := removeContact_congr he n
  rw [hc, Option.map_some'] at hm
  obtain ⟨t', htc, hF⟩ := Option.map_eq_some'.1 hm
  exact ⟨t', .removeContact n ht htc, hF⟩

theorem findNeighbors (h : Touched node ksize u) {target : Node} {k : Option Nat}
    {exclude : Option Node} {now : Int} {ns : List Node}
    (hf : u.findNeighbors target k exclude now = some (u', ns)) : Touched node ksize u' :=
  h.congr (findNeighbors_unstamped u hf)

end Touched

end RoutingTable

namespace KademliaProtocol

/-! ## Runs of the protocol -/

/-- The states a `KademliaProtocol` for `node` with bucket size `ksize` reaches:
built over any store, then any sequence of handled requests and of call
responses, each with any number of `addContact` passes. -/
inductive Reachable (digest : Nat → Nat) (node : Node) (ksize : Nat) :
    KademliaProtocol → Prop where
  | new (storage : ForgetfulStorage Nat Value) (now : Int) :
      Reachable digest node ksize (new node storage ksize now)
  | handle {p p' : KademliaProtocol} {a : Answer} {out : List Outbound} (fuel : Nat) (req : Request)
      (now : Int) : Reachable digest node ksize p →
      p.handle digest fuel req now = some (p', a, out) →
      Reachable digest node ksize p'
  | response {p p' : KademliaProtocol} {out : List Outbound} (fuel : Nat) (ok : Bool) (n : Node)
      (now : Int) : Reachable digest node ksize p →
      p.handleCallResponse digest fuel ok n now = some (p', out) → Reachable digest node ksize p'

section Touched

variable {digest : Nat → Nat} {fuel : Nat} {node : Node} {ksize : Nat}

theorem foldlM_welcomeStep {src n : Node} {now : Int} :
    ∀ {kvs : List (Nat × Value)} {acc acc' : RoutingTable × List Outbound},
      RoutingTable.Touched node ksize acc.1 →
      kvs.foldlM (welcomeStep digest src n now) acc = some acc' →
      RoutingTable.Touched node ksize acc'.1
  | [], _, _, h, he => by cases he; exact h
  | kv :: kvs, acc, acc', h, he => by
    rw [List.foldlM_cons] at he
    obtain ⟨acc₁, h₁, h₂⟩ := Option.bind_eq_some.1 he
    refine foldlM_welcomeStep ?_ h₂
    unfold welcomeStep at h₁
    obtain ⟨⟨r, ns⟩, hf, hr⟩ := Option.bind_eq_some.1 h₁
    cases hr
    exact h.findNeighbors hf

theorem welcomeIfNewNode_touched {p p' : KademliaProtocol} {n : Node} {now : Int}
    {out : List Outbound} (h : RoutingTable.Touched node ksize p.router)
    (hw : p.welcomeIfNewNode digest fuel n now = some (p', out)) :
    RoutingTable.Touched node ksize p'.router := by
  unfold welcomeIfNewNode at hw
  obtain ⟨isNew, -, hw⟩ := Option.bind_eq_some.1 hw
  split at hw
  · cases hw; exact h
  · obtain ⟨⟨r, stores⟩, hf, hw⟩ := Option.bind_eq_some.1 hw
    obtain ⟨⟨r', pinged⟩, hc, hw⟩ := Option.bind_eq_some.1 hw
    cases hw
    exact (foldlM_welcomeStep h hf).addContact hc

theorem rpcFindNode_touched {p p' : KademliaProtocol} {sender : Address} {nodeid key : Nat}
    {now : Int} {a : Answer} {out : List Outbound} (h : RoutingTable.Touched node ksize p.router)
    (hr : p.rpcFindNode digest fuel sender nodeid key now = some (p', a, out)) :
    RoutingTable.Touched node ksize p'.router := by
  unfold rpcFindNode at hr
  obtain ⟨⟨p₁, out₁⟩, hw, hr⟩ := Option.bind_eq_some.1 hr
  obtain ⟨⟨r, ns⟩, hf, hr⟩ := Option.bind_eq_some.1 hr
  cases hr
  exact (welcomeIfNewNode_touched h hw).findNeighbors hf

theorem handle_touched {p p' : KademliaProtocol} {req : Request} {now : Int} {a : Answer}
    {out : List Outbound} (h : RoutingTable.Touched node ksize p.router)
    (hh : p.handle digest fuel req now = some (p', a, out)) :
    RoutingTable.Touched node ksize p'.router := by
  cases req with
  | ping sender nodeid =>
    obtain ⟨⟨p₁, out₁⟩, hw, hh⟩ := Option.bind_eq_some.1 hh
    cases hh
    exact welcomeIfNewNode_touched h hw
  | store sender nodeid key value =>
    obtain ⟨⟨p₁, out₁⟩, hw, hh⟩ := Option.bind_eq_some.1 hh
    cases hh
    have h₁ := welcomeIfNewNode_touched h hw
    exact h₁
  | findNode sender nodeid key => exact rpcFindNode_touched h hh
  | findValue sender nodeid key =>
    obtain ⟨⟨p₁, out₁⟩, hw, hh⟩ := Option.bind_eq_some.1 hh
    have h₁ := welcomeIfNewNode_touched h hw
    dsimp only at hh
    split at hh
    · obtain ⟨⟨p₂, a₂, out₂⟩, hr, hh⟩ := Option.bind_eq_some.1 hh
      cases hh
      exact rpcFindNode_touched (p := { p₁ with storage := (p₁.storage.get key .nil now).2 })
        h₁ hr
    · cases hh
      exact h₁

theorem handleCallResponse_touched {p p' : KademliaProtocol} {ok : Bool} {n : Node} {now : Int}
    {out : List Outbound} (h : RoutingTable.Touched node ksize p.router)
    (hh : p.handleCallResponse digest fuel ok n now = some (p', out)) :
    RoutingTable.Touched node ksize p'.router := by
  unfold handleCallResponse at hh
  split at hh
  · obtain ⟨r, hr, hh⟩ := Option.map_eq_some'.1 hh
    cases hh
    exact h.removeContact hr
  · exact welcomeIfNewNode_touched h hh

end Touched

/-- **The protocol refines the routing table.** Every table a running
`KademliaProtocol` holds is, but for the buckets' last-updated stamps, a table
that `flush()` and `addContact` and `removeContact` calls reach. -/
theorem Reachable.touched {digest : Nat → Nat} {node : Node} {ksize : Nat} {p : KademliaProtocol}
    (h : Reachable digest node ksize p) : RoutingTable.Touched node ksize p.router := by
  induction h with
  | new storage now => exact .flush now
  | handle fuel req now _ hh ih => exact handle_touched ih hh
  | response fuel ok n now _ hh ih => exact handleCallResponse_touched ih hh

/-- A protocol for node 0 with `ksize` 20, after a store from node 5 and a ping
from node 6. -/
theorem reachable_after_store_and_ping : ∃ p, Reachable (fun k => k) ⟨0, none, none⟩ 20 p := by
  have hw : ((new ⟨0, none, none⟩ (.new 20000) 20 0).handle (fun k => k) 1
      (.store ("10.0.0.5", 8468) 5 7 (.bool true)) 0).map
        (fun r => (r.1.handle (fun k => k) 1 (.ping ("10.0.0.6", 8468) 6) 1).isSome) = some true := by
    decide
  obtain ⟨⟨p₁, a₁, o₁⟩, h₁, hw⟩ := Option.map_eq_some'.1 hw
  obtain ⟨⟨p₂, a₂, o₂⟩, h₂⟩ := Option.isSome_iff_exists.1 hw
  exact ⟨p₂, .handle 1 _ 1 (.handle 1 _ 0 (.new _ 0) h₁) h₂⟩

/-- **No bucket of a running protocol overflows.** -/
theorem Reachable.len_le {digest : Nat → Nat} {node : Node} {ksize : Nat} {p : KademliaProtocol}
    (h : Reachable digest node ksize p) : ∀ b ∈ p.router.buckets, b.len ≤ ksize := by
  obtain ⟨t, ht, he⟩ := h.touched
  intro b hb
  have hb' : b.unstamped ∈ t.buckets.map KBucket.unstamped := by
    rw [show t.buckets.map KBucket.unstamped = p.router.buckets.map KBucket.unstamped from
      congrArg RoutingTable.buckets he]
    exact List.mem_map_of_mem _ hb
  obtain ⟨b', hb'm, hbe⟩ := List.mem_map.1 hb'
  exact (congrArg KBucket.len hbe ▸ (RoutingTable.ksize_len_le ht b' hb'm).2 :)

/-- `Reachable.len_le` on a protocol for node 0 with `ksize` 20 that has handled
a store from node 5 and then a ping from node 6. -/
theorem len_le_after_store_and_ping :
    ∃ p, Reachable (fun k => k) ⟨0, none, none⟩ 20 p ∧ ∀ b ∈ p.router.buckets, b.len ≤ 20 := by
  obtain ⟨p, hp⟩ := reachable_after_store_and_ping
  exact ⟨p, hp, hp.len_le⟩

end KademliaProtocol
end Canbox.Kademlia
