import Canbox.Rpcudp.Protocol

/-!
# When the promise of `rpc()` settles

`Inv` holds of every state reached from the constructor when no two calls draw
the same msgid (`Reachable.inv`), sends that throw included. It is kept by each
event (`Inv.rpc`, `Inv.rpcSendThrows`, `Inv.sendDone`, `Inv.settle`, and
`Inv.step` over them), and it says:

* an entry of `_outstanding` holds the registered, unsettled call of its key;
* a registered, unsettled call has its entry;
* an unsettled promise has its timer armed;
* a settled promise has no send callback and no timer left.

So a settled promise is out of reach of every later event
(`Reachable.settled_final`), and a registered one is settled with `[true, data]`
by the first response carrying its msgid (`acceptResponse_settles`), or with
`[false, null]` by its timer (`timerFires_settles`).

The registration, though, waits for the send callback. Until it has run, a
response carrying the msgid finds no entry and is dropped
(`acceptResponse_of_sendPending`), and the timer throws in `_timeout`
(`timerFires_throws_of_sendPending`), which ends the process with the promise
still pending. `rpc_send_callback_races` runs both orders on one call.
-/

set_option autoImplicit false

namespace Canbox.Rpcudp

theorem getElem?_concat_eq_some {α : Type} {l : List α} {a c : α} {i : Nat} :
    (l ++ [a])[i]? = some c ↔ l[i]? = some c ∨ (i = l.length ∧ a = c) := by
  rcases Nat.lt_trichotomy i l.length with hi | rfl | hi
  · simp [List.getElem?_append_left hi, hi.ne]
  · simp
  · rw [List.getElem?_append_right hi.le, List.getElem?_eq_none hi.le,
      List.getElem?_eq_none (by simp; omega)]
    simp [hi.ne']

theorem getElem?_modify_eq_some {α : Type} {f : α → α} {l : List α} {i j : Nat} {d : α} :
    (l.modify f i)[j]? = some d ↔ ∃ c, l[j]? = some c ∧ (if i = j then f c else c) = d := by
  rw [List.getElem?_modify]
  cases l[j]? <;> simp

@[simp] theorem btos_resolve (r : Bool × Value) (c : Call) : (c.resolve r).btos = c.btos := by
  unfold Call.resolve; split <;> rfl

theorem map_btos_modify {f : Call → Call} (hf : ∀ c, (f c).btos = c.btos) (l : List Call) (i : Nat) :
    (l.modify f i).map Call.btos = l.map Call.btos := by
  refine List.ext_getElem (by simp) fun j _ _ => ?_
  simp only [List.getElem_map, List.getElem_modify]
  split <;> simp [hf]

namespace RPCProtocol

/-! ## The invariant -/

/-- What holds of every state reachable with fresh msgids. -/
structure Inv (s : RPCProtocol) : Prop where
  /-- No two calls share a key. -/
  nodup : (s.calls.map Call.btos).Nodup
  /-- An entry holds the registered, unsettled call of its key. -/
  entry_eq_some : ∀ {key : String} {i : Nat}, s.entry key = some i →
    ∃ c, s.calls[i]? = some c ∧ c.btos = key ∧ c.sendPending = false ∧ c.promise = none
  /-- A registered, unsettled call has its entry. -/
  entry_of_registered : ∀ {i : Nat} {c : Call}, s.calls[i]? = some c → c.sendPending = false →
    c.promise = none → s.entry c.btos = some i
  /-- An unsettled promise has its timer armed. -/
  armed : ∀ {i : Nat} {c : Call}, s.calls[i]? = some c → c.promise = none → c.timerArmed = true
  /-- A settled promise has no send callback and no timer left. -/
  settled : ∀ {i : Nat} {c : Call}, s.calls[i]? = some c → c.promise ≠ none →
    c.sendPending = false ∧ c.timerArmed = false

theorem inv_new : Inv new :=
  ⟨List.nodup_nil, by simp [new, entry], by simp [new], by simp [new], by simp [new]⟩

section
variable {s : RPCProtocol}

/-- Two calls with one key are one call. -/
theorem Inv.index_eq (h : Inv s) {i j : Nat} {c d : Call} (hi : s.calls[i]? = some c)
    (hj : s.calls[j]? = some d) (hk : c.btos = d.btos) : i = j :=
  List.getElem?_inj (by simpa using (List.getElem?_eq_some_iff.1 hi).1) h.nodup
    (by simp [List.getElem?_map, hi, hj, hk])

/-- The call under a key whose send callback has not run has no entry. -/
theorem Inv.entry_of_sendPending (h : Inv s) {i : Nat} {c : Call} (hc : s.calls[i]? = some c)
    (hpend : c.sendPending = true) : s.entry c.btos = none := by
  cases he : s.entry c.btos with
  | none => rfl
  | some j =>
    obtain ⟨d, hd, hk, hs, -⟩ := h.entry_eq_some he
    obtain rfl := h.index_eq hc hd hk.symm
    obtain rfl := Option.some.inj (hc.symm.trans hd)
    simp [hs] at hpend

/-! ## One event -/

theorem Inv.rpc (h : Inv s) {name : List UInt8} {args : List Value} {msgid : List UInt8}
    {s' : RPCProtocol} {datagram : List UInt8} (hfresh : base64 msgid ∉ s.calls.map Call.btos)
    (hs : s.rpc name args msgid = .ok (s', datagram)) : Inv s' := by
  dsimp only [RPCProtocol.rpc] at hs
  split at hs
  · cases hs
  · cases hs
    have hent : ∀ k, ({ s with calls := s.calls ++ [⟨base64 msgid, true, true, none⟩] } :
        RPCProtocol).entry k = s.entry k := fun _ => rfl
    refine ⟨?_, fun he => ?_, fun hc hs hp => ?_, fun hc hp => ?_, fun hc hp => ?_⟩
    · rw [List.map_append]
      exact List.nodup_append.2 ⟨h.nodup, List.nodup_singleton _, fun _ hx hx' => hfresh (by
        obtain rfl := List.eq_of_mem_singleton hx'; exact hx)⟩
    · obtain ⟨c, hc, hrest⟩ := h.entry_eq_some (hent _ ▸ he)
      exact ⟨c, getElem?_concat_eq_some.2 (.inl hc), hrest⟩
    · rcases getElem?_concat_eq_some.1 hc with hc | ⟨-, rfl⟩
      · exact h.entry_of_registered hc hs hp
      · cases hs
    · rcases getElem?_concat_eq_some.1 hc with hc | ⟨-, rfl⟩
      · exact h.armed hc hp
      · rfl
    · rcases getElem?_concat_eq_some.1 hc with hc | ⟨-, rfl⟩
      · exact h.settled hc hp
      · exact absurd rfl hp

/-- A send that throws leaves the state `rpc` leaves before its send callback,
or, over 512 bytes, the state as it was. -/
theorem Inv.rpcSendThrows (h : Inv s) {name : List UInt8} {args : List Value}
    {msgid : List UInt8} (hfresh : base64 msgid ∉ s.calls.map Call.btos) :
    Inv (s.rpcSendThrows name args msgid) := by
  dsimp only [RPCProtocol.rpcSendThrows]
  split
  · exact h
  · exact h.rpc hfresh (if_neg ‹_›)

theorem Inv.sendDone (h : Inv s) (i : Nat) : Inv (s.sendDone i) := by
  unfold RPCProtocol.sendDone
  cases hc : s.calls[i]? with
  | none => exact h
  | some c =>
    dsimp only
    split
    case isFalse => exact h
    case isTrue hpend =>
    have hp : c.promise = none := by
      by_contra hp; simp [(h.settled hc hp).1] at hpend
    have hcalls : ∀ {j d}, ((s.updateCall i fun c => { c with sendPending := false }).setEntry
        c.btos i).calls[j]? = some d ↔
        ∃ d₀, s.calls[j]? = some d₀ ∧ (if i = j then { d₀ with sendPending := false } else d₀) = d :=
      getElem?_modify_eq_some
    refine ⟨?_, fun {k j} he => ?_, fun {j d} hd hs hdp => ?_, fun {j d} hd hdp => ?_,
      fun {j d} hd hdp => ?_⟩
    · simpa [map_btos_modify] using h.nodup
    · rw [entry_setEntry] at he
      split at he
      case isTrue hk =>
        cases he
        exact ⟨_, hcalls.2 ⟨c, hc, if_pos rfl⟩, hk.symm, rfl, hp⟩
      case isFalse hk =>
        obtain ⟨d, hd, hdk, hds, hdp⟩ := h.entry_eq_some (by simpa using he)
        have hij : i ≠ j := by
          rintro rfl
          cases hc.symm.trans hd
          simp [hds] at hpend
        exact ⟨d, hcalls.2 ⟨d, hd, if_neg hij⟩, hdk, hds, hdp⟩
    · obtain ⟨d₀, hd₀, rfl⟩ := hcalls.1 hd
      rw [entry_setEntry]
      split_ifs at hs hdp ⊢ with hij hk hk
      · subst hij; rfl
      · subst hij; cases hc.symm.trans hd₀; exact absurd rfl hk
      · exact absurd (h.index_eq hc hd₀ hk.symm) hij
      · simpa using h.entry_of_registered hd₀ hs hdp
    · obtain ⟨d₀, hd₀, rfl⟩ := hcalls.1 hd
      split_ifs at hdp ⊢ with hij
      · subst hij; cases hc.symm.trans hd₀; exact (h.armed hc hp : c.timerArmed = true)
      · exact h.armed hd₀ hdp
    · obtain ⟨d₀, hd₀, rfl⟩ := hcalls.1 hd
      split_ifs at hdp ⊢ with hij
      · subst hij; cases hc.symm.trans hd₀; exact absurd hp hdp
      · exact h.settled hd₀ hdp

/-- Settling the call registered under `key`: its timer cleared, its promise
resolved, its entry deleted. Both `_acceptResponse` and the timer do this. -/
theorem Inv.settle (h : Inv s) {key : String} {i : Nat} (he : s.entry key = some i)
    (r : Bool × Value) :
    Inv (((s.updateCall i Call.disarm).updateCall i (Call.resolve r)).deleteEntry key) := by
  obtain ⟨c, hc, rfl, hcs, hcp⟩ := h.entry_eq_some he
  have hcalls : ∀ {j d}, (((s.updateCall i Call.disarm).updateCall i (Call.resolve r)).deleteEntry
      c.btos).calls[j]? = some d ↔
      ∃ d₀, s.calls[j]? = some d₀ ∧
        (if i = j then { d₀ with timerArmed := false, promise := some r } else d₀) = d := by
    intro j d
    simp only [calls_deleteEntry, calls_updateCall, List.modify_modify_eq, getElem?_modify_eq_some]
    refine exists_congr fun d₀ => and_congr_right fun hd₀ => ?_
    split_ifs with hij
    · subst hij
      obtain rfl := Option.some.inj (hc.symm.trans hd₀)
      rw [Function.comp_apply, resolve_of_none (by simpa using hcp)]
      rfl
    · rfl
  refine ⟨?_, fun {k j} he' => ?_, fun {j d} hd hs hdp => ?_, fun {j d} hd hdp => ?_,
    fun {j d} hd hdp => ?_⟩
  · simpa [map_btos_modify] using h.nodup
  · rw [entry_deleteEntry] at he'
    split at he'
    case isTrue => cases he'
    case isFalse hk =>
      obtain ⟨d, hd, hdk, hds, hdp⟩ := h.entry_eq_some (by simpa using he')
      have hij : i ≠ j := by
        rintro rfl
        cases hc.symm.trans hd
        exact hk hdk.symm
      exact ⟨d, hcalls.2 ⟨d, hd, if_neg hij⟩, hdk, hds, hdp⟩
  · obtain ⟨d₀, hd₀, rfl⟩ := hcalls.1 hd
    -- the settled call itself is no longer registered
    split_ifs at hs hdp ⊢ with hij
    rw [entry_deleteEntry, if_neg fun hk => hij (h.index_eq hc hd₀ hk.symm)]
    exact h.entry_of_registered hd₀ hs hdp
  · obtain ⟨d₀, hd₀, rfl⟩ := hcalls.1 hd
    split_ifs at hdp ⊢ with hij
    exact h.armed hd₀ hdp
  · obtain ⟨d₀, hd₀, rfl⟩ := hcalls.1 hd
    split_ifs at hdp ⊢ with hij
    · subst hij
      obtain rfl := Option.some.inj (hc.symm.trans hd₀)
      exact ⟨hcs, rfl⟩
    · exact h.settled hd₀ hdp

theorem Inv.acceptResponse (h : Inv s) (msgid : List UInt8) (data : Value) :
    Inv (s.acceptResponse msgid data) := by
  dsimp only [RPCProtocol.acceptResponse]
  split
  · exact h
  · next he => exact h.settle he _

theorem Inv.timerFires (h : Inv s) {i : Nat} {s' : RPCProtocol} (hs : s.timerFires i = .ok s') :
    Inv s' := by
  unfold RPCProtocol.timerFires at hs
  cases hc : s.calls[i]? with
  | none => simp only [hc] at hs; cases hs; exact h
  | some c =>
    simp only [hc] at hs
    split at hs
    case isFalse => cases hs; exact h
    case isTrue =>
    unfold RPCProtocol.timeout at hs
    cases he : s.entry c.btos with
    | none => simp [he] at hs
    | some j =>
      simp only [entry_updateCall, he] at hs
      cases hs
      obtain ⟨d, hd, hk, -⟩ := h.entry_eq_some he
      cases h.index_eq hc hd hk.symm
      exact h.settle he _

theorem Inv.datagramReceived (h : Inv s) {data : List UInt8} {addr : Address}
    {s' : RPCProtocol} {req : Option Request} (hs : s.datagramReceived data addr = .ok (s', req)) :
    Inv s' := by
  unfold RPCProtocol.datagramReceived at hs
  split at hs <;> cases hs
  · exact h
  · exact h
  · exact h.acceptResponse _ _

end

end RPCProtocol

/-! ## Every run -/

/-- An event that does not reuse a key: `rpc` draws a msgid no earlier call drew. -/
def Event.Fresh (e : Event) (s : RPCProtocol) : Prop :=
  match e with
  | .rpc _ _ msgid | .rpcSendThrows _ _ msgid => base64 msgid ∉ s.calls.map Call.btos
  | _ => True

theorem fst_map_eq_ok {α β : Type} {x : Except Throw (α × β)} {a : α} :
    Prod.fst <$> x = .ok a ↔ ∃ b, x = .ok (a, b) := by
  cases x with
  | error e => simp [Functor.map, Except.map]
  | ok p => obtain ⟨a', b⟩ := p; simp [Functor.map, Except.map]

namespace RPCProtocol

theorem Inv.step {s s' : RPCProtocol} {e : Event} (h : Inv s) (hfresh : e.Fresh s)
    (hs : s.step e = .ok s') : Inv s' := by
  cases e with
  | rpc name args msgid =>
    obtain ⟨d, ht⟩ := fst_map_eq_ok.1 hs
    exact h.rpc hfresh ht
  | rpcSendThrows name args msgid => cases hs; exact h.rpcSendThrows hfresh
  | sendDone i => cases hs; exact h.sendDone i
  | timerFires i => exact h.timerFires hs
  | datagram data addr =>
    obtain ⟨req, ht⟩ := fst_map_eq_ok.1 hs
    exact h.datagramReceived ht

/-- The states the protocol reaches from its constructor, every `rpc` drawing a
fresh msgid, whether its send goes out or throws. -/
inductive Reachable : RPCProtocol → Prop where
  | new : Reachable new
  | step {s s' : RPCProtocol} {e : Event} : Reachable s → e.Fresh s → s.step e = .ok s' →
      Reachable s'

theorem Reachable.inv {s : RPCProtocol} (h : Reachable s) : Inv s := by
  induction h with
  | new => exact inv_new
  | step _ hfresh hs ih => exact ih.step hfresh hs

/-- A `ping` with the msgid of twenty `0x07` bytes, after its send callback:
registered, its timer armed. -/
theorem reachable_ping_sent : Reachable ⟨[(base64 (List.replicate 20 7), 0)],
    [⟨base64 (List.replicate 20 7), false, true, none⟩]⟩ :=
  .step (e := .sendDone 0)
    (.step (e := .rpc (utf8 "ping") [] (List.replicate 20 7)) .new (by simp [Event.Fresh, new]) rfl)
    trivial rfl

/-! ## What the invariant says about each promise -/

section
variable {s : RPCProtocol} {i : Nat} {c : Call}

/-- **A settled promise is out of reach.** It has no entry under its key, no
send callback and no timer left, so no later event resolves it again. -/
theorem Reachable.settled_final (h : Reachable s) (hc : s.calls[i]? = some c)
    (hp : c.promise ≠ none) :
    s.entry c.btos = none ∧ c.sendPending = false ∧ c.timerArmed = false := by
  have hi := h.inv
  refine ⟨?_, hi.settled hc hp⟩
  cases he : s.entry c.btos with
  | none => rfl
  | some j =>
    obtain ⟨d, hd, hk, -, hdp⟩ := hi.entry_eq_some he
    cases hi.index_eq hc hd hk.symm
    cases hc ▸ hd
    exact absurd hdp hp

/-- `Reachable.settled_final` once a response has settled the call of
`reachable_ping_sent`. -/
theorem settled_final_after_response :
    ∃ s c, Reachable s ∧ s.calls[0]? = some c ∧ c.promise = some (true, .bin [1, 2]) ∧
      s.entry c.btos = none ∧ c.sendPending = false ∧ c.timerArmed = false := by
  have h : Reachable ⟨[], [⟨base64 (List.replicate 20 7), false, false, some (true, .bin [1, 2])⟩]⟩ :=
    .step (e := .datagram (answer (List.replicate 20 7) (.bin [1, 2])) ("127.0.0.1", 8468))
      reachable_ping_sent trivial (by decide)
  exact ⟨_, _, h, rfl, rfl, h.settled_final (i := 0) rfl (by simp)⟩

/-- What `_acceptResponse` does to call `j`: it settles it if the response's
key is registered to it, and otherwise leaves it as it was. -/
theorem calls_acceptResponse (s : RPCProtocol) (msgid : List UInt8) (data : Value) (j : Nat) :
    (s.acceptResponse msgid data).calls[j]? =
      if s.entry (base64 msgid) = some j then
        (s.calls[j]?).map fun c => (c.disarm).resolve (true, data)
      else s.calls[j]? := by
  unfold RPCProtocol.acceptResponse
  dsimp only
  cases s.entry (base64 msgid) with
  | none => simp
  | some i =>
    simp only [calls_deleteEntry, calls_updateCall, List.modify_modify_eq, List.getElem?_modify,
      Option.some.injEq]
    split_ifs
    · rfl
    · exact id_map _

/-- **A response settles a registered call with `[true, data]`.** Once the
send callback of call `i` has run, and before its promise settles, a response
whose msgid has the call's key clears the timer, resolves the promise with the
response's body, and deletes the entry. -/
theorem acceptResponse_settles (h : Inv s) (hc : s.calls[i]? = some c)
    (hsent : c.sendPending = false) (hp : c.promise = none) {msgid : List UInt8}
    (hkey : base64 msgid = c.btos) (data : Value) :
    (s.acceptResponse msgid data).calls[i]? =
        some { c with timerArmed := false, promise := some (true, data) } ∧
      (s.acceptResponse msgid data).entry c.btos = none := by
  have he := h.entry_of_registered hc hsent hp
  unfold RPCProtocol.acceptResponse
  simp only [hkey, he]
  refine ⟨?_, by simp [entry_deleteEntry]⟩
  simp only [calls_deleteEntry, calls_updateCall, List.getElem?_modify_eq, hc,
    Option.map_eq_map, Option.map_some']
  rw [resolve_of_none (by simpa using hp)]
  rfl

/-- `acceptResponse_settles` on the call of `reachable_ping_sent`. -/
theorem acceptResponse_settles_ping :
    ∃ s c, Reachable s ∧ s.calls[0]? = some c ∧ c.sendPending = false ∧ c.promise = none ∧
      (s.acceptResponse (List.replicate 20 7) (.bin [1, 2])).calls[0]? =
        some { c with timerArmed := false, promise := some (true, .bin [1, 2]) } ∧
      (s.acceptResponse (List.replicate 20 7) (.bin [1, 2])).entry c.btos = none :=
  ⟨_, _, reachable_ping_sent, rfl, rfl, rfl,
    acceptResponse_settles reachable_ping_sent.inv (i := 0) rfl rfl rfl rfl _⟩

/-- **The timer settles a registered call with `[false, null]`.** -/
theorem timerFires_settles (h : Inv s) (hc : s.calls[i]? = some c)
    (hsent : c.sendPending = false) (hp : c.promise = none) :
    ∃ s', s.timerFires i = .ok s' ∧
      s'.calls[i]? = some { c with timerArmed := false, promise := some (false, .nil) } ∧
      s'.entry c.btos = none := by
  have he := h.entry_of_registered hc hsent hp
  refine ⟨((s.updateCall i Call.disarm).updateCall i (Call.resolve (false, .nil))).deleteEntry c.btos,
    ?_, ?_, ?_⟩
  · unfold RPCProtocol.timerFires RPCProtocol.timeout
    simp only [hc, h.armed hc hp, if_true, entry_updateCall, he]
    rfl
  · simp only [calls_deleteEntry, calls_updateCall, List.getElem?_modify_eq, hc,
      Option.map_eq_map, Option.map_some']
    rw [resolve_of_none (by simpa using hp)]
    rfl
  · simp [entry_deleteEntry]

/-- `timerFires_settles` on the call of `reachable_ping_sent`. -/
theorem timerFires_settles_ping :
    ∃ s c, Reachable s ∧ s.calls[0]? = some c ∧ c.sendPending = false ∧ c.promise = none ∧
      ∃ s', s.timerFires 0 = .ok s' ∧
        s'.calls[0]? = some { c with timerArmed := false, promise := some (false, .nil) } ∧
        s'.entry c.btos = none :=
  ⟨_, _, reachable_ping_sent, rfl, rfl, rfl, timerFires_settles reachable_ping_sent.inv rfl rfl rfl⟩

/-- **A response before the send callback is dropped.** In every state the
invariant holds of, a response under the key of a call whose send callback has
not run finds no entry, and leaves the protocol as it was. -/
theorem acceptResponse_of_sendPending (h : Inv s) (hc : s.calls[i]? = some c)
    (hpend : c.sendPending = true) {msgid : List UInt8} (hkey : base64 msgid = c.btos)
    (data : Value) : s.acceptResponse msgid data = s := by
  unfold RPCProtocol.acceptResponse
  simp only [hkey, h.entry_of_sendPending hc hpend]

/-- `acceptResponse_of_sendPending` on one `rpc` whose send callback has not
run yet: the response to it is dropped. -/
theorem acceptResponse_of_sendPending_ping :
    Reachable ⟨[], [⟨base64 (List.replicate 20 7), true, true, none⟩]⟩ ∧
      (⟨[], [⟨base64 (List.replicate 20 7), true, true, none⟩]⟩ : RPCProtocol).acceptResponse
        (List.replicate 20 7) (.bin [1, 2]) = ⟨[], [⟨base64 (List.replicate 20 7), true, true, none⟩]⟩ :=
  have h : Reachable ⟨[], [⟨base64 (List.replicate 20 7), true, true, none⟩]⟩ :=
    .step (e := .rpc (utf8 "ping") [] (List.replicate 20 7)) .new (by simp [Event.Fresh, new]) rfl
  ⟨h, acceptResponse_of_sendPending (i := 0) (c := ⟨base64 (List.replicate 20 7), true, true, none⟩)
    h.inv rfl rfl rfl _⟩

/-- **The timer before the send callback throws.** `_timeout` finds no entry
under the call's key, and `let [ f ] = undefined` throws a `TypeError`. -/
theorem timerFires_throws_of_sendPending (h : Inv s) (hc : s.calls[i]? = some c)
    (hpend : c.sendPending = true) (harm : c.timerArmed = true) :
    s.timerFires i = .error .notIterable := by
  unfold RPCProtocol.timerFires RPCProtocol.timeout
  simp only [hc, harm, if_true, entry_updateCall, h.entry_of_sendPending hc hpend]
  rfl

end

/-- **The send callback comes too late.** One call of `rpc` on a fresh
protocol. Before the send callback the promise is pending with no entry; if
the timer fires then, `_timeout` throws and the promise is never settled. If a
response arrives then, it is dropped, and the timer settles the promise with
`[false, null]` although the response came in time. -/
theorem rpc_send_callback_races :
    (new.run [.rpc (utf8 "ping") [] (List.replicate 20 7)]).map
        (fun s => (s.calls.map Call.promise, s.outstanding)) = .ok ([none], []) ∧
      new.run [.rpc (utf8 "ping") [] (List.replicate 20 7), .timerFires 0] = .error .notIterable ∧
      (new.run [.rpc (utf8 "ping") [] (List.replicate 20 7),
          .datagram (answer (List.replicate 20 7) (.bin [1, 2])) ("127.0.0.1", 8468),
          .sendDone 0, .timerFires 0]).map
        (fun s => (s.calls.map Call.promise, s.outstanding)) = .ok ([some (false, .nil)], []) :=
  ⟨by decide, by decide, by decide⟩

end RPCProtocol

end Canbox.Rpcudp
