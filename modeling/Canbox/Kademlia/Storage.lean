import Mathlib.Data.List.Sort
import Canbox.Kademlia.Utils

/-!
# `ForgetfulStorage` (`storage.js`)

The store is a `Map` from key to `[timestamp, value]` in insertion order. Every
read of `this.now` is a clock reading, and an operation carries its own: `set`
reads the clock twice (the stamp, then the cull), `get` and `items` once, for
their cull, and `iteritemsOlderThan` once.

`cull` does not test each entry: it counts the entries stamped no later than
`now - ttl` and pops that many from the front. That removes the right ones only
if the stamps are sorted, and they are because `set` deletes a present key before
re-inserting it at the end and the clock does not go back. The proof is a
refinement: `latest` is what the store is for, each key's most recent `set` in
the order those sets happened, and `Good` says the `Map` is `latest` with what
the last cull dropped left out. `Good` holds after every operation
(`good_step`), so after every run (`good_run`), and the headline
`forgetful_storage_run` follows from it. The same invariant shows that
`iteritemsOlderThan(secondsOld)`, which does not cull, lists only pairs `get`
no longer answers once `ttl ≤ secondsOld` (`get_of_mem_iteritemsOlderThan`).

Without a clock that never goes back, a `set` is still read back while it is
young, from any store and through any later calls but `set`: it stays the
`Map`'s last entry, which no cull reaches before the entry itself expires
(`LastIs`, `get_set_of_live`).
-/

set_option autoImplicit false

namespace Canbox.Kademlia

/-- `ForgetfulStorage`: its `ttl`, and the `Map` from key to `[timestamp, value]`,
in insertion order. -/
structure ForgetfulStorage (κ ν : Type) where
  ttl : Int
  entries : List (κ × Int × ν)
  nodup : (entries.map Prod.fst).Nodup

namespace ForgetfulStorage

variable {κ ν : Type}

/-- `new ForgetfulStorage(ttl)`. -/
def new (ttl : Int) : ForgetfulStorage κ ν := ⟨ttl, [], List.nodup_nil⟩

/-- `pop()`, in its default `'FIFO'` direction: the oldest entry's value, and
the store without it. -/
def pop (s : ForgetfulStorage κ ν) : Option ν × ForgetfulStorage κ ν :=
  (s.entries.head?.map (·.2.2), ⟨s.ttl, s.entries.tail, ((List.tail_sublist _).map _).nodup s.nodup⟩)

/-- `iteritemsOlderThan(secondsOld)`, the clock reading `now`: the pairs whose
stamp is at most `minBirthday = now - secondsOld`, in order. -/
def iteritemsOlderThan (s : ForgetfulStorage κ ν) (secondsOld now : Int) : List (κ × ν) :=
  (s.entries.filter fun e => e.2.1 ≤ now - secondsOld).map fun e => (e.1, e.2.2)

/-- `cull()`, the clock reading `now`: one `pop()` for each pair
`iteritemsOlderThan(ttl)` lists. -/
def cull (s : ForgetfulStorage κ ν) (now : Int) : ForgetfulStorage κ ν :=
  Nat.iterate (fun s => s.pop.2) (s.iteritemsOlderThan s.ttl now).length s

/-- `items()`, culling at `now`. -/
def items (s : ForgetfulStorage κ ν) (now : Int) : List (κ × ν) × ForgetfulStorage κ ν :=
  let s' := s.cull now
  (s'.entries.map fun e => (e.1, e.2.2), s')

/-- A call on the store, with the clock readings it makes. -/
inductive Op (κ ν : Type) where
  | set (key : κ) (value : ν) (stamp cullAt : Int)
  | get (key : κ) (dflt : ν) (now : Int)
  | items (now : Int)
  | iteritemsOlderThan (secondsOld now : Int)

/-- The clock readings of a call, in the order it makes them. -/
def Op.readings : Op κ ν → List Int
  | .set _ _ stamp cullAt => [stamp, cullAt]
  | .get _ _ now | .items now | .iteritemsOlderThan _ now => [now]

/-- An entry that a cull at `now` keeps: younger than `ttl`. -/
def live (ttl now : Int) (e : κ × Int × ν) : Bool := now - e.2.1 < ttl

/-- Stamps are non-decreasing along the list. -/
def Stamped (l : List (κ × Int × ν)) : Prop := l.Pairwise fun a b => a.2.1 ≤ b.2.1

/-- The last clock reading of a call. -/
def Op.lastReading : Op κ ν → Int
  | .set _ _ _ cullAt => cullAt
  | .get _ _ now | .items now | .iteritemsOlderThan _ now => now

theorem lastReading_mem (op : Op κ ν) : op.lastReading ∈ op.readings := by
  cases op <;> simp [Op.lastReading, Op.readings]

theorem getLast?_readings (op : Op κ ν) : op.readings.getLast? = some op.lastReading := by
  cases op <;> rfl

/-! ## What a cull does -/

@[simp] theorem ttl_iterate_pop (n : Nat) (s : ForgetfulStorage κ ν) :
    (Nat.iterate (fun s : ForgetfulStorage κ ν => s.pop.2) n s).ttl = s.ttl := by
  induction n generalizing s with
  | zero => rfl
  | succ n ih => rw [Function.iterate_succ_apply, ih]; rfl

@[simp] theorem entries_iterate_pop (n : Nat) (s : ForgetfulStorage κ ν) :
    (Nat.iterate (fun s : ForgetfulStorage κ ν => s.pop.2) n s).entries = s.entries.drop n := by
  induction n generalizing s with
  | zero => rfl
  | succ n ih => rw [Function.iterate_succ_apply, ih]; exact List.drop_tail _ _

@[simp] theorem ttl_cull (s : ForgetfulStorage κ ν) (now : Int) : (s.cull now).ttl = s.ttl :=
  ttl_iterate_pop _ _

theorem entries_cull (s : ForgetfulStorage κ ν) (now : Int) :
    (s.cull now).entries = s.entries.drop (s.entries.filter fun e => e.2.1 ≤ now - s.ttl).length := by
  simp [cull, iteritemsOlderThan]

/-- On a stamp-sorted list, dropping from the front as many entries as are
stamped no later than `x` drops exactly those. -/
theorem drop_count_eq_filter (x : Int) : ∀ {l : List (κ × Int × ν)}, Stamped l →
    l.drop (l.filter fun e => e.2.1 ≤ x).length = l.filter fun e => ¬ e.2.1 ≤ x
  | [], _ => rfl
  | e :: l, h => by
    obtain ⟨hle, hl⟩ := List.pairwise_cons.1 h
    by_cases he : e.2.1 ≤ x
    · simpa [List.filter_cons, he] using drop_count_eq_filter x hl
    · have hall : ∀ a ∈ e :: l, ¬ a.2.1 ≤ x := by
        intro a ha
        rcases List.mem_cons.1 ha with rfl | ha
        · exact he
        · have := hle a ha; omega
      rw [List.filter_eq_nil_iff.2 fun a ha h => hall a ha (of_decide_eq_true h),
        List.filter_eq_self.2 fun a ha => decide_eq_true (hall a ha)]
      rfl

/-- **A cull on sorted stamps** keeps exactly the entries younger than `ttl`,
unchanged and in order. -/
theorem cull_entries_of_stamped {s : ForgetfulStorage κ ν} (h : Stamped s.entries) (now : Int) :
    (s.cull now).entries = s.entries.filter (live s.ttl now) := by
  rw [entries_cull, drop_count_eq_filter _ h]
  exact List.filter_congr fun e _ => by simp only [live, decide_eq_decide]; omega

/-- What a later cull keeps, an earlier one kept. -/
theorem filter_live_of_le {ttl c c' : Int} (h : c ≤ c') (l : List (κ × Int × ν)) :
    (l.filter (live ttl c)).filter (live ttl c') = l.filter (live ttl c') := by
  rw [List.filter_filter]
  refine List.filter_congr fun e _ => ?_
  simp only [live]
  by_cases hc : c' - e.2.1 < ttl
  · have : c - e.2.1 < ttl := by omega
    simp [hc, this]
  · simp [hc]

/-! ## The refinement invariant -/

section Good

variable {ttl clk : Int} {L : List (κ × Int × ν)} {s : ForgetfulStorage κ ν}

/-- **The refinement invariant.** `L` is the abstract store, stamp-sorted and
stamped no later than the clock `clk`; the `Map` is `L` less what a cull at some
time `c ≤ clk` dropped. -/
structure Good (ttl clk : Int) (L : List (κ × Int × ν)) (s : ForgetfulStorage κ ν) : Prop where
  ttl_eq : s.ttl = ttl
  sorted : Stamped L
  le_clk : ∀ e ∈ L, e.2.1 ≤ clk
  culled : ∃ c ≤ clk, s.entries = L.filter (live ttl c)

theorem good_new (ttl clk : Int) : Good ttl clk [] (new ttl : ForgetfulStorage κ ν) :=
  ⟨rfl, List.Pairwise.nil, by simp, ⟨clk, le_refl _, rfl⟩⟩

theorem Good.stamped (h : Good ttl clk L s) : Stamped s.entries := by
  obtain ⟨c, -, hc⟩ := h.culled
  rw [hc]
  exact h.sorted.filter _

theorem Good.mono (h : Good ttl clk L s) {clk' : Int} (hle : clk ≤ clk') : Good ttl clk' L s :=
  ⟨h.ttl_eq, h.sorted, fun e he => (h.le_clk e he).trans hle,
    let ⟨c, hc, he⟩ := h.culled; ⟨c, hc.trans hle, he⟩⟩

/-- A cull at `now` leaves exactly the entries of `L` younger than `ttl`. -/
theorem Good.cull_entries (h : Good ttl clk L s) {now : Int} (hnow : clk ≤ now) :
    (s.cull now).entries = L.filter (live ttl now) := by
  obtain ⟨c, hc, he⟩ := h.culled
  rw [cull_entries_of_stamped h.stamped, h.ttl_eq, he, filter_live_of_le (hc.trans hnow)]

theorem good_cull (h : Good ttl clk L s) {now : Int} (hnow : clk ≤ now) : Good ttl now L (s.cull now) :=
  ⟨by rw [ttl_cull, h.ttl_eq], h.sorted, fun e he => (h.le_clk e he).trans hnow,
    ⟨now, le_refl _, h.cull_entries hnow⟩⟩

end Good

/-! ## `set` and `get` -/

section Keyed

variable [DecidableEq κ]

/-- Deleting a key and appending it keeps the keys distinct. -/
theorem nodup_insert {l : List (κ × Int × ν)} (hl : (l.map Prod.fst).Nodup) (key : κ) (x : Int × ν) :
    ((l.filter (·.1 ≠ key) ++ [(key, x)]).map Prod.fst).Nodup := by
  rw [List.map_append, List.nodup_append]
  refine ⟨((List.filter_sublist _).map _).nodup hl, List.nodup_singleton _, ?_⟩
  intro k hk hk'
  obtain ⟨e, he, rfl⟩ := List.mem_map.1 hk
  exact of_decide_eq_true (List.mem_filter.1 he).2 (List.mem_singleton.1 hk')

/-- `set(key, value)`: stamped `stamp`, then culled at `cullAt`. A present key
is deleted first, so the new entry is the last. -/
def set (s : ForgetfulStorage κ ν) (key : κ) (value : ν) (stamp cullAt : Int) :
    ForgetfulStorage κ ν :=
  (⟨s.ttl, s.entries.filter (·.1 ≠ key) ++ [(key, stamp, value)], nodup_insert s.nodup key _⟩ :
    ForgetfulStorage κ ν).cull cullAt

/-- `get(key, def)`, culling at `now`. -/
def get (s : ForgetfulStorage κ ν) (key : κ) (dflt : ν) (now : Int) : ν × ForgetfulStorage κ ν :=
  let s' := s.cull now
  (((s'.entries.find? (·.1 = key)).map (·.2.2)).getD dflt, s')

/-! ## Runs, and what the store is for -/

/-- The store after a call. -/
def step (s : ForgetfulStorage κ ν) : Op κ ν → ForgetfulStorage κ ν
  | .set key value stamp cullAt => s.set key value stamp cullAt
  | .get key dflt now => (s.get key dflt now).2
  | .items now => (s.items now).2
  | .iteritemsOlderThan _ _ => s

/-- The store after a sequence of calls. -/
def run (s : ForgetfulStorage κ ν) (ops : List (Op κ ν)) : ForgetfulStorage κ ν :=
  ops.foldl step s

/-- One call on the abstract store: a `set` makes its entry the last. -/
def latestStep (l : List (κ × Int × ν)) : Op κ ν → List (κ × Int × ν)
  | .set key value stamp _ => l.filter (·.1 ≠ key) ++ [(key, stamp, value)]
  | _ => l

/-- The abstract store: each key's most recent `set`, with its stamp, in the
order those sets were made. -/
def latest (ops : List (Op κ ν)) : List (κ × Int × ν) := ops.foldl latestStep []

/-- The most recent `set(key, v)` of a run, with its stamp. -/
def lastSet (ops : List (Op κ ν)) (key : κ) : Option (Int × ν) :=
  (ops.filterMap fun
    | .set k v stamp _ => if k = key then some (stamp, v) else none
    | _ => none).getLast?

theorem stamped_insert {l : List (κ × Int × ν)} (hl : Stamped l) {stamp : Int}
    (hle : ∀ e ∈ l, e.2.1 ≤ stamp) (key : κ) (value : ν) :
    Stamped (l.filter (·.1 ≠ key) ++ [(key, stamp, value)]) := by
  refine List.pairwise_append.2 ⟨hl.filter _, List.pairwise_singleton _ _, ?_⟩
  intro a ha b hb
  rw [List.mem_singleton.1 hb]
  exact hle a (List.mem_of_mem_filter ha)

section Run

variable {ttl clk : Int} {L : List (κ × Int × ν)} {s : ForgetfulStorage κ ν}

theorem good_set (h : Good ttl clk L s) {key : κ} {value : ν} {stamp cullAt : Int}
    (h₁ : clk ≤ stamp) (h₂ : stamp ≤ cullAt) :
    Good ttl cullAt (latestStep L (.set key value stamp cullAt)) (s.set key value stamp cullAt) := by
  obtain ⟨c, hc, he⟩ := h.culled
  have hmem : ∀ e ∈ s.entries, e ∈ L := fun e he' => List.mem_of_mem_filter (he ▸ he')
  have hpre := stamped_insert h.stamped (fun e he' => (h.le_clk e (hmem e he')).trans h₁) key value
  refine ⟨by simp [set, h.ttl_eq], stamped_insert h.sorted (fun e he' => (h.le_clk e he').trans h₁) key value,
    ?_, cullAt, le_refl _, ?_⟩
  · intro e he'
    rcases List.mem_append.1 he' with ha | hb
    · exact (h.le_clk e (List.mem_of_mem_filter ha)).trans (h₁.trans h₂)
    · rw [List.mem_singleton.1 hb]; exact h₂
  · rw [set, cull_entries_of_stamped (s := ⟨_, _, _⟩) hpre]
    simp only [latestStep, List.filter_append, h.ttl_eq, he]
    rw [← filter_live_of_le (hc.trans (h₁.trans h₂)) (L.filter (·.1 ≠ key))]
    simp only [List.filter_filter, Bool.and_comm]

/-- **One call keeps the invariant**, the clock read on from `clk`. -/
theorem good_step (h : Good ttl clk L s) (op : Op κ ν) (hr : (clk :: op.readings).Sorted (· ≤ ·)) :
    Good ttl op.lastReading (latestStep L op) (s.step op) := by
  cases op with
  | set key value stamp cullAt =>
    simp only [Op.readings, List.sorted_cons] at hr
    exact good_set h (hr.1 stamp (by simp)) (hr.2.1 cullAt (by simp))
  | get key dflt now => exact good_cull h (by simpa [Op.readings] using hr)
  | items now => exact good_cull h (by simpa [Op.readings] using hr)
  | iteritemsOlderThan secondsOld now => exact h.mono (by simpa [Op.readings] using hr)

/-- **Every run keeps the invariant**, its clock readings sorted after `clk`. -/
theorem good_run : ∀ (ops : List (Op κ ν)) {clk : Int} {L : List (κ × Int × ν)}
    {s : ForgetfulStorage κ ν}, Good ttl clk L s → (clk :: ops.flatMap Op.readings).Sorted (· ≤ ·) →
      Good ttl ((ops.flatMap Op.readings).getLast?.getD clk) (ops.foldl latestStep L) (s.run ops)
  | [], _, _, _, h, _ => h
  | op :: ops, clk, L, s, h, hr => by
    rw [List.flatMap_cons, List.sorted_cons, List.Sorted, List.pairwise_append] at hr
    obtain ⟨hclk, hop, hrest, hlt⟩ := hr
    have h₁ := good_step h op (List.sorted_cons.2 ⟨fun b hb => hclk b (List.mem_append_left _ hb), hop⟩)
    have h₂ := good_run ops h₁ (List.sorted_cons.2 ⟨hlt _ (lastReading_mem op), hrest⟩)
    rw [List.flatMap_cons, List.getLast?_append, getLast?_readings]
    cases hl : (ops.flatMap Op.readings).getLast? <;> rw [hl] at h₂ <;> exact h₂

end Run

/-! ## The abstract store answers like the most recent `set` -/

theorem latest_append (ops : List (Op κ ν)) (op : Op κ ν) :
    latest (ops ++ [op]) = latestStep (latest ops) op := by
  simp [latest, List.foldl_append]

theorem nodup_latest (ops : List (Op κ ν)) : ((latest ops).map Prod.fst).Nodup := by
  induction ops using List.reverseRecOn with
  | nil => exact List.nodup_nil
  | append_singleton ops op ih =>
    rw [latest_append]
    cases op with
    | set key value stamp _ => exact nodup_insert ih key _
    | _ => exact ih

theorem find?_filter_ne {k key : κ} (hk : k ≠ key) (l : List (κ × Int × ν)) :
    (l.filter (·.1 ≠ k)).find? (·.1 = key) = l.find? (·.1 = key) := by
  induction l with
  | nil => rfl
  | cons e l ih =>
    by_cases hek : e.1 = k
    · have hkey : e.1 ≠ key := hek ▸ hk
      rw [List.filter_cons_of_neg (by simpa using hek), ih,
        List.find?_cons_of_neg _ (by simpa using hkey)]
    · rw [List.filter_cons_of_pos (by simpa using hek)]
      by_cases he : e.1 = key
      · rw [List.find?_cons_of_pos _ (by simpa using he), List.find?_cons_of_pos _ (by simpa using he)]
      · rw [List.find?_cons_of_neg _ (by simpa using he), List.find?_cons_of_neg _ (by simpa using he), ih]

theorem lastSet_append (ops : List (Op κ ν)) (op : Op κ ν) (key : κ) :
    lastSet (ops ++ [op]) key =
      match op with
      | .set k v stamp _ => if k = key then some (stamp, v) else lastSet ops key
      | _ => lastSet ops key := by
  unfold lastSet
  rw [List.filterMap_append, List.getLast?_append]
  cases op with
  | set k v stamp _ => by_cases hk : k = key <;> simp [hk]
  | _ => simp

/-- The abstract store holds, for each key, its most recent `set`. -/
theorem find?_latest (ops : List (Op κ ν)) (key : κ) :
    (latest ops).find? (·.1 = key) = (lastSet ops key).map fun p => (key, p) := by
  induction ops using List.reverseRecOn with
  | nil => rfl
  | append_singleton ops op ih =>
    rw [latest_append, lastSet_append]
    cases op with
    | set k v stamp cullAt =>
      rw [latestStep, List.find?_append]
      by_cases hk : k = key
      · subst hk
        rw [List.find?_eq_none.2 fun x hx => by simpa using (List.mem_filter.1 hx).2]
        simp
      · rw [find?_filter_ne hk, ih]
        simp [hk]
    | _ => exact ih

/-- With distinct keys, looking a key up among the entries a filter keeps is
looking it up and then filtering. -/
theorem find?_filter_key {l : List (κ × Int × ν)} (hl : (l.map Prod.fst).Nodup)
    (q : κ × Int × ν → Bool) (key : κ) :
    (l.filter q).find? (·.1 = key) = (l.find? (·.1 = key)).filter q := by
  induction l with
  | nil => rfl
  | cons e l ih =>
    obtain ⟨hnot, hl'⟩ := List.nodup_cons.1 hl
    by_cases he : e.1 = key
    · have hnone : (l.filter q).find? (·.1 = key) = none := by
        refine List.find?_eq_none.2 fun x hx => ?_
        have := List.mem_map_of_mem Prod.fst (List.mem_of_mem_filter hx)
        simp only [decide_eq_true_eq]
        rintro rfl
        exact hnot (he ▸ this)
      by_cases hq : q e <;> simp [List.filter_cons, hq, he, hnone, Option.filter]
    · by_cases hq : q e <;> simp [List.filter_cons, hq, he, ih hl']

theorem head?_getD_le {l : List Int} (hl : l.Sorted (· ≤ ·)) (d : Int) : ∀ r ∈ l, l.head?.getD d ≤ r := by
  cases l with
  | nil => simp
  | cons a l =>
    intro r hr
    rcases List.mem_cons.1 hr with rfl | hr
    · exact le_refl _
    · exact (List.sorted_cons.1 hl).1 r hr

theorem getLast?_getD_le {l : List Int} {now : Int} (h : ∀ r ∈ l, r ≤ now) :
    l.getLast?.getD (l.head?.getD now) ≤ now := by
  cases hl : l.getLast? with
  | none => rw [List.getLast?_eq_none_iff.1 hl]; exact le_refl _
  | some x => exact h x (List.mem_of_getLast?_eq_some hl)

/-- **`ForgetfulStorage` forgets exactly what is older than `ttl`.** Take any
run of `set`, `get`, `items` and `iteritemsOlderThan` from
`new ForgetfulStorage(ttl)` whose clock readings never decrease. The stamps are
sorted in the `Map`'s order; a cull at any time, and the cull inside a further
`set`, keeps exactly the entries younger than `ttl`, unchanged and in order; and
at any time not before the run's last
reading, `get(key)` answers the value of the key's most recent `set` if that set
is younger than `ttl` and the default otherwise, while `items()` lists the live
entries of the abstract store in the order of their latest `set`. -/
theorem forgetful_storage_run (ttl : Int) (ops : List (Op κ ν))
    (hclock : (ops.flatMap Op.readings).Sorted (· ≤ ·)) :
    (((new ttl : ForgetfulStorage κ ν).run ops).entries.map (·.2.1)).Sorted (· ≤ ·) ∧
    (∀ now, (((new ttl : ForgetfulStorage κ ν).run ops).cull now).entries =
        ((new ttl : ForgetfulStorage κ ν).run ops).entries.filter fun e => now - e.2.1 < ttl) ∧
    (∀ key value stamp cullAt, (∀ r ∈ ops.flatMap Op.readings, r ≤ stamp) →
      (((new ttl : ForgetfulStorage κ ν).run ops).set key value stamp cullAt).entries =
        (((new ttl : ForgetfulStorage κ ν).run ops).entries.filter (·.1 ≠ key) ++
          [(key, stamp, value)]).filter fun e => cullAt - e.2.1 < ttl) ∧
    ∀ now, (∀ r ∈ ops.flatMap Op.readings, r ≤ now) →
      (∀ key dflt, (((new ttl : ForgetfulStorage κ ν).run ops).get key dflt now).1 =
        match lastSet ops key with
        | some (stamp, v) => if now - stamp < ttl then v else dflt
        | none => dflt) ∧
      (((new ttl : ForgetfulStorage κ ν).run ops).items now).1 =
        ((latest ops).filter fun e => now - e.2.1 < ttl).map fun e => (e.1, e.2.2) := by
  have hgood : ∀ clk₀, (∀ r ∈ ops.flatMap Op.readings, clk₀ ≤ r) →
      Good ttl ((ops.flatMap Op.readings).getLast?.getD clk₀) (latest ops)
        ((new ttl : ForgetfulStorage κ ν).run ops) :=
    fun clk₀ h₀ => good_run ops (good_new ttl clk₀) (List.sorted_cons.2 ⟨h₀, hclock⟩)
  have h0 := hgood _ (head?_getD_le hclock 0)
  refine ⟨List.pairwise_map.2 h0.stamped, fun now => ?_, fun key value stamp cullAt hs => ?_,
    fun now hnow => ?_⟩
  · rw [cull_entries_of_stamped h0.stamped, h0.ttl_eq]; rfl
  · have hg := hgood _ (head?_getD_le hclock stamp)
    obtain ⟨c, -, he⟩ := hg.culled
    have hpre := stamped_insert hg.stamped (fun e he' =>
      (hg.le_clk e (List.mem_of_mem_filter (he ▸ he'))).trans (getLast?_getD_le hs)) key value
    rw [set, cull_entries_of_stamped (s := ⟨_, _, _⟩) hpre]
    simp only [hg.ttl_eq]; rfl
  · have hc := (hgood _ (head?_getD_le hclock now)).cull_entries (getLast?_getD_le hnow)
    refine ⟨fun key dflt => ?_, by simp only [items, hc]; rfl⟩
    unfold get
    dsimp only
    rw [hc, find?_filter_key (nodup_latest ops), find?_latest]
    rcases lastSet ops key with _ | ⟨stamp, v⟩
    · rfl
    · by_cases hl : now - stamp < ttl <;> simp [Option.filter, live, hl]

/-- With distinct keys, a lookup of an entry's key finds that entry. -/
theorem find?_key_of_mem : ∀ {l : List (κ × Int × ν)}, (l.map Prod.fst).Nodup →
    ∀ {e : κ × Int × ν}, e ∈ l → l.find? (·.1 = e.1) = some e
  | [], _, _, he => absurd he (List.not_mem_nil _)
  | a :: l, hl, e, he => by
    obtain ⟨hnot, hl'⟩ := List.nodup_cons.1 hl
    rcases List.mem_cons.1 he with rfl | he
    · simp
    · have hne : a.1 ≠ e.1 := fun h => hnot (h ▸ List.mem_map_of_mem _ he)
      rw [List.find?_cons_of_neg _ (by simpa using hne), find?_key_of_mem hl' he]

/-- **A pair old enough to be listed is dead.** Over every run from
`new ForgetfulStorage(ttl)` whose clock never goes back, at any time `now` not
before its last reading: when `ttl ≤ secondsOld`, every pair
`iteritemsOlderThan(secondsOld)` lists is one `get` no longer returns. The
listing does not cull, so it still shows pairs a cull would drop. -/
theorem get_of_mem_iteritemsOlderThan (ttl : Int) (ops : List (Op κ ν))
    (hclock : (ops.flatMap Op.readings).Sorted (· ≤ ·)) {now secondsOld : Int}
    (hnow : ∀ r ∈ ops.flatMap Op.readings, r ≤ now) (hold : ttl ≤ secondsOld) :
    ∀ kv ∈ ((new ttl : ForgetfulStorage κ ν).run ops).iteritemsOlderThan secondsOld now,
      ∀ dflt, (((new ttl : ForgetfulStorage κ ν).run ops).get kv.1 dflt now).1 = dflt := by
  have hg : Good ttl now (latest ops) ((new ttl : ForgetfulStorage κ ν).run ops) :=
    (good_run ops (good_new ttl _) (List.sorted_cons.2 ⟨head?_getD_le hclock now, hclock⟩)).mono
      (getLast?_getD_le hnow)
  intro kv hkv dflt
  obtain ⟨e, he, rfl⟩ := List.mem_map.1 hkv
  obtain ⟨heL, hage⟩ := List.mem_filter.1 he
  obtain ⟨c, -, hc⟩ := hg.culled
  have heL : e ∈ latest ops := List.mem_of_mem_filter (hc ▸ heL)
  unfold get
  dsimp only
  rw [hg.cull_entries le_rfl, find?_filter_key (nodup_latest ops), find?_key_of_mem (nodup_latest ops) heL]
  have : live ttl now e = false := by
    simp only [live, decide_eq_false_iff_not, not_lt]
    simp only [decide_eq_true_eq] at hage
    omega
  simp [Option.filter, this]

/-- Two `set`s of one key, five apart, and a `get` nineteen after the second:
the second value, still live at `ttl = 20`. -/
theorem forgetful_storage_run_two_sets :
    List.Sorted (· ≤ ·) (([.set "k" 1 0 0, .set "k" 2 5 5] : List (Op String Nat)).flatMap Op.readings) ∧
      (((new 20 : ForgetfulStorage String Nat).run [.set "k" 1 0 0, .set "k" 2 5 5]).get "k" 0 24).1 = 2 :=
  ⟨by decide, by
    rw [((forgetful_storage_run 20 [.set "k" 1 0 0, .set "k" 2 5 5] (by decide)).2.2.2 24
      (by decide)).1 "k" 0]
    rfl⟩

/-! ## The pair set last, from any state

`cull` pops from the front, and `set` puts its pair at the back. So the pair a
`set` writes survives every cull made while it is younger than `ttl`, whatever
the store held before and whatever the other stamps are: no sorted stamps and
no monotone clock are needed for it. -/

/-- The store's last entry is `e`. -/
def LastIs (s : ForgetfulStorage κ ν) (e : κ × Int × ν) : Prop := ∃ l, s.entries = l ++ [e]

omit [DecidableEq κ] in
/-- A cull at a time when the last entry is younger than `ttl` keeps it last. -/
theorem LastIs.cull {s : ForgetfulStorage κ ν} {e : κ × Int × ν} (h : LastIs s e) {now : Int}
    (hlive : now - e.2.1 < s.ttl) : LastIs (s.cull now) e := by
  obtain ⟨l, hl⟩ := h
  have hlen : ((l ++ [e]).filter fun e => e.2.1 ≤ now - s.ttl).length ≤ l.length := by
    rw [List.filter_append, List.length_append, List.filter_singleton,
      decide_eq_false (show ¬ e.2.1 ≤ now - s.ttl by omega)]
    simpa using List.length_filter_le _ l
  exact ⟨_, by rw [entries_cull, hl, List.drop_append_of_le_length hlen]⟩

/-- `set` writes its pair last, and keeps it last through its own cull while it
is younger than `ttl`. -/
theorem lastIs_set (s : ForgetfulStorage κ ν) (key : κ) (value : ν) {stamp cullAt : Int}
    (hlive : cullAt - stamp < s.ttl) : LastIs (s.set key value stamp cullAt) (key, stamp, value) :=
  LastIs.cull (s := ⟨s.ttl, _, _⟩) ⟨_, rfl⟩ hlive

/-- With the last entry `e`, a lookup of `e`'s key finds `e`: the keys are
distinct. -/
theorem LastIs.find?_key {s : ForgetfulStorage κ ν} {e : κ × Int × ν} (h : LastIs s e) :
    s.entries.find? (·.1 = e.1) = some e := by
  obtain ⟨l, hl⟩ := h
  have hnd := s.nodup
  rw [hl, List.map_append, List.nodup_append] at hnd
  rw [hl, List.find?_append, List.find?_eq_none.2 fun x hx => ?_]
  · simp
  · simp only [decide_eq_true_eq]
    intro hx'
    exact hnd.2.2 (List.mem_map_of_mem _ hx) (by simp [hx'])

/-- With the last entry `e` younger than `ttl` at `now`, `get` of `e`'s key
answers `e`'s value. -/
theorem LastIs.get_eq {s : ForgetfulStorage κ ν} {e : κ × Int × ν} (h : LastIs s e) {now : Int}
    (hlive : now - e.2.1 < s.ttl) (dflt : ν) : (s.get e.1 dflt now).1 = e.2.2 := by
  simp only [get, (h.cull hlive).find?_key, Option.map_some', Option.getD_some]

/-- A call other than `set` keeps the last entry last while it is younger than
`ttl` at every clock reading of the call. -/
theorem LastIs.step {s : ForgetfulStorage κ ν} {e : κ × Int × ν} (h : LastIs s e) {op : Op κ ν}
    (hop : ∀ key value stamp cullAt, op ≠ .set key value stamp cullAt)
    (hlive : ∀ x ∈ op.readings, x - e.2.1 < s.ttl) : LastIs (s.step op) e := by
  cases op with
  | set key value stamp cullAt => exact absurd rfl (hop key value stamp cullAt)
  | get key dflt now => exact h.cull (hlive now (by simp [Op.readings]))
  | items now => exact h.cull (hlive now (by simp [Op.readings]))
  | iteritemsOlderThan _ _ => exact h

@[simp] theorem ttl_step (s : ForgetfulStorage κ ν) (op : Op κ ν) : (s.step op).ttl = s.ttl := by
  cases op <;> simp [step, set, get, items]

/-- **A `set` is read back until it expires, from any state.** Take any store,
with any entries and stamps, and `set(key, value)` on it with its clock
readings `stamp` and `cullAt`, then any calls other than `set`. If every clock
reading from the cull of that `set` on, and the reading `now` of a final
`get(key)` or `items()`, is less than `ttl` after `stamp`, then `get(key)`
answers `value`, and `items()` lists `(key, value)` last. -/
theorem get_set_of_live (s : ForgetfulStorage κ ν) (key : κ) (value dflt : ν) (stamp cullAt now : Int)
    (ops : List (Op κ ν)) (hops : ∀ op ∈ ops, ∀ k v t c, op ≠ .set k v t c)
    (hcull : cullAt - stamp < s.ttl) (hreads : ∀ x ∈ ops.flatMap Op.readings, x - stamp < s.ttl)
    (hnow : now - stamp < s.ttl) :
    (((s.set key value stamp cullAt).run ops).get key dflt now).1 = value ∧
      (((s.set key value stamp cullAt).run ops).items now).1.getLast? = some (key, value) := by
  -- the pair stays last through the calls
  have hrun : ∀ (ops : List (Op κ ν)) (s' : ForgetfulStorage κ ν), s'.ttl = s.ttl →
      LastIs s' (key, stamp, value) → (∀ op ∈ ops, ∀ k v t c, op ≠ .set k v t c) →
      (∀ x ∈ ops.flatMap Op.readings, x - stamp < s.ttl) →
      LastIs (s'.run ops) (key, stamp, value) ∧ (s'.run ops).ttl = s.ttl := by
    intro ops
    induction ops with
    | nil => exact fun s' ht h _ _ => ⟨h, ht⟩
    | cons op ops ih =>
      intro s' ht h hops hreads
      refine ih (s'.step op) (by rw [ttl_step, ht]) (h.step (hops op (List.mem_cons_self _ _))
        fun x hx => ht ▸ hreads x (List.mem_flatMap.2 ⟨op, List.mem_cons_self _ _, hx⟩))
        (fun o ho => hops o (List.mem_cons_of_mem _ ho)) fun x hx => hreads x ?_
      rw [List.flatMap_cons]
      exact List.mem_append_right _ hx
  obtain ⟨hlast, httl⟩ := hrun ops _ (by simp [set]) (lastIs_set s key value hcull) hops hreads
  obtain ⟨l, hl⟩ := @LastIs.cull _ _ _ _ hlast now (by rw [httl]; exact hnow)
  exact ⟨hlast.get_eq (by rw [httl]; exact hnow) dflt, by simp [items, hl]⟩

/-- The store with a stale entry stamped `50` before a `set` stamped `10`, the
clock having gone back: the pair set is still read back at `29`, with
`ttl = 20`. -/
theorem get_set_of_live_clock_back :
    (∀ op ∈ ([.items 25] : List (Op String Nat)), ∀ k v t c, op ≠ .set k v t c) ∧
      10 - 10 < ((new 20 : ForgetfulStorage String Nat).set "a" 1 50 50).ttl ∧
      (∀ x ∈ ([.items 25] : List (Op String Nat)).flatMap Op.readings,
        x - 10 < ((new 20 : ForgetfulStorage String Nat).set "a" 1 50 50).ttl) ∧
      29 - 10 < ((new 20 : ForgetfulStorage String Nat).set "a" 1 50 50).ttl ∧
      (((((new 20 : ForgetfulStorage String Nat).set "a" 1 50 50).set "k" 2 10 10).run
          [.items 25]).get "k" 0 29).1 = 2 ∧
      (((((new 20 : ForgetfulStorage String Nat).set "a" 1 50 50).set "k" 2 10 10).run
          [.items 25]).items 29).1.getLast? = some ("k", 2) := by
  have hops : ∀ op ∈ ([.items 25] : List (Op String Nat)), ∀ k v t c, op ≠ .set k v t c := by
    intro op hop k v t c
    rw [List.mem_singleton.1 hop]
    exact fun h => nomatch h
  have hreads : ∀ x ∈ ([.items 25] : List (Op String Nat)).flatMap Op.readings,
      x - 10 < ((new 20 : ForgetfulStorage String Nat).set "a" 1 50 50).ttl := by
    intro x hx
    simp only [List.flatMap_cons, List.flatMap_nil, List.append_nil, Op.readings,
      List.mem_singleton] at hx
    subst hx
    decide
  exact ⟨hops, by decide, hreads, by decide,
    get_set_of_live _ "k" 2 0 10 10 29 [.items 25] hops (by decide) hreads (by decide)⟩

end Keyed

end ForgetfulStorage

end Canbox.Kademlia
