import Canbox.Rpcudp.MsgPack

/-!
# What `decode` makes of `encode`

Two facts about the MessagePack model, both over every value and every buffer.

*The round trip.* A value whose numbers and lengths fit the format (`fits`)
is read back from its encoding, whatever bytes follow it
(`decodeValue_encode`), so `decode` inverts `encode` (`decode_encode`). It is
built from one lemma per format the encoder writes: the header's format byte
names that format (`Format.ofByte`), and its big-endian length or number reads
back as written (`beNat_beBytes`).

*The fuel.* `decodeValue` is given fuel so that it is structurally recursive;
`msgpack5` has none. Decoding never lengthens the rest of the buffer
(`shrinks_decodeValue`), so once the fuel exceeds the buffer's length more fuel
changes nothing (`decodeValue_fuel`): `decode` gives the answer of the decoder
with any fuel beyond that (`decode_eq_decodeValue`), and no answer of it,
error or value, comes from running out.
-/

set_option autoImplicit false

namespace Canbox.Rpcudp

/-! ## Big-endian numbers -/

theorem toNat_toUInt8 (n : Nat) : n.toUInt8.toNat = n % 256 := rfl

theorem length_beBytes : ∀ w n : Nat, (beBytes w n).length = w
  | 0, _ => rfl
  | w + 1, n => by simp [beBytes, length_beBytes w]

theorem beNat_append (l : List UInt8) (b : UInt8) : beNat (l ++ [b]) = beNat l * 256 + b.toNat := by
  simp [beNat, List.foldl_append]

theorem beNat_beBytes : ∀ w n : Nat, beNat (beBytes w n) = n % 2 ^ (8 * w)
  | 0, n => by simp [beBytes, beNat, Nat.mod_one]
  | w + 1, n => by
    rw [beBytes, beNat_append, beNat_beBytes w, toNat_toUInt8,
      show 8 * (w + 1) = 8 * w + 8 by omega, Nat.pow_add, Nat.mul_comm _ (2 ^ 8), Nat.mod_mul]
    generalize n / 2 ^ 8 % 2 ^ (8 * w) = q
    omega

theorem readBytes_append {n : Nat} {l : List UInt8} (rest : List UInt8) (h : l.length = n) :
    readBytes n (l ++ rest) = .ok (l, rest) := by
  subst h
  simp [readBytes]

theorem readUInt_beBytes {w n : Nat} (rest : List UInt8) (h : n < 2 ^ (8 * w)) :
    readUInt w (beBytes w n ++ rest) = .ok (n, rest) := by
  simp [readUInt, readBytes_append rest (length_beBytes w n), beNat_beBytes, Nat.mod_eq_of_lt h,
    Functor.map, Except.map]

/-! ## The format table -/

theorem ofByte_of_lt {b : Nat} (h : b < 0x80) : Format.ofByte b = .posFixint b := if_pos h

theorem ofByte_fixmap {n : Nat} (h : n < 16) : Format.ofByte (0x80 + n) = .fixmap n := by
  unfold Format.ofByte
  rw [if_neg (by omega), if_pos (by omega), Nat.add_sub_cancel_left]

theorem ofByte_fixarray {n : Nat} (h : n < 16) : Format.ofByte (0x90 + n) = .fixarray n := by
  unfold Format.ofByte
  rw [if_neg (by omega), if_neg (by omega), if_pos (by omega), Nat.add_sub_cancel_left]

theorem ofByte_fixstr {n : Nat} (h : n < 32) : Format.ofByte (0xa0 + n) = .fixstr n := by
  unfold Format.ofByte
  rw [if_neg (by omega), if_neg (by omega), if_neg (by omega), if_pos (by omega),
    Nat.add_sub_cancel_left]

theorem ofByte_negFixint {i : Int} (h₁ : -0x20 ≤ i) (h₂ : i < 0) :
    Format.ofByte (i + 0x100).toNat = .negFixint i := by
  unfold Format.ofByte
  rw [if_neg (by omega), if_neg (by omega), if_neg (by omega), if_neg (by omega), if_pos (by omega)]
  congr 1; omega

theorem toNat_toUInt8_of_lt {n : Nat} (h : n < 256) : n.toUInt8.toNat = n := Nat.mod_eq_of_lt h

/-! ## One format at a time

For a format byte `tag` whose format carries a `w`-byte number or length: what
follows the number is read as that format says. -/

section Tags

variable (fuel : Nat) (tag : UInt8) {w n : Nat} (bs : List UInt8)

theorem decodeValue_uint (htag : Format.ofByte tag.toNat = .uint w) (h : n < 2 ^ (8 * w)) :
    decodeValue (fuel + 1) (tag :: (beBytes w n ++ bs)) = .ok (.int n, bs) := by
  rw [decodeValue.eq_3, htag]
  simp only [readUInt_beBytes bs h]
  rfl

theorem decodeValue_int (htag : Format.ofByte tag.toNat = .int w) (h : n < 2 ^ (8 * w)) :
    decodeValue (fuel + 1) (tag :: (beBytes w n ++ bs)) = .ok (.int (signed w n), bs) := by
  rw [decodeValue.eq_3, htag]
  simp only [readUInt_beBytes bs h]
  rfl

theorem decodeValue_str (htag : Format.ofByte tag.toNat = .str w) (h : n < 2 ^ (8 * w)) :
    decodeValue (fuel + 1) (tag :: (beBytes w n ++ bs)) =
      (fun (s, r) => (Value.str s, r)) <$> readBytes n bs := by
  rw [decodeValue.eq_3, htag]
  simp only [readUInt_beBytes bs h]
  rfl

theorem decodeValue_bin (htag : Format.ofByte tag.toNat = .bin w) (h : n < 2 ^ (8 * w)) :
    decodeValue (fuel + 1) (tag :: (beBytes w n ++ bs)) =
      (fun (b, r) => (Value.bin b, r)) <$> readBytes n bs := by
  rw [decodeValue.eq_3, htag]
  simp only [readUInt_beBytes bs h]
  rfl

theorem decodeValue_array (htag : Format.ofByte tag.toNat = .array w) (h : n < 2 ^ (8 * w)) :
    decodeValue (fuel + 1) (tag :: (beBytes w n ++ bs)) =
      (fun (xs, r) => (Value.arr xs, r)) <$> decodeMany (decodeValue fuel) n bs := by
  rw [decodeValue.eq_3, htag]
  simp only [readUInt_beBytes bs h]
  rfl

theorem decodeValue_map (htag : Format.ofByte tag.toNat = .map w) (h : n < 2 ^ (8 * w)) :
    decodeValue (fuel + 1) (tag :: (beBytes w n ++ bs)) =
      (fun (xs, r) => (Value.map (pairUp xs), r)) <$>
        decodeMany (decodeValue fuel) (2 * n) bs := by
  rw [decodeValue.eq_3, htag]
  simp only [readUInt_beBytes bs h]
  rfl

end Tags

/-! ## The round trip -/

mutual
/-- Whether every number and length of a value fits the format: integers in
`[-2 ^ 63, 2 ^ 64)`, float bits in their width, and fewer than `2 ^ 32`
bytes, elements or pairs. -/
def Value.fits : Value → Bool
  | .nil | .bool _ => true
  | .int i => decide (-0x8000000000000000 ≤ i ∧ i < 0x10000000000000000)
  | .float32 x => decide (x < 2 ^ 32)
  | .float64 x => decide (x < 2 ^ 64)
  | .str s => decide (s.length < 2 ^ 32)
  | .bin b => decide (b.length < 2 ^ 32)
  | .arr xs => decide (xs.length < 2 ^ 32) && Value.fitsList xs
  | .map kvs => decide (kvs.length < 2 ^ 32) && Value.fitsPairs kvs
/-- Whether every value of a list fits. -/
def Value.fitsList : List Value → Bool
  | [] => true
  | x :: xs => x.fits && Value.fitsList xs
/-- Whether every key and value of a map fits. -/
def Value.fitsPairs : List (Value × Value) → Bool
  | [] => true
  | (k, v) :: kvs => k.fits && v.fits && Value.fitsPairs kvs
end

/-- An integer in range reads back from the format `encodeInt` picks. -/
theorem decodeValue_encodeInt (fuel : Nat) {i : Int} (bs : List UInt8)
    (h₁ : -0x8000000000000000 ≤ i) (h₂ : i < 0x10000000000000000) :
    decodeValue (fuel + 1) (encodeInt i ++ bs) = .ok (.int i, bs) := by
  dsimp only [encodeInt]
  by_cases h₀ : 0 ≤ i
  · have hi : (i.toNat : Int) = i := Int.toNat_of_nonneg h₀
    rw [if_pos h₀]
    by_cases h : i.toNat < 0x80
    · rw [if_pos h, List.singleton_append, decodeValue.eq_3, toNat_toUInt8_of_lt (by omega),
        ofByte_of_lt h]
      show Except.ok (Value.int i.toNat, bs) = _
      rw [hi]
    rw [if_neg h]
    by_cases h : i.toNat < 2 ^ 8
    · rw [if_pos h, List.cons_append, decodeValue_uint fuel 0xcc bs rfl h, hi]
    rw [if_neg h]
    by_cases h : i.toNat < 2 ^ 16
    · rw [if_pos h, List.cons_append, decodeValue_uint fuel 0xcd bs rfl h, hi]
    rw [if_neg h]
    by_cases h : i.toNat < 2 ^ 32
    · rw [if_pos h, List.cons_append, decodeValue_uint fuel 0xce bs rfl h, hi]
    rw [if_neg h, List.cons_append, decodeValue_uint fuel 0xcf bs rfl (by omega), hi]
  rw [if_neg h₀]
  by_cases h : -0x20 ≤ i
  · rw [if_pos h, List.singleton_append, decodeValue.eq_3, toNat_toUInt8_of_lt (by omega),
      ofByte_negFixint h (by omega)]
    rfl
  rw [if_neg h]
  by_cases h : -0x80 ≤ i
  · rw [if_pos h, List.cons_append, decodeValue_int fuel 0xd0 bs rfl (by omega), signed,
      if_neg (by omega)]
    congr 3; omega
  rw [if_neg h]
  by_cases h : -0x8000 ≤ i
  · rw [if_pos h, List.cons_append, decodeValue_int fuel 0xd1 bs rfl (by omega), signed,
      if_neg (by omega)]
    congr 3; omega
  rw [if_neg h]
  by_cases h : -214748365 < i
  · rw [if_pos h, List.cons_append, decodeValue_int fuel 0xd2 bs rfl (by omega), signed,
      if_neg (by omega)]
    congr 3; omega
  rw [if_neg h, List.cons_append, decodeValue_int fuel 0xd3 bs rfl (by omega), signed,
    if_neg (by omega)]
  congr 3; omega

theorem decodeValue_strHeader (fuel : Nat) {n : Nat} (bs : List UInt8) (h : n < 2 ^ 32) :
    decodeValue (fuel + 1) (strHeader n ++ bs) =
      (fun (s, r) => (Value.str s, r)) <$> readBytes n bs := by
  unfold strHeader
  split_ifs
  · rw [List.singleton_append, decodeValue.eq_3, toNat_toUInt8_of_lt (by omega),
      ofByte_fixstr ‹_›]
  · exact decodeValue_str fuel 0xd9 bs rfl ‹_›
  · exact decodeValue_str fuel 0xda bs rfl ‹_›
  · exact decodeValue_str fuel 0xdb bs rfl h

theorem decodeValue_binHeader (fuel : Nat) {n : Nat} (bs : List UInt8) (h : n < 2 ^ 32) :
    decodeValue (fuel + 1) (binHeader n ++ bs) =
      (fun (b, r) => (Value.bin b, r)) <$> readBytes n bs := by
  unfold binHeader
  split_ifs
  · exact decodeValue_bin fuel 0xc4 bs rfl ‹_›
  · exact decodeValue_bin fuel 0xc5 bs rfl ‹_›
  · exact decodeValue_bin fuel 0xc6 bs rfl h

theorem decodeValue_arrayHeader (fuel : Nat) {n : Nat} (bs : List UInt8) (h : n < 2 ^ 32) :
    decodeValue (fuel + 1) (arrayHeader n ++ bs) =
      (fun (xs, r) => (Value.arr xs, r)) <$> decodeMany (decodeValue fuel) n bs := by
  unfold arrayHeader
  split_ifs
  · rw [List.singleton_append, decodeValue.eq_3, toNat_toUInt8_of_lt (by omega),
      ofByte_fixarray ‹_›]
  · exact decodeValue_array fuel 0xdc bs rfl ‹_›
  · exact decodeValue_array fuel 0xdd bs rfl h

theorem decodeValue_mapHeader (fuel : Nat) {n : Nat} (bs : List UInt8) (h : n < 2 ^ 32) :
    decodeValue (fuel + 1) (mapHeader n ++ bs) =
      (fun (xs, r) => (Value.map (pairUp xs), r)) <$> decodeMany (decodeValue fuel) (2 * n) bs := by
  unfold mapHeader
  split_ifs
  · rw [List.singleton_append, decodeValue.eq_3, toNat_toUInt8_of_lt (by omega),
      ofByte_fixmap ‹_›]
  · exact decodeValue_map fuel 0xde bs rfl ‹_›
  · exact decodeValue_map fuel 0xdf bs rfl h

/-- The keys and values of a map, as the array of values they are written as. -/
def flatPairs (kvs : List (Value × Value)) : List Value := kvs.flatMap fun kv => [kv.1, kv.2]

theorem encodePairs_eq :
    ∀ kvs : List (Value × Value), Value.encodePairs kvs = Value.encodeList (flatPairs kvs)
  | [] => rfl
  | (k, v) :: kvs => by
    simp [Value.encodePairs, Value.encodeList, flatPairs, encodePairs_eq kvs]
    rfl

theorem pairUp_flatPairs : ∀ kvs : List (Value × Value), pairUp (flatPairs kvs) = kvs
  | [] => rfl
  | _ :: kvs => congrArg _ (pairUp_flatPairs kvs)

theorem length_flatPairs (kvs : List (Value × Value)) :
    (flatPairs kvs).length = 2 * kvs.length := by
  induction kvs with
  | nil => rfl
  | cons kv kvs ih => simp [flatPairs] at *; omega

theorem decodeMany_encodeList {f : List UInt8 → Except DecodeError (Value × List UInt8)} :
    ∀ (xs : List Value) (rest : List UInt8),
      (∀ x ∈ xs, ∀ r, f (x.encode ++ r) = .ok (x, r)) →
      decodeMany f xs.length (Value.encodeList xs ++ rest) = .ok (xs, rest)
  | [], _, _ => rfl
  | x :: xs, rest, h => by
    rw [Value.encodeList, List.append_assoc, List.length_cons, decodeMany,
      h x (List.mem_cons_self _ _)]
    show (decodeMany f xs.length (Value.encodeList xs ++ rest) >>= _) = _
    rw [decodeMany_encodeList xs rest fun y hy => h y (List.mem_cons_of_mem _ hy)]
    rfl

theorem length_encode_le_of_mem {x : Value} : ∀ {xs : List Value}, x ∈ xs →
    x.encode.length ≤ (Value.encodeList xs).length
  | y :: ys, h => by
    rw [Value.encodeList, List.length_append]
    rcases List.mem_cons.1 h with rfl | h
    · omega
    · have := length_encode_le_of_mem h; omega

theorem fitsList_iff : ∀ xs : List Value, Value.fitsList xs = true ↔ ∀ x ∈ xs, x.fits = true
  | [] => by simp [Value.fitsList]
  | x :: xs => by simp [Value.fitsList, fitsList_iff xs]

theorem fitsPairs_eq :
    ∀ kvs : List (Value × Value), Value.fitsPairs kvs = Value.fitsList (flatPairs kvs)
  | [] => rfl
  | (k, v) :: kvs => by
    show (k.fits && v.fits && Value.fitsPairs kvs) =
      (k.fits && (v.fits && Value.fitsList (flatPairs kvs)))
    rw [fitsPairs_eq kvs, Bool.and_assoc]

/-- An element's encoding is shorter than its array's. -/
theorem length_encode_lt_arr {x : Value} {xs : List Value} (hx : x ∈ xs) :
    x.encode.length < (Value.arr xs).encode.length := by
  have := length_encode_le_of_mem hx
  have := List.length_pos.2 (show arrayHeader xs.length ≠ [] by
    simp only [arrayHeader, ne_eq, ite_eq_iff, List.cons_ne_nil, and_false, or_self,
      not_false_eq_true])
  simp only [Value.encode, List.length_append]
  omega

/-- A key's or value's encoding is shorter than its map's. -/
theorem length_encode_lt_map {x : Value} {kvs : List (Value × Value)} (hx : x ∈ flatPairs kvs) :
    x.encode.length < (Value.map kvs).encode.length := by
  have := length_encode_le_of_mem hx
  have := List.length_pos.2 (show mapHeader kvs.length ≠ [] by
    simp only [mapHeader, ne_eq, ite_eq_iff, List.cons_ne_nil, and_false, or_self,
      not_false_eq_true])
  simp only [Value.encode, encodePairs_eq, List.length_append]
  omega

/-- **The round trip, in prefix form.** A value whose numbers and lengths fit
the format is read back from its encoding, whatever follows it, with as much
fuel as the encoding has bytes. -/
theorem decodeValue_encode : ∀ (fuel : Nat) (v : Value) (rest : List UInt8), v.fits = true →
    v.encode.length ≤ fuel → decodeValue fuel (v.encode ++ rest) = .ok (v, rest)
  | 0, v, _, _, hl => absurd (List.length_pos.2 (encode_ne_nil v)) (by omega)
  | fuel + 1, v, rest, hv, hl => by
    cases v with
    | nil => rfl
    | bool b => cases b <;> rfl
    | int i =>
      simp only [Value.fits, decide_eq_true_eq] at hv
      exact decodeValue_encodeInt fuel rest hv.1 hv.2
    | float32 x =>
      have hx : x < 2 ^ (8 * 4) := of_decide_eq_true hv
      rw [Value.encode, List.cons_append, decodeValue.eq_3]
      simp only [show Format.ofByte (0xca : UInt8).toNat = .float32 from rfl,
        readUInt_beBytes rest hx]
      rfl
    | float64 x =>
      have hx : x < 2 ^ (8 * 8) := of_decide_eq_true hv
      rw [Value.encode, List.cons_append, decodeValue.eq_3]
      simp only [show Format.ofByte (0xcb : UInt8).toNat = .float64 from rfl,
        readUInt_beBytes rest hx]
      rfl
    | str s =>
      rw [Value.encode, List.append_assoc, decodeValue_strHeader fuel _ (of_decide_eq_true hv),
        readBytes_append rest rfl]
      rfl
    | bin b =>
      rw [Value.encode, List.append_assoc, decodeValue_binHeader fuel _ (of_decide_eq_true hv),
        readBytes_append rest rfl]
      rfl
    | arr xs =>
      simp only [Value.fits, Bool.and_eq_true, decide_eq_true_eq, fitsList_iff] at hv
      rw [Value.encode, List.append_assoc, decodeValue_arrayHeader fuel _ hv.1,
        decodeMany_encodeList xs rest fun x hx r => decodeValue_encode fuel x r (hv.2 x hx)
          (by have := length_encode_lt_arr hx; omega)]
      rfl
    | map kvs =>
      simp only [Value.fits, Bool.and_eq_true, decide_eq_true_eq, fitsPairs_eq, fitsList_iff] at hv
      rw [Value.encode, encodePairs_eq, List.append_assoc, decodeValue_mapHeader fuel _ hv.1,
        ← length_flatPairs, decodeMany_encodeList _ rest fun x hx r =>
          decodeValue_encode fuel x r (hv.2 x hx) (by have := length_encode_lt_map hx; omega)]
      simp only [Functor.map, Except.map, pairUp_flatPairs]

/-- **`decode` inverts `encode`** on every value whose numbers and lengths fit
the format. -/
theorem decode_encode {v : Value} (hv : v.fits = true) : decode v.encode = .ok v := by
  have h := decodeValue_encode (v.encode.length + 1) v [] hv (Nat.le_succ _)
  rw [List.append_nil] at h
  simp only [decode, h, Functor.map, Except.map]
/-! ## The fuel -/

/-- What decoding `x` leaves of the buffer `bs` is no longer than `bs`. -/
def Shrinks {α : Type} (x : Except DecodeError (α × List UInt8)) (bs : List UInt8) : Prop :=
  ∀ a r, x = .ok (a, r) → r.length ≤ bs.length

section Shrinks

variable {α β : Type} {bs : List UInt8}

theorem bind_eq_ok {x : Except DecodeError α} {f : α → Except DecodeError β} {b : β}
    (h : x >>= f = .ok b) : ∃ a, x = .ok a ∧ f a = .ok b := by
  cases x with
  | error => cases h
  | ok a => exact ⟨a, rfl, h⟩

theorem shrinks_pure (a : α) : Shrinks (pure (a, bs)) bs := by
  rintro _ _ ⟨⟩
  exact le_rfl

theorem shrinks_throw (e : DecodeError) :
    Shrinks (throw e : Except DecodeError (α × List UInt8)) bs := by
  rintro _ _ ⟨⟩

/-- A map that keeps the rest of the buffer. -/
theorem Shrinks.map {f : α × List UInt8 → β × List UInt8}
    {x : Except DecodeError (α × List UInt8)} (hx : Shrinks x bs) (hf : ∀ p, (f p).2 = p.2) :
    Shrinks (f <$> x) bs := by
  intro b r h
  cases x with
  | error => cases h
  | ok p =>
    have hp : f p = (b, r) := Except.ok.inj h
    exact hx p.1 r (congrArg Except.ok (Prod.ext rfl (by rw [← hf p, hp])))

theorem Shrinks.bind {x : Except DecodeError (α × List UInt8)}
    {g : α × List UInt8 → Except DecodeError (β × List UInt8)} (hx : Shrinks x bs)
    (hg : ∀ a r, Shrinks (g (a, r)) r) : Shrinks (x >>= g) bs := by
  intro b r h
  obtain ⟨⟨a, r'⟩, ha, hb⟩ := bind_eq_ok h
  exact (hg a r' b r hb).trans (hx a r' ha)

end Shrinks

theorem shrinks_readBytes (n : Nat) (bs : List UInt8) : Shrinks (readBytes n bs) bs := by
  intro _ _ h
  unfold readBytes at h
  split_ifs at h
  cases h
  simp

theorem shrinks_readUInt (w : Nat) (bs : List UInt8) : Shrinks (readUInt w bs) bs :=
  (shrinks_readBytes w bs).map fun _ => rfl

theorem shrinks_decodeExt (size : Nat) (bs : List UInt8) : Shrinks (decodeExt size bs) bs := by
  intro _ _ h
  obtain ⟨_, -, h⟩ := bind_eq_ok h
  obtain ⟨_, -, h⟩ := bind_eq_ok h
  cases h

theorem shrinks_decodeMany {f : List UInt8 → Except DecodeError (Value × List UInt8)}
    (hf : ∀ bs, Shrinks (f bs) bs) : ∀ n bs, Shrinks (decodeMany f n bs) bs
  | 0, _ => shrinks_pure _
  | n + 1, bs => (hf bs).bind fun _ r => (shrinks_decodeMany hf n r).bind fun _ _ => shrinks_pure _

/-- Decoding never lengthens the rest of the buffer. -/
theorem shrinks_decodeValue : ∀ (fuel : Nat) (bs : List UInt8), Shrinks (decodeValue fuel bs) bs
  | 0, _ => shrinks_throw _
  | _ + 1, [] => shrinks_throw _
  | fuel + 1, first :: bs => by
    have hm := shrinks_decodeMany (shrinks_decodeValue fuel)
    suffices Shrinks (decodeValue (fuel + 1) (first :: bs)) bs from
      fun v r h => (this v r h).trans (Nat.le_succ _)
    rw [decodeValue.eq_3]
    split
    · exact shrinks_pure _
    · exact shrinks_pure _
    · exact (hm _ _).map fun _ => rfl
    · exact (hm _ _).map fun _ => rfl
    · exact (shrinks_readBytes _ _).map fun _ => rfl
    · exact shrinks_pure _
    · exact shrinks_throw _
    · exact shrinks_pure _
    · exact (shrinks_readUInt _ _).bind fun _ _ => (shrinks_readBytes _ _).map fun _ => rfl
    · exact (shrinks_readUInt _ _).bind fun _ _ => shrinks_decodeExt _ _
    · exact shrinks_decodeExt _ _
    · exact (shrinks_readUInt _ _).map fun _ => rfl
    · exact (shrinks_readUInt _ _).map fun _ => rfl
    · exact (shrinks_readUInt _ _).map fun _ => rfl
    · exact (shrinks_readUInt _ _).map fun _ => rfl
    · exact (shrinks_readUInt _ _).bind fun _ _ => (shrinks_readBytes _ _).map fun _ => rfl
    · exact (shrinks_readUInt _ _).bind fun _ _ => (hm _ _).map fun _ => rfl
    · exact (shrinks_readUInt _ _).bind fun _ _ => (hm _ _).map fun _ => rfl

/-- Two decoders that agree on buffers shorter than `L` read the same values
off such a buffer, as long as the first never lengthens the rest. -/
theorem decodeMany_congr {f g : List UInt8 → Except DecodeError (Value × List UInt8)} {L : Nat}
    (hfg : ∀ bs : List UInt8, bs.length < L → f bs = g bs) (hf : ∀ bs, Shrinks (f bs) bs) :
    ∀ n (bs : List UInt8), bs.length < L → decodeMany f n bs = decodeMany g n bs
  | 0, _, _ => rfl
  | n + 1, bs, h => by
    rw [decodeMany, decodeMany, ← hfg bs h]
    cases hb : f bs with
    | error => rfl
    | ok p =>
      show (decodeMany f n p.2 >>= _) = (decodeMany g n p.2 >>= _)
      rw [decodeMany_congr hfg hf n p.2 (lt_of_le_of_lt (hf bs p.1 p.2 hb) h)]

/-- **The fuel never runs out.** Once it exceeds the buffer's length, more
fuel changes nothing. -/
theorem decodeValue_fuel : ∀ (fuel : Nat) (bs : List UInt8), bs.length < fuel →
    decodeValue fuel bs = decodeValue (fuel + 1) bs
  | 0, _, h => absurd h (Nat.not_lt_zero _)
  | _ + 1, [], _ => rfl
  | fuel + 1, first :: bs, h => by
    have hc := decodeMany_congr (fun c hc => decodeValue_fuel fuel c hc) (shrinks_decodeValue fuel)
    have hbs : bs.length < fuel := by simpa using h
    rw [decodeValue.eq_3, decodeValue.eq_3]
    cases Format.ofByte first.toNat <;> dsimp only
    all_goals first
      | rfl
      | rw [hc _ bs hbs]
      | (show (readUInt _ bs >>= _) = (readUInt _ bs >>= _)
         cases hr : readUInt _ bs with
         | error => rfl
         | ok p =>
           dsimp only [bind, Except.bind]
           rw [hc _ p.2 (lt_of_le_of_lt (shrinks_readUInt _ bs p.1 p.2 hr) hbs)])

/-- `decode` answers what `decodeValue` answers with any fuel beyond the
buffer's length. -/
theorem decode_eq_decodeValue {bs : List UInt8} {fuel : Nat} (h : bs.length < fuel) :
    decode bs = Prod.fst <$> decodeValue fuel bs := by
  induction fuel, h using Nat.le_induction with
  | base => rfl
  | succ fuel hf ih => rw [ih, decodeValue_fuel fuel bs hf]
end Canbox.Rpcudp
