import EspNowGateway.Mqtt.Output

/-! How the client reads packets from its connection: the header byte by byte without a look at
the buffer's size, the rest as far as it fits. Whatever arrives, reading stays inside a buffer
of seven bytes or more; a packet that arrives whole is taken from the stream whole. -/
namespace EspNowGateway.Mqtt
open ByteLayout CArray HeapBlock

/-- A packet on the stream, with any numeral for its length. The client takes at least two bytes
of body from a publication, whatever its length says. -/
structure StreamPacket where
  header : Byte
  digits : List Byte
  body : List Byte
  numeral : Base128.Numeral digits
  short : digits.length ≤ 4
  whole : body.length =
    if header &&& 0xF0 = mqttPublish then max 2 (Base128.value digits) else Base128.value digits

namespace StreamPacket

/-- The numeral of the packets that have a body of two bytes. -/
theorem numeral_two : Base128.Numeral [2] := by decide

theorem short_two : [(2 : Byte)].length ≤ 4 := by decide

def bytes (p : StreamPacket) : List Byte := p.header :: (p.digits ++ p.body)

theorem bytes_length (p : StreamPacket) : p.bytes.length = 1 + p.digits.length + p.body.length := by
  rw [bytes, List.length_cons, List.length_append]
  omega

end StreamPacket

namespace PubSubClient
variable {bufferSize : BitVec 16}

/-- Reading changes the buffer and uses up the stream, and nothing else. -/
def Advanced (c c' : PubSubClient bufferSize) : Prop :=
  ∃ buffer' unread', unread' <:+ c.unread ∧ c' = { c with buffer := buffer', unread := unread' }

theorem Advanced.refl (c : PubSubClient bufferSize) : Advanced c c :=
  ⟨c.buffer, c.unread, List.suffix_refl _, rfl⟩

theorem Advanced.trans {c c' c'' : PubSubClient bufferSize} (h : Advanced c c')
    (h' : Advanced c' c'') : Advanced c c'' := by
  obtain ⟨buffer', unread', hsuf, rfl⟩ := h
  obtain ⟨buffer'', unread'', hsuf', rfl⟩ := h'
  exact ⟨buffer'', unread'', hsuf'.trans hsuf, rfl⟩

theorem readByte_advanced (c : PubSubClient bufferSize) : Advanced c c.readByte.2 := by
  rw [readByte]
  split
  · exact .refl c
  · rename_i b rest hun
    exact ⟨c.buffer, rest, hun ▸ List.suffix_cons _ _, rfl⟩

private theorem Advanced.stored {c c' : PubSubClient bufferSize} (h : Advanced c c')
    (buffer : Vector Byte bufferSize.toNat) : Advanced c { c' with buffer := buffer } := by
  obtain ⟨buffer', unread', hsuf, rfl⟩ := h
  exact ⟨buffer, unread', hsuf, rfl⟩

theorem readByteAt_advanced {c c' : PubSubClient bufferSize} {len : Nat} {got : Bool}
    (h : c.readByteAt len = some (got, c')) : Advanced c c' := by
  have hread := readByte_advanced c
  rw [readByteAt] at h
  split at h
  · rename_i c₁ heq
    rw [heq] at hread
    obtain ⟨-, rfl⟩ := Prod.mk.inj (Option.some.inj h)
    exact hread
  · rename_i b c₁ heq
    rw [heq] at hread
    obtain ⟨buffer, -, hmk⟩ := Option.map_eq_some_iff.mp h
    obtain ⟨-, rfl⟩ := Prod.mk.inj hmk
    exact hread.stored buffer

/-- The client has read on, or has closed the connection over an endless length. -/
def AdvancedOrClosed (c c' : PubSubClient bufferSize) : Prop :=
  Advanced c c' ∨ ∃ c₁, Advanced c c₁ ∧ c' = { c₁.stop with state := mqttDisconnected }

theorem readLength_advanced {left len multiplier length : Nat} {c c' : PubSubClient bufferSize}
    {r : Option (Nat × Nat)} (h : c.readLength left len multiplier length = some (r, c')) :
    (r = none → AdvancedOrClosed c c') ∧ (r.isSome → Advanced c c') := by
  induction left generalizing len multiplier length c with
  | zero =>
    obtain ⟨rfl, rfl⟩ := Prod.mk.inj (Option.some.inj h)
    exact ⟨fun _ => Or.inr ⟨c, .refl c, rfl⟩, fun hsome => by cases hsome⟩
  | succ left ih =>
    have hread := readByte_advanced c
    rw [readLength] at h
    split at h
    · rename_i c₁ heq
      rw [heq] at hread
      obtain ⟨rfl, rfl⟩ := Prod.mk.inj (Option.some.inj h)
      exact ⟨fun _ => Or.inl hread, fun hsome => by cases hsome⟩
    · rename_i digit c₁ heq
      rw [heq] at hread
      obtain ⟨buffer, -, h⟩ := Option.bind_eq_some_iff.mp h
      have hstored := hread.stored buffer
      dsimp only at h
      split at h
      · obtain ⟨hnone, hsome⟩ := ih h
        refine ⟨fun hr => ?_, fun hr => hstored.trans (hsome hr)⟩
        rcases hnone hr with hadv | ⟨c₂, hadv, rfl⟩
        · exact Or.inl (hstored.trans hadv)
        · exact Or.inr ⟨c₂, hstored.trans hadv, rfl⟩
      · obtain ⟨rfl, rfl⟩ := Prod.mk.inj (Option.some.inj h)
        exact ⟨fun hr => (by cases hr), fun _ => hstored⟩

theorem readBody_advanced (more len idx : Nat) (c : PubSubClient bufferSize) :
    Advanced c (readBody more len idx c).2 := by
  induction more generalizing len idx c with
  | zero => exact .refl c
  | succ more ih =>
    have hread := readByte_advanced c
    rw [readBody]
    split
    · rename_i c₁ heq
      rw [heq] at hread
      exact hread
    · rename_i digit c₁ heq
      rw [heq] at hread
      split
      · exact (hread.stored _).trans (ih ..)
      · exact hread.trans (ih ..)

theorem readTail_advanced (llen len start length : Nat) (c : PubSubClient bufferSize) :
    Advanced c (c.readTail llen len start length).2.2 := by
  have h := readBody_advanced (length - start) len len c
  rw [readTail]
  split
  · rename_i c₁ heq
    rw [heq] at h
    exact h
  · rename_i len' idx c₁ heq
    rw [heq] at h
    exact h

theorem readRest_advanced {c c' : PubSubClient bufferSize} {len llen : Nat}
    (h : c.readRest = some (len, llen, c')) :
    AdvancedOrClosed c c' ∧ (0 < len → Advanced c c') := by
  obtain ⟨header, -, h⟩ := Option.bind_eq_some_iff.mp h
  obtain ⟨⟨r, c₁⟩, hlength, h⟩ := Option.bind_eq_some_iff.mp h
  obtain ⟨hnone, hsome⟩ := readLength_advanced hlength
  dsimp only at h
  cases r with
  | none =>
    obtain ⟨rfl, hrest⟩ := Prod.mk.inj (Option.some.inj h)
    obtain ⟨rfl, rfl⟩ := Prod.mk.inj hrest
    exact ⟨hnone rfl, fun h0 => absurd h0 (Nat.lt_irrefl 0)⟩
  | some r =>
    have hadv₁ := hsome rfl
    suffices hadv : Advanced c c' from ⟨Or.inl hadv, fun _ => hadv⟩
    dsimp only at h
    split at h
    · obtain ⟨⟨got, c₂⟩, hfirst, h⟩ := Option.bind_eq_some_iff.mp h
      have hadv₂ := hadv₁.trans (readByteAt_advanced hfirst)
      dsimp only at h
      split at h
      · obtain ⟨⟨got', c₃⟩, hsecond, h⟩ := Option.bind_eq_some_iff.mp h
        have hadv₃ := hadv₂.trans (readByteAt_advanced hsecond)
        dsimp only at h
        split at h
        · have htail := hadv₃.trans (readTail_advanced (r.1 - 1) (r.1 + 2) 2 r.2 c₃)
          rw [Option.some.inj h] at htail
          exact htail
        · obtain ⟨-, hrest⟩ := Prod.mk.inj (Option.some.inj h)
          exact (Prod.mk.inj hrest).2 ▸ hadv₃
      · obtain ⟨-, hrest⟩ := Prod.mk.inj (Option.some.inj h)
        exact (Prod.mk.inj hrest).2 ▸ hadv₂
    · have htail := hadv₁.trans (readTail_advanced (r.1 - 1) r.1 0 r.2 c₁)
      rw [Option.some.inj h] at htail
      exact htail

/-- Reading a packet touches the buffer and the stream; it may close the connection, but then
there is no packet. -/
theorem readPacket_advanced {c c' : PubSubClient bufferSize} {len llen : Nat}
    (h : c.readPacket = some (len, llen, c')) :
    AdvancedOrClosed c c' ∧ (0 < len → Advanced c c') := by
  obtain ⟨⟨got, c₁⟩, hfirst, h⟩ := Option.bind_eq_some_iff.mp h
  have hadv₁ := readByteAt_advanced hfirst
  dsimp only at h
  split at h
  · obtain ⟨hall, hpos⟩ := readRest_advanced h
    refine ⟨?_, fun hlen => hadv₁.trans (hpos hlen)⟩
    rcases hall with hadv | ⟨c₂, hadv, rfl⟩
    · exact Or.inl (hadv₁.trans hadv)
    · exact Or.inr ⟨c₂, hadv₁.trans hadv, rfl⟩
  · obtain ⟨rfl, hrest⟩ := Prod.mk.inj (Option.some.inj h)
    obtain ⟨rfl, rfl⟩ := Prod.mk.inj hrest
    exact ⟨Or.inl hadv₁, fun h0 => absurd h0 (Nat.lt_irrefl 0)⟩

theorem and127_toNat (b : Byte) : (b &&& 127).toNat = Base128.digit b := by
  rw [BitVec.toNat_and]
  change b.toNat &&& (2^7 - 1) = _
  rw [Nat.and_two_pow_sub_one_eq_mod]
  rfl

theorem and128_ne_zero_iff : ∀ b : Byte, b &&& 128 ≠ 0 ↔ Base128.more b = true := by decide +kernel

theorem readByteAt_some {c : PubSubClient bufferSize} {b : Byte} {u : List (Option Byte)}
    (hun : c.unread = some b :: u) (len : Nat) :
    c.readByteAt len = (store c.buffer len b).map fun buffer =>
      (true, { c with buffer := buffer, unread := u }) := by
  simp only [readByteAt, readByte, hun]

/-- A numeral of at most four digits is read digit by digit. -/
theorem readLength_numeral {s : List Byte} (hds : Base128.Numeral s) {left : Nat}
    (hleft : s.length ≤ left) (len multiplier length : Nat) {c : PubSubClient bufferSize}
    {u : List (Option Byte)} (hun : c.unread = s.map some ++ u) :
    c.readLength left len multiplier length = (storeAll s len c.buffer).map fun buffer =>
      (some (len + s.length, length + multiplier * Base128.value s),
        { c with buffer := buffer, unread := u }) := by
  induction s generalizing left len multiplier length c with
  | nil => exact absurd rfl hds.ne_nil
  | cons b bs ih =>
    obtain ⟨left, rfl⟩ : ∃ k, left = k + 1 := ⟨left - 1, by simp at hleft; omega⟩
    rw [List.map_cons, List.cons_append] at hun
    rw [readLength]
    simp only [readByte, hun, Option.bind_eq_bind]
    rw [storeAll]
    cases hstore : store c.buffer len b with
    | none => rfl
    | some buffer =>
      simp only [Option.bind_some]
      rw [Base128.Numeral] at hds
      by_cases hmore : Base128.more b = true
      · rw [if_pos hmore] at hds
        rw [if_pos ((and128_ne_zero_iff b).mpr hmore),
          ih (c := { c with buffer := buffer, unread := bs.map some ++ u }) hds
            (by simpa using hleft) _ _ _ rfl]
        congr 1
        funext buffer'
        have hlen : len + 1 + bs.length = len + (b :: bs).length := by
          rw [List.length_cons]
          omega
        have hvalue : length + (b &&& 127).toNat * multiplier +
            multiplier * 128 * Base128.value bs = length + multiplier * Base128.value (b :: bs) := by
          rw [and127_toNat, Base128.value, Nat.mul_add, Nat.mul_comm _ multiplier,
            Nat.mul_assoc multiplier, Nat.add_assoc]
        rw [hlen, hvalue]
      · rw [if_neg hmore] at hds
        subst hds
        rw [if_neg fun h => hmore ((and128_ne_zero_iff b).mp h)]
        have hvalue : length + (b &&& 127).toNat * multiplier =
            length + multiplier * Base128.value [b] := by
          rw [and127_toNat, Base128.value, Base128.value, Nat.mul_zero, Nat.add_zero, Nat.mul_comm]
        rw [hvalue]
        rfl

/-- The rest of a packet goes into the buffer as far as it fits. -/
theorem readBody_bytes (body : List Byte) {len : Nat} (hlen : len ≤ bufferSize.toNat) (idx : Nat)
    {c : PubSubClient bufferSize} {rest : List (Option Byte)}
    (hun : c.unread = body.map some ++ rest) :
    ∃ buffer', readBody body.length len idx c =
        (some (min (len + body.length) bufferSize.toNat, idx + body.length),
          { c with buffer := buffer', unread := rest }) ∧
      Holds buffer' len (body.take (bufferSize.toNat - len)) ∧
      (∀ j (bs : List Byte), Holds c.buffer j bs → j + bs.length ≤ len → Holds buffer' j bs) ∧
      Kept (len + body.length) c.buffer buffer' := by
  induction body generalizing len idx c with
  | nil =>
    refine ⟨c.buffer, ?_, ?_, fun _ _ h _ => h, .refl _ _⟩
    · have hun' : c.unread = rest := hun
      rw [List.length_nil, readBody, Nat.add_zero, Nat.add_zero, Nat.min_eq_left hlen, ← hun']
    · rw [List.take_nil]
      exact Holds.nil _ _
  | cons b body ih =>
    rw [List.map_cons, List.cons_append] at hun
    simp only [List.length_cons, readBody, readByte, hun]
    by_cases hroom : len < bufferSize.toNat
    · obtain ⟨buffer', hread, hheld, hframe, hkept⟩ :=
        @ih (len + 1) hroom (idx + 1)
          { c with buffer := c.buffer.set len b, unread := body.map some ++ rest } rfl
      have hstored : store c.buffer len b = _ := store_eq hroom b
      refine ⟨buffer', ?_, ?_, fun j bs hj hle => ?_, ?_⟩
      · rw [dif_pos hroom, hread, Nat.add_right_comm len, Nat.add_right_comm idx, Nat.add_assoc,
          Nat.add_assoc]
      · have htake : (b :: body).take (bufferSize.toNat - len) =
            [b] ++ body.take (bufferSize.toNat - (len + 1)) := by
          have hsucc : bufferSize.toNat - len = bufferSize.toNat - (len + 1) + 1 := by omega
          rw [hsucc, List.take_succ_cons, List.singleton_append]
        rw [htake]
        refine holds_append_iff.mpr ⟨hframe _ _ (store_holds hstored) ?_, hheld⟩
        simp
      · refine hframe j bs (store_frame hstored hj (Or.inr hle)) ?_
        exact Nat.le_succ_of_le hle
      · exact (store_kept hstored (by omega)).trans (hkept.mono (by omega))
    · obtain ⟨buffer', hread, _, hframe, hkept⟩ := ih hlen (idx + 1)
        (c := { c with unread := body.map some ++ rest }) rfl
      have hfull : bufferSize.toNat - len = 0 := by omega
      refine ⟨buffer', ?_, ?_, hframe, hkept.mono (by omega)⟩
      · rw [dif_neg hroom, hread, Nat.add_right_comm idx, Nat.add_assoc]
        congr 3
        omega
      · rw [hfull, List.take_zero]
        exact Holds.nil _ _

/-- Reading the rest of a packet whose header and first bytes are in the buffer. -/
private theorem readTail_bytes (front body : List Byte) (llen start length : Nat)
    (hlength : length - start = body.length) {c : PubSubClient bufferSize}
    (hheld : Holds c.buffer 0 front) (hfront : front.length ≤ bufferSize.toNat)
    {rest : List (Option Byte)} (hun : c.unread = body.map some ++ rest) :
    ∃ buffer', c.readTail llen front.length start length =
        (if (front ++ body).length ≤ bufferSize.toNat then (front ++ body).length else 0, llen,
          { c with buffer := buffer', unread := rest }) ∧
      Holds buffer' 0 ((front ++ body).take bufferSize.toNat) ∧
      Kept (front.length + body.length) c.buffer buffer' := by
  obtain ⟨buffer', hread, hbody, hframe, hkept⟩ := readBody_bytes body hfront front.length hun
  refine ⟨buffer', ?_, ?_, hkept⟩
  · rw [readTail, hlength, hread, List.length_append]
    dsimp only
    congr 1
    split
    · rw [if_neg (by omega)]
    · rw [if_pos (by omega)]
      omega
  · rw [List.take_append, List.take_of_length_le hfront]
    refine holds_append_iff.mpr ⟨hframe 0 front hheld (by simp), ?_⟩
    rw [Nat.zero_add]
    exact hbody

/-- The two bytes of a topic's length are read before the rest. -/
private theorem readByteAt_twice (front : List Byte) (hi lo : Byte) {c : PubSubClient bufferSize}
    (hheld : Holds c.buffer 0 front) (hfront : front.length + 2 ≤ bufferSize.toNat)
    {u : List (Option Byte)} (hun : c.unread = some hi :: some lo :: u) :
    ∃ c₁ buffer₂, c.readByteAt front.length = some (true, c₁) ∧
      c₁.readByteAt (front.length + 1) = some (true, { c with buffer := buffer₂, unread := u }) ∧
      Holds buffer₂ 0 (front ++ [hi, lo]) ∧ Kept (front.length + 2) c.buffer buffer₂ := by
  obtain ⟨buffer₁, h₁, hheld₁, hframe₁⟩ :=
    store_ok c.buffer (by omega : front.length < bufferSize.toNat) hi
  obtain ⟨buffer₂, h₂, hheld₂, hframe₂⟩ :=
    store_ok buffer₁ (by omega : front.length + 1 < bufferSize.toNat) lo
  refine ⟨{ c with buffer := buffer₁, unread := some lo :: u }, buffer₂, ?_, ?_, ?_, ?_⟩
  · rw [readByteAt_some hun, h₁]
    rfl
  · rw [readByteAt_some rfl, h₂]
    rfl
  · refine holds_append_iff.mpr ⟨hframe₂ _ _ (hframe₁ _ _ hheld (by omega)) (by omega), ?_⟩
    rw [Nat.zero_add]
    exact holds_append_iff (s := [hi]).mpr ⟨hframe₂ _ _ hheld₁ (by simp), hheld₂⟩
  · exact (store_kept h₁ (by omega)).trans (store_kept h₂ (by omega))

/-- A packet that has arrived is taken from the stream whole, and is in the buffer as far as it
fits, with what was there before behind it; one that does not fit is ignored. -/
theorem readPacket_whole (p : StreamPacket) (hsize : 7 ≤ bufferSize.toNat)
    {c : PubSubClient bufferSize} {rest : List (Option Byte)}
    (hun : c.unread = p.bytes.map some ++ rest) :
    ∃ buffer', c.readPacket =
        some (if p.bytes.length ≤ bufferSize.toNat then p.bytes.length else 0, p.digits.length,
          { c with buffer := buffer', unread := rest }) ∧
      Holds buffer' 0 (p.bytes.take bufferSize.toNat) ∧ Kept p.bytes.length c.buffer buffer' := by
  have hbytes := p.bytes_length
  obtain ⟨header, digits, body, hnumeral, hshort, hwhole⟩ := p
  dsimp only [StreamPacket.bytes] at hun hbytes ⊢
  rw [List.map_cons, List.map_append, List.cons_append, List.append_assoc] at hun
  obtain ⟨buffer₁, h₁, hheld₁, hframe₁⟩ := store_ok c.buffer (by omega : 0 < bufferSize.toNat) header
  obtain ⟨buffer₂, h₂, hheld₂, hframe₂⟩ :=
    storeAll_ok (s := digits) buffer₁ (by omega : 1 + digits.length ≤ bufferSize.toNat)
  have hfirst : load buffer₁ 0 = some header := hheld₁ 0 Nat.zero_lt_one
  have hfront₂ : Holds buffer₂ 0 (header :: digits) := by
    refine holds_append_iff (s := [header]).mpr ⟨hframe₂ _ _ hheld₁ (by simp), hheld₂⟩
  have hlen : (header :: digits).length = 1 + digits.length := Nat.add_comm _ _
  have hlength : Kept (1 + digits.length) c.buffer buffer₂ :=
    (store_kept h₁ (by omega)).trans (storeAll_kept h₂ (Nat.le_refl _))
  have hrest : c.readPacket =
      readRest { c with buffer := buffer₁, unread := digits.map some ++ (body.map some ++ rest) } := by
    rw [readPacket, readByteAt_some hun, h₁]
    rfl
  have hdigits := readLength_numeral hnumeral hshort 1 1 0
    (c := { c with buffer := buffer₁, unread := digits.map some ++ (body.map some ++ rest) }) rfl
  rw [h₂, Option.map_some, Nat.zero_add, Nat.one_mul] at hdigits
  rw [hrest, readRest]
  simp only [hfirst, Option.bind_eq_bind, Option.bind_some, hdigits, Nat.add_sub_cancel_left]
  split at hwhole
  · rename_i hpublish
    obtain ⟨hi, lo, tail, rfl⟩ : ∃ hi lo tail, body = hi :: lo :: tail := by
      match body, hwhole with
      | hi :: lo :: tail, _ => exact ⟨hi, lo, tail, rfl⟩
      | [_], h => exact absurd h (by rw [List.length_singleton]; omega)
      | [], h => exact absurd h (by rw [List.length_nil]; omega)
    obtain ⟨c₃, buffer₄, hhi, hlo, hfront₄, htopic⟩ := readByteAt_twice (header :: digits) hi lo
      (c := { c with buffer := buffer₂, unread := (hi :: lo :: tail).map some ++ rest }) hfront₂
      (by rw [hlen]; omega) (u := tail.map some ++ rest) rfl
    have hlen₄ : (header :: digits ++ [hi, lo]).length = 1 + digits.length + 2 := by
      rw [List.length_append, hlen]
      rfl
    obtain ⟨buffer', htail, hheld, hkept⟩ := readTail_bytes (header :: digits ++ [hi, lo])
      tail digits.length 2 (Base128.value digits)
      (c := { c with buffer := buffer₄, unread := tail.map some ++ rest })
      (by simp only [List.length_cons] at hwhole; omega) hfront₄ (by rw [hlen₄]; omega) rfl
    rw [hlen] at hhi hlo htopic
    rw [hlen₄] at htail hkept
    refine ⟨buffer', ?_, ?_, ?_⟩
    · simp only [if_pos hpublish, hhi, hlo, Option.bind_some, if_true]
      rw [htail]
      simp
    · simpa using hheld
    · have hbody : (hi :: lo :: tail).length = tail.length + 2 := rfl
      rw [hbytes, hbody]
      exact (hlength.mono (by omega)).trans ((htopic.mono (by omega)).trans (hkept.mono (by omega)))
  · rename_i hother
    obtain ⟨buffer', htail, hheld, hkept⟩ := readTail_bytes (header :: digits) body
      digits.length 0 (Base128.value digits)
      (c := { c with buffer := buffer₂, unread := body.map some ++ rest }) (by omega) hfront₂
      (by rw [hlen]; omega) rfl
    refine ⟨buffer', ?_, ?_, ?_⟩
    · rw [hlen] at htail
      rw [if_neg hother, htail]
      simp
    · simpa using hheld
    · rw [hlen] at hkept
      rw [hbytes]
      exact (hlength.mono (by omega)).trans (hkept.mono (by omega))

private theorem readByte_sound {c c' : PubSubClient bufferSize} {b : Byte}
    (h : c.readByte = (some b, c')) : c.unread = some b :: c'.unread ∧ c'.buffer = c.buffer := by
  rw [readByte] at h
  split at h
  · cases h
  · rename_i b' rest hun
    obtain ⟨rfl, rfl⟩ := Prod.mk.inj h
    exact ⟨hun, rfl⟩

private theorem readByteAt_sound {c c' : PubSubClient bufferSize} {len : Nat}
    (h : c.readByteAt len = some (true, c')) :
    ∃ b, c.unread = some b :: c'.unread ∧ store c.buffer len b = some c'.buffer := by
  rw [readByteAt] at h
  split at h
  · cases h
  · rename_i b c₁ hread
    obtain ⟨hun, hbuffer⟩ := readByte_sound hread
    obtain ⟨buffer, hstore, hmk⟩ := Option.map_eq_some_iff.mp h
    obtain ⟨-, rfl⟩ := Prod.mk.inj hmk
    exact ⟨b, hun, hbuffer ▸ hstore⟩

private theorem readLength_sound {left len multiplier length : Nat} {c c' : PubSubClient bufferSize}
    {r : Nat × Nat} (h : c.readLength left len multiplier length = some (some r, c')) :
    ∃ s, Base128.Numeral s ∧ s.length ≤ left ∧ c.unread = s.map some ++ c'.unread ∧
      r.2 = length + multiplier * Base128.value s := by
  induction left generalizing len multiplier length c with
  | zero => cases h
  | succ left ih =>
    rw [readLength] at h
    split at h
    · cases h
    · rename_i digit c₁ hread
      obtain ⟨hun, -⟩ := readByte_sound hread
      obtain ⟨buffer, -, h⟩ := Option.bind_eq_some_iff.mp h
      dsimp only at h
      split at h
      · rename_i hmore
        obtain ⟨s, hs, hle, hrest, hlength⟩ := ih h
        refine ⟨digit :: s, ?_, Nat.succ_le_succ hle, ?_, ?_⟩
        · rw [Base128.Numeral, if_pos ((and128_ne_zero_iff digit).mp hmore)]
          exact hs
        · rw [hun, show c₁.unread = _ from hrest]
          rfl
        · rw [hlength, and127_toNat, Base128.value, Nat.mul_add, Nat.mul_comm _ multiplier,
            Nat.mul_assoc multiplier, Nat.add_assoc]
      · rename_i hlast
        obtain ⟨hr, rfl⟩ := Prod.mk.inj (Option.some.inj h)
        obtain rfl := Option.some.inj hr
        refine ⟨[digit], ?_, Nat.succ_le_succ (Nat.zero_le _), hun, ?_⟩
        · rw [Base128.Numeral, if_neg fun hmore => hlast ((and128_ne_zero_iff digit).mpr hmore)]
        · change length + (digit &&& 127).toNat * multiplier = _
          rw [and127_toNat, Base128.value, Base128.value, Nat.mul_zero, Nat.add_zero, Nat.mul_comm]

private theorem readBody_sound {more len idx : Nat} {c c' : PubSubClient bufferSize} {r : Nat × Nat}
    (h : readBody more len idx c = (some r, c')) :
    ∃ body : List Byte, body.length = more ∧ c.unread = body.map some ++ c'.unread := by
  induction more generalizing len idx c with
  | zero =>
    obtain ⟨-, rfl⟩ := Prod.mk.inj h
    exact ⟨[], rfl, rfl⟩
  | succ more ih =>
    rw [readBody] at h
    split at h
    · cases h
    · rename_i digit c₁ hread
      obtain ⟨hun, -⟩ := readByte_sound hread
      suffices hbody : ∃ body : List Byte, body.length = more ∧ c₁.unread = body.map some ++ c'.unread by
        obtain ⟨body, hlength, hrest⟩ := hbody
        refine ⟨digit :: body, congrArg (· + 1) hlength, ?_⟩
        rw [hun, hrest]
        rfl
      split at h
      · have hbody := ih h
        exact hbody
      · exact ih h

private theorem readTail_sound {llen len start length len' llen' : Nat}
    {c c' : PubSubClient bufferSize} (h : c.readTail llen len start length = (len', llen', c'))
    (hlen : 0 < len') :
    ∃ body : List Byte, body.length = length - start ∧ c.unread = body.map some ++ c'.unread := by
  rw [readTail] at h
  split at h
  · obtain ⟨rfl, -⟩ := Prod.mk.inj h
    exact absurd hlen (Nat.lt_irrefl 0)
  · rename_i len₁ idx c₁ heq
    obtain ⟨-, hrest⟩ := Prod.mk.inj h
    obtain ⟨-, rfl⟩ := Prod.mk.inj hrest
    exact readBody_sound heq

/-- A packet can come out of the rest only if the byte in front of it has been read. -/
private theorem readByteAt_then {c c' : PubSubClient bufferSize} {i len llen : Nat}
    {k : PubSubClient bufferSize → Option (Nat × Nat × PubSubClient bufferSize)}
    (h : ((c.readByteAt i).bind fun r => if r.1 = true then k r.2 else some (0, 0, r.2)) =
      some (len, llen, c')) (hlen : 0 < len) :
    ∃ b c₁, c.unread = some b :: c₁.unread ∧ store c.buffer i b = some c₁.buffer ∧
      k c₁ = some (len, llen, c') := by
  obtain ⟨⟨got, c₁⟩, hread, h⟩ := Option.bind_eq_some_iff.mp h
  dsimp only at h
  split at h
  · rename_i hgot
    obtain rfl : got = true := hgot
    obtain ⟨b, hun, hstore⟩ := readByteAt_sound hread
    exact ⟨b, c₁, hun, hstore, h⟩
  · obtain ⟨rfl, -⟩ := Prod.mk.inj (Option.some.inj h)
    exact absurd hlen (Nat.lt_irrefl 0)

/-- What has been read for a packet was a whole one. -/
theorem readPacket_sound (hsize : 7 ≤ bufferSize.toNat) {c c' : PubSubClient bufferSize}
    {len llen : Nat} (h : c.readPacket = some (len, llen, c')) (hlen : 0 < len) :
    ∃ p : StreamPacket, c.unread = p.bytes.map some ++ c'.unread ∧ p.bytes.length = len := by
  -- the packet's parts; that they are all of it follows from reading it again
  suffices hpacket : ∃ (p : StreamPacket) (rest : List (Option Byte)),
      c.unread = p.bytes.map some ++ rest by
    obtain ⟨p, rest, hun⟩ := hpacket
    obtain ⟨buffer', hread, -⟩ := readPacket_whole p hsize hun
    obtain ⟨rfl, hrest⟩ := Prod.mk.inj (Option.some.inj (hread.symm.trans h))
    obtain ⟨-, rfl⟩ := Prod.mk.inj hrest
    split at hlen
    · rename_i hfit
      exact ⟨p, hun, (if_pos hfit).symm⟩
    · exact absurd hlen (Nat.lt_irrefl 0)
  obtain ⟨header, c₁, hun, hstore, h⟩ := readByteAt_then (k := readRest) h hlen
  obtain ⟨header', hload, h⟩ := Option.bind_eq_some_iff.mp h
  obtain rfl : header = header' := by
    have hheld : load c₁.buffer 0 = some header := store_holds hstore 0 Nat.zero_lt_one
    exact Option.some.inj (hheld.symm.trans hload)
  obtain ⟨⟨r, c₂⟩, hlength, h⟩ := Option.bind_eq_some_iff.mp h
  dsimp only at h
  cases r with
  | none =>
    obtain ⟨rfl, -⟩ := Prod.mk.inj (Option.some.inj h)
    exact absurd hlen (Nat.lt_irrefl 0)
  | some r =>
    obtain ⟨digits, hnumeral, hshort, hdigits, hvalue⟩ := readLength_sound hlength
    rw [Nat.zero_add, Nat.one_mul] at hvalue
    dsimp only at h
    split at h
    · rename_i hpublish
      obtain ⟨hi, c₃, hunhi, -, h⟩ := readByteAt_then (k := fun c₃ => (c₃.readByteAt (r.1 + 1)).bind
        fun s => if s.1 = true then some (s.2.readTail (r.1 - 1) (r.1 + 2) 2 r.2)
          else some (0, 0, s.2)) h hlen
      obtain ⟨lo, c₄, hunlo, -, h⟩ :=
        readByteAt_then (k := fun c₄ => some (c₄.readTail (r.1 - 1) (r.1 + 2) 2 r.2)) h hlen
      obtain ⟨tail, htail, hrest⟩ := readTail_sound (Option.some.inj h) hlen
      refine ⟨⟨header, digits, hi :: lo :: tail, hnumeral, hshort, ?_⟩, c'.unread, ?_⟩
      · rw [if_pos hpublish, List.length_cons, List.length_cons, htail, hvalue]
        omega
      · rw [hun, hdigits, hunhi, hunlo, hrest]
        simp [StreamPacket.bytes]
    · rename_i hother
      obtain ⟨body, hbody, hrest⟩ := readTail_sound (Option.some.inj h) hlen
      refine ⟨⟨header, digits, body, hnumeral, hshort, ?_⟩, c'.unread, ?_⟩
      · rw [if_neg hother, hbody, hvalue, Nat.sub_zero]
      · rw [hun, hdigits, hrest]
        simp [StreamPacket.bytes]

private theorem readByteAt_inside {len : Nat} (h : len < bufferSize.toNat)
    (c : PubSubClient bufferSize) : ∃ got c', c.readByteAt len = some (got, c') := by
  rw [readByteAt]
  split
  · exact ⟨_, _, rfl⟩
  · rename_i b c₁ _
    rw [store_eq h]
    exact ⟨_, _, rfl⟩

private theorem readLength_inside {left len : Nat} (h : len + left ≤ bufferSize.toNat)
    (multiplier length : Nat) (c : PubSubClient bufferSize) :
    ∃ r c', c.readLength left len multiplier length = some (r, c') ∧ ∀ p ∈ r, p.1 ≤ len + left := by
  induction left generalizing len multiplier length c with
  | zero => exact ⟨_, _, rfl, fun p hp => by cases hp⟩
  | succ left ih =>
    rw [readLength]
    split
    · exact ⟨_, _, rfl, fun p hp => by cases hp⟩
    · rename_i digit c₁ _
      simp only [store_eq (by omega : len < bufferSize.toNat), Option.bind_eq_bind, Option.bind_some]
      split
      · obtain ⟨r, c', hread, hle⟩ := @ih (len + 1) (by omega) (multiplier * 128)
          (length + (digit &&& 127).toNat * multiplier) { c₁ with buffer := c₁.buffer.set len digit }
        exact ⟨r, c', hread, fun p hp => (hle p hp).trans (by omega)⟩
      · refine ⟨_, _, rfl, fun p hp => ?_⟩
        obtain rfl := Option.some.inj hp
        dsimp only
        omega

private theorem readRest_inside (hsize : 7 ≤ bufferSize.toNat) (c : PubSubClient bufferSize) :
    ∃ r, c.readRest = some r := by
  have hload : load c.buffer 0 = some c.buffer[0] := Vector.getElem?_eq_getElem (by omega)
  obtain ⟨r, c₁, hlength, hle⟩ := readLength_inside (by omega : 1 + 4 ≤ bufferSize.toNat) 1 0 c
  rw [readRest]
  simp only [hload, Option.bind_eq_bind, Option.bind_some, hlength]
  cases r with
  | none => exact ⟨_, rfl⟩
  | some p =>
    have hp : p.1 ≤ 5 := hle p rfl
    dsimp only
    split
    · obtain ⟨got, c₂, hfirst⟩ := readByteAt_inside (by omega : p.1 < bufferSize.toNat) c₁
      simp only [hfirst, Option.bind_some]
      split
      · obtain ⟨got', c₃, hsecond⟩ := readByteAt_inside (by omega : p.1 + 1 < bufferSize.toNat) c₂
        simp only [hsecond, Option.bind_some]
        split
        · exact ⟨_, rfl⟩
        · exact ⟨_, rfl⟩
      · exact ⟨_, rfl⟩
    · exact ⟨_, rfl⟩

/-- With room for the seven bytes no read leaves the buffer. -/
theorem readPacket_inside (hsize : 7 ≤ bufferSize.toNat) (c : PubSubClient bufferSize) :
    ∃ r, c.readPacket = some r := by
  obtain ⟨got, c₁, hfirst⟩ := readByteAt_inside (by omega : 0 < bufferSize.toNat) c
  rw [readPacket, hfirst]
  simp only [Option.bind_eq_bind, Option.bind_some]
  split
  · exact readRest_inside hsize c₁
  · exact ⟨_, rfl⟩

/-- A publication with the longest length there is; its first seven bytes are stored unchecked. -/
private def longLength : List Byte := [0x30, 0x80, 0x80, 0x80, 0, 0, 0]

private theorem readPacket_longLength {c c' : PubSubClient bufferSize} {len llen : Nat}
    (hun : c.unread = longLength.map some) (h : c.readPacket = some (len, llen, c')) :
    7 ≤ bufferSize.toNat := by
  obtain ⟨⟨got, c₁⟩, hfirst, h⟩ := Option.bind_eq_some_iff.mp h
  rw [readByteAt_some hun] at hfirst
  obtain ⟨buffer₁, h₁, hmk⟩ := Option.map_eq_some_iff.mp hfirst
  obtain ⟨rfl, rfl⟩ := Prod.mk.inj hmk
  obtain ⟨header, hload, h⟩ := Option.bind_eq_some_iff.mp h
  obtain rfl : header = 0x30 := by
    have hheld := store_holds h₁ 0 Nat.zero_lt_one
    exact Option.some.inj (hload.symm.trans hheld)
  have hdigits := readLength_numeral (s := [0x80, 0x80, 0x80, 0]) (by decide) (Nat.le_refl 4) 1 1 0
    (c := { c with buffer := buffer₁, unread := _ }) (u := [some 0, some 0]) rfl
  obtain ⟨⟨r, c₂⟩, hlength, h⟩ := Option.bind_eq_some_iff.mp h
  obtain ⟨buffer₂, -, hmk⟩ := Option.map_eq_some_iff.mp (hdigits.symm.trans hlength)
  obtain ⟨rfl, rfl⟩ := Prod.mk.inj hmk
  obtain ⟨⟨got, c₃⟩, hhi, h⟩ := Option.bind_eq_some_iff.mp h
  rw [readByteAt_some (b := 0) (u := [some 0]) rfl] at hhi
  obtain ⟨buffer₃, h₃, hmk⟩ := Option.map_eq_some_iff.mp hhi
  obtain ⟨rfl, rfl⟩ := Prod.mk.inj hmk
  obtain ⟨⟨got', c₄⟩, hlo, h⟩ := Option.bind_eq_some_iff.mp h
  rw [readByteAt_some (b := 0) (u := []) rfl] at hlo
  obtain ⟨buffer₄, h₄, -⟩ := Option.map_eq_some_iff.mp hlo
  exact (store_isSome_iff _ _ _).mp ⟨buffer₄, h₄⟩

/-- Reading stays inside the buffer, whatever arrives and wherever it stalls, exactly when the
buffer has room for the bytes that are stored without a check. -/
theorem readPacket_inside_iff :
    (∀ c : PubSubClient bufferSize, c.readPacket ≠ none) ↔ 7 ≤ bufferSize.toNat := by
  constructor
  · intro h
    obtain ⟨⟨len, llen, c'⟩, hread⟩ := Option.ne_none_iff_exists'.mp
      (h ⟨Vector.replicate _ 0, 0, 0, 0, 0, false, 0, true, longLength.map some, []⟩)
    exact readPacket_longLength rfl hread
  · intro hsize c hnone
    obtain ⟨r, hr⟩ := readPacket_inside hsize c
    rw [hr] at hnone
    cases hnone

end PubSubClient
end EspNowGateway.Mqtt
