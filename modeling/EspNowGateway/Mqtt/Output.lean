import EspNowGateway.Mqtt.ControlPacket
import EspNowGateway.Mqtt.PubSubClient

/-! What the client puts on its connection. The packet is built from its body backwards, in the
room left before it, and goes out in one write; every call writes one control packet or
nothing. -/
namespace EspNowGateway.Mqtt
open ByteLayout CArray HeapBlock

theorem lsb_eq (x : BitVec 16) : lsb x = x.setWidth 8 := by
  apply BitVec.eq_of_toNat_eq
  rw [lsb, BitVec.toNat_setWidth, BitVec.toNat_and, BitVec.toNat_setWidth]
  change (x.toNat &&& (2^8 - 1)) % 2^8 = _
  rw [Nat.and_two_pow_sub_one_eq_mod]
  omega

theorem msb_lsb (x : BitVec 16) : [msb x, lsb x] = be16 x := by
  rw [lsb_eq]
  rfl

/-- The length digits are the shortest numeral of the length. -/
theorem lenDigits_eq {w : Nat} (hw : 7 ≤ w) (k : Nat) (x : BitVec w) :
    lenDigits k x = Base128.encode k x.toNat := by
  have hmask : (127 : BitVec w).toNat = 2^7 - 1 :=
    Nat.mod_eq_of_lt ((by decide : 127 < 2^7).trans_le (Nat.pow_le_pow_right (by decide) hw))
  induction k generalizing x with
  | zero => rfl
  | succ k ih =>
    have hlow : (x &&& 127).toNat = x.toNat % 128 := by
      rw [BitVec.toNat_and, hmask, Nat.and_two_pow_sub_one_eq_mod]
    have hdigit : ((x &&& 127).setWidth 8 : Byte).toNat = x.toNat % 128 := by
      rw [BitVec.toNat_setWidth, hlow]
      omega
    have hshift : (x >>> 7).toNat = x.toNat / 128 := by
      rw [BitVec.toNat_ushiftRight, Nat.shiftRight_eq_div_pow]
    have hpos : (0 : BitVec w) < x >>> 7 ↔ ¬ x.toNat < 128 := by
      rw [BitVec.lt_def, hshift]
      simp
    rw [lenDigits, Base128.encode]
    by_cases hsmall : x.toNat < 128
    · rw [if_neg fun h => hpos.mp h hsmall, if_pos hsmall]
      congr 1
      apply BitVec.eq_of_toNat_eq
      rw [hdigit, BitVec.toNat_ofNat]
      omega
    · rw [if_pos (hpos.mpr hsmall), if_neg hsmall, ih, hshift]
      congr 1
      apply BitVec.eq_of_toNat_eq
      have hor : ((x &&& 127).setWidth 8 ||| 0x80 : Byte).toNat = x.toNat % 128 + 128 := by
        rw [BitVec.toNat_or, hdigit]
        change x.toNat % 128 ||| 2^7 * 1 = _
        rw [Nat.or_comm, ← Nat.two_pow_add_eq_or_of_lt (Nat.mod_lt _ (by decide))]
        omega
      rw [hor, BitVec.toNat_ofNat]
      omega

section Buffer
variable {n : Nat}

theorem writeChars_eq (s : List Byte) (pos i : Nat) (buf : Vector Byte n) :
    writeChars s pos i buf =
      (storeAll s pos buf).map fun buf' => (pos + s.length, i + s.length, buf') := by
  induction s generalizing pos i buf with
  | nil => rfl
  | cons b s ih =>
    rw [writeChars, storeAll]
    cases store buf pos b with
    | none => rfl
    | some buf' =>
      simp only [Option.bind_some, ih, List.length_cons]
      congr 1
      funext buf''
      rw [Nat.add_right_comm pos, Nat.add_right_comm i, Nat.add_assoc, Nat.add_assoc]

/-- A string that fits is written behind its length, and nothing else changes. -/
theorem writeString_ok {s : List Byte} {pos : Nat} (buf : Vector Byte n)
    (h : pos + 2 + (upToNul s).length ≤ n) :
    ∃ buf', writeString s pos buf = some (pos + 2 + (upToNul s).length, buf') ∧
      Holds buf' pos (lengthPrefixed (upToNul s)) ∧
      ∀ j (bs : List Byte), Holds buf j bs →
        pos + 2 + (upToNul s).length ≤ j ∨ j + bs.length ≤ pos → Holds buf' j bs := by
  obtain ⟨buf₁, h₁, hheld₁, hframe₁⟩ := storeAll_ok buf h
  obtain ⟨buf₂, h₂, hheld₂, hframe₂⟩ :=
    store_ok buf₁ (by omega : pos < n) (msb (.ofNat 16 (upToNul s).length))
  obtain ⟨buf₃, h₃, hheld₃, hframe₃⟩ :=
    store_ok buf₂ (by omega : pos + 1 < n) (lsb (.ofNat 16 (upToNul s).length))
  refine ⟨buf₃, ?_, ?_, fun j bs hj hdisj => ?_⟩
  · have hhi : pos + 2 + (upToNul s).length - (upToNul s).length - 2 = pos := by omega
    have hlo : pos + 2 + (upToNul s).length - (upToNul s).length - 1 = pos + 1 := by omega
    simp only [writeString, writeChars_eq, h₁, Option.map_some, Option.bind_eq_bind,
      Option.bind_some, Nat.zero_add, hhi, hlo, h₂, h₃]
  · have htext : Holds buf₃ (pos + 2) (upToNul s) :=
      hframe₃ _ _ (hframe₂ _ _ hheld₁ (by omega)) (by omega)
    rw [lengthPrefixed, ← msb_lsb]
    refine holds_append_iff.mpr ⟨?_, htext⟩
    refine holds_append_iff (s := [msb _]).mpr ⟨?_, hheld₃⟩
    exact hframe₃ pos _ hheld₂ (by simp)
  · refine hframe₃ j bs (hframe₂ j bs (hframe₁ j bs hj ?_) ?_) ?_ <;> omega

/-- A string that does not fit leaves the block. -/
theorem writeString_none {s : List Byte} {pos : Nat} (buf : Vector Byte n)
    (h : n < pos + 2 + (upToNul s).length) : writeString s pos buf = none := by
  simp only [writeString, writeChars_eq, Option.bind_eq_bind]
  cases hstore : storeAll (upToNul s) (pos + 2) buf with
  | none => rfl
  | some buf₁ =>
    -- only an empty string can have been stored, and its length does not fit
    rcases (storeAll_isSome_iff _ _ _).mp ⟨buf₁, hstore⟩ with hnil | hle
    · rw [hnil, List.length_nil, Nat.add_zero] at h
      have hlast : ∀ buf₂ : Vector Byte n, store buf₂ (pos + 1) (lsb (.ofNat 16 0)) = none :=
        fun _ => dif_neg (by omega)
      simp only [hnil, List.length_nil, Nat.add_zero, Option.map_some, Option.bind_some,
        Nat.sub_zero, Nat.add_sub_cancel]
      have hplace : pos + 2 - 1 = pos + 1 := by omega
      rw [hplace]
      cases store buf₁ pos (msb (.ofNat 16 0)) with
      | none => rfl
      | some buf₂ => rw [Option.bind_some, hlast, Option.bind_none]
    · omega

/-- The header in front of what the buffer holds behind it. -/
theorem buildHeader_eq (header : Byte) (length : BitVec 16) {rest : List Byte} {buf : Vector Byte n}
    (hrest : Holds buf mqttMaxHeaderSize rest) (hfit : mqttMaxHeaderSize + rest.length ≤ n) :
    ∃ hlen buf', buildHeader header length buf = some (hlen, buf') ∧ hlen ≤ mqttMaxHeaderSize ∧
      hlen + rest.length = (header :: (Base128.encode 4 length.toNat ++ rest)).length ∧
      Holds buf' (mqttMaxHeaderSize - hlen) (header :: (Base128.encode 4 length.toNat ++ rest)) := by
  have hdigits : (Base128.encode 4 length.toNat).length ≤ 4 :=
    (Base128.encode_spec 3 length.toNat (length.isLt.trans (by decide))).2.2
  have hpos : 0 < (Base128.encode 4 length.toNat).length := Base128.encode_length_pos 3 length.toNat
  simp only [mqttMaxHeaderSize] at *
  obtain ⟨buf₁, h₁, hheld₁, hframe₁⟩ :=
    store_ok buf (by omega : 4 - (Base128.encode 4 length.toNat).length < n) header
  obtain ⟨buf₂, h₂, hheld₂, hframe₂⟩ := storeAll_ok (s := Base128.encode 4 length.toNat)
    (i := 5 - (Base128.encode 4 length.toNat).length) buf₁ (by omega)
  refine ⟨(Base128.encode 4 length.toNat).length + 1, buf₂, ?_, by omega, ?_, ?_⟩
  · simp only [buildHeader, mqttMaxHeaderSize, lenDigits_eq (by decide : 7 ≤ 16), h₁,
      Option.bind_eq_bind, Option.bind_some, h₂]
  · rw [List.length_cons, List.length_append]
    omega
  · have hstart : 5 - ((Base128.encode 4 length.toNat).length + 1) =
        4 - (Base128.encode 4 length.toNat).length := by omega
    have hnext : 4 - (Base128.encode 4 length.toNat).length + [header].length =
        5 - (Base128.encode 4 length.toNat).length := by
      rw [List.length_singleton]
      omega
    rw [hstart, ← List.singleton_append]
    refine holds_append_iff.mpr ⟨hframe₂ _ _ hheld₁ ?_, ?_⟩
    · right
      omega
    · rw [hnext]
      refine holds_append_iff.mpr ⟨hheld₂, ?_⟩
      rw [Nat.sub_add_cancel (by omega)]
      exact hframe₂ _ _ (hframe₁ _ _ hrest (by omega)) (by omega)

/-- The header in front of a body. -/
theorem buildHeader_ok (header : Byte) {body : List Byte} {buf : Vector Byte n}
    (hbody : Holds buf mqttMaxHeaderSize body) (hfit : mqttMaxHeaderSize + body.length ≤ n)
    (hlen : body.length < 2^16) :
    ∃ hlen buf', buildHeader header (.ofNat 16 body.length) buf = some (hlen, buf') ∧
      hlen ≤ mqttMaxHeaderSize ∧ hlen + body.length = (frame header body).length ∧
      Holds buf' (mqttMaxHeaderSize - hlen) (frame header body) := by
  have hnat : (BitVec.ofNat 16 body.length).toNat = body.length := by
    rw [BitVec.toNat_ofNat, Nat.mod_eq_of_lt hlen]
  have hbuild := buildHeader_eq header (.ofNat 16 body.length) hbody hfit
  rwa [hnat] at hbuild

end Buffer

namespace PubSubClient
variable {bufferSize : BitVec 16}

/-- Connected on both levels. -/
def Live (c : PubSubClient bufferSize) : Prop := c.up = true ∧ c.state = mqttConnected

instance (c : PubSubClient bufferSize) : Decidable c.Live := inferInstanceAs (Decidable (_ ∧ _))

theorem connected_of_live {c : PubSubClient bufferSize} (h : c.Live) : c.connected = (true, c) := by
  rw [connected, if_pos h.1, h.2]
  rfl

theorem connected_frame (c : PubSubClient bufferSize) :
    c.connected.2.written = c.written ∧ c.connected.2.nextMsgId = c.nextMsgId := by
  rw [connected]
  split
  · exact ⟨rfl, rfl⟩
  · split
    · exact ⟨rfl, rfl⟩
    · exact ⟨rfl, rfl⟩

theorem connected_fst_of_not_live {c : PubSubClient bufferSize} (h : ¬ c.Live) :
    c.connected.1 = false := by
  rw [connected]
  split
  · rename_i hup
    exact decide_eq_false fun hstate => h ⟨hup, hstate⟩
  · split <;> rfl

theorem clientWrite_up {c : PubSubClient bufferSize} (hup : c.up = true) (room : Nat)
    (bytes : List Byte) : c.clientWrite room bytes =
      (min room bytes.length, { c with written := c.written ++ bytes.take room }) := if_pos hup

/-- The write of a packet whose body is in the buffer. -/
theorem write_ok {c : PubSubClient bufferSize} (hup : c.up = true) {body : List Byte}
    (hbody : Holds c.buffer mqttMaxHeaderSize body)
    (hfit : mqttMaxHeaderSize + body.length ≤ bufferSize.toNat) (now : BitVec 32) (room : Nat)
    (header : Byte) :
    ∃ buffer', c.write now room header body.length =
      some (decide ((frame header body).length ≤ room), { c with
        buffer := buffer', written := c.written ++ (frame header body).take room,
        lastOutActivity := now }) := by
  have hsize := bufferSize.isLt
  obtain ⟨hlen, buffer', hbuild, hle, hlength, hheld⟩ := buildHeader_ok header hbody
    hfit (by omega)
  have hslice : slice buffer' (mqttMaxHeaderSize - hlen) (body.length + hlen) =
      some (frame header body) := by
    rw [Nat.add_comm, hlength]
    exact hheld.slice (by omega)
  refine ⟨buffer', ?_⟩
  simp only [write, hbuild, Option.bind_eq_bind, Option.bind_some, hslice, clientWrite, hup, if_true]
  rw [hlength]
  congr 2
  rw [decide_eq_decide]
  omega

end PubSubClient
end EspNowGateway.Mqtt
