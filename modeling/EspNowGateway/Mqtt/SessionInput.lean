import EspNowGateway.Mqtt.Delivery
import EspNowGateway.Mqtt.Session

/-! The input of a whole session. However the user's calls and the broker's packets mix and however
the packets are cut on their way, as long as `loop` finds whole ones: no call leaves the buffer, and
the callback has been given the messages of the first packets that have arrived, each once and in
their order; as long as the connection is open the rest is still to come. -/
namespace EspNowGateway.Mqtt
open ByteLayout CArray HeapBlock PartialRun

/-- Packets one after the other, without a stall. -/
def streamOf (ps : List StreamPacket) : List (Option Byte) := ps.flatMap fun p => p.bytes.map some

theorem streamOf_append (ps qs : List StreamPacket) :
    streamOf (ps ++ qs) = streamOf ps ++ streamOf qs := List.flatMap_append

theorem streamOf_bytes (ps : List StreamPacket) :
    streamOf ps = (ps.flatMap StreamPacket.bytes).map some := List.map_flatMap.symm

namespace StreamPacket

def NoPublication (p : StreamPacket) : Prop := p.header &&& 0xF0 ≠ mqttPublish

theorem NoPublication.sound {p : StreamPacket} (h : p.NoPublication) : p.Sound :=
  fun hpublish => absurd hpublish h

theorem NoPublication.messages {p : StreamPacket} (h : p.NoPublication) (n : Nat) :
    p.messages n = [] := if_neg fun hall => h hall.2

end StreamPacket

/-- There is nothing to wait for in front. -/
private theorem dropWhile_streamOf (ps : List StreamPacket) (torn : List Byte) :
    (streamOf ps ++ torn.map some).dropWhile Option.isNone = streamOf ps ++ torn.map some := by
  rw [streamOf_bytes, ← List.map_append]
  cases ps.flatMap StreamPacket.bytes ++ torn with
  | nil => rfl
  | cons b bs => rfl

/-- Behind the beginning `torn` of a packet that has already arrived, the event brings the rest of
it, more packets and the beginning of another one. A call of `loop` must not find a torn packet. -/
def SessionEvent.Brings (torn : List Byte) (ps : List StreamPacket) (torn' : List Byte) :
    SessionEvent → Prop
  | .arrive bytes => torn.map some ++ bytes = streamOf ps ++ torn'.map some
  | .loop _ _ => ps = [] ∧ torn = [] ∧ torn' = []
  | .disconnect _ _ => ps = []
  | .lost => ps = []
  | _ => ps = [] ∧ torn' = torn

/-- A call that is made with sizes the code is fit for: a topic of exactly nine bytes less than the
buffer is accepted by `subscribe` but not fit. -/
def SessionEvent.Fit (n : Nat) : SessionEvent → Prop
  | .publish _ _ _ payload _ => payload.length < 2^32 - 2^17
  | .subscribe _ _ topic qos => qos.toNat ≤ 1 → n ≠ 9 + (upToNul topic).length
  | _ => True

namespace PubSubClient
variable {bufferSize : BitVec 16}

/-- The call has left the input alone, or the connection is closed. -/
def KeepsInput (c c' : PubSubClient bufferSize) : Prop := SameInput c c' ∨ c'.up = false

theorem keepsInput_connected (c : PubSubClient bufferSize) : KeepsInput c c.connected.2 := by
  rw [connected]
  split
  · exact Or.inl ⟨rfl, rfl, rfl⟩
  · split
    · exact Or.inr rfl
    · exact Or.inl ⟨rfl, rfl, rfl⟩

theorem publish_keepsInput (c : PubSubClient bufferSize) (now : BitVec 32) (room : Nat)
    (topic : List Byte) {payload : List Byte} (hpayload : payload.length < 2^32 - 2^17)
    (retained : Bool) :
    ∃ r c', c.publish now room topic payload retained = some (r, c') ∧ KeepsInput c c' := by
  obtain ⟨buffer', hspec⟩ := publish_spec c now room topic hpayload retained
  rw [hspec]
  split
  · exact ⟨_, _, rfl, Or.inl ⟨rfl, rfl, rfl⟩⟩
  · exact ⟨_, _, rfl, keepsInput_connected c⟩

theorem subscribe_keepsInput (c : PubSubClient bufferSize) (now : BitVec 32) (room : Nat) {topic : List Byte} {qos : Byte}
    (hfit : qos.toNat ≤ 1 → bufferSize.toNat ≠ 9 + (upToNul topic).length) :
    ∃ r c', c.subscribe now room topic qos = some (r, c') ∧ KeepsInput c c' := by
  obtain ⟨buffer', hspec⟩ := subscribe_spec c now room topic qos
  rw [hspec]
  split
  · exact ⟨_, _, rfl, Or.inl ⟨rfl, rfl, rfl⟩⟩
  · rename_i hcheck
    split
    · exact ⟨_, _, rfl, keepsInput_connected c⟩
    · rw [if_neg (hfit (Nat.not_lt.mp fun hqos => hcheck (Or.inl hqos)))]
      exact ⟨_, _, rfl, Or.inl ⟨rfl, rfl, rfl⟩⟩

theorem unsubscribe_keepsInput (c : PubSubClient bufferSize) (now : BitVec 32) (room : Nat)
    (topic : List Byte) :
    ∃ r c', c.unsubscribe now room topic = some (r, c') ∧ KeepsInput c c' := by
  obtain ⟨buffer', hspec⟩ := unsubscribe_spec c now room topic
  rw [hspec]
  split
  · exact ⟨_, _, rfl, Or.inl ⟨rfl, rfl, rfl⟩⟩
  · split
    · exact ⟨_, _, rfl, keepsInput_connected c⟩
    · exact ⟨_, _, rfl, Or.inl ⟨rfl, rfl, rfl⟩⟩

theorem disconnect_down (hsize : 2 ≤ bufferSize.toNat) (c : PubSubClient bufferSize)
    (now : BitVec 32) (room : Nat) : ∃ c', c.disconnect now room = some c' ∧ c'.up = false := by
  obtain ⟨buffer₁, h₁, -⟩ := store_ok c.buffer (by omega : 0 < bufferSize.toNat) mqttDisconnect
  obtain ⟨buffer₂, h₂, -⟩ := store_ok buffer₁ (by omega : 1 < bufferSize.toNat) 0
  have hslice : slice buffer₂ 0 2 = some ((buffer₂.toList.drop 0).take 2) := if_pos hsize
  simp only [disconnect, writeShort, h₁, h₂, hslice, Option.bind_eq_bind, Option.bind_some]
  exact ⟨_, rfl, rfl⟩

end PubSubClient

namespace Session
variable {bufferSize : BitVec 16}

/-- Of the packets that have arrived, the first `k` have been taken and delivered; an open
connection still has the others and the beginning of the next one. -/
structure Taken (before : List Message) (ps : List StreamPacket) (torn : List Byte) (k : Nat)
    (s : Session bufferSize) : Prop where
  le : k ≤ ps.length
  delivered : s.delivered =
    before ++ (ps.take k).flatMap (StreamPacket.messages bufferSize.toNat)
  settled : s.client.up = true → s.client.state = mqttConnected
  unread : s.client.up = true → s.client.unread = streamOf (ps.drop k) ++ torn.map some

/-- A call that delivers nothing. -/
private theorem Taken.keeps {before : List Message} {ps : List StreamPacket} {torn : List Byte}
    {k : Nat} {s s' : Session bufferSize} (h : Taken before ps torn k s)
    (hkeeps : s.client.KeepsInput s'.client) (hdelivered : s'.delivered = s.delivered) :
    Taken before ps torn k s' := by
  rcases hkeeps with hsame | hdown
  · refine ⟨h.le, hdelivered.trans h.delivered, fun hup => ?_, fun hup => ?_⟩
    · rw [hsame.state]
      exact h.settled (hsame.up ▸ hup)
    · rw [hsame.unread]
      exact h.unread (hsame.up ▸ hup)
  · have hclosed : ¬ s'.client.up = true := by
      rw [hdown]
      exact Bool.false_ne_true
    exact ⟨h.le, hdelivered.trans h.delivered, fun hup => absurd hup hclosed,
      fun hup => absurd hup hclosed⟩

/-- A closed connection has no packets to come. -/
private theorem Taken.closed {before : List Message} {ps : List StreamPacket} {torn torn' : List Byte}
    {k : Nat} {s s' : Session bufferSize} (h : Taken before ps torn k s)
    (hdown : s'.client.up = false) (hdelivered : s'.delivered = s.delivered) :
    Taken before ps torn' k s' := by
  obtain ⟨hle, hall, hsettled, -⟩ := h.keeps (Or.inr hdown) hdelivered
  refine ⟨hle, hall, hsettled, fun hup => ?_⟩
  rw [hdown] at hup
  cases hup

/-- More bytes arrive. -/
private theorem Taken.arrive {before : List Message} {ps new : List StreamPacket}
    {torn torn' : List Byte} {k : Nat} {s : Session bufferSize} (h : Taken before ps torn k s)
    {bytes : List (Option Byte)} (hbytes : torn.map some ++ bytes = streamOf new ++ torn'.map some) :
    Taken before (ps ++ new) torn' k { s with client := s.client.arrive bytes } := by
  refine ⟨h.le.trans ?_, ?_, ?_, ?_⟩
  · rw [List.length_append]
    exact Nat.le_add_right _ _
  · rw [List.take_append_of_le_length h.le]
    exact h.delivered
  · rw [PubSubClient.arrive]
    split
    · exact h.settled
    · exact h.settled
  · rw [PubSubClient.arrive]
    split
    · rename_i hup
      intro _
      dsimp only
      rw [h.unread hup, dropWhile_streamOf, List.drop_append_of_le_length h.le, streamOf_append,
        List.append_assoc, List.append_assoc, hbytes]
    · rename_i hclosed
      exact fun hup => absurd hup hclosed

/-- A call of `loop` takes one packet if there is one. -/
private theorem Taken.loop (hsize : 7 ≤ bufferSize.toNat) {before : List Message}
    {ps : List StreamPacket} (hsound : ∀ p ∈ ps, p.Sound) {k : Nat} {s : Session bufferSize}
    (h : Taken before ps [] k s) (t : BitVec 32) (room : Nat) :
    ∃ s' k', s.step (.loop t room) = some s' ∧ Taken before ps [] k' s' := by
  by_cases hup : s.client.up = true
  swap
  · have hnot : ¬ s.client.Live := fun hlive => hup hlive.1
    have hdown : s.client.connected.2.up = false := by
      rw [PubSubClient.connected, if_neg hup]
      split
      · rfl
      · exact Bool.eq_false_iff.mpr hup
    refine ⟨{ s with client := s.client.connected.2, delivered := s.delivered ++ [] }, k, ?_, ?_⟩
    · rw [step, PubSubClient.loop_not_live hnot]
      rfl
    · exact h.keeps (Or.inr hdown) (List.append_nil _)
  have hlive : s.client.Live := ⟨hup, h.settled hup⟩
  by_cases htime : s.client.TimedOut t
  · refine ⟨{ s with
        client := { s.client.stop with state := mqttConnectionTimeout }
        delivered := s.delivered ++ [] }, k, ?_, ?_⟩
    · rw [step, PubSubClient.loop_timedOut hlive htime]
      rfl
    · exact h.keeps (Or.inr rfl) (List.append_nil _)
  have hun := h.unread hup
  rw [List.map_nil, List.append_nil] at hun
  rcases Nat.lt_or_ge k ps.length with hlt | hge
  · rw [List.drop_eq_getElem_cons hlt] at hun
    obtain ⟨c', hloop, hlive', hrest, -⟩ := PubSubClient.loop_packet
      (hsound _ (List.getElem_mem hlt)) hsize hlive hun htime room
    refine ⟨{ s with client := c', delivered := s.delivered ++ ps[k].messages bufferSize.toNat },
      k+1, ?_, ⟨hlt, ?_, fun _ => hlive'.2, fun _ => ?_⟩⟩
    · rw [step, hloop]
      rfl
    · rw [List.take_succ_eq_append_getElem hlt, List.flatMap_append, List.flatMap_singleton,
        ← List.append_assoc, ← h.delivered]
    · exact hrest.trans (List.append_nil _).symm
  · rw [List.drop_eq_nil_of_le hge] at hun
    obtain ⟨c', hloop, hlive', hrest, -⟩ := PubSubClient.loop_empty (by omega) hlive hun htime room
    refine ⟨{ s with client := c', delivered := s.delivered ++ [] }, k, ?_, ⟨h.le, ?_, fun _ => hlive'.2,
      fun _ => ?_⟩⟩
    · rw [step, hloop]
      rfl
    · rw [List.append_nil]
      exact h.delivered
    · rw [List.drop_eq_nil_of_le hge]
      exact hrest

/-- One event, and the packets that it brings. -/
private theorem Taken.step (hsize : 7 ≤ bufferSize.toNat) {before : List Message}
    {ps new : List StreamPacket} (hsound : ∀ p ∈ ps, p.Sound) {torn torn' : List Byte} {k : Nat}
    {s : Session bufferSize} (h : Taken before ps torn k s) {e : SessionEvent}
    (hfit : e.Fit bufferSize.toNat) (hbrings : e.Brings torn new torn') :
    ∃ s' k', s.step e = some s' ∧ Taken before (ps ++ new) torn' k' s' := by
  cases e with
  | publish now room topic payload retained =>
    obtain ⟨rfl, rfl⟩ := hbrings
    rw [List.append_nil]
    obtain ⟨r, c', hcall, hkeeps⟩ :=
      PubSubClient.publish_keepsInput s.client now room topic hfit retained
    refine ⟨_, k, congrArg (Option.map _) hcall, h.keeps hkeeps rfl⟩
  | subscribe now room topic qos =>
    obtain ⟨rfl, rfl⟩ := hbrings
    rw [List.append_nil]
    obtain ⟨r, c', hcall, hkeeps⟩ := PubSubClient.subscribe_keepsInput s.client now room hfit
    exact ⟨_, k, congrArg (Option.map _) hcall, h.keeps hkeeps rfl⟩
  | unsubscribe now room topic =>
    obtain ⟨rfl, rfl⟩ := hbrings
    rw [List.append_nil]
    obtain ⟨r, c', hcall, hkeeps⟩ := PubSubClient.unsubscribe_keepsInput s.client now room topic
    exact ⟨_, k, congrArg (Option.map _) hcall, h.keeps hkeeps rfl⟩
  | disconnect now room =>
    obtain rfl : new = [] := hbrings
    rw [List.append_nil]
    obtain ⟨c', hcall, hdown⟩ := PubSubClient.disconnect_down (by omega) s.client now room
    exact ⟨_, k, congrArg (Option.map _) hcall, h.closed hdown rfl⟩
  | loop t room =>
    obtain ⟨rfl, rfl, rfl⟩ := hbrings
    rw [List.append_nil]
    exact h.loop hsize hsound t room
  | arrive bytes => exact ⟨_, k, rfl, h.arrive hbrings⟩
  | lost =>
    obtain rfl : new = [] := hbrings
    rw [List.append_nil]
    exact ⟨_, k, rfl, h.closed rfl rfl⟩

/-- The packets that the events bring behind `torn`, and what they leave torn. -/
def Bring : List Byte → List SessionEvent → List StreamPacket → List Byte → Prop
  | torn, [], ps, torn' => ps = [] ∧ torn' = torn
  | torn, e :: es, ps, torn' =>
    ∃ new torn₁ rest, e.Brings torn new torn₁ ∧ Bring torn₁ es rest torn' ∧ ps = new ++ rest

theorem Taken.run (hsize : 7 ≤ bufferSize.toNat) {before : List Message}
    {es : List SessionEvent} (hfit : ∀ e ∈ es, e.Fit bufferSize.toNat) {new : List StreamPacket}
    {torn torn' : List Byte} (hbring : Bring torn es new torn') {ps : List StreamPacket}
    (hsound : ∀ p ∈ ps ++ new, p.Sound) {k : Nat} {s : Session bufferSize}
    (h : Taken before ps torn k s) :
    ∃ s' k', PartialRun.run Session.step s es = some s' ∧ Taken before (ps ++ new) torn' k' s' := by
  induction es generalizing ps new torn k s with
  | nil =>
    obtain ⟨rfl, rfl⟩ := hbring
    rw [List.append_nil]
    exact ⟨s, k, rfl, h⟩
  | cons e es ih =>
    obtain ⟨first, torn₁, rest, hfirst, hrest, rfl⟩ := hbring
    obtain ⟨hfite, hfites⟩ := List.forall_mem_cons.mp hfit
    rw [← List.append_assoc] at hsound ⊢
    obtain ⟨s₁, k₁, hstep, htaken⟩ := h.step hsize
      (fun p hp => hsound p (List.mem_append_left _ (List.mem_append_left _ hp))) hfite hfirst
    obtain ⟨s', k', hrun, htaken'⟩ := ih hfites hrest hsound htaken
    refine ⟨s', k', ?_, htaken'⟩
    rw [run_cons, hstep]
    exact hrun

/-- What can still be read are whole packets, none of them a publication. -/
structure Orderly (s : Session bufferSize) : Prop where
  settled : s.client.up = true → s.client.state = mqttConnected
  unread : s.client.up = true → ∃ ps, s.client.unread = streamOf ps ∧ ∀ p ∈ ps, p.NoPublication

theorem Orderly.keeps {s : Session bufferSize} (h : s.Orderly) {c : PubSubClient bufferSize}
    (hkeeps : s.client.KeepsInput c) : Orderly { s with client := c } := by
  rcases hkeeps with hsame | hdown
  · refine ⟨fun hup => ?_, fun hup => ?_⟩
    · exact hsame.state.trans (h.settled (hsame.up ▸ hup))
    · obtain ⟨ps, hun, hps⟩ := h.unread (hsame.up ▸ hup)
      exact ⟨ps, hsame.unread.trans hun, hps⟩
  · have hclosed : ¬ c.up = true := by
      rw [hdown]
      exact Bool.false_ne_true
    exact ⟨fun hup => absurd hup hclosed, fun hup => absurd hup hclosed⟩

/-- Events that bring nothing. -/
theorem bring_nil {es : List SessionEvent} (h : ∀ e ∈ es, e.Brings [] [] []) : Bring [] es [] [] := by
  induction es with
  | nil => exact ⟨rfl, rfl⟩
  | cons e es ih =>
    obtain ⟨he, hes⟩ := List.forall_mem_cons.mp h
    exact ⟨[], [], [], he, ih hes, rfl⟩

/-- A broker that publishes nothing can not make a call leave the buffer, and nothing is delivered. -/
theorem Orderly.run (hsize : 7 ≤ bufferSize.toNat) {s : Session bufferSize} (h : s.Orderly)
    {es : List SessionEvent} (hfit : ∀ e ∈ es, e.Fit bufferSize.toNat) {new : List StreamPacket}
    (hbring : Bring [] es new []) (hnew : ∀ p ∈ new, p.NoPublication) :
    ∃ s', PartialRun.run Session.step s es = some s' ∧ s'.Orderly ∧ s'.delivered = s.delivered := by
  obtain ⟨ps, hun, hps⟩ : ∃ ps, (s.client.up = true → s.client.unread = streamOf ps) ∧
      ∀ p ∈ ps, p.NoPublication := by
    by_cases hup : s.client.up = true
    · obtain ⟨ps, hun, hps⟩ := h.unread hup
      exact ⟨ps, fun _ => hun, hps⟩
    · exact ⟨[], fun h => absurd h hup, fun _ hp => by cases hp⟩
  have hall : ∀ p ∈ ps ++ new, p.NoPublication := by
    intro p hp
    rcases List.mem_append.mp hp with hp | hp
    · exact hps p hp
    · exact hnew p hp
  have hstart : Taken s.delivered ps [] 0 s :=
    ⟨Nat.zero_le _, (List.append_nil _).symm, h.settled,
      fun hup => (hun hup).trans (List.append_nil _).symm⟩
  obtain ⟨s', k, hrun, htaken⟩ :=
    hstart.run hsize hfit hbring fun p hp => StreamPacket.NoPublication.sound (hall p hp)
  refine ⟨s', hrun, ⟨htaken.settled, fun hup => ⟨_, (htaken.unread hup).trans (List.append_nil _),
    fun p hp => hall p (List.mem_of_mem_drop hp)⟩⟩, ?_⟩
  have hnone : ((ps ++ new).take k).flatMap (StreamPacket.messages bufferSize.toNat) = [] :=
    List.flatMap_eq_nil_iff.mpr fun p hp =>
      StreamPacket.NoPublication.messages (hall p (List.mem_of_mem_take hp)) _
  rw [htaken.delivered, hnone, List.append_nil]

/-- The calls come within the keep-alive time of the client's stamps and of each other. -/
structure Paced (c : PubSubClient bufferSize) (ts : List (BitVec 32 × Nat)) : Prop where
  lastIn : ∀ t ∈ ts, (t.1 - c.lastInActivity).toNat ≤ c.keepAlive.toNat * 1000
  lastOut : ∀ t ∈ ts, (t.1 - c.lastOutActivity).toNat ≤ c.keepAlive.toNat * 1000
  between : ts.Pairwise fun t t' => (t'.1 - t.1).toNat ≤ c.keepAlive.toNat * 1000

theorem Paced.alive {c : PubSubClient bufferSize} {t : BitVec 32 × Nat} {ts : List (BitVec 32 × Nat)}
    (h : Paced c (t :: ts)) : ¬ c.TimedOut t.1 := by
  rintro ⟨hin | hout, -⟩
  · exact absurd (h.lastIn t List.mem_cons_self) (Nat.not_le_of_lt hin)
  · exact absurd (h.lastOut t List.mem_cons_self) (Nat.not_le_of_lt hout)

theorem Paced.tail {c c' : PubSubClient bufferSize} {t : BitVec 32 × Nat}
    {ts : List (BitVec 32 × Nat)} (h : Paced c (t :: ts)) (hstamped : c.Stamped t.1 c') :
    Paced c' ts := by
  obtain ⟨hfirst, hrest⟩ := List.pairwise_cons.mp h.between
  refine ⟨fun u hu => ?_, fun u hu => ?_, ?_⟩
  · rw [hstamped.keepAlive]
    rcases hstamped.lastIn with hsame | hnow
    · exact hsame ▸ h.lastIn u (List.mem_cons_of_mem _ hu)
    · exact hnow ▸ hfirst u hu
  · rw [hstamped.keepAlive]
    rcases hstamped.lastOut with hsame | hnow
    · exact hsame ▸ h.lastOut u (List.mem_cons_of_mem _ hu)
    · exact hnow ▸ hfirst u hu
  · rw [hstamped.keepAlive]
    exact hrest

end Session
end EspNowGateway.Mqtt
