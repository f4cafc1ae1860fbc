import EspNowGateway.Mqtt.Connect
import EspNowGateway.Mqtt.Emissions
import Mathlib.Data.Int.ModEq

/-! The stream of a whole session, as its receiver reads it. -/
namespace EspNowGateway.Mqtt
open ByteLayout CArray PartialRun

/-- The id before the `n`-th request of a session; the ids go round without zero. -/
def requestNumber (n : Nat) : BitVec 16 := BitVec.ofNat 16 (n % 65535 + 1)

theorem requestNumber_toNat (n : Nat) : (requestNumber n).toNat = n % 65535 + 1 := by
  rw [requestNumber, BitVec.toNat_ofNat]
  omega

theorem requestNumber_ne_zero (n : Nat) : requestNumber n ≠ 0 := by
  intro h
  have hnat := congrArg BitVec.toNat h
  rw [requestNumber_toNat] at hnat
  cases hnat

/-- Two requests have the same id exactly when they are a multiple of 65535 requests apart. -/
theorem requestNumber_eq_iff (m n : Nat) : requestNumber m = requestNumber n ↔ m ≡ n [MOD 65535] := by
  rw [← BitVec.toNat_inj, requestNumber_toNat, requestNumber_toNat, Nat.add_right_cancel_iff]
  rfl

theorem PubSubClient.advanceMsgId_requestNumber {bufferSize : BitVec 16} {c : PubSubClient bufferSize}
    {n : Nat} (h : c.nextMsgId = requestNumber n) :
    c.advanceMsgId.nextMsgId = requestNumber (n+1) := by
  have hn := requestNumber_toNat n
  have hsucc : (requestNumber n + 1).toNat = (n % 65535 + 2) % 65536 := by
    rw [BitVec.toNat_add, hn]
    rfl
  apply BitVec.eq_of_toNat_eq
  rw [requestNumber_toNat, advanceMsgId, h]
  dsimp only
  split
  · rename_i hzero
    rw [hzero] at hsucc
    change 0 = _ at hsucc
    change 1 = _
    omega
  · rename_i hzero
    have hpos : (n % 65535 + 2) % 65536 ≠ 0 := by
      intro h0
      exact hzero (BitVec.eq_of_toNat_eq (hsucc.trans h0))
    rw [hsucc]
    omega

namespace Session
variable {bufferSize : BitVec 16}

/-- The session's stream so far, and what is known of it. -/
structure OnWire (k : Connect) (s : Session bufferSize) (qs : List ControlPacket) : Prop where
  written : s.client.written = ControlPacket.code.encodeAll (.connect k :: qs)
  valid : ∀ q ∈ qs, q.Valid
  fits : ∀ q ∈ qs, q.encode.length ≤ bufferSize.toNat
  later : ∀ q ∈ qs, q.isConnect = false
  postings : qs.filterMap ControlPacket.posting = s.confirmed
  requests : qs.filterMap ControlPacket.requestId =
    (List.range (qs.filterMap ControlPacket.requestId).length).map fun i => requestNumber (i+1)
  next : s.client.nextMsgId = requestNumber (qs.filterMap ControlPacket.requestId).length
  settled : s.client.Settled

theorem step_emits {s s' : Session bufferSize} {e : SessionEvent} (h : s.step e = some s')
    (hwhole : e.Whole bufferSize.toNat) : ∃ qs, s.client.Emits s'.client qs ∧
      s'.confirmed = s.confirmed ++ qs.filterMap ControlPacket.posting := by
  cases e with
  | publish now room topic payload retained =>
    obtain ⟨⟨r, c'⟩, hcall, rfl⟩ := Option.map_eq_some_iff.mp h
    obtain ⟨qs, hemits, hpostings⟩ := PubSubClient.publish_emits hcall hwhole
    refine ⟨qs, hemits, ?_⟩
    rw [hpostings]
    cases r
    · exact (List.append_nil _).symm
    · rfl
  | subscribe now room topic qos =>
    obtain ⟨⟨r, c'⟩, hcall, rfl⟩ := Option.map_eq_some_iff.mp h
    obtain ⟨qs, hemits, hnone⟩ := PubSubClient.subscribe_emits hcall hwhole
    exact ⟨qs, hemits, by rw [hnone, List.append_nil]⟩
  | unsubscribe now room topic =>
    obtain ⟨⟨r, c'⟩, hcall, rfl⟩ := Option.map_eq_some_iff.mp h
    obtain ⟨qs, hemits, hnone⟩ := PubSubClient.unsubscribe_emits hcall hwhole
    exact ⟨qs, hemits, by rw [hnone, List.append_nil]⟩
  | disconnect now room =>
    obtain ⟨c', hcall, rfl⟩ := Option.map_eq_some_iff.mp h
    obtain ⟨qs, hemits, hnone⟩ := PubSubClient.disconnect_emits hcall hwhole
    exact ⟨qs, hemits, by rw [hnone, List.append_nil]⟩
  | loop t room =>
    obtain ⟨⟨r, ms, c'⟩, hcall, rfl⟩ := Option.map_eq_some_iff.mp h
    obtain ⟨qs, hqs⟩ := PubSubClient.loop_answers hcall hwhole
    have hnone : qs.filterMap ControlPacket.posting = [] :=
      List.filterMap_eq_nil_iff.mpr fun q hq => ControlPacket.posting_of_isReply (hqs.reply q hq)
    exact ⟨qs, hqs.emits, by rw [hnone, List.append_nil]⟩
  | arrive bytes =>
    obtain rfl := Option.some.inj h
    refine ⟨[], ?_, (List.append_nil _).symm⟩
    rw [PubSubClient.arrive]
    split
    · exact .nothing rfl rfl id
    · exact .nothing rfl rfl id
  | lost =>
    obtain rfl := Option.some.inj h
    exact ⟨[], .nothing rfl rfl fun _ hopen => (by cases hopen), (List.append_nil _).symm⟩

theorem OnWire.append {k : Connect} {s s' : Session bufferSize} {qs qs' : List ControlPacket}
    (h : OnWire k s qs) (hemits : s.client.Emits s'.client qs')
    (hconfirmed : s'.confirmed = s.confirmed ++ qs'.filterMap ControlPacket.posting) :
    OnWire k s' (qs ++ qs') where
  written := by
    rw [hemits.written, h.written]
    exact List.flatMap_append.symm
  valid := by
    intro q hq
    rcases List.mem_append.mp hq with hq | hq
    · exact h.valid q hq
    · exact hemits.valid q hq
  fits := by
    intro q hq
    rcases List.mem_append.mp hq with hq | hq
    · exact h.fits q hq
    · exact hemits.fits q hq
  later := by
    intro q hq
    rcases List.mem_append.mp hq with hq | hq
    · exact h.later q hq
    · exact hemits.later q hq
  postings := by rw [List.filterMap_append, h.postings, hconfirmed]
  requests := by
    rw [List.filterMap_append]
    rcases hemits.ids with ⟨hnone, -⟩ | ⟨hone, -⟩
    · rw [hnone, List.append_nil]
      exact h.requests
    · rw [hone, PubSubClient.advanceMsgId_requestNumber h.next, List.length_append,
        List.length_singleton, List.range_succ, List.map_append, ← h.requests]
      rfl
  next := by
    rw [List.filterMap_append]
    rcases hemits.ids with ⟨hnone, hsame⟩ | ⟨hone, hnext⟩
    · rw [hnone, List.append_nil, hsame]
      exact h.next
    · rw [hone, List.length_append, List.length_singleton, hnext,
        PubSubClient.advanceMsgId_requestNumber h.next]
  settled := hemits.settled h.settled

theorem run_onWire {k : Connect} {s s' : Session bufferSize} {es : List SessionEvent}
    (hrun : run step s es = some s') (hwhole : ∀ e ∈ es, e.Whole bufferSize.toNat)
    (h : ∃ qs, OnWire k s qs) : ∃ qs, OnWire k s' qs := by
  refine run_invariant step (SessionEvent.Whole bufferSize.toNat) (fun s => ∃ qs, OnWire k s qs)
    (fun s e s' hw hinv hstep => ?_) h hwhole hrun
  obtain ⟨qs, hqs⟩ := hinv
  obtain ⟨qs', hemits, hconfirmed⟩ := step_emits hstep hw
  exact ⟨qs ++ qs', hqs.append hemits hconfirmed⟩

theorem connect_valid {k : Connect} {n : Nat} (hn : n < 2^16)
    (hfit : mqttMaxHeaderSize + k.body.length ≤ n) : (ControlPacket.connect k).Valid where
  texts := by
    intro t ht
    have hsub : (lengthPrefixed t).length ≤ (k.texts.flatMap lengthPrefixed).length :=
      (List.sublist_flatten_of_mem (List.mem_map_of_mem ht)).length_le
    have hbody : (k.texts.flatMap lengthPrefixed).length ≤ k.body.length := by
      rw [Connect.body, List.length_append]
      exact Nat.le_add_left _ _
    rw [lengthPrefixed_length] at hsub
    omega
  body := (Nat.le_add_left _ _).trans_lt (hfit.trans_lt (hn.trans (by decide)))

/-- A connection that `connect` has made, before the first call; the broker may have refused. -/
theorem connect_onWire (hsize : 15 ≤ bufferSize.toNat) {c c' : PubSubClient bufferSize}
    (hdown : c.up = false) {a : ConnectAnswers} (hroom : bufferSize.toNat ≤ a.room) {id : List Byte}
    {user pass : Option (List Byte)} {will : Option WillArgs}
    (hqos : ∀ w ∈ will, w.willQos.toNat < 4) {cleanSession accepted : Bool}
    (hfit : mqttMaxHeaderSize +
      (connectPacket c.keepAlive id user pass will cleanSession).body.length ≤ bufferSize.toNat)
    (hdialed : a.dialed = true)
    (hconnect : c.connect a id user pass will cleanSession = some (accepted, c')) :
    OnWire (connectPacket c.keepAlive id user pass will cleanSession) ⟨c', [], []⟩ [] := by
  obtain ⟨accepted', c'', hspec, -, hopen, hclosed⟩ :=
    PubSubClient.connect_spec hsize a id user pass hqos cleanSession hdown
  obtain ⟨rfl, rfl⟩ := Prod.mk.inj (Option.some.inj (hspec.symm.trans hconnect))
  have hall := PubSubClient.connect_written hsize a id user pass hqos cleanSession hdown hfit hconnect
  rw [if_pos hdialed] at hall
  have hle : (ControlPacket.connect
      (connectPacket c.keepAlive id user pass will cleanSession)).encode.length ≤ a.room :=
    (ControlPacket.encode_length_le (p := .connect _) bufferSize.isLt hfit).trans hroom
  refine ⟨?_, fun _ hq => (by cases hq), fun _ hq => (by cases hq), fun _ hq => (by cases hq), rfl, rfl,
    hall.2, ?_⟩
  · change c''.written = (ControlPacket.connect _).encode ++ []
    rw [hall.1, List.take_of_length_le hle, List.append_nil]
  · cases accepted' with
    | true => exact (hopen rfl).live.settled
    | false => exact fun hup => absurd ((hclosed rfl).symm.trans hup) Bool.false_ne_true

theorem OnWire.readAll {k : Connect} {s : Session bufferSize} {qs : List ControlPacket}
    (h : OnWire k s qs) (hfit : mqttMaxHeaderSize + k.body.length ≤ bufferSize.toNat) :
    ControlPacket.code.readAll s.client.written = some (.connect k :: qs) := by
  rw [h.written]
  exact ControlPacket.code.readAll_encodeAll _
    (List.forall_mem_cons.mpr ⟨connect_valid bufferSize.isLt hfit, h.valid⟩)

/-- An opened session. -/
theorem opened_onWire (hsize : 15 ≤ bufferSize.toNat) {c c' : PubSubClient bufferSize}
    (hdown : c.up = false) {a : ConnectAnswers} (hroom : bufferSize.toNat ≤ a.room) {id : List Byte}
    {user pass : Option (List Byte)} {will : Option WillArgs}
    (hqos : ∀ w ∈ will, w.willQos.toNat < 4) {cleanSession : Bool}
    (hconnect : c.connect a id user pass will cleanSession = some (true, c')) :
    OnWire (connectPacket c.keepAlive id user pass will cleanSession) ⟨c', [], []⟩ [] ∧
      mqttMaxHeaderSize +
        (connectPacket c.keepAlive id user pass will cleanSession).body.length ≤ bufferSize.toNat := by
  obtain ⟨accepted, c'', hspec, -, hopen, -⟩ :=
    PubSubClient.connect_spec hsize a id user pass hqos cleanSession hdown
  obtain ⟨rfl, rfl⟩ := Prod.mk.inj (Option.some.inj (hspec.symm.trans hconnect))
  have hopened := hopen rfl
  exact ⟨connect_onWire hsize hdown hroom hqos hopened.fits hopened.dialed hconnect, hopened.fits⟩

/-- The stream of an opened session after any run. -/
theorem connect_run_onWire (hsize : 15 ≤ bufferSize.toNat) {c c' : PubSubClient bufferSize}
    (hdown : c.up = false) {a : ConnectAnswers} (hroom : bufferSize.toNat ≤ a.room) {id : List Byte}
    {user pass : Option (List Byte)} {will : Option WillArgs}
    (hqos : ∀ w ∈ will, w.willQos.toNat < 4) {cleanSession : Bool}
    (hconnect : c.connect a id user pass will cleanSession = some (true, c'))
    {es : List SessionEvent} (hwhole : ∀ e ∈ es, e.Whole bufferSize.toNat) {s : Session bufferSize}
    (hrun : run step ⟨c', [], []⟩ es = some s) :
    ∃ qs, OnWire (connectPacket c.keepAlive id user pass will cleanSession) s qs ∧
      ControlPacket.code.readAll s.client.written =
        some (.connect (connectPacket c.keepAlive id user pass will cleanSession) :: qs) := by
  obtain ⟨hopened, hfits⟩ := opened_onWire hsize hdown hroom hqos hconnect
  obtain ⟨qs, hqs⟩ := run_onWire hrun hwhole ⟨[], hopened⟩
  exact ⟨qs, hqs, hqs.readAll hfits⟩

/-- A short session: two publications and two requests. -/
def sampleEvents : List SessionEvent :=
  [.publish 2000 64 (ascii "t") [1, 2] false, .subscribe 3000 64 (ascii "u") 1, .loop 4000 64,
    .publish 5000 64 (ascii "t") [3] true, .unsubscribe 6000 64 (ascii "u")]

def sampleEnd : Session 32 :=
  (run step ⟨PubSubClient.agreed, [], []⟩ sampleEvents).getD ⟨PubSubClient.agreed, [], []⟩

theorem sample_run : run step ⟨PubSubClient.agreed, [], []⟩ sampleEvents = some sampleEnd := rfl

theorem sample_whole : ∀ e ∈ sampleEvents, e.Whole (32 : BitVec 16).toNat := by
  simp [sampleEvents, SessionEvent.Whole]

/-- The requests of a session never go out with id zero, and two of them with the same id only when
they are a multiple of 65535 requests apart. -/
theorem session_request_ids (hsize : 15 ≤ bufferSize.toNat) {c c' : PubSubClient bufferSize}
    (hdown : c.up = false) {a : ConnectAnswers} (hroom : bufferSize.toNat ≤ a.room) {id : List Byte}
    {user pass : Option (List Byte)} {will : Option WillArgs}
    (hqos : ∀ w ∈ will, w.willQos.toNat < 4) {cleanSession : Bool}
    (hconnect : c.connect a id user pass will cleanSession = some (true, c'))
    {es : List SessionEvent} (hwhole : ∀ e ∈ es, e.Whole bufferSize.toNat) {s : Session bufferSize}
    (hrun : run step ⟨c', [], []⟩ es = some s) {qs : List ControlPacket}
    (hread : ControlPacket.code.readAll s.client.written = some qs) {i j : Nat} {x y : BitVec 16}
    (hi : (qs.filterMap ControlPacket.requestId)[i]? = some x)
    (hj : (qs.filterMap ControlPacket.requestId)[j]? = some y) :
    x ≠ 0 ∧ (x = y ↔ i ≡ j [MOD 65535]) := by
  obtain ⟨qs', hqs, hread'⟩ := connect_run_onWire hsize hdown hroom hqos hconnect hwhole hrun
  obtain rfl := Option.some.inj (hread.symm.trans hread')
  have hids : ∀ m z, ((ControlPacket.connect (connectPacket c.keepAlive id user pass will
      cleanSession) :: qs').filterMap ControlPacket.requestId)[m]? = some z →
      z = requestNumber (m+1) := by
    intro m z hm
    change (qs'.filterMap ControlPacket.requestId)[m]? = some z at hm
    rw [hqs.requests, List.getElem?_map] at hm
    obtain ⟨m', hm', rfl⟩ := Option.map_eq_some_iff.mp hm
    obtain ⟨hlt, hget⟩ := List.getElem?_eq_some_iff.mp hm'
    rw [List.getElem_range] at hget
    rw [hget]
  rw [hids i x hi, hids j y hj, requestNumber_eq_iff]
  refine ⟨requestNumber_ne_zero _, ?_⟩
  exact ⟨fun h => Nat.ModEq.add_right_cancel' 1 h, fun h => h.add_right 1⟩

theorem sample_read : ControlPacket.code.readAll sampleEnd.client.written =
    some [.connect (connectPacket 15 (ascii "g") none none none true),
      .publish false (ascii "t") [1, 2], .subscribe 2 (ascii "u") 1,
      .publish true (ascii "t") [3], .unsubscribe 3 (ascii "u")] := rfl

theorem session_request_ids_sample : (2 : BitVec 16) ≠ 0 ∧ ((2 : BitVec 16) = 3 ↔ 0 ≡ 1 [MOD 65535]) :=
  session_request_ids (by decide) rfl (by decide) (fun w hw => absurd hw (Option.not_mem_none w))
    PubSubClient.connect_agreed sample_whole sample_run sample_read (i := 0) (j := 1) rfl rfl

end Session
end EspNowGateway.Mqtt
