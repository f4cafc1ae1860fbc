import EspNowGateway.System.Uplink

/-! What the gateway puts on the streams of its broker connections, over whole runs: exactly what its
calls ask for, as far as it fits and the connection stands. -/
namespace EspNowGateway.System
open ByteLayout CArray PartialRun Radio Sender Gateway Mqtt RadioState ThingsBoard

variable {tw : Nat}

namespace Uplink

/-- The CONNECT of the gateway. -/
def tokenConnect (keepAlive : BitVec 16) : Connect :=
  connectPacket keepAlive defaultClientId (some token) none none true

theorem tokenConnect_fits (keepAlive : BitVec 16) :
    mqttMaxHeaderSize + (tokenConnect keepAlive).body.length ≤ maxMessageSize.toNat := by
  have hbody : (tokenConnect keepAlive).body.length = 39 := rfl
  rw [hbody]
  decide

/-- A session that has not begun, or one whose stream is known. -/
def Recorded (s : Session maxMessageSize) : Prop :=
  (s.client.written = [] ∧ s.confirmed = [] ∧ s.client.up = false) ∨
    ∃ keepAlive qs, s.OnWire (tokenConnect keepAlive) qs

theorem Recorded.down {s : Session maxMessageSize} (h : Recorded s)
    (hconn : s.client.connected.1 = false) : s.client.up = false := by
  rcases h with ⟨-, -, hdown⟩ | ⟨keepAlive, qs, hqs⟩
  · exact hdown
  · cases hup : s.client.up with
    | false => rfl
    | true =>
      rw [PubSubClient.connected_of_live (hqs.settled.live hup)] at hconn
      cases hconn

/-- Events that write nothing keep the record. -/
theorem Recorded.silent {s : Session maxMessageSize} (h : Recorded s)
    {c : PubSubClient maxMessageSize} (hwritten : c.written = s.client.written)
    (hid : c.nextMsgId = s.client.nextMsgId) (hup : c.up = true → s.client.up = true)
    (hstate : s.client.Settled → c.Settled) : Recorded { s with client := c } := by
  rcases h with ⟨hnone, hconfirmed, hdown⟩ | ⟨keepAlive, qs, hqs⟩
  · refine Or.inl ⟨hwritten.trans hnone, hconfirmed, ?_⟩
    rw [← Bool.not_eq_true]
    exact fun h => Bool.false_ne_true (hdown.symm.trans (hup h))
  · refine Or.inr ⟨keepAlive, qs ++ [], hqs.append (.nothing hwritten hid hstate) ?_⟩
    exact (List.append_nil _).symm

theorem Recorded.connected {s : Session maxMessageSize} (h : Recorded s) :
    Recorded { s with client := s.client.connected.2 } := by
  obtain ⟨hwritten, hid⟩ := s.client.connected_frame
  refine h.silent hwritten hid ?_ (PubSubClient.emits_connected _).settled
  rw [PubSubClient.connected]
  split
  · exact id
  · split
    · exact fun h => by cases h
    · exact id

/-- The streams and the calls agree. -/
structure Kept (json : Publish → List Byte) (w : Uplink tw) : Prop where
  recorded : ∀ s ∈ w.sessions, Recorded s
  postings : w.sessions.flatMap Session.confirmed =
    (w.stood.filter (fits maxMessageSize json)).map (posting json)

theorem Kept.current {json : Publish → List Byte} {w : Uplink tw} (h : Kept json w) :
    Recorded w.session := h.recorded _ (List.mem_append_right _ (List.mem_singleton_self _))

/-- Another state of the current session, with what it has confirmed since. -/
theorem Kept.session {json : Publish → List Byte} {w : Uplink tw} (h : Kept json w)
    {s : Session maxMessageSize} (hs : Recorded s) (more : List Publish)
    (hconfirmed : s.confirmed =
      w.session.confirmed ++ (more.filter (fits maxMessageSize json)).map (posting json)) :
    Kept json { w with session := s, stood := w.stood ++ more } where
  recorded := by
    intro s' hs'
    rcases List.mem_append.mp hs' with hpast | hnow
    · exact h.recorded s' (List.mem_append_left _ hpast)
    · obtain rfl := List.mem_singleton.mp hnow
      exact hs
  postings := by
    have hall := h.postings
    simp only [sessions, List.flatMap_append, List.flatMap_singleton] at hall ⊢
    rw [hconfirmed, ← List.append_assoc, hall, List.filter_append, List.map_append]

/-- Another state of the current session that has confirmed nothing since. -/
theorem Kept.unconfirmed {json : Publish → List Byte} {w : Uplink tw} (h : Kept json w)
    {s : Session maxMessageSize} (hs : Recorded s) (hsame : s.confirmed = w.session.confirmed) :
    Kept json { w with session := s } := by
  have hkept := h.session hs [] (hsame.trans (List.append_nil _).symm)
  rwa [List.append_nil] at hkept

theorem Kept.ensureConnected {json : Publish → List Byte} {w w' : Uplink tw} (h : Kept json w)
    {a : ConnectAnswers} (hroom : maxMessageSize.toNat ≤ a.room) {up joined : Bool}
    (hcall : w.ensureConnected a = some (up, joined, w')) :
    Kept json w' ∧ (joined = true → w'.session.client.Live) := by
  have hsession := h.current.connected
  have hfirst := h.unconfirmed hsession rfl
  rw [Uplink.ensureConnected] at hcall
  cases hconn : w.session.client.connected.1 with
  | true =>
    dsimp only at hcall
    rw [if_pos hconn] at hcall
    obtain ⟨rfl, hrest⟩ := Prod.mk.inj (Option.some.inj hcall)
    obtain ⟨rfl, rfl⟩ := Prod.mk.inj hrest
    refine ⟨hfirst, fun _ => ?_⟩
    by_cases hlive : w.session.client.Live
    · dsimp only
      rwa [PubSubClient.connected_of_live hlive]
    · rw [PubSubClient.connected_fst_of_not_live hlive] at hconn
      cases hconn
  | false =>
    dsimp only at hcall
    rw [if_neg (by rw [hconn]; exact Bool.false_ne_true)] at hcall
    obtain ⟨⟨accepted, c⟩, hconnect, hcall⟩ := Option.bind_eq_some_iff.mp hcall
    obtain ⟨rfl, hrest⟩ := Prod.mk.inj (Option.some.inj hcall)
    obtain ⟨rfl, rfl⟩ := Prod.mk.inj hrest
    have hdown : w.session.client.connected.2.up = false :=
      (PubSubClient.connected_down (h.current.down hconn)).2.1
    have hqos : ∀ w ∈ (none : Option WillArgs), w.willQos.toNat < 4 :=
      fun w hw => absurd hw (Option.not_mem_none w)
    have hfit := tokenConnect_fits w.session.client.connected.2.keepAlive
    obtain ⟨accepted', c', hspec, -, hopen, hclosed⟩ := PubSubClient.connect_spec
      (by decide : 15 ≤ maxMessageSize.toNat) a defaultClientId (some token) none hqos true hdown
    obtain ⟨rfl, rfl⟩ := Prod.mk.inj (Option.some.inj (hspec.symm.trans hconnect))
    have hwritten := PubSubClient.connect_written (by decide) a defaultClientId (some token) none hqos
      true hdown hfit hspec
    cases hdialed : a.dialed with
    | true =>
      have hwire := Session.connect_onWire (by decide) hdown hroom hqos hfit hdialed hspec
      rw [if_pos rfl]
      refine ⟨⟨?_, ?_⟩, fun hjoined => (hopen hjoined).live⟩
      · intro s hs
        rcases List.mem_append.mp hs with hpast | hnow
        · exact hfirst.recorded s hpast
        · obtain rfl := List.mem_singleton.mp hnow
          exact Or.inr ⟨_, [], hwire⟩
      · have hall := hfirst.postings
        simp only [sessions, List.flatMap_append, List.flatMap_singleton, List.append_nil] at hall ⊢
        exact hall
    | false =>
      rw [hdialed, if_neg Bool.false_ne_true] at hwritten
      obtain ⟨rfl, hwritten, hid⟩ := hwritten
      have hkept := hfirst.unconfirmed (hsession.silent hwritten hid
        (fun hup => absurd ((hclosed rfl).symm.trans hup) Bool.false_ne_true)
        fun _ hup => absurd ((hclosed rfl).symm.trans hup) Bool.false_ne_true) rfl
      rw [if_neg Bool.false_ne_true]
      exact ⟨hkept, fun hjoined => by cases hjoined⟩

theorem Kept.publishCalls {json : Publish → List Byte} {w w' : Uplink tw} (h : Kept json w)
    (hlive : w.session.client.Live) {i : TurnAnswers}
    (hsend : ∀ k, maxMessageSize.toNat ≤ (i.send k).room) (hloop : maxMessageSize.toNat ≤ i.loopRoom)
    {calls : List Publish} (hcall : w.publishCalls json i calls = some w')
    (hsilent : w'.delivered = []) : Kept json w' := by
  obtain ⟨session, hall, hcall⟩ := Option.bind_eq_some_iff.mp hcall
  obtain ⟨⟨r, messages, c⟩, hturn, hcall⟩ := Option.bind_eq_some_iff.mp hcall
  obtain rfl := Option.some.inj hcall
  obtain ⟨c₁, hspec⟩ := sendAll_spec json hsend 0 calls w.session
  rw [hall, if_pos hlive] at hspec
  obtain rfl := Option.some.inj hspec
  have hnone : messages = [] := by
    simp only [delivered, sessions, List.flatMap_append, List.flatMap_singleton,
      List.append_eq_nil_iff] at hsilent
    exact hsilent.2.2
  subst hnone
  rcases h.current with ⟨-, -, hdown⟩ | ⟨keepAlive, qs, hqs⟩
  · exact absurd (hdown.symm.trans hlive.1) Bool.false_ne_true
  -- the calls and the loop, as a run of the session
  have hrun := sendAll_run json i.send 0 calls w.session
  rw [hall] at hrun
  have hevents : run Session.step w.session
      (sendAllEvents maxMessageSize json i.send 0 calls ++ [.loop i.loopAt i.loopRoom]) =
      some ⟨c, w.session.confirmed ++ ((standing i.send 0 calls).filter
        (fits maxMessageSize json)).map (posting json), w.session.delivered ++ []⟩ := by
    rw [run_append, ← hrun, Option.bind_some, run_cons, Session.step, hturn]
    rfl
  have hwhole : ∀ e ∈ sendAllEvents maxMessageSize json i.send 0 calls ++
      [.loop i.loopAt i.loopRoom], e.Whole maxMessageSize.toNat := by
    intro e he
    rcases List.mem_append.mp he with he | he
    · exact sendAllEvents_whole hsend 0 calls e he
    · obtain rfl := List.mem_singleton.mp he
      exact hloop
  obtain ⟨qs', hqs'⟩ := Session.run_onWire hevents hwhole ⟨qs, hqs⟩
  exact h.session (Or.inr ⟨keepAlive, qs', hqs'⟩) (standing i.send 0 calls) rfl

theorem Kept.step {json : Publish → List Byte} {w w' : Uplink tw} (h : Kept json w)
    {e : UplinkEvent tw} (hwhole : e.Whole) (hstep : w.step json e = some w')
    (hsilent : w'.delivered = []) : Kept json w' := by
  cases e with
  | arrive f beyond =>
    obtain ⟨gw, -, rfl⟩ := Option.map_eq_some_iff.mp hstep
    exact ⟨h.recorded, h.postings⟩
  | bytes bs =>
    obtain rfl := Option.some.inj hstep
    have hs : Recorded { w.session with client := w.session.client.arrive bs } := by
      rw [PubSubClient.arrive]
      split
      · exact h.current.silent rfl rfl id id
      · exact h.current
    exact h.unconfirmed hs rfl
  | lost =>
    obtain rfl := Option.some.inj hstep
    exact h.unconfirmed (h.current.silent (c := { w.session.client with up := false }) rfl rfl
      (fun hup => by cases hup) fun _ hup => by cases hup) rfl
  | turn i =>
    obtain ⟨hconnect, hsend, hloop⟩ := hwhole
    obtain ⟨⟨up, joined, w₁⟩, hensure, hstep⟩ := Option.bind_eq_some_iff.mp hstep
    obtain ⟨hkept, hlive⟩ := h.ensureConnected hconnect hensure
    obtain ⟨⟨s, r, calls⟩, -, hstep⟩ := Option.bind_eq_some_iff.mp hstep
    cases joined with
    | false =>
      obtain rfl := Option.some.inj hstep
      exact ⟨hkept.recorded, hkept.postings⟩
    | true =>
      exact Kept.publishCalls (w := { w₁ with
        gw := { w₁.gw with state := s, radio := r, calls := w₁.gw.calls ++ calls } })
        ⟨hkept.recorded, hkept.postings⟩ (hlive rfl) hsend hloop hstep hsilent

theorem run_kept {json : Publish → List Byte} {w w' : Uplink tw} {es : List (UplinkEvent tw)}
    (hkept : Kept json w) (hwhole : ∀ e ∈ es, e.Whole) (hrun : run (step json) w es = some w')
    (hsilent : w'.delivered = []) : Kept json w' := by
  refine run_invariant (step json) UplinkEvent.Whole
    (fun w => w.delivered = [] → Kept json w) (fun w e w₁ he hinv hstep h => ?_) (fun _ => hkept)
    hwhole hrun hsilent
  have hbefore : w.delivered = [] := by
    have hgrown := (step_adds hstep).1
    rw [h] at hgrown
    exact List.prefix_nil.mp hgrown
  exact (hinv hbefore).step he hstep h

private theorem mapM_filterMap {α β γ : Type} {f : α → Option (List β)} {g : β → Option γ}
    {h : α → List γ} {l : List α} (hl : ∀ a ∈ l, ∃ bs, f a = some bs ∧ bs.filterMap g = h a) :
    ((l.mapM f).map fun bss => bss.flatten.filterMap g) = some (l.flatMap h) := by
  induction l with
  | nil => rfl
  | cons a l ih =>
    obtain ⟨⟨bs, hf, hg⟩, hrest⟩ := List.forall_mem_cons.mp hl
    obtain ⟨bss, hmap, hflat⟩ := Option.map_eq_some_iff.mp (ih hrest)
    rw [List.mapM_cons, hf]
    simp only [Option.bind_eq_bind, Option.bind_some, hmap, Option.pure_def, Option.map_some,
      List.flatten_cons, List.filterMap_append, hg, hflat, List.flatMap_cons]

theorem Recorded.reads {s : Session maxMessageSize} (h : Recorded s) :
    ∃ qs, ControlPacket.code.readAll s.client.written = some qs ∧
      qs.filterMap ControlPacket.posting = s.confirmed := by
  rcases h with ⟨hwritten, hconfirmed, -⟩ | ⟨keepAlive, qs, hqs⟩
  · rw [hwritten, hconfirmed]
    exact ⟨[], rfl, rfl⟩
  · exact ⟨_, hqs.readAll (tokenConnect_fits keepAlive), hqs.postings⟩

/-- What the streams hold. -/
theorem Kept.published {json : Publish → List Byte} {w : Uplink tw} (h : Kept json w) :
    w.published = some ((w.stood.filter (fits maxMessageSize json)).map (posting json)) := by
  rw [← h.postings]
  exact mapM_filterMap fun s hs => (h.recorded s hs).reads

theorem boot_kept (json : Publish → List Byte) (r : EspRadio tw)
    (buffer : Vector Byte maxMessageSize.toNat) : Kept json (boot r buffer) where
  recorded := by
    intro s hs
    obtain rfl := List.mem_singleton.mp hs
    exact Or.inl ⟨rfl, rfl, rfl⟩
  postings := rfl

/-- A gateway that has been told nothing. -/
structure Orderly (w : Uplink tw) : Prop where
  session : w.session.Orderly
  silent : w.delivered = []
  queue : ∃ q : List (SensorFrame tw), w.gw.radio.Ready (q.map image) ∧
    ∀ f ∈ q, (0 : Byte) ∉ f.senderName

theorem Orderly.ensureConnected {w : Uplink tw} (h : w.Orderly) {a : ConnectAnswers}
    (ha : ∃ ps, a.incoming = streamOf ps ∧ ∀ p ∈ ps, p.NoPublication) :
    ∃ up joined w', w.ensureConnected a = some (up, joined, w') ∧ w'.session.Orderly := by
  have hsession := h.session.keeps w.session.client.keepsInput_connected
  rw [Uplink.ensureConnected]
  dsimp only
  split
  · exact ⟨_, _, _, rfl, hsession⟩
  rename_i hconn
  have hdown : w.session.client.connected.2.up = false := by
    rw [Bool.not_eq_true] at hconn
    refine (PubSubClient.connected_down ?_).2.1
    rw [← Bool.not_eq_true]
    intro hup
    rw [PubSubClient.connected_of_live ⟨hup, h.session.settled hup⟩] at hconn
    cases hconn
  have hqos : ∀ w ∈ (none : Option WillArgs), w.willQos.toNat < 4 :=
    fun w hw => absurd hw (Option.not_mem_none w)
  obtain ⟨accepted, c, hconnect, -, hopen, hclosed⟩ := PubSubClient.connect_spec
    (by decide : 15 ≤ maxMessageSize.toNat) a defaultClientId (some token) none hqos true hdown
  have hfresh : ∀ s : Session maxMessageSize, Session.Orderly { s with client := c } := by
    intro s
    cases accepted with
    | false =>
      exact ⟨fun hup => absurd ((hclosed rfl).symm.trans hup) Bool.false_ne_true,
        fun hup => absurd ((hclosed rfl).symm.trans hup) Bool.false_ne_true⟩
    | true =>
      refine ⟨fun _ => (hopen rfl).live.2, fun _ => ?_⟩
      obtain ⟨ps, hincoming, hps⟩ := ha
      cases ps with
      | nil => exact absurd hincoming (PubSubClient.connect_answered (by decide) hqos hdown hconnect)
      | cons p ps =>
        exact ⟨ps, PubSubClient.connect_unread (by decide) hqos hdown hconnect p hincoming,
          fun p' hp' => hps p' (List.mem_cons_of_mem _ hp')⟩
  have hcall : connectToHost a w.session.client.connected.2 = some (accepted, c) := hconnect
  rw [hcall]
  refine ⟨false, accepted, _, rfl, ?_⟩
  split
  · exact hfresh ⟨c, [], []⟩
  · exact hfresh w.session

theorem Orderly.turn {w : Uplink tw} (h : w.Orderly) (json : Publish → List Byte) {i : TurnAnswers}
    (hi : ∃ ps, i.connect.incoming = streamOf ps ∧ ∀ p ∈ ps, p.NoPublication) :
    ∃ w', w.turn json i = some w' ∧ w'.Orderly := by
  obtain ⟨up, joined, w₁, hensure, hsession⟩ := h.ensureConnected hi
  obtain ⟨hgw, -, hdelivered, -⟩ := ensureConnected_frame hensure
  obtain ⟨q, hready, hnames⟩ := h.queue
  -- the radio's part of the turn
  obtain ⟨gw, hstep, -, hready', -⟩ := gwStep_turn hready hnames
    { i.link with connected := up, connect := joined }
  have hnames' : ∀ f ∈ (if up || joined then q.tail else q), (0 : Byte) ∉ f.senderName := by
    intro f hf
    split at hf
    · exact hnames f (List.mem_of_mem_tail hf)
    · exact hnames f hf
  rw [gwStep, ← hgw] at hstep
  cases hloop : gwLoop { i.link with connected := up, connect := joined } w₁.gw.state
      w₁.gw.radio with
  | error fault =>
    rw [hloop] at hstep
    cases hstep
  | ok result =>
    obtain ⟨s, r, calls⟩ := result
    rw [hloop] at hstep
    obtain rfl := Except.ok.inj hstep
    have hturn : w.turn json i = (if joined = true then
        publishCalls json i calls { w₁ with
          gw := { w₁.gw with state := s, radio := r, calls := w₁.gw.calls ++ calls } }
        else some { w₁ with
          gw := { w₁.gw with state := s, radio := r, calls := w₁.gw.calls ++ calls } }) := by
      rw [Uplink.turn, hensure]
      simp only [Option.bind_eq_bind, Option.bind_some, hloop, Except.toOption]
    rw [hturn]
    split
    · obtain ⟨s₁, ok, c, hall, hclient, hsame, horderly⟩ := sendAll_loop_exists
        (by decide : 7 ≤ maxMessageSize.toNat) json i.send calls hsession i.loopAt i.loopRoom
      rw [publishCalls]
      simp only [hall, Option.bind_eq_bind, Option.bind_some, hclient, List.isEmpty_nil, if_true]
      refine ⟨_, rfl, ⟨horderly.settled, horderly.unread⟩, ?_, _, hready', hnames'⟩
      have hbefore := hdelivered.trans h.silent
      simp only [delivered, sessions, List.flatMap_append, List.flatMap_singleton, hsame,
        List.append_nil] at hbefore ⊢
      exact hbefore
    · exact ⟨_, rfl, hsession, hdelivered.trans h.silent, _, hready', hnames'⟩

theorem Orderly.step {w : Uplink tw} (h : w.Orderly) (json : Publish → List Byte)
    {e : UplinkEvent tw} (he : e.Orderly) (hname : e.Named) :
    ∃ w', w.step json e = some w' ∧ w'.Orderly := by
  cases e with
  | arrive f beyond =>
    obtain ⟨q, hready, hnames⟩ := h.queue
    obtain ⟨accepted, r, hrecv, hready', -⟩ := onDataRecv_image hready f beyond
    have hstep : gwStep w.gw (.arrive f beyond) = .ok { w.gw with
        radio := r, lost := if accepted then w.gw.lost else w.gw.lost + 1 } := by
      rw [gwStep, hrecv]
      rfl
    refine ⟨{ w with gw := { w.gw with
        radio := r, lost := if accepted then w.gw.lost else w.gw.lost + 1 } }, ?_, h.session,
      h.silent, _, hready', fun g hg => ?_⟩
    · rw [Uplink.step, hstep]
      rfl
    · split at hg
      · rcases List.mem_append.mp hg with hg | hg
        · exact hnames g hg
        · obtain rfl := List.mem_singleton.mp hg
          exact hname
      · exact hnames g hg
  | bytes bs =>
    obtain ⟨p, rfl, hp⟩ := he
    have hfit : ∀ e ∈ [SessionEvent.arrive (p.bytes.map some)], e.Fit maxMessageSize.toNat := by
      intro e he
      obtain rfl := List.mem_singleton.mp he
      trivial
    have hbring : Session.Bring [] [SessionEvent.arrive (p.bytes.map some)] [p] [] := by
      refine ⟨[p], [], [], ?_, ⟨rfl, rfl⟩, rfl⟩
      change _ = streamOf [p] ++ []
      rw [streamOf, List.flatMap_singleton, List.append_nil]
      rfl
    obtain ⟨s, hrun, horderly, hsame⟩ := h.session.run (by decide : 7 ≤ maxMessageSize.toNat) hfit
      hbring (List.forall_mem_singleton.mpr hp)
    obtain rfl := Option.some.inj hrun
    refine ⟨_, rfl, horderly, ?_, h.queue⟩
    have hsilent := h.silent
    simp only [delivered, sessions, List.flatMap_append, List.flatMap_singleton] at hsilent ⊢
    exact hsilent
  | lost =>
    refine ⟨_, rfl, h.session.keeps (Or.inr rfl), ?_, h.queue⟩
    have hsilent := h.silent
    simp only [delivered, sessions, List.flatMap_append, List.flatMap_singleton] at hsilent ⊢
    exact hsilent
  | turn i => exact h.turn json he

/-- While the broker publishes nothing, no run of the gateway leaves its memory. -/
theorem run_orderly {w : Uplink tw} (h : w.Orderly) (json : Publish → List Byte)
    {es : List (UplinkEvent tw)} (hes : ∀ e ∈ es, e.Orderly) (hnames : ∀ e ∈ es, e.Named) :
    ∃ w', run (Uplink.step json) w es = some w' ∧ w'.Orderly := by
  induction es generalizing w with
  | nil => exact ⟨w, rfl, h⟩
  | cons e es ih =>
    obtain ⟨he, hes⟩ := List.forall_mem_cons.mp hes
    obtain ⟨hname, hnames⟩ := List.forall_mem_cons.mp hnames
    obtain ⟨w₁, hstep, h₁⟩ := h.step json he hname
    obtain ⟨w', hrun, h'⟩ := ih h₁ hes hnames
    refine ⟨w', ?_, h'⟩
    rw [run_cons, hstep]
    exact hrun

theorem boot_orderly {r : EspRadio tw} (hr : r.Ready []) (buffer : Vector Byte maxMessageSize.toNat) :
    (boot r buffer).Orderly where
  session := ⟨fun hup => (by cases hup), fun hup => by cases hup⟩
  silent := rfl
  queue := ⟨[], hr, fun _ hf => by cases hf⟩

/-- The packets that arrive in a run with such names. -/
private theorem arrival_named {es : List (UplinkEvent tw)} (h : ∀ e ∈ es, e.Named) :
    ∀ f ∈ es.filterMap UplinkEvent.arrival, (0 : Byte) ∉ f.senderName := by
  intro f hf
  obtain ⟨e, he, harrival⟩ := List.mem_filterMap.mp hf
  cases e with
  | arrive g beyond =>
    obtain rfl := Option.some.inj harrival
    exact h _ he
  | _ => cases harrival

/-- The radio's side of a run in which the queue never fills. -/
private theorem gwRun_none_lost {es : List (GwEvent tw)} {w w' : GwRun (EspRadio tw)}
    {q : List (SensorFrame tw)} (hr : w.radio.Ready (q.map image))
    (hq : ∀ f ∈ q, (0 : Byte) ∉ f.senderName)
    (hes : ∀ f ∈ es.filterMap GwEvent.arrival, (0 : Byte) ∉ f.senderName)
    (hroom : q.length + (es.filterMap GwEvent.arrival).length ≤ espNowQLen)
    (hrun : gwRun es w = .ok w') : w'.lost = w.lost := by
  induction es generalizing w q with
  | nil =>
    obtain rfl := Except.ok.inj hrun
    rfl
  | cons e es ih =>
    cases e with
    | arrive f beyond =>
      obtain ⟨hf, hrest⟩ := List.forall_mem_cons.mp hes
      have hlen : ((GwEvent.arrive f beyond :: es).filterMap GwEvent.arrival).length =
          (es.filterMap GwEvent.arrival).length + 1 := rfl
      rw [hlen] at hroom
      obtain ⟨accepted, r, hrecv, hr', hiff⟩ := onDataRecv_image hr f beyond
      obtain rfl := hiff.mpr (by omega)
      have hstep : gwStep w (.arrive f beyond) = .ok { w with radio := r } := by
        rw [gwStep, hrecv]
        rfl
      rw [gwRun, List.foldlM_cons, hstep] at hrun
      refine ih (w := { w with radio := r }) (q := q ++ [f]) hr' (fun g hg => ?_) hrest ?_ hrun
      · rcases List.mem_append.mp hg with hg | hg
        · exact hq g hg
        · obtain rfl := List.mem_singleton.mp hg
          exact hf
      · rw [List.length_append, List.length_singleton]
        omega
    | turn i =>
      obtain ⟨w₁, hstep, hlost, hr', -⟩ := gwStep_turn hr hq i
      have hlen : (if i.connected || i.connect then q.tail else q).length ≤ q.length := by
        split
        · rw [List.length_tail]
          exact Nat.sub_le _ _
        · exact Nat.le_refl _
      rw [gwRun, List.foldlM_cons, hstep] at hrun
      rw [← hlost]
      refine ih hr' (fun g hg => ?_) hes ((Nat.add_le_add_right hlen _).trans hroom) hrun
      split at hg
      · exact hq g (List.mem_of_mem_tail hg)
      · exact hq g hg

/-- The queue loses nothing as long as all that arrives has room in it. -/
theorem none_lost {w : Uplink tw} {json : Publish → List Byte} {r : EspRadio tw} (hr : r.Ready [])
    {buffer : Vector Byte maxMessageSize.toNat} {es : List (UplinkEvent tw)}
    (hnamed : ∀ e ∈ es, e.Named) (hrun : run (step json) (boot r buffer) es = some w)
    (hroom : (es.filterMap UplinkEvent.arrival).length ≤ espNowQLen) : w.gw.lost = 0 := by
  obtain ⟨-, -, es', hgw, harrivals⟩ := run_adds hrun
  exact gwRun_none_lost (w := ⟨⟨0, 0⟩, r, [], 0⟩) (q := []) hr (fun f hf => by cases hf)
    (harrivals ▸ arrival_named hnamed) (by rwa [harrivals, List.length_nil, Nat.zero_add]) hgw

/-- A broker that agrees at once, in a turn without a status attribute. -/
def agreeing : TurnAnswers where
  link := quietTurn
  connect := ⟨true, [some 0x20, some 2, some 0, some 0], 2000, 1000, 1005⟩
  send _ := ⟨true, 1010, 2000⟩
  loopAt := 1020
  loopRoom := 2000
  called := PubSubClient.idle

/-- Two sensors, and a connection that is lost between their packets. -/
def twoConnections : List (UplinkEvent 4) :=
  [.arrive (balcony3 20) fun _ => 0, .turn agreeing, .lost, .arrive balcony2 fun _ => 0,
    .turn agreeing]

private theorem agreeing_orderly :
    ∃ ps, agreeing.connect.incoming = streamOf ps ∧ ∀ p ∈ ps, p.NoPublication := by
  refine ⟨[PubSubClient.connack], rfl, fun p hp => ?_⟩
  obtain rfl := List.mem_singleton.mp hp
  change PubSubClient.connack.header &&& 0xF0 ≠ mqttPublish
  decide

private theorem twoConnections_allowed : (∀ e ∈ twoConnections, e.Whole) ∧
    (∀ e ∈ twoConnections, e.Steady) ∧ (∀ e ∈ twoConnections, e.Orderly) ∧
    ∀ e ∈ twoConnections, e.Named := by
  have h₂ : (0 : Byte) ∉ balcony2.senderName := by decide
  have h₃ : (0 : Byte) ∉ (balcony3 20).senderName := by decide
  refine ⟨?_, ?_, ?_, ?_⟩
  · simp [twoConnections, UplinkEvent.Whole, agreeing, maxMessageSize]
  · simp [twoConnections, UplinkEvent.Steady, agreeing]
  · simp [twoConnections, UplinkEvent.Orderly, agreeing_orderly]
  · intro e he
    simp only [twoConnections, List.mem_cons, List.not_mem_nil, or_false] at he
    rcases he with rfl | rfl | rfl | rfl | rfl
    · exact h₃
    · trivial
    · trivial
    · exact h₂
    · trivial

/-- On the streams of all connections of a run stand exactly the calls that fit and found their
connection standing, once and in their order; in a run in which no connection breaks between two
calls, these are all the calls. -/
theorem published_calls (json : Publish → List Byte) {r : EspRadio tw}
    {buffer : Vector Byte maxMessageSize.toNat} {es : List (UplinkEvent tw)}
    (hwhole : ∀ e ∈ es, e.Whole) {w : Uplink tw} (hrun : run (step json) (boot r buffer) es = some w)
    (hsilent : w.delivered = []) :
    w.published = some ((w.stood.filter (fits maxMessageSize json)).map (posting json)) ∧
      ((∀ e ∈ es, e.Steady) → w.stood = w.gw.calls) := by
  have hkept := run_kept (boot_kept json r buffer) hwhole hrun hsilent
  exact ⟨hkept.published, fun hsteady => (run_adds hrun).2.1 hsteady rfl⟩

theorem published_calls_two : ∃ w : Uplink 4,
    run (step Publish.key) (boot (.started 4) (Vector.replicate _ 0)) twoConnections = some w ∧
      w.published = some ((w.stood.filter (fits maxMessageSize Publish.key)).map
        (posting Publish.key)) := by
  obtain ⟨hwhole, -, horderly, hnamed⟩ := twoConnections_allowed
  obtain ⟨w, hrun, hw⟩ := run_orderly (boot_orderly started_ready (Vector.replicate _ 0)) Publish.key
    horderly hnamed
  exact ⟨w, hrun, (published_calls _ hwhole hrun hw.silent).1⟩

/-- From the radio to the streams. While the broker publishes nothing, every run goes through, and on
its streams stand the calls that fit; as long as the queue loses no packet, what has arrived has
caused its calls packet by packet in the order of arrival, each once, or is still queued. -/
theorem arrivals_published (json : Publish → List Byte) {r : EspRadio tw} (hr : r.Ready [])
    (buffer : Vector Byte maxMessageSize.toNat) {es : List (UplinkEvent tw)}
    (hwhole : ∀ e ∈ es, e.Whole) (hsteady : ∀ e ∈ es, e.Steady) (horderly : ∀ e ∈ es, e.Orderly)
    (hnamed : ∀ e ∈ es, e.Named) :
    ∃ w, run (step json) (boot r buffer) es = some w ∧
      w.published = some ((w.gw.calls.filter (fits maxMessageSize json)).map (posting json)) ∧
      (w.gw.lost = 0 → ∃ taken pending, es.filterMap UplinkEvent.arrival = taken ++ pending ∧
        w.gw.radio.Ready (pending.map image) ∧
        (w.gw.calls.filter fun c => sensorKey c.key) = taken.flatMap sensorCalls) := by
  obtain ⟨w, hrun, hw⟩ := run_orderly (boot_orderly hr buffer) json horderly hnamed
  have hkept := run_kept (boot_kept json r buffer) hwhole hrun hw.silent
  obtain ⟨-, hstood, es', hgw, harrivals⟩ := run_adds hrun
  refine ⟨w, hrun, hstood hsteady rfl ▸ hkept.published, fun hlost => ?_⟩
  obtain ⟨w', taken, pending, hgw', hready, -, horder, hsensor, -⟩ :=
    gwRun_progress es' (w := ⟨⟨0, 0⟩, r, [], 0⟩) (q := []) hr (fun f hf => by cases hf)
      (harrivals ▸ arrival_named hnamed)
  obtain rfl := Except.ok.inj (hgw'.symm.trans hgw)
  exact ⟨taken, pending, harrivals ▸ (horder hlost).symm, hready, hsensor⟩

theorem arrivals_published_two : ∃ (w : Uplink 4) (taken pending : List (SensorFrame 4)),
    run (step Publish.key) (boot (.started 4) (Vector.replicate _ 0)) twoConnections = some w ∧
      w.published = some ((w.gw.calls.filter (fits maxMessageSize Publish.key)).map
        (posting Publish.key)) ∧
      [balcony3 20, balcony2] = taken ++ pending ∧ w.gw.radio.Ready (pending.map image) ∧
      (w.gw.calls.filter fun c => sensorKey c.key) = taken.flatMap sensorCalls := by
  obtain ⟨hwhole, hsteady, horderly, hnamed⟩ := twoConnections_allowed
  obtain ⟨w, hrun, hpublished, horder⟩ := arrivals_published Publish.key started_ready
    (Vector.replicate _ 0) hwhole hsteady horderly hnamed
  obtain ⟨taken, pending, hall⟩ := horder (none_lost started_ready hnamed hrun (by decide))
  exact ⟨w, taken, pending, hrun, hpublished, hall⟩

end Uplink
end EspNowGateway.System
