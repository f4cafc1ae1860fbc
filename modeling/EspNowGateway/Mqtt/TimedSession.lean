import EspNowGateway.Mqtt.KeepAlive
import EspNowGateway.Mqtt.SessionStream

/-! Sessions in time. Each call reads a clock that wraps; the watchdog beside the client does not. -/
namespace EspNowGateway.Mqtt
open ByteLayout CArray PartialRun ExpiringRegister

/-- A session, the time, when `loop` was last called, when bytes last went out and when the ping
that is open was sent. -/
structure TimedSession (bufferSize : BitVec 16) where
  session : Session bufferSize
  now : Nat
  polled : Nat
  spoken : Nat
  asked : Nat

namespace TimedSession
variable {bufferSize : BitVec 16}

def step (s : TimedSession bufferSize) (e : Nat × SessionEvent) : Option (TimedSession bufferSize) :=
  (s.session.step e.2).map fun s' =>
    { session := s'
      now := e.1
      polled := if e.2.isLoop then e.1 else s.polled
      spoken :=
        if s.session.client.written.length < s'.client.written.length then e.1 else s.spoken
      asked :=
        if s.session.client.pingOutstanding = false ∧ s'.client.pingOutstanding = true then e.1
        else s.asked }

/-- Time goes on, `loop` is called often enough, the clock is read and writes are taken whole. -/
def Timely (delay : Nat) (s : TimedSession bufferSize) (e : Nat × SessionEvent) : Prop :=
  (s.now ≤ e.1 ∧ e.1 ≤ s.polled + delay) ∧ e.2.At e.1 ∧ e.2.Whole bufferSize.toNat

end TimedSession

namespace PubSubClient
variable {bufferSize : BitVec 16}

/-- The client's stamps are those of the watchdog, modulo the clock. -/
structure Tracks (c : PubSubClient bufferSize) (w : Watchdog.State) : Prop where
  lastIn : c.lastInActivity = clock 32 w.lastIn
  lastOut : c.lastOutActivity = clock 32 w.lastOut
  waiting : c.pingOutstanding = w.waiting

/-- The watchdog sees a call that does not read as traffic in one direction. -/
theorem Tracks.spoke {c c' : PubSubClient bufferSize} {w : Watchdog.State} (h : Tracks c w) {t : Nat}
    (hspoke : Spoke (clock 32 t) c c') (limit : Nat) :
    ∃ said w', Watchdog.step limit w (t, .traffic false said false) = some w' ∧
      Tracks c' w' ∧ w'.now = t ∧ w'.polled = w.polled ∧ w'.asked = w.asked ∧
      w'.waiting = w.waiting ∧
      (w'.lastOut = w.lastOut ∨ w'.lastOut = t ∧ c.written.length < c'.written.length) := by
  have hping : c'.pingOutstanding = (w.waiting && !false) := by
    rw [hspoke.ping, h.waiting, Bool.not_false, Bool.and_true]
  have hin := hspoke.lastIn.trans h.lastIn
  rcases hspoke.lastOut with hout | ⟨hout, hgrows⟩
  · exact ⟨false, _, rfl, ⟨hin, hout.trans h.lastOut, hping⟩, rfl, rfl, rfl,
      Bool.and_true _, Or.inl rfl⟩
  · exact ⟨true, _, rfl, ⟨hin, hout, hping⟩, rfl, rfl, rfl, Bool.and_true _, Or.inr ⟨rfl, hgrows⟩⟩

/-- The watchdog sees a call that sends or receives as traffic. -/
theorem Tracks.touched {c c' : PubSubClient bufferSize} {w : Watchdog.State} (h : Tracks c w) {t : Nat}
    (htouched : Touched (clock 32 t) c c') (limit : Nat) :
    ∃ heard said answered w', Watchdog.step limit w (t, .traffic heard said answered) = some w' ∧
      Tracks c' w' ∧ w'.now = t ∧ w'.polled = w.polled ∧ w'.asked = w.asked ∧
      (w'.lastOut = w.lastOut ∨ w'.lastOut = t ∧ c.written.length < c'.written.length) := by
  have hping := htouched.ping
  rw [h.waiting] at hping
  have hanswered : c'.pingOutstanding = (w.waiting && !(w.waiting && !c'.pingOutstanding)) := by
    rcases hping with hping | hping
    · rw [hping]
      cases w.waiting <;> rfl
    · rw [hping]
      cases w.waiting <;> rfl
  rcases htouched.lastIn with hin | hin
  · rcases htouched.lastOut with hout | ⟨hout, hgrows⟩
    · exact ⟨false, false, _, _, rfl, ⟨hin.trans h.lastIn, hout.trans h.lastOut, hanswered⟩, rfl, rfl,
        rfl, Or.inl rfl⟩
    · exact ⟨false, true, _, _, rfl, ⟨hin.trans h.lastIn, hout, hanswered⟩, rfl, rfl, rfl,
        Or.inr ⟨rfl, hgrows⟩⟩
  · rcases htouched.lastOut with hout | ⟨hout, hgrows⟩
    · exact ⟨true, false, _, _, rfl, ⟨hin, hout.trans h.lastOut, hanswered⟩, rfl, rfl, rfl, Or.inl rfl⟩
    · exact ⟨true, true, _, _, rfl, ⟨hin, hout, hanswered⟩, rfl, rfl, rfl, Or.inr ⟨rfl, hgrows⟩⟩

/-- The client is due when the watchdog is, though its clock wraps. -/
theorem Tracks.due_iff {c : PubSubClient bufferSize} {w : Watchdog.State} (h : Tracks c w) {delay t : Nat}
    (hsound : Watchdog.Sound c.limit delay w) (hclock : c.limit + delay < 2^32) (hle : w.now ≤ t)
    (hsoon : t ≤ w.polled + delay) :
    (c.keepAlive.toNat * 1000 < (clock 32 t - c.lastInActivity).toNat ∨
      c.keepAlive.toNat * 1000 < (clock 32 t - c.lastOutActivity).toNat) ↔
      Watchdog.Due c.limit t w := by
  have hin := hsound.heard
  have hout := hsound.said
  have hfreshIn := hsound.freshIn
  have hfreshOut := hsound.freshOut
  rw [h.lastIn, h.lastOut, clock_sub_toNat (by omega) (by omega),
    clock_sub_toNat (by omega) (by omega)]
  rfl

/-- The watchdog sees a call of `loop` as a look and then as traffic. -/
theorem Tracks.loop {c c' : PubSubClient bufferSize} {w : Watchdog.State} (h : Tracks c w)
    {delay t : Nat} (hsound : Watchdog.Sound c.limit delay w) (hclock : c.limit + delay < 2^32)
    (hle : w.now ≤ t) (hsoon : t ≤ w.polled + delay) (hlive : c.Live) {room : Nat}
    (hroom : bufferSize.toNat ≤ room) {r : Bool} {ms : List Message}
    (hloop : c.loop (clock 32 t) room = some (r, ms, c')) :
    (Watchdog.step c.limit w (t, .poll) = none ∧ c'.up = false) ∨
      ∃ c₁ w₁, Watchdog.step c.limit w (t, .poll) = some w₁ ∧ Tracks c₁ w₁ ∧
        Touched (clock 32 t) c₁ c' ∧ c₁.keepAlive = c.keepAlive ∧
        c.written.length ≤ c₁.written.length ∧
        (w₁.lastOut = w.lastOut ∨ w₁.lastOut = t ∧ c.written.length < c₁.written.length) ∧
        (c₁.pingOutstanding = c.pingOutstanding ∧ w₁.asked = w.asked ∨
          c.pingOutstanding = false ∧ w₁.asked = t) ∧
        (c.unread = [] → c' = c₁ ∧ c₁.unread = []) := by
  have hdue := h.due_iff hsound hclock hle hsoon
  simp only [PubSubClient.loop, connected_of_live hlive, if_true] at hloop
  obtain ⟨⟨alive, c₁⟩, hcheck, hrest⟩ := Option.bind_eq_some_iff.mp hloop
  rw [checkKeepAlive] at hcheck
  rw [Watchdog.step]
  split at hcheck
  · rename_i hexpired
    rw [if_pos (hdue.mp hexpired)]
    split at hcheck
    · rename_i hping
      obtain ⟨rfl, rfl⟩ := Prod.mk.inj (Option.some.inj hcheck)
      obtain ⟨-, hmk⟩ := Prod.mk.inj (Option.some.inj hrest)
      obtain ⟨-, rfl⟩ := Prod.mk.inj hmk
      exact Or.inl ⟨if_pos (h.waiting ▸ hping), rfl⟩
    · rename_i hping
      obtain ⟨c₂, hshort, hmk⟩ := Option.map_eq_some_iff.mp hcheck
      obtain ⟨-, buffer', rfl⟩ := writeShort_some hshort hroom
      obtain ⟨rfl, rfl⟩ := Prod.mk.inj hmk
      obtain ⟨htouched, hnothing⟩ := receive_touched hrest hlive.1 hroom
      have hgrows : c.written.length <
          (c.written ++ if c.up = true then [mqttPingreq, 0] else []).length := by
        rw [if_pos hlive.1, List.length_append]
        exact Nat.lt_add_of_pos_right Nat.zero_lt_two
      rw [if_neg (h.waiting ▸ hping)]
      exact Or.inr ⟨_, _, rfl, ⟨rfl, rfl, rfl⟩, htouched, rfl, hgrows.le, Or.inr ⟨rfl, hgrows⟩,
        Or.inr ⟨Bool.eq_false_iff.mpr hping, rfl⟩, fun hun => ⟨hnothing hun, hun⟩⟩
  · rename_i hexpired
    obtain ⟨rfl, rfl⟩ := Prod.mk.inj (Option.some.inj hcheck)
    obtain ⟨htouched, hnothing⟩ := receive_touched hrest hlive.1 hroom
    rw [if_neg fun hd => hexpired (hdue.mpr hd)]
    exact Or.inr ⟨_, _, rfl, ⟨h.lastIn, h.lastOut, h.waiting⟩, htouched, rfl, Nat.le_refl _,
      Or.inl rfl, Or.inl ⟨rfl, rfl⟩, fun hun => ⟨hnothing hun, hun⟩⟩

end PubSubClient

namespace TimedSession
variable {bufferSize : BitVec 16} {limit delay : Nat}

/-- The watchdog beside an open session. -/
structure Guarded (limit delay : Nat) (w : Watchdog.State) (s : TimedSession bufferSize) : Prop where
  sound : Watchdog.Sound limit delay w
  tracks : s.session.client.Tracks w
  limit : s.session.client.limit = limit
  live : s.session.client.Live
  now : w.now = s.now
  polled : w.polled = s.polled
  spoken : w.lastOut ≤ s.spoken
  asked : w.waiting = true → w.asked = s.asked

/-- What the watchdog sees of one event. -/
structure Seen (limit delay : Nat) (w : Watchdog.State) (es : List (Nat × Watchdog.Signal))
    (w' : Watchdog.State) : Prop where
  run : PartialRun.run (Watchdog.step limit) w es = some w'
  timely : Along (Watchdog.step limit) (Watchdog.Timely delay) w es

/-- A call that does not read. -/
private theorem Guarded.spoke {w : Watchdog.State} {s : TimedSession bufferSize}
    (h : Guarded limit delay w s) {e : Nat × SessionEvent} {s' : TimedSession bufferSize}
    (hstep : s.step e = some s') (htime : s.now ≤ e.1 ∧ e.1 ≤ s.polled + delay)
    (hloop : e.2.isLoop = false)
    (hspoke : PubSubClient.Spoke (clock 32 e.1) s.session.client s'.session.client)
    (hlive : s'.session.client.Live) :
    ∃ es w', Seen limit delay w es w' ∧ Guarded limit delay w' s' ∧ Watchdog.Quiet es := by
  obtain ⟨said, w', hsignal, htracks, hnow, hpolled, hasked, hwaiting, hout⟩ :=
    h.tracks.spoke hspoke limit
  obtain ⟨session', hcall, rfl⟩ := Option.map_eq_some_iff.mp hstep
  have htimely : Watchdog.Timely delay w (e.1, .traffic false said false) := by
    rw [Watchdog.Timely, h.now, h.polled]
    exact htime
  refine ⟨[(e.1, .traffic false said false)], w', ⟨?_, ?_⟩, ⟨h.sound.step htimely hsignal, htracks, ?_,
    hlive, hnow, ?_, ?_, fun hw => ?_⟩, ?_⟩
  · rw [run_cons, hsignal]
    rfl
  · refine ⟨htimely, ?_⟩
    rw [hsignal]
    trivial
  · rw [PubSubClient.limit, hspoke.keepAlive]
    exact h.limit
  · rw [hpolled, h.polled, hloop]
    rfl
  · dsimp only
    split
    · rcases hout with hsame | ⟨hnow', -⟩
      · have hbefore := h.sound.said
        have hle := htime.1
        rw [← h.now] at hle
        omega
      · exact hnow'.le
    · rename_i hgrows
      rcases hout with hsame | ⟨-, hgrows'⟩
      · exact hsame.trans_le h.spoken
      · exact absurd hgrows' hgrows
  · rw [hasked, h.asked (hwaiting ▸ hw)]
    dsimp only
    rw [if_neg fun hflip => ?_]
    exact absurd (hspoke.ping.symm.trans hflip.2) (by rw [hflip.1]; exact Bool.false_ne_true)
  · intro e' he'
    obtain rfl := List.mem_singleton.mp he'
    exact Or.inl ⟨said, rfl⟩

/-- The traffic that the watchdog sees after its look in `loop`. -/
private theorem loop_traffic {c₁ c' : PubSubClient bufferSize} {w₁ : Watchdog.State} {t : Nat}
    (htracks : c₁.Tracks w₁) (htouched : PubSubClient.Touched (clock 32 t) c₁ c') {quiet : Prop}
    (hquiet : quiet → c' = c₁) (limit : Nat) :
    ∃ heard said answered w', Watchdog.step limit w₁ (t, .traffic heard said answered) = some w' ∧
      c'.Tracks w' ∧ w'.now = t ∧ w'.polled = w₁.polled ∧ w'.asked = w₁.asked ∧
      (w'.lastOut = w₁.lastOut ∨ w'.lastOut = t ∧ c₁.written.length < c'.written.length) ∧
      (quiet → heard = false ∧ answered = false) := by
  by_cases hq : quiet
  · rw [hquiet hq]
    obtain ⟨said, w', hsignal, htracks', hnow, hpolled, hasked, -, hout⟩ :=
      htracks.spoke (PubSubClient.Sends.refl (clock 32 t) c₁).toSpoke limit
    exact ⟨false, said, false, w', hsignal, htracks', hnow, hpolled, hasked, hout,
      fun _ => ⟨rfl, rfl⟩⟩
  · obtain ⟨heard, said, answered, w', hsignal, htracks', hnow, hpolled, hasked, hout⟩ :=
      htracks.touched htouched limit
    exact ⟨heard, said, answered, w', hsignal, htracks', hnow, hpolled, hasked, hout,
      fun h => absurd h hq⟩

/-- A call of `loop`. -/
private theorem Guarded.loop (hclock : limit + delay < 2^32) {w : Watchdog.State}
    {s : TimedSession bufferSize} (h : Guarded limit delay w s) {t : Nat} {now : BitVec 32}
    {room : Nat} {s' : TimedSession bufferSize} (hstep : s.step (t, .loop now room) = some s')
    (htime : s.now ≤ t ∧ t ≤ s.polled + delay) (hnow : now = clock 32 t)
    (hroom : bufferSize.toNat ≤ room) (hlive : s'.session.client.Live) :
    ∃ es w', Seen limit delay w es w' ∧ Guarded limit delay w' s' ∧
      (s.session.client.unread = [] → Watchdog.Quiet es ∧ s'.session.client.unread = []) := by
  obtain ⟨session', hcall, rfl⟩ := Option.map_eq_some_iff.mp hstep
  obtain ⟨⟨r, ms, c'⟩, hloop, rfl⟩ := Option.map_eq_some_iff.mp hcall
  subst hnow
  have hlimit := h.limit
  subst hlimit
  have htime' := htime
  rw [← h.now, ← h.polled] at htime'
  rcases h.tracks.loop h.sound hclock htime'.1 htime'.2 h.live hroom hloop with ⟨-, hdown⟩ |
      ⟨c₁, w₁, hpoll, htracks₁, htouched, hkeep, hwritten, hout₁, hasked₁, hquiet⟩
  · exact absurd (hlive.1.symm.trans hdown) Bool.noConfusion
  obtain ⟨heard, said, answered, w', hsignal, htracks', hnow', hpolled', hasked', hout, hdeaf⟩ :=
    loop_traffic htracks₁ htouched (fun hun => (hquiet hun).1) s.session.client.limit
  obtain ⟨hpolled₁, hnow₁⟩ := Watchdog.poll_some hpoll
  have htimely : Watchdog.Timely delay w (t, .poll) := htime'
  have htimely₁ : Watchdog.Timely delay w₁ (t, .traffic heard said answered) := by
    rw [Watchdog.Timely, hnow₁, hpolled₁]
    exact ⟨Nat.le_refl _, Nat.le_add_right _ _⟩
  have hsound' := (h.sound.step htimely hpoll).step htimely₁ hsignal
  refine ⟨[(t, .poll), (t, .traffic heard said answered)], w', ⟨?_, htimely, ?_⟩, ⟨hsound', htracks', ?_,
    hlive, hnow', hpolled'.trans hpolled₁, ?_, fun hw => ?_⟩, fun hun => ⟨?_, ?_⟩⟩
  · rw [run_cons, hpoll, Option.bind_some, run_cons, hsignal]
    rfl
  · rw [hpoll]
    refine ⟨htimely₁, ?_⟩
    rw [hsignal]
    trivial
  · rw [PubSubClient.limit, htouched.keepAlive, hkeep]
    rfl
  · dsimp only
    split
    · exact hsound'.said.trans hnow'.le
    · rename_i hgrows
      have hmono := htouched.written
      have hlast := h.spoken
      rcases hout with hout | ⟨-, hlt⟩
      · rcases hout₁ with hout₁ | ⟨-, hlt⟩
        · exact (hout.trans hout₁).trans_le hlast
        · exact absurd (hlt.trans_le hmono) hgrows
      · exact absurd (hwritten.trans_lt hlt) hgrows
  · have hping' : c'.pingOutstanding = true := htracks'.waiting.trans hw
    have hping₁ : c₁.pingOutstanding = true := by
      rcases htouched.ping with hsame | hfalse
      · exact hsame ▸ hping'
      · exact absurd (hping'.symm.trans hfalse) Bool.noConfusion
    rw [hasked']
    dsimp only
    rcases hasked₁ with ⟨hsame, hasked₁⟩ | ⟨hfalse, hasked₁⟩
    · have hping : s.session.client.pingOutstanding = true := hsame.symm.trans hping₁
      rw [if_neg fun hflip => absurd (hping.symm.trans hflip.1) Bool.noConfusion, hasked₁]
      exact h.asked (h.tracks.waiting.symm.trans hping)
    · rw [if_pos ⟨hfalse, hping'⟩, hasked₁]
  · obtain ⟨rfl, rfl⟩ := hdeaf hun
    intro e he
    rcases List.mem_cons.mp he with rfl | he
    · exact Or.inr rfl
    · obtain rfl := List.mem_singleton.mp he
      exact Or.inl ⟨said, rfl⟩
  · obtain ⟨hsame, hempty⟩ := hquiet hun
    exact hsame ▸ hempty

/-- A call that does not read, on the client. -/
private theorem step_sends {s s' : Session bufferSize} {e : SessionEvent} {t : Nat}
    (hstep : s.step e = some s') (hat : e.At t) (hwhole : e.Whole bufferSize.toNat)
    (hloop : e.isLoop = false) (hup : s'.client.up = true) :
    PubSubClient.Spoke (clock 32 t) s.client s'.client ∧
      (e.isArrive = false → s.client.unread = [] → s'.client.unread = []) := by
  cases e with
  | publish now room topic payload retained =>
    obtain ⟨⟨r, c'⟩, hcall, rfl⟩ := Option.map_eq_some_iff.mp hstep
    obtain rfl : now = clock 32 t := hat
    have h := PubSubClient.publish_sends hcall hwhole
    exact ⟨h.toSpoke, fun _ => h.empty⟩
  | subscribe now room topic qos =>
    obtain ⟨⟨r, c'⟩, hcall, rfl⟩ := Option.map_eq_some_iff.mp hstep
    obtain rfl : now = clock 32 t := hat
    have h := PubSubClient.subscribe_sends hcall hwhole
    exact ⟨h.toSpoke, fun _ => h.empty⟩
  | unsubscribe now room topic =>
    obtain ⟨⟨r, c'⟩, hcall, rfl⟩ := Option.map_eq_some_iff.mp hstep
    obtain rfl : now = clock 32 t := hat
    have h := PubSubClient.unsubscribe_sends hcall hwhole
    exact ⟨h.toSpoke, fun _ => h.empty⟩
  | disconnect now room =>
    obtain ⟨c', hcall, rfl⟩ := Option.map_eq_some_iff.mp hstep
    obtain ⟨c₁, -, hmk⟩ := Option.bind_eq_some_iff.mp hcall
    obtain rfl := Option.some.inj hmk
    cases hup
  | loop now room => cases hloop
  | arrive bytes =>
    obtain rfl := Option.some.inj hstep
    refine ⟨?_, fun harrive => by cases harrive⟩
    rw [PubSubClient.arrive]
    split
    · exact ⟨rfl, id, Nat.le_refl _, rfl, Or.inl rfl, rfl, id⟩
    · exact (PubSubClient.Sends.refl _ _).toSpoke
  | lost =>
    obtain rfl := Option.some.inj hstep
    cases hup

/-- A session that stays open stays with its watchdog. -/
theorem Guarded.step (hclock : limit + delay < 2^32) {w : Watchdog.State} {s : TimedSession bufferSize}
    (h : Guarded limit delay w s) {e : Nat × SessionEvent} (ht : Timely delay s e)
    {s' : TimedSession bufferSize} (hstep : s.step e = some s')
    (hup : s'.session.client.up = true) :
    ∃ es w', Seen limit delay w es w' ∧ Guarded limit delay w' s' ∧
      (e.2.isArrive = false → s.session.client.unread = [] →
        Watchdog.Quiet es ∧ s'.session.client.unread = []) := by
  obtain ⟨t, event⟩ := e
  obtain ⟨htime, hat, hwhole⟩ := ht
  have hcall : s.session.step event = some s'.session := by
    obtain ⟨session', hcall, rfl⟩ := Option.map_eq_some_iff.mp hstep
    exact hcall
  obtain ⟨qs, hemits, -⟩ := Session.step_emits hcall hwhole
  have hlive : s'.session.client.Live := (hemits.settled h.live.settled).live hup
  by_cases hloop : event.isLoop = true
  · cases event with
    | loop now room =>
      obtain ⟨es, w', hseen, hguarded, hdeaf⟩ := h.loop hclock hstep htime hat hwhole hlive
      exact ⟨es, w', hseen, hguarded, fun _ => hdeaf⟩
    | _ => cases hloop
  · have hnot := Bool.eq_false_iff.mpr hloop
    obtain ⟨hspoke, hempty⟩ := step_sends hcall hat hwhole hnot hup
    obtain ⟨es, w', hseen, hguarded, hdeaf⟩ := h.spoke hstep htime hnot hspoke hlive
    exact ⟨es, w', hseen, hguarded, fun harrive hun => ⟨hdeaf, hempty harrive hun⟩⟩

/-- Nothing that happens opens a session again. -/
private theorem up_of_step {s s' : TimedSession bufferSize} {e : Nat × SessionEvent}
    (ht : Timely delay s e) (hstep : s.step e = some s') (hup : s'.session.client.up = true) :
    s.session.client.up = true := by
  obtain ⟨t, event⟩ := e
  obtain ⟨-, hat, hwhole⟩ := ht
  obtain ⟨session', hcall, rfl⟩ := Option.map_eq_some_iff.mp hstep
  by_cases hloop : event.isLoop = true
  · cases event with
    | loop now room =>
      by_contra hdown
      obtain ⟨⟨r, ms, c'⟩, hloop, rfl⟩ := Option.map_eq_some_iff.mp hcall
      rw [PubSubClient.loop_not_live fun hlive => hdown hlive.1] at hloop
      obtain ⟨-, hrest⟩ := Prod.mk.inj (Option.some.inj hloop)
      obtain ⟨-, rfl⟩ := Prod.mk.inj hrest
      exact hdown ((PubSubClient.sends_connected now s.session.client).opened hup)
    | _ => cases hloop
  · exact (step_sends hcall hat hwhole (Bool.eq_false_iff.mpr hloop) hup).1.opened hup

private theorem up_of_run {s s' : TimedSession bufferSize} {es : List (Nat × SessionEvent)}
    (halong : Along step (Timely delay) s es) (hrun : run step s es = some s')
    (hup : s'.session.client.up = true) : s.session.client.up = true := by
  by_contra hdown
  exact run_invariant_along step (Timely delay) (fun s => ¬ s.session.client.up = true)
    (fun s e s' ht hinv hstep hup => hinv (up_of_step ht hstep hup)) hdown halong hrun hup

theorem run_guarded (hclock : limit + delay < 2^32) {s s' : TimedSession bufferSize}
    {es : List (Nat × SessionEvent)} (h : s.session.client.up = true → ∃ w, Guarded limit delay w s)
    (halong : Along step (Timely delay) s es) (hrun : run step s es = some s') :
    s'.session.client.up = true → ∃ w, Guarded limit delay w s' := by
  refine run_invariant_along step (Timely delay)
    (fun s => s.session.client.up = true → ∃ w, Guarded limit delay w s)
    (fun s e s' ht hinv hstep hup => ?_) h halong hrun
  obtain ⟨w, hw⟩ := hinv (up_of_step ht hstep hup)
  obtain ⟨es', w', -, hguarded, -⟩ := hw.step hclock ht hstep hup
  exact ⟨w', hguarded⟩

/-- A session just opened by a `connect` that sent at `sentAt` and was answered at `ackAt`. -/
def opened (c : PubSubClient bufferSize) (sentAt ackAt : Nat) : TimedSession bufferSize :=
  ⟨⟨c, [], []⟩, ackAt, sentAt, sentAt, sentAt⟩

theorem opened_guarded {a : ConnectAnswers} {k : Connect} {c : PubSubClient bufferSize}
    (h : c.Opened a k) {sentAt ackAt : Nat} (hsent : a.sentAt = clock 32 sentAt)
    (hack : a.ackAt = clock 32 ackAt) (hle : sentAt ≤ ackAt) (hsoon : ackAt ≤ sentAt + delay) :
    Guarded c.limit delay ⟨ackAt, sentAt, false, sentAt, sentAt, ackAt⟩ (opened c sentAt ackAt) where
  sound := ⟨Nat.le_refl _, hle, hle, hsoon, hle.trans (Nat.le_add_right _ _), Nat.le_add_right _ _,
    fun hw => by cases hw⟩
  tracks := ⟨h.lastIn.trans hack, h.lastOut.trans hsent, h.noPing⟩
  limit := rfl
  live := h.live
  now := rfl
  polled := rfl
  spoken := Nat.le_refl _
  asked := fun hw => by cases hw

/-- The sessions that an accepted `connect` begins, answered in time. -/
inductive Begins (limit delay : Nat) : TimedSession bufferSize → Prop
  | connect {c c' : PubSubClient bufferSize} {a : ConnectAnswers} {id : List Byte}
      {user pass : Option (List Byte)} {will : Option WillArgs} {cleanSession : Bool}
      {sentAt ackAt : Nat} (size : 15 ≤ bufferSize.toNat) (down : c.up = false)
      (keepAlive : c.limit = limit) (qos : ∀ w ∈ will, w.willQos.toNat < 4)
      (accepted : c.connect a id user pass will cleanSession = some (true, c'))
      (sent : a.sentAt = clock 32 sentAt) (answered : a.ackAt = clock 32 ackAt)
      (order : sentAt ≤ ackAt) (inTime : ackAt ≤ sentAt + delay) :
      Begins limit delay (opened c' sentAt ackAt)

theorem Begins.guarded {s : TimedSession bufferSize} (h : Begins limit delay s) :
    ∃ w, Guarded limit delay w s := by
  obtain ⟨size, down, keepAlive, qos, accepted, sent, answered, order, inTime⟩ := h
  rename_i c c' a id user pass will cleanSession sentAt ackAt
  obtain ⟨r, c'', hspec, hkeep, hopen, -⟩ :=
    PubSubClient.connect_spec size a id user pass qos cleanSession down
  obtain ⟨rfl, rfl⟩ := Prod.mk.inj (Option.some.inj (hspec.symm.trans accepted))
  have hlimit : c''.limit = limit := by
    rw [PubSubClient.limit, hkeep]
    exact keepAlive
  subst hlimit
  exact ⟨_, opened_guarded (hopen rfl) sent answered order inTime⟩

/-- A call of `loop` that ends an open session in the state of a time-out has found a ping open for
longer than the keep-alive time. -/
theorem timedOut_ping (hclock : limit + delay < 2^32) {s s' : TimedSession bufferSize}
    (hbegins : Begins limit delay s) {es : List (Nat × SessionEvent)} {t : Nat} {now : BitVec 32}
    {room : Nat} (halong : Along step (Timely delay) s (es ++ [(t, .loop now room)]))
    (hrun : run step s es = some s') (hup : s'.session.client.up = true) {r : Bool}
    {ms : List Message} {c : PubSubClient bufferSize}
    (hloop : s'.session.client.loop now room = some (r, ms, c))
    (hstate : c.state = mqttConnectionTimeout) :
    r = false ∧ c.up = false ∧ s'.session.client.pingOutstanding = true ∧ s'.asked + limit < t := by
  obtain ⟨halong, ⟨⟨hle, hsoon⟩, hnow, hroom⟩, -⟩ := along_append halong hrun
  obtain ⟨w, hw⟩ := run_guarded hclock (fun _ => hbegins.guarded) halong hrun hup
  have hlimit := hw.limit
  subst hlimit
  obtain rfl : now = clock 32 t := hnow
  obtain ⟨hgiven, hfalse, hdown⟩ := PubSubClient.timedOut_of_loop hw.live hroom hloop hstate
  have hdue := (hw.tracks.due_iff hw.sound hclock (hw.now ▸ hle) (hw.polled ▸ hsoon)).mp hgiven.1
  have hwaiting : w.waiting = true := hw.tracks.waiting.symm.trans hgiven.2
  have hnone : Watchdog.step s'.session.client.limit w (t, .poll) = none := by
    rw [Watchdog.step, if_pos hdue, if_pos hwaiting]
  have hlong := (hw.sound.asked_long_ago hnone).2
  rw [hw.asked hwaiting] at hlong
  exact ⟨hfalse, hdown, hgiven.2, hlong⟩

/-- The events bring nothing. -/
def Bare (es : List (Nat × SessionEvent)) : Prop := ∀ e ∈ es, e.2.isArrive = false

private theorem run_deaf (hclock : limit + delay < 2^32) {s₀ : Nat} {s s' : TimedSession bufferSize}
    {es : List (Nat × SessionEvent)} (hbare : Bare es) (halong : Along step (Timely delay) s es)
    (hrun : run step s es = some s') (hup : s'.session.client.up = true) {w : Watchdog.State}
    (hw : Guarded limit delay w s) (hdeaf : Watchdog.Deaf limit delay s₀ w)
    (hun : s.session.client.unread = []) :
    ∃ w', Guarded limit delay w' s' ∧ Watchdog.Deaf limit delay s₀ w' := by
  induction es generalizing s w with
  | nil =>
    obtain rfl := Option.some.inj hrun
    exact ⟨w, hw, hdeaf⟩
  | cons e es ih =>
    obtain ⟨u, hstep, hrest⟩ := Option.bind_eq_some_iff.mp hrun
    obtain ⟨ht, halong⟩ := halong
    rw [hstep] at halong
    obtain ⟨he, hes⟩ := List.forall_mem_cons.mp hbare
    obtain ⟨es', w', hseen, hguarded, hquiet⟩ := hw.step hclock ht hstep (up_of_run halong hrest hup)
    obtain ⟨hquiet, hun'⟩ := hquiet he hun
    exact ih hes halong hrest hguarded
      (Watchdog.run_deaf hdeaf hseen.timely hquiet hseen.run) hun'

/-- A session on which nothing arrives any more is given up within about twice the keep-alive
time. -/
theorem dead_broker (hclock : limit + delay < 2^32) {s s₁ s₂ : TimedSession bufferSize}
    (hbegins : Begins limit delay s) {es₁ es₂ : List (Nat × SessionEvent)}
    (halong : Along step (Timely delay) s (es₁ ++ es₂)) (hrun₁ : run step s es₁ = some s₁)
    (hun : s₁.session.client.unread = []) (hbare : Bare es₂) (hrun₂ : run step s₁ es₂ = some s₂)
    (hup : s₂.session.client.up = true) : s₂.now ≤ s₁.now + 2 * (limit + delay) := by
  obtain ⟨halong₁, halong₂⟩ := along_append halong hrun₁
  obtain ⟨w, hw⟩ := run_guarded hclock (fun _ => hbegins.guarded) halong₁ hrun₁
    (up_of_run halong₂ hrun₂ hup)
  have hdeaf : Watchdog.Deaf limit delay s₁.now w := ⟨hw.sound, Or.inl (hw.now ▸ hw.sound.heard)⟩
  obtain ⟨w', hw', hdeaf'⟩ := run_deaf hclock hbare halong₂ hrun₂ hup hw hdeaf hun
  rw [← hw'.now]
  exact hdeaf'.now_le

theorem sampleEvents_begin : Begins 15000 20000 (opened PubSubClient.agreed 1000 1005) :=
  .connect (by decide) rfl rfl (fun w hw => absurd hw (Option.not_mem_none w))
    PubSubClient.connect_agreed rfl rfl (by decide) (by decide)

private def ping : Nat × SessionEvent := (17000, .loop 17000 64)

private def posting : Nat × SessionEvent := (2000, .publish 2000 64 (ascii "t") [1, 2] false)

private def afterPosting : TimedSession 32 :=
  ((opened PubSubClient.agreed 1000 1005).step posting).getD (opened PubSubClient.agreed 1000 1005)

private def afterPing : TimedSession 32 :=
  (afterPosting.step ping).getD (opened PubSubClient.agreed 1000 1005)

private def lastLoop : Nat × SessionEvent := (33000, .loop 33000 64)

private theorem sample_timely :
    Along step (Timely 20000) (opened PubSubClient.agreed 1000 1005) ([posting, ping] ++ [lastLoop]) :=
  And.intro ⟨⟨by decide, by decide⟩, rfl, (by decide : 32 ≤ 64)⟩
    (And.intro ⟨⟨by decide, by decide⟩, rfl, (by decide : 32 ≤ 64)⟩
      (And.intro ⟨⟨by decide, by decide⟩, rfl, (by decide : 32 ≤ 64)⟩ trivial))

private theorem sample_run : run step (opened PubSubClient.agreed 1000 1005) [posting, ping] =
    some afterPing := rfl

private theorem sample_timely_first :
    Along step (Timely 20000) (opened PubSubClient.agreed 1000 1005) [posting, ping] :=
  (along_append sample_timely sample_run).1

private theorem sample_last : afterPing.session.client.loop 33000 64 =
    some (false, [], { afterPing.session.client.stop with state := mqttConnectionTimeout }) :=
  PubSubClient.loop_timedOut ⟨rfl, rfl⟩ ⟨Or.inl (by decide), rfl⟩ 64

theorem timedOut_ping_sample : ∃ c, afterPing.session.client.loop 33000 64 = some (false, [], c) ∧
    c.up = false ∧ afterPing.session.client.pingOutstanding = true ∧ 17000 + 15000 < 33000 :=
  ⟨_, sample_last,
    (timedOut_ping (by decide) sampleEvents_begin sample_timely sample_run rfl sample_last rfl).2⟩

theorem dead_broker_sample : afterPing.now ≤ afterPosting.now + 2 * (15000 + 20000) :=
  dead_broker (by decide) sampleEvents_begin sample_timely_first
    (rfl : run step (opened PubSubClient.agreed 1000 1005) [posting] = some afterPosting) rfl
    (by simp [Bare, ping, SessionEvent.isArrive]) rfl rfl

end TimedSession
end EspNowGateway.Mqtt
