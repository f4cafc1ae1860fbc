import EspNowGateway.Foundations.PeriodicTask
import EspNowGateway.System.GatewayRun

/-! When the gateway reports its link. The five attributes are a periodic task on a millisecond clock
of 32 bits that only turns with a connection look at, and no packet moves it. -/
namespace EspNowGateway.System
open ByteLayout CArray ExpiringRegister PeriodicTask Radio Gateway

variable {tw : Nat}

/-- The comparison of the source is strict. -/
def linkPeriod : Nat := telemetrySendInterval + 1

/-- A turn in real time, with what the two `millis` calls return. -/
structure GwTurn where
  look : Look
  inputs : GwInputs
  dueMillis : inputs.dueMillis = clock 32 look.check
  sentMillis : inputs.sentMillis = clock 32 look.stamp
  ordered : look.check ≤ look.stamp

namespace GwTurn

def online (t : GwTurn) : Bool := t.inputs.connected || t.inputs.connect

/-- The attribute of a fresh connection. -/
def greeting (t : GwTurn) : List Publish :=
  if t.inputs.connected then [] else [⟨ascii "macAddress", .string t.inputs.macAddress⟩]

def linkStatus (t : GwTurn) : List Publish :=
  [⟨ascii "rssi", .integer t.inputs.rssi⟩, ⟨ascii "channel", .integer t.inputs.channel⟩,
    ⟨ascii "bssid", .string t.inputs.bssid⟩, ⟨ascii "localIp", .string t.inputs.localIp⟩,
    ⟨ascii "ssid", .string t.inputs.ssid⟩]

end GwTurn

/-- What is due in real time, turn after turn; the link was last reported at `last`. -/
def timetable : Nat → List GwTurn → List Publish
  | _, [] => []
  | last, t :: ts =>
    if t.online then
      t.greeting ++ (if last + linkPeriod ≤ t.look.check then t.linkStatus else []) ++
        timetable (lastRun linkPeriod last t.look) ts
    else timetable last ts

/-- One turn with a connection against the real time of the last report. -/
private theorem statusCalls_tracks {c last : Nat} {s : GwState}
    (h : Tracks linkPeriod c last s.previousDataSend) (t : GwTurn) (hlast : last ≤ t.look.check)
    (hgap : t.look.check - c + linkPeriod ≤ 2^32) :
    (statusCalls t.inputs s).2 =
        t.greeting ++ (if last + linkPeriod ≤ t.look.check then t.linkStatus else []) ∧
      Tracks linkPeriod t.look.check (lastRun linkPeriod last t.look)
        (statusCalls t.inputs s).1.previousDataSend := by
  have hdue : telemetrySendInterval < (t.inputs.dueMillis - s.previousDataSend).toNat ↔
      last + linkPeriod ≤ t.look.check := by
    rw [t.dueMillis]
    exact h.due_iff hlast hgap
  have hlook := h.look (Nat.succ_pos _) t.ordered hlast hgap
  rw [look, ← t.sentMillis] at hlook
  by_cases hreal : last + linkPeriod ≤ t.look.check
  · rw [if_pos ((h.due_iff hlast hgap).mpr hreal)] at hlook
    simp only [statusCalls, if_pos (hdue.mpr hreal), if_pos hreal]
    exact ⟨rfl, hlook⟩
  · rw [if_neg fun hdue => hreal ((h.due_iff hlast hgap).mp hdue)] at hlook
    simp only [statusCalls, if_neg fun h => hreal (hdue.mp h), if_neg hreal, List.append_nil]
    exact ⟨rfl, hlook⟩

/-- The wrapping clock keeps the timetable. -/
private theorem statusAll_timetable (ts : List GwTurn) {first : Look} {last : Nat} {s : GwState}
    (h : first.check ≤ first.stamp →
      Tracks linkPeriod first.check last s.previousDataSend ∧ last ≤ first.stamp)
    (hchain : List.IsChain (Soon 32 linkPeriod) (first :: (ts.filter GwTurn.online).map GwTurn.look)) :
    statusAll (ts.map GwTurn.inputs) s = timetable last ts := by
  induction ts generalizing first last s with
  | nil => rfl
  | cons t ts ih =>
    rw [List.map_cons, statusAll, timetable]
    cases hon : t.online with
    | false =>
      rw [List.filter_cons_of_neg (by simp [hon])] at hchain
      have hoff : (t.inputs.connected || t.inputs.connect) = false := hon
      rw [hoff, if_neg Bool.false_ne_true, if_neg Bool.false_ne_true]
      exact ih h hchain
    | true =>
      rw [List.filter_cons_of_pos hon, List.map_cons] at hchain
      obtain ⟨⟨hordered, hlater, hgap⟩, hrest⟩ := List.isChain_cons_cons.mp hchain
      obtain ⟨htracks, hlast⟩ := h hordered
      obtain ⟨hcalls, hnext⟩ := statusCalls_tracks htracks t (hlast.trans hlater) hgap
      have hup : (t.inputs.connected || t.inputs.connect) = true := hon
      rw [hup, if_pos rfl, if_pos rfl, hcalls]
      congr 1
      exact ih (fun _ => ⟨hnext, lastRun_le t.ordered (hlast.trans hlater)⟩) hrest

def isRssi (c : Publish) : Bool := c.key = ascii "rssi"

private theorem greeting_isRssi (t : GwTurn) : t.greeting.filter isRssi = [] := by
  rw [GwTurn.greeting]
  split <;> rfl

/-- Reports are a period apart. -/
private theorem timetable_rate (ts : List GwTurn) {last T : Nat} (hlast : last ≤ T)
    (hT : ∀ t ∈ ts, t.look.stamp ≤ T) :
    last + ((timetable last ts).filter isRssi).length * linkPeriod ≤ T := by
  induction ts generalizing last with
  | nil =>
    rw [timetable, List.filter_nil, List.length_nil, Nat.zero_mul]
    exact hlast
  | cons t ts ih =>
    obtain ⟨ht, hrest⟩ := List.forall_mem_cons.mp hT
    rw [timetable]
    split
    · rw [List.filter_append, List.filter_append, greeting_isRssi, List.nil_append, lastRun]
      by_cases hdue : last + linkPeriod ≤ t.look.check
      · rw [if_pos hdue, if_pos hdue, List.length_append]
        have hone : (t.linkStatus.filter isRssi).length = 1 := rfl
        have hnext := ih ht hrest
        have hordered := t.ordered
        rw [hone, Nat.add_mul, Nat.one_mul]
        omega
      · rw [if_neg hdue, if_neg hdue, List.filter_nil, List.nil_append]
        exact ih hlast hrest
    · exact ih hlast hrest

/-- Reports are due a period after the last one and wait for the next turn with a connection. -/
private theorem timetable_served {d : Nat} (ts : List GwTurn) {first : Look} {last : Nat}
    (h : first.check < last + linkPeriod)
    (hserved : List.IsChain (fun l next : Look => next.stamp ≤ l.check + d)
      (first :: (ts.filter GwTurn.online).map GwTurn.look)) :
    ∀ l ∈ (first :: (ts.filter GwTurn.online).map GwTurn.look).getLast?,
      l.check < last + (((timetable last ts).filter isRssi).length + 1) * (linkPeriod + d) := by
  induction ts generalizing first last with
  | nil =>
    intro l hl
    obtain rfl : first = l := Option.some.inj hl
    rw [timetable, List.filter_nil, List.length_nil, Nat.zero_add, Nat.one_mul]
    omega
  | cons t ts ih =>
    intro l hl
    rw [timetable]
    cases hon : t.online with
    | false =>
      rw [List.filter_cons_of_neg (by simp [hon])] at hserved hl
      exact ih h hserved l hl
    | true =>
      rw [List.filter_cons_of_pos hon, List.map_cons] at hserved hl
      rw [List.getLast?_cons_cons] at hl
      obtain ⟨hsoon, hrest⟩ := List.isChain_cons_cons.mp hserved
      have hordered := t.ordered
      rw [if_pos rfl, List.filter_append, List.filter_append, greeting_isRssi, List.nil_append]
      by_cases hdue : last + linkPeriod ≤ t.look.check
      · have hfresh : t.look.check < t.look.stamp + linkPeriod := by
          have hpos : 0 < linkPeriod := Nat.succ_pos _
          omega
        have hnext := ih hfresh hrest l hl
        have hone : (t.linkStatus.filter isRssi).length = 1 := rfl
        rw [lastRun, if_pos hdue, if_pos hdue, List.length_append, hone, Nat.add_assoc, Nat.add_mul]
        omega
      · rw [lastRun, if_neg hdue, if_neg hdue, List.filter_nil, List.nil_append]
        exact ih (Nat.not_le.mp hdue) hrest l hl

/-- Only a link report has the signal strength. -/
private theorem filter_isRssi (calls : List Publish) :
    calls.filter isRssi = (calls.filter fun c => !sensorKey c.key).filter isRssi := by
  rw [List.filter_filter]
  apply List.filter_congr
  intro c _
  rw [isRssi]
  by_cases hkey : c.key = ascii "rssi"
  · rw [hkey]
    rfl
  · rw [decide_eq_false hkey, Bool.false_and]

/-- A turn at the time `t` with a connection. -/
def turnAt (t : Nat) : GwTurn where
  look := ⟨t, t⟩
  inputs := { quietTurn with dueMillis := clock 32 t, sentMillis := clock 32 t }
  dueMillis := rfl
  sentMillis := rfl
  ordered := Nat.le_refl t

/-- From power-up, with any sensors' packets between the turns: what the gateway publishes on its own
account is the timetable, although its clock wraps every fifty days, if no two turns with a connection
are that far apart. Up to the time `T` it has reported its link at most `T / 10001` times; with a turn
every `d` milliseconds no report is later than `10001 + d` after the one before. -/
theorem status_timetable {es : List (GwEvent tw)}
    (hes : ∀ f ∈ es.filterMap GwEvent.arrival, (0 : Byte) ∉ f.senderName) {turns : List GwTurn}
    (hturns : es.filterMap GwEvent.turnOf = turns.map GwTurn.inputs)
    (hpaced : List.IsChain (Soon 32 linkPeriod)
      (Look.start :: (turns.filter GwTurn.online).map GwTurn.look)) {r : EspRadio tw} (hr : r.Ready []) :
    ∃ w, gwRun es ⟨⟨0, 0⟩, r, [], 0⟩ = .ok w ∧
      let reports := (w.calls.filter isRssi).length
      (w.calls.filter fun c => !sensorKey c.key) = timetable 0 turns ∧
      (∀ T, (∀ t ∈ turns, t.look.stamp ≤ T) → reports * linkPeriod ≤ T) ∧
      ∀ d, List.IsChain (fun l next : Look => next.stamp ≤ l.check + d)
          (Look.start :: (turns.filter GwTurn.online).map GwTurn.look) →
        ∀ t ∈ (turns.filter GwTurn.online).getLast?, t.look.check < (reports + 1) * (linkPeriod + d) := by
  obtain ⟨w, _, _, hrun, hprogress⟩ := gwRun_progress es (w := ⟨⟨0, 0⟩, r, [], 0⟩) (q := []) hr
    (fun f hf => by cases hf) hes
  have hfresh : Tracks linkPeriod Look.start.check 0 (0 : BitVec 32) := ⟨rfl, Nat.succ_pos _⟩
  have hcalls : statusAll (turns.map GwTurn.inputs) ⟨0, 0⟩ = timetable 0 turns :=
    statusAll_timetable turns (fun _ => ⟨hfresh, Nat.le_refl _⟩) hpaced
  have hstatus := hprogress.status
  rw [hturns, hcalls, List.filter_nil, List.nil_append] at hstatus
  refine ⟨w, hrun, hstatus, fun T hT => ?_, fun d hserved t ht => ?_⟩
  · have hrate := timetable_rate turns (Nat.zero_le T) hT
    rwa [Nat.zero_add, ← hstatus, ← filter_isRssi] at hrate
  · have hlast : t.look ∈ (Look.start :: (turns.filter GwTurn.online).map GwTurn.look).getLast? := by
      rw [List.getLast?_cons, List.getLast?_map, ht]
      rfl
    have hlate := timetable_served turns hfresh.recent hserved _ hlast
    rwa [Nat.zero_add, ← hstatus, ← filter_isRssi] at hlate

/-- Seven days in: the link is reported at the first turn and not again five seconds later. -/
theorem status_timetable_week : ∃ w : GwRun (EspRadio 4),
    gwRun [.turn (turnAt 604800000).inputs, .turn (turnAt 604805000).inputs]
        ⟨⟨0, 0⟩, .started 4, [], 0⟩ = .ok w ∧
      (w.calls.filter fun c => !sensorKey c.key) = (turnAt 604800000).linkStatus := by
  let turns := [turnAt 604800000, turnAt 604805000]
  have hpaced : List.IsChain (Soon 32 linkPeriod)
      (Look.start :: (turns.filter GwTurn.online).map GwTurn.look) := by
    refine .cons_cons ⟨?_, ?_, ?_⟩ (.cons_cons ⟨?_, ?_, ?_⟩ (.singleton _)) <;> decide
  have hes : ∀ f ∈ (turns.map fun t => (GwEvent.turn t.inputs : GwEvent 4)).filterMap GwEvent.arrival,
      (0 : Byte) ∉ f.senderName := fun f hf => by cases hf
  obtain ⟨w, hrun, hcalls, _⟩ := status_timetable hes rfl hpaced RadioState.started_ready
  exact ⟨w, hrun, hcalls.trans rfl⟩

end EspNowGateway.System
