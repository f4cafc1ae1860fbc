import EspNowGateway.Display.Freshness
import EspNowGateway.Display.History
import EspNowGateway.Foundations.PeriodicTask

/-! The screen over whole runs of the dongle's loop. It is redrawn when three seconds of real time
have passed since the last time, and what it then shows is what the logs of the two sensors say. -/
namespace EspNowGateway.Display
open ByteLayout BinaryFloat Radio Sender PeriodicTask ExpiringRegister

variable {tw : Nat}

namespace Side

def ago : Side → Times → Nat
  | .top, t => t.topAgo
  | .bot, t => t.botAgo

end Side

namespace Turn

/-- The turn as the clock of the screen sees it. -/
def screenLook (k : Turn tw) : Look := ⟨k.times.screenCheck, k.times.screenStamp⟩

def delivery (k : Turn tw) : Option (Delivery tw) := k.received.map fun f => ⟨f, k.times⟩

/-- The screen's clock readings come after the checks, and received temperatures are numbers. -/
structure Drawable (k : Turn tw) : Prop where
  measured : k.Measured
  numeric : ∀ f ∈ k.received, ¬ f.packet.tempC.IsNaN
  ordered : ∀ side : Side, side.check k.times ≤ side.ago k.times

end Turn

/-- The log of the row's sensor over a run. -/
def rowLog (side : Side) (ks : List (Turn tw)) : List Reading :=
  readings side.name (ks.filterMap Turn.delivery)

/-- The real time of the last drawing. -/
def lastDrawn (ks : List (Turn tw)) : Nat := (ks.map Turn.screenLook).foldl (lastRun 3000) 0

/-- The state after a run. -/
def stateAfter (ks : List (Turn tw)) : Dongle := ks.foldl (fun s k => k.result s) .boot

theorem stateAfter_concat (ks : List (Turn tw)) (k : Turn tw) :
    stateAfter (ks ++ [k]) = k.result (stateAfter ks) := by
  rw [stateAfter, List.foldl_append]
  rfl

/-- What is drawn at `t`. -/
def drawing (s : Dongle) (t : Times) : ScreenRow × ScreenRow :=
  ((indicated s t).top.row (millis t.topAgo), (indicated s t).bot.row (millis t.botAgo))

theorem updateScreen_eq (t : Times) (u : Dongle) :
    (u.updateScreen t).lastScreenUpdatedMs =
        look 3000 u.lastScreenUpdatedMs ⟨t.screenCheck, t.screenStamp⟩ ∧
      (u.updateScreen t).screen = if Due 3000 u.lastScreenUpdatedMs t.screenCheck then
        some (u.top.row (millis t.topAgo), u.bot.row (millis t.botAgo)) else u.screen := by
  rw [Dongle.updateScreen, look]
  by_cases hearly : (millis t.screenCheck - u.lastScreenUpdatedMs).toNat < 3000
  · have hdue : ¬ Due 3000 u.lastScreenUpdatedMs t.screenCheck := Nat.not_le_of_lt hearly
    rw [if_pos hearly, if_neg hdue, if_neg hdue]
    exact ⟨rfl, rfl⟩
  · have hdue : Due 3000 u.lastScreenUpdatedMs t.screenCheck := Nat.le_of_not_lt hearly
    rw [if_neg hearly, if_pos hdue, if_pos hdue]
    exact ⟨rfl, rfl⟩

/-- One turn draws when it is due. -/
theorem result_screen (k : Turn tw) (s : Dongle) :
    (k.result s).lastScreenUpdatedMs = look 3000 s.lastScreenUpdatedMs k.screenLook ∧
      (k.result s).screen = if Due 3000 s.lastScreenUpdatedMs k.times.screenCheck then
        some (drawing s k.times) else s.screen := by
  have hreceived : (k.result s).lastScreenUpdatedMs = (s.refresh k.times k.pressed).lastScreenUpdatedMs ∧
      (k.result s).screen = (s.refresh k.times k.pressed).screen := by
    rw [Turn.result]
    split <;> exact ⟨rfl, rfl⟩
  -- the button and the LED leave the rows and the screen alone
  have hbutton : ∀ u : Dongle, ∃ u', (u.processButton 15000 k.times k.pressed).updateLed = u' ∧
      u'.top = u.top ∧ u'.bot = u.bot ∧ u'.lastScreenUpdatedMs = u.lastScreenUpdatedMs ∧
      u'.screen = u.screen := by
    intro u
    refine ⟨_, rfl, ?_⟩
    rw [Dongle.updateLed, Dongle.processButton]
    split_ifs <;> exact ⟨rfl, rfl, rfl, rfl⟩
  obtain ⟨u, hu, htop, hbot, hlast, hscreen⟩ := hbutton (indicated s k.times)
  have hrefresh : s.refresh k.times k.pressed = u.updateScreen k.times := hu ▸ rfl
  have hdrawn := updateScreen_eq k.times u
  rw [htop, hbot, hlast, hscreen, ← hrefresh, ← hreceived.1, ← hreceived.2] at hdrawn
  exact hdrawn

theorem stateAfter_stamp (ks : List (Turn tw)) :
    (stateAfter ks).lastScreenUpdatedMs = (ks.map Turn.screenLook).foldl (look 3000) (clock 32 0) := by
  induction ks using List.reverseRecOn with
  | nil => rfl
  | append_singleton ks k ih =>
    rw [stateAfter_concat, (result_screen k _).1, ih, List.map_append, List.foldl_append]
    rfl

/-- Looks at the screen's clock that are close enough. -/
def ScreenPaced (ks : List (Turn tw)) : Prop :=
  List.IsChain (Soon 32 3000) (Look.start :: ks.map Turn.screenLook)

theorem ScreenPaced.earlier {ks₁ ks₂ : List (Turn tw)} (h : ScreenPaced (ks₁ ++ ks₂)) : ScreenPaced ks₁ := by
  rw [ScreenPaced, List.map_append, ← List.cons_append] at h
  exact h.left_of_append

/-- Due by the wrapped clock means due in real time. -/
theorem ScreenPaced.due_iff {ks : List (Turn tw)} {k : Turn tw} (h : ScreenPaced (ks ++ [k])) :
    Due 3000 (stateAfter ks).lastScreenUpdatedMs k.times.screenCheck ↔
      lastDrawn ks + 3000 ≤ k.times.screenCheck := by
  rw [ScreenPaced, List.map_append] at h
  rw [stateAfter_stamp]
  exact @due_iff_real 32 3000 Look.start k.screenLook _ (by decide) h

/-- The last drawing of a run, if there was one. -/
theorem ScreenPaced.last_drawing {ks : List (Turn tw)} (h : ScreenPaced ks) :
    ((stateAfter ks).screen = none ∧ lastDrawn ks = 0 ∧ ∀ k ∈ ks, k.times.screenCheck < 3000) ∨
      ∃ ks₁ k ks₂, ks = ks₁ ++ k :: ks₂ ∧
        (stateAfter ks).screen = some (drawing (stateAfter ks₁) k.times) ∧
        lastDrawn ks = k.times.screenStamp ∧ lastDrawn ks₁ + 3000 ≤ k.times.screenCheck ∧
        ∀ k' ∈ ks₂, k'.times.screenCheck < k.times.screenStamp + 3000 := by
  induction ks using List.reverseRecOn with
  | nil => exact Or.inl ⟨rfl, rfl, fun _ hk => by cases hk⟩
  | append_singleton ks k ih =>
    have hdue := h.due_iff
    have hdrawn : lastDrawn (ks ++ [k]) = if lastDrawn ks + 3000 ≤ k.times.screenCheck then
        k.times.screenStamp else lastDrawn ks := by
      rw [lastDrawn, List.map_append, List.foldl_append]
      rfl
    rw [stateAfter_concat, (result_screen k _).2, hdrawn]
    by_cases hreal : lastDrawn ks + 3000 ≤ k.times.screenCheck
    · rw [if_pos (hdue.mpr hreal), if_pos hreal]
      exact Or.inr ⟨ks, k, [], rfl, rfl, rfl, hreal, fun _ hk' => by cases hk'⟩
    · rw [if_neg fun hd => hreal (hdue.mp hd), if_neg hreal]
      rcases ih h.earlier with ⟨hnone, hzero, hearly⟩ | ⟨ks₁, k₁, ks₂, rfl, hscreen, hlast, hfirst, hlater⟩
      · refine Or.inl ⟨hnone, hzero, fun k' hk' => ?_⟩
        rcases List.mem_append.mp hk' with hk' | hk'
        · exact hearly k' hk'
        · obtain rfl := List.mem_singleton.mp hk'
          omega
      · refine Or.inr ⟨ks₁, k₁, ks₂ ++ [k], by rw [List.append_assoc]; rfl, hscreen, hlast, hfirst, ?_⟩
        intro k' hk'
        rcases List.mem_append.mp hk' with hk' | hk'
        · exact hlater k' hk'
        · obtain rfl := List.mem_singleton.mp hk'
          omega

/-- The real time of the sensor's last reading in a run; power-up when there is none. -/
def lastTime (side : Side) (ks : List (Turn tw)) : Nat := (lastReading side.name ks).elim 0 Prod.fst

/-- What the row keeps of its sensor's log, besides the temperature. -/
structure KeepsLog (side : Side) (ks : List (Turn tw)) (c : Channel) : Prop where
  volts : c.volts = ((rowLog side ks).getLast?.map fun r => Display.volts r.batVCC).getD ⟨0⟩
  lastRcvd : c.lastRcvd = millis (lastTime side ks)
  history : c.history = historyOf ((rowLog side ks).map fun r => r.tempC)

theorem KeepsLog.of_same {side : Side} {ks : List (Turn tw)} {c c' : Channel} (h : KeepsLog side ks c)
    (hsame : SameReadings c' c) : KeepsLog side ks c' :=
  ⟨hsame.volts.trans h.volts, hsame.lastRcvd.trans h.lastRcvd, hsame.history.trans h.history⟩

theorem KeepsLog.expire {side : Side} {ks : List (Turn tw)} {c : Channel} (h : KeepsLog side ks c)
    (now : BitVec 32) : KeepsLog side ks (c.expire now) := by
  rw [Channel.expire]
  split
  · exact ⟨h.volts, h.lastRcvd, h.history⟩
  · exact h

theorem rowLog_concat (side : Side) (ks : List (Turn tw)) (k : Turn tw) :
    rowLog side (ks ++ [k]) = rowLog side ks ++ readings side.name k.delivery.toList := by
  rw [rowLog, List.filterMap_append, readings, List.filter_append, List.map_append]
  cases h : k.delivery <;> simp only [List.filterMap_cons, h, List.filterMap_nil, Option.toList] <;> rfl

theorem lastReading_concat (name : List Byte) (ks : List (Turn tw)) (k : Turn tw) :
    lastReading name (ks ++ [k]) = (k.reading name).or (lastReading name ks) := by
  rw [lastReading, List.foldl_append]
  rfl

theorem historyOf_append (temps temps' : List F32) :
    historyOf (temps ++ temps') = temps'.foldl addToHistory (historyOf temps) := by
  rw [historyOf, List.foldl_append, ← historyOf]

/-- One delivery. -/
theorem KeepsLog.absorb {side : Side} {ks : List (Turn tw)} {k : Turn tw} {f : SensorFrame tw}
    {c : Channel} (h : KeepsLog side ks c) (hk : k.received = some f) :
    KeepsLog side (ks ++ [k]) (c.absorb side.name ⟨f, k.times⟩) := by
  have hlog := rowLog_concat side ks k
  rw [Turn.delivery, hk, Option.map_some, Option.toList_some] at hlog
  rw [Channel.absorb]
  by_cases hname : f.senderName = side.name
  · have hreading : readings side.name [(⟨f, k.times⟩ : Delivery tw)] =
        [Delivery.reading ⟨f, k.times⟩] := by
      rw [readings, List.filter_singleton, decide_eq_true hname]
      rfl
    rw [if_pos hname]
    constructor
    · rw [hlog, hreading, List.getLast?_concat, Option.map_some, Option.getD_some]
      rfl
    · rw [lastTime, lastReading_concat, Turn.reading, hk, Option.bind_some, if_pos hname]
      rfl
    · rw [hlog, hreading, List.map_append, historyOf_append, ← h.history]
      rfl
  · have hreading : readings side.name [(⟨f, k.times⟩ : Delivery tw)] = [] := by
      rw [readings, List.filter_singleton, decide_eq_false hname]
      rfl
    rw [if_neg hname]
    refine ⟨?_, ?_, ?_⟩
    · rw [hlog, hreading, List.append_nil]
      exact h.volts
    · rw [lastTime, lastReading_concat, Turn.reading, hk, Option.bind_some, if_neg hname]
      exact h.lastRcvd
    · rw [hlog, hreading, List.append_nil]
      exact h.history

theorem stateAfter_keepsLog (side : Side) (ks : List (Turn tw)) :
    KeepsLog side ks (side.row (stateAfter ks)) := by
  induction ks using List.reverseRecOn with
  | nil => cases side <;> exact ⟨rfl, rfl, rfl⟩
  | append_singleton ks k ih =>
    have hrefreshed := (ih.expire (millis (side.check k.times))).of_same
      (refresh_row side k.times k.pressed (stateAfter ks))
    rw [stateAfter_concat, Turn.result]
    cases hk : k.received with
    | none =>
      have hlog := rowLog_concat side ks k
      rw [Turn.delivery, hk] at hlog
      have hsame : rowLog side (ks ++ [k]) = rowLog side ks := hlog.trans (List.append_nil _)
      have htime : lastTime side (ks ++ [k]) = lastTime side ks := by
        rw [lastTime, lastReading_concat, Turn.reading, hk]
        rfl
      refine ⟨?_, ?_, ?_⟩
      · rw [hsame]
        exact hrefreshed.volts
      · rw [htime]
        exact hrefreshed.lastRcvd
      · rw [hsame]
        exact hrefreshed.history
    | some f =>
      have hrow : side.row (((stateAfter ks).refresh k.times k.pressed).absorb ⟨f, k.times⟩) =
          (side.row ((stateAfter ks).refresh k.times k.pressed)).absorb side.name ⟨f, k.times⟩ := by
        cases side <;> rfl
      dsimp only
      rw [hrow]
      exact hrefreshed.absorb hk

/-- The hundred last temperatures of the sensor's log. -/
def recent (side : Side) (ks : List (Turn tw)) : List F32 :=
  let temps := (rowLog side ks).map fun r => r.tempC
  temps.drop (temps.length - historySize)

/-- The least and the greatest of the values; N/A when there are none. -/
structure ShownExtremes (values : List F32) (minT maxT : Option F32) : Prop where
  none : values = [] → minT = none ∧ maxT = none
  least : values ≠ [] → ∃ m ∈ values, minT = some m ∧ ∀ t ∈ values, m.Le t
  greatest : values ≠ [] → ∃ m ∈ values, maxT = some m ∧ ∀ t ∈ values, t.Le m

/-- What the colour of a row's text says about the readings `v`. -/
structure TextColor (side : Side) (v : Side → Option F32) (color : FontColor) : Prop where
  red : color = .red ↔ ∃ x ∈ v side, side.redC.Lt x
  yellow : color = .yellow ↔ (¬ ∃ x ∈ v side, side.redC.Lt x) ∧ ∃ x ∈ v side, side.yellowC.Lt x
  blue : color = .blue ↔ (¬ ∃ x ∈ v side, side.yellowC.Lt x) ∧ ∃ s, v s = none
  darkGreen : color = .darkGreen ↔ (¬ ∃ x ∈ v side, side.yellowC.Lt x) ∧ ∀ s, v s ≠ none

/-- What a row of the screen says when it is drawn at `t` after the run `ks`. -/
structure Reports (side : Side) (ks : List (Turn tw)) (t : Times) (row : ScreenRow) : Prop where
  temp : row.temp = fresh side ks t
  fontColor : TextColor side (fun s => fresh s ks t) row.fontColor
  agoMn : row.agoMn = (side.ago t - lastTime side ks) % 2^32 / 60000
  volts : row.volts = ((rowLog side ks).getLast?.map fun r => Display.volts r.batVCC).getD ⟨0⟩
  extremes : ShownExtremes (recent side ks) row.minT row.maxT

theorem Extremes.shown {values : List F32} {minTemp maxTemp : F32} (h : Extremes values minTemp maxTemp)
    (hreal : ∀ t ∈ values, ¬ t.Same noTemp) :
    ShownExtremes values (Channel.shown minTemp) (Channel.shown maxTemp) where
  none hnil := by
    obtain ⟨hmin, hmax⟩ := h.none hnil
    rw [hmin, hmax, Channel.shown, if_pos (same_noTemp_iff.mpr rfl)]
    exact ⟨rfl, rfl⟩
  least hne := by
    obtain ⟨hmem, hbest⟩ := h.least hne
    exact ⟨minTemp, hmem, if_neg (hreal _ hmem), hbest⟩
  greatest hne := by
    obtain ⟨hmem, hbest⟩ := h.greatest hne
    exact ⟨maxTemp, hmem, if_neg (hreal _ hmem), hbest⟩

/-- The readings of a run are what its turns received. -/
theorem mem_rowLog {side : Side} {ks : List (Turn tw)} {r : Reading} (h : r ∈ rowLog side ks) :
    ∃ k ∈ ks, ∃ f ∈ k.received, r.tempC = f.packet.tempC := by
  obtain ⟨d, hd, rfl⟩ := List.mem_map.mp h
  obtain ⟨k, hk, hdelivery⟩ := List.mem_filterMap.mp (List.mem_of_mem_filter hd)
  obtain ⟨f, hf, rfl⟩ := Option.map_eq_some_iff.mp hdelivery
  exact ⟨k, hk, f, hf, rfl⟩

theorem KeepsLog.extremes {side : Side} {ks : List (Turn tw)} {c : Channel} (h : KeepsLog side ks c)
    (hks : ∀ k ∈ ks, k.Drawable) :
    ShownExtremes (recent side ks) (Channel.shown (findInHistory c.history).1)
      (Channel.shown (findInHistory c.history).2) := by
  have hlog : ∀ t ∈ (rowLog side ks).map fun r => r.tempC, ¬ t.IsNaN ∧ ¬ t.Same noTemp := by
    intro t ht
    obtain ⟨r, hr, rfl⟩ := List.mem_map.mp ht
    obtain ⟨k, hk, f, hf, htemp⟩ := mem_rowLog hr
    rw [htemp]
    exact ⟨(hks k hk).numeric f hf, ((hks k hk).measured f hf).2⟩
  have hrecent : ∀ t ∈ recent side ks, ¬ t.IsNaN ∧ ¬ t.Same noTemp :=
    fun t ht => hlog t (List.mem_of_mem_drop ht)
  have hentries := historyOf_toList ((rowLog side ks).map fun r => r.tempC)
  rw [← h.history] at hentries
  have hnumbers : ∀ t ∈ c.history.toList, ¬ t.IsNaN := by
    intro t ht
    rw [hentries] at ht
    rcases List.mem_append.mp ht with ht | ht
    · rw [List.eq_of_mem_replicate ht]
      decide +kernel
    · exact (hrecent t ht).1
  have hvalues : temperatures c.history.toList = recent side ks := by
    rw [hentries, temperatures, List.filter_append, List.filter_replicate,
      if_neg (by simp [same_noTemp_iff]), List.nil_append]
    exact List.filter_eq_self.mpr fun t ht => decide_eq_true (hrecent t ht).2
  have hextremes := findInHistory_extremes c.history hnumbers
  rw [hvalues] at hextremes
  exact hextremes.shown fun t ht => (hrecent t ht).2

private theorem over_iff {limit : F32} (hlimit : ¬ limit.Lt noTemp) {v : Option F32} {temp : F32}
    (htemp : temp = v.getD noTemp) : limit.Lt temp ↔ ∃ x ∈ v, limit.Lt x := by
  subst htemp
  cases v with
  | none => simp [hlimit]
  | some x => simp

private theorem limits_over_noTemp (side : Side) :
    ¬ side.redC.Lt noTemp ∧ ¬ side.yellowC.Lt noTemp := by
  cases side <;> decide +kernel

/-- The colour that `processTempIndication` chooses. -/
theorem fontColor_textColor (side : Side) (v : Side → Option F32) (N : Prop) [Decidable N]
    (hN : N ↔ ∃ s, v s = none) :
    TextColor side v (fontColor N side.yellowC side.redC ((v side).getD noTemp)) := by
  obtain ⟨hred, hyellow⟩ := limits_over_noTemp side
  have hR := over_iff hred (v := v side) rfl
  have hY := over_iff hyellow (v := v side) rfl
  have hRY : side.redC.Lt ((v side).getD noTemp) → side.yellowC.Lt ((v side).getD noTemp) :=
    fun h => side.yellowC_lt_redC.trans h
  have hall : (∀ s, v s ≠ none) ↔ ¬ N := by rw [hN, not_exists]
  rw [fontColor]
  constructor
  all_goals simp only [← hR, ← hY, ← hN, hall]
  all_goals
    by_cases hr : side.redC.Lt ((v side).getD noTemp)
    · simp [hr, hRY hr]
    · by_cases hy : side.yellowC.Lt ((v side).getD noTemp)
      · simp [hr, hy]
      · by_cases hn : N <;> simp [hr, hy, hn]

/-- The run and the checks of the next turn keep to the spacing of the clock. -/
theorem paced_of_chain {ks₁ ks₂ : List (Turn tw)} {k : Turn tw}
    (h : List.IsChain Spaced (ks₁ ++ k :: ks₂)) : Paced ks₁ k.times := by
  obtain ⟨hfirst, -, hnext⟩ := List.isChain_append.mp h
  refine List.isChain_append.mpr ⟨hfirst, List.isChain_singleton _, fun x hx y hy => ?_⟩
  obtain rfl := Option.some.inj hy
  exact hnext x hx k rfl

private theorem boot_register (side : Side) : Holds ⟨none, 0⟩ (side.row .boot) := by
  cases side <;> exact ⟨rfl, rfl, fun _ hv => by cases hv⟩

/-- Right after the checks at `t` each row holds its sensor's fresh reading. -/
theorem stateAfter_holds {ks : List (Turn tw)} {t : Times} (hks : ∀ k ∈ ks, k.Measured)
    (hpaced : Paced ks t) : ∃ r : Side → Register F32 32,
      (∀ side : Side, Holds (r side) (side.row ((stateAfter ks).updateTemp t))) ∧
        ∀ side, (r side).value = fresh side ks t := by
  obtain ⟨s, hrun, hs⟩ := run_holds ks hks boot_register
  obtain rfl := Except.ok.inj ((run_eq ks (fun k hk f hf => (hks k hk f hf).1) .boot).symm.trans hrun)
  refine ⟨_, fun side => updateTemp_row side t _ ▸ (hs side).expire (side.check t), fun side => ?_⟩
  have hchain := (List.isChain_map (fun k : Turn tw => k.round side)).mpr
    (hpaced.imp fun k next h => h.follows side)
  rw [List.map_append] at hchain
  have hlast : latest none (ks.map fun k => k.round side) = lastReading side.name ks := List.foldl_map
  rw [fresh, ← hlast]
  exact expire_value _ (side.check t) ⟨none, 0⟩ rfl hchain

theorem stateAfter_fresh {ks : List (Turn tw)} {t : Times} (hks : ∀ k ∈ ks, k.Measured)
    (hpaced : Paced ks t) (side : Side) :
    (side.row (indicated (stateAfter ks) t)).temp = (fresh side ks t).getD noTemp ∧
      ((side.row (indicated (stateAfter ks) t)).temp.Same noTemp ↔ fresh side ks t = none) := by
  obtain ⟨r, hr, hvalue⟩ := stateAfter_holds hks hpaced
  have hholds := hr side
  rw [updateTemp_row] at hholds
  have hrow := indicated_row side (stateAfter ks) t
  have hindicated := hholds.of_same hrow.temp hrow.lastRcvd
  rw [← hvalue side]
  exact ⟨hindicated.temp, hindicated.no_temp_iff⟩

/-- Real time goes on between a reading and the checks after it. -/
theorem lastTime_le {ks : List (Turn tw)} {t : Times} (hpaced : Paced ks t) (side : Side) :
    lastTime side ks ≤ side.check t := by
  induction ks using List.reverseRecOn generalizing t with
  | nil => exact Nat.zero_le _
  | append_singleton ks k ih =>
    rw [Paced, List.append_assoc] at hpaced
    have hfollows := ((List.isChain_append.mp hpaced).2.1.rel).follows side
    rw [lastTime, lastReading_concat]
    cases hreading : k.reading side.name with
    | none => exact (ih (paced_of_chain hpaced)).trans hfollows.2.1
    | some a => exact hfollows.1 a hreading

/-- The minutes that a row shows, however often the clock has wrapped since its last reading. -/
theorem minutes_ago {a t : Nat} (hat : a ≤ t) : (millis t - millis a).toNat = (t - a) % 2^32 := by
  have hsum : millis t = millis (t - a) + millis a := by
    rw [← BitVec.ofNat_add, Nat.sub_add_cancel hat]
  rw [hsum, BitVec.add_sub_cancel, BitVec.toNat_ofNat]

theorem drawing_reports {ks : List (Turn tw)} {k : Turn tw} (hks : ∀ k ∈ ks, k.Drawable)
    (hpaced : Paced ks k.times) (hk : k.Drawable) (side : Side) :
    Reports side ks k.times
      ((side.row (indicated (stateAfter ks) k.times)).row (millis (side.ago k.times))) := by
  have hlog := ((stateAfter_keepsLog side ks).expire (millis (side.check k.times))).of_same
    (indicated_row side (stateAfter ks) k.times)
  have hfresh := stateAfter_fresh (fun k hk => (hks k hk).measured) hpaced
  have hnoData : (indicated (stateAfter ks) k.times).NoData ↔ ∃ s, fresh s ks k.times = none := by
    constructor
    · rintro (htop | hbot)
      · exact ⟨.top, (hfresh .top).2.mp htop⟩
      · exact ⟨.bot, (hfresh .bot).2.mp hbot⟩
    · rintro ⟨_ | _, hnone⟩
      · exact Or.inl ((hfresh .top).2.mpr hnone)
      · exact Or.inr ((hfresh .bot).2.mpr hnone)
  constructor
  · change Channel.shown (side.row (indicated (stateAfter ks) k.times)).temp = _
    rw [Channel.shown]
    by_cases hnone : fresh side ks k.times = none
    · rw [if_pos ((hfresh side).2.mpr hnone), hnone]
    · obtain ⟨v, hv⟩ := Option.ne_none_iff_exists'.mp hnone
      rw [if_neg fun h => hnone ((hfresh side).2.mp h), (hfresh side).1, hv]
      rfl
  · have hcolor : (side.row (indicated (stateAfter ks) k.times)).fontColor = fontColor
        (indicated (stateAfter ks) k.times).NoData side.yellowC side.redC
        (side.row (indicated (stateAfter ks) k.times)).temp := by
      cases side <;> rfl
    change TextColor side _ (side.row (indicated (stateAfter ks) k.times)).fontColor
    rw [hcolor, (hfresh side).1]
    exact fontColor_textColor side _ _ hnoData
  · change (_ - (side.row (indicated (stateAfter ks) k.times)).lastRcvd).toNat / 60000 = _
    rw [hlog.lastRcvd, minutes_ago ((lastTime_le hpaced side).trans (hk.ordered side))]
  · exact hlog.volts
  · exact hlog.extremes hks

/-- Over any run, however often the clock wraps. The screen was drawn as soon as three seconds had
passed since the time before, never longer than that before a look at it, and both its rows say what
the logs of their sensors said then: no temperature that was older than a quarter of an hour. -/
theorem screen_reports {ks : List (Turn tw)} (hks : ∀ k ∈ ks, k.Drawable)
    (hspaced : List.IsChain Spaced ks) (hlooks : ScreenPaced ks) :
    ∃ s, run ks .boot = .ok s ∧
      ((s.screen = none ∧ ∀ k ∈ ks, k.times.screenCheck < 3000) ∨
        ∃ ks₁ k ks₂ rows, ks = ks₁ ++ k :: ks₂ ∧ s.screen = some rows ∧
          lastDrawn ks₁ + 3000 ≤ k.times.screenCheck ∧
          (∀ k' ∈ ks₂, k'.times.screenCheck < k.times.screenStamp + 3000) ∧
          Reports .top ks₁ k.times rows.1 ∧ Reports .bot ks₁ k.times rows.2) := by
  refine ⟨stateAfter ks, run_eq ks (fun k hk f hf => ((hks k hk).measured f hf).1) .boot, ?_⟩
  rcases hlooks.last_drawing with ⟨hnone, -, hearly⟩ | ⟨ks₁, k, ks₂, rfl, hscreen, -, hdue, hlater⟩
  · exact Or.inl ⟨hnone, hearly⟩
  · have hk := hks k (List.mem_append_right _ (List.mem_cons_self ..))
    have hks₁ : ∀ k ∈ ks₁, k.Drawable := fun k hk => hks k (List.mem_append_left _ hk)
    have hpaced := paced_of_chain hspaced
    exact Or.inr ⟨ks₁, k, ks₂, _, rfl, hscreen, hdue, hlater, drawing_reports hks₁ hpaced hk .top,
      drawing_reports hks₁ hpaced hk .bot⟩

/-- Twenty degrees in the lower row, drawn four seconds later. -/
def lowerDrawn : List (Turn 4) :=
  [⟨.all 1000, false, some (.steady botName (.ofInt _ 20))⟩, ⟨.all 5000, false, none⟩]

private theorem lowerDrawn_drawable : ∀ k ∈ lowerDrawn, k.Drawable := by
  have hordered : ∀ t : Nat, ∀ side : Side, side.check (.all t) ≤ side.ago (.all t) := by
    intro t side
    cases side <;> exact Nat.le_refl t
  intro k hk
  rcases List.mem_pair.mp hk with rfl | rfl
  · refine ⟨fun f hf => ?_, fun f hf => ?_, hordered 1000⟩
    · obtain rfl := Option.some.inj hf
      rw [SensorFrame.steady_tempC]
      exact ⟨by decide, by decide +kernel⟩
    · obtain rfl := Option.some.inj hf
      rw [SensorFrame.steady_tempC]
      decide +kernel
  · exact ⟨fun _ hf => (by cases hf), fun _ hf => (by cases hf), hordered 5000⟩

theorem screen_reports_lower : ∃ s rows, run lowerDrawn .boot = .ok s ∧ s.screen = some rows ∧
    rows.2.temp = some (.ofInt _ 20) := by
  have hspaced : List.IsChain Spaced lowerDrawn :=
    List.isChain_cons_cons.mpr ⟨⟨by decide, by decide, by decide⟩, List.isChain_singleton _⟩
  have hlooks : ScreenPaced lowerDrawn :=
    List.isChain_cons_cons.mpr ⟨⟨by decide, by decide, by decide⟩,
      List.isChain_cons_cons.mpr ⟨⟨by decide, by decide, by decide⟩, List.isChain_singleton _⟩⟩
  obtain ⟨s, hrun, ⟨-, hearly⟩ | ⟨ks₁, k, ks₂, rows, hsplit, hscreen, hdue, -, -, hbot⟩⟩ :=
    screen_reports lowerDrawn_drawable hspaced hlooks
  · exact absurd (hearly ⟨.all 5000, false, none⟩ (by simp [lowerDrawn])) (by decide)
  refine ⟨s, rows, hrun, hscreen, ?_⟩
  match ks₁, hsplit with
  | [], hsplit =>
    obtain ⟨rfl, -⟩ := List.cons.inj hsplit
    exact absurd hdue (by decide)
  | [k₁], hsplit =>
    obtain ⟨rfl, hrest⟩ := List.cons.inj hsplit
    obtain ⟨rfl, -⟩ := List.cons.inj hrest
    rw [hbot.temp]
    change some (SensorFrame.steady botName (.ofInt _ 20)).packet.tempC = _
    rw [SensorFrame.steady_tempC]
  | _ :: _ :: _, hsplit =>
    have hlen := congrArg List.length hsplit
    rw [List.length_append, List.length_cons, List.length_cons, List.length_cons] at hlen
    exact absurd hlen (by simp only [lowerDrawn, List.length_cons, List.length_nil]; omega)

end EspNowGateway.Display
