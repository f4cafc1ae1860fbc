import EspNowGateway.Foundations.PeriodicCache
import EspNowGateway.Sender.Sensor

/-! The battery voltage over many boots. `vccMv` and `vccCntr` are a periodic cache that deep
sleeps keep and cold starts reset, so a packet's voltage is never older than ten packets. -/
namespace EspNowGateway.Sender
open ByteLayout Radio PeriodicCache

variable {tw : Nat}

/-- What happens to a sensor: `senderSetup` sends one packet after each start. -/
inductive BootEvent where
  | sendEspPacket (w : Wake)
  | deepSleep
  | powerUp

namespace Sensor

/-- What the `getVcc` call of the next packet measures and returns. -/
def vccEntry (batteryMv : Int) (s : Sensor tw) : Entry Int :=
  .read (if s.vccCntr < sendVccAfterBoots then none else some batteryMv) (s.getVcc batteryMv).1

def bootStep (s : Sensor tw × List (Entry Int)) : BootEvent → Sensor tw × List (Entry Int)
  | .sendEspPacket w => ((s.1.sendEspPacket w).1, s.1.vccEntry w.batteryMv :: s.2)
  | .deepSleep => (s.1.deepSleep, s.2)
  | .powerUp => (powerUp tw s.1.espSenderName, .reset :: s.2)

/-- A run from the first cold start, with the log of its `getVcc` calls, newest first. -/
def bootRun (tw : Nat) (espSenderName : List Byte) (es : List BootEvent) :
    Sensor tw × List (Entry Int) := es.foldl bootStep (powerUp tw espSenderName, [])

/-- The two variables are the cache. -/
structure Caches (c : Cache Int) (s : Sensor tw) : Prop where
  value : s.vccMv = c.value
  uses : s.vccCntr = c.uses

/-- The cache's view of an event. -/
def cacheEvent : BootEvent → Option (Event Int)
  | .sendEspPacket w => some (.read w.batteryMv)
  | .deepSleep => none
  | .powerUp => some .reset

def cacheLimit : Nat := sendVccAfterBoots.toNat

theorem sendEspPacket_vcc (w : Wake) (s : Sensor tw) :
    (s.sendEspPacket w).1.vccMv = (s.getVcc w.batteryMv).2.vccMv ∧
      (s.sendEspPacket w).1.vccCntr = (s.getVcc w.batteryMv).2.vccCntr := by
  simp only [sendEspPacket, getVcc]
  split <;> exact ⟨rfl, rfl⟩

/-- A `getVcc` call is a read of the cache. -/
theorem Caches.getVcc {c : Cache Int} {s : Sensor tw} (h : Caches c s) (batteryMv : Int) :
    Caches (c.read cacheLimit batteryMv) (s.getVcc batteryMv).2 ∧
      s.vccEntry batteryMv = c.entry cacheLimit batteryMv := by
  have hlt : s.vccCntr < sendVccAfterBoots ↔ c.uses < cacheLimit := by
    rw [h.uses]
    change (c.uses : Int) < 10 ↔ c.uses < 10
    omega
  rw [vccEntry, Cache.entry, Cache.read, Sensor.getVcc]
  by_cases hreuse : c.uses < cacheLimit
  · simp only [hlt, if_pos hreuse]
    exact ⟨⟨h.value, by rw [h.uses]; rfl⟩, by rw [h.value]⟩
  · simp only [hlt, if_neg hreuse]
    exact ⟨⟨rfl, rfl⟩, trivial⟩

/-- One event of the sensor is one or no event of the cache. -/
theorem Caches.bootStep {s : Sensor tw × List (Entry Int)} {c : Cache Int} (h : Caches c s.1)
    (e : BootEvent) :
    ∃ c', Caches c' (Sensor.bootStep s e).1 ∧ (c', (Sensor.bootStep s e).2) =
      (cacheEvent e).toList.foldl (step cacheLimit 0) (c, s.2) := by
  cases e with
  | sendEspPacket w =>
    obtain ⟨hread, hentry⟩ := h.getVcc w.batteryMv
    obtain ⟨hvalue, huses⟩ := s.1.sendEspPacket_vcc w
    refine ⟨c.read cacheLimit w.batteryMv, ⟨hvalue.trans hread.value, huses.trans hread.uses⟩, ?_⟩
    rw [Sensor.bootStep, hentry]
    rfl
  | deepSleep => exact ⟨c, ⟨h.value, h.uses⟩, rfl⟩
  | powerUp => exact ⟨fresh cacheLimit 0, ⟨rfl, rfl⟩, rfl⟩

/-- A run of the sensor is a run of the cache. -/
theorem bootRun_refines (tw : Nat) (espSenderName : List Byte) (es : List BootEvent) :
    (bootRun tw espSenderName es).2 = (run cacheLimit 0 (es.filterMap cacheEvent)).2 := by
  have hgen : ∀ (es : List BootEvent) (s : Sensor tw × List (Entry Int)) (c : Cache Int), Caches c s.1 →
      (es.foldl bootStep s).2 =
        ((es.filterMap cacheEvent).foldl (step cacheLimit 0) (c, s.2)).2 := by
    intro es
    induction es with
    | nil => exact fun _ _ _ => rfl
    | cons e es ih =>
      intro s c h
      obtain ⟨c', hc', hstep⟩ := h.bootStep e
      have hevents : (e :: es).filterMap cacheEvent =
          (cacheEvent e).toList ++ es.filterMap cacheEvent := by
        cases he : cacheEvent e <;> simp [he]
      rw [List.foldl_cons, ih _ c' hc', hstep, hevents, List.foldl_append]
  exact hgen es _ (fresh cacheLimit 0) ⟨rfl, rfl⟩

/-- Over any mix of deep sleeps and cold starts every `getVcc` call returns the last measurement
since the last cold start, at most ten calls later, and two measurements in a row have exactly
ten reusing calls between them. -/
theorem battery_value_age (tw : Nat) (espSenderName : List Byte) (es : List BootEvent) :
    ∀ measured returned earlier,
      (Entry.read measured returned :: earlier) <:+ (bootRun tw espSenderName es).2 →
      (∃ age ≤ sendVccAfterBoots.toNat,
        lastMeasured (.read measured returned :: earlier) = some (returned, age)) ∧
      (measured.isSome → ∀ m age, lastMeasured earlier = some (m, age) →
        age = sendVccAfterBoots.toNat) := by
  rw [bootRun_refines]
  exact run_kept _

/-- A wake-up at twenty degrees with the battery at `mv` millivolts. -/
def wakeAt (mv : Int) : Wake :=
  ⟨⟨.ofInt _ 20, .ofInt _ 20, .ofInt _ 20⟩, mv, ⟨⟨true, .ok⟩, 0, true⟩⟩

/-- The battery is measured at the first start and reused behind a sleep. -/
theorem battery_value_age_secondPacket : ∃ age ≤ 10, lastMeasured [Entry.read (none : Option Int) 3300,
    .read (some 3300) 3300] = some (3300, age) := by
  have hlog : (bootRun 4 (CArray.ascii "Balcony3")
      [.sendEspPacket (wakeAt 3300), .deepSleep, .sendEspPacket (wakeAt 3100)]).2 =
      [.read none 3300, .read (some 3300) 3300] := rfl
  exact (battery_value_age 4 (CArray.ascii "Balcony3")
    [.sendEspPacket (wakeAt 3300), .deepSleep, .sendEspPacket (wakeAt 3100)] none 3300
    [.read (some 3300) 3300] (hlog ▸ List.suffix_refl _)).1

end Sensor
end EspNowGateway.Sender
