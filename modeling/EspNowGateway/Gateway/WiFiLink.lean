import Mathlib.Algebra.BigOperators.Group.List.Basic
import Mathlib.Algebra.GroupWithZero.Nat

/-! The WiFi connection that every turn of the gateway waits for. `InitWiFi` polls the driver twice a
second and starts the connection anew after 31 polls without success; the driver's answers are a list. -/
namespace EspNowGateway.Gateway

/-- What the waiting does to the driver and to the RGB pins. -/
inductive WiFiCall where
  | disconnect
  | begin
  | delay (ms : Nat)
  | led (red green blue : Bool)
  deriving DecidableEq

def ledBlue : WiFiCall := .led false false true
def ledGreen : WiFiCall := .led false true false

/-- The loop of `InitWiFi`, over what `WiFi.status() == WL_CONNECTED` is, poll after poll. Without a
further answer it is still in the loop. -/
def waitForWiFi : List Bool → Nat → Option (List WiFiCall × List Bool)
  | [], _ => none
  | true :: answers, _ => some ([], answers)
  | false :: answers, cntr =>
    let cntr := cntr + 1
    let again : List WiFiCall := if 30 < cntr then [.disconnect, .delay 1, .begin] else []
    (waitForWiFi answers (if 30 < cntr then 0 else cntr)).map fun (calls, answers) =>
      (.delay 500 :: again ++ calls, answers)

def InitWiFi (answers : List Bool) : Option (List WiFiCall × List Bool) :=
  (waitForWiFi answers 0).map fun (calls, answers) =>
    ([.disconnect, .begin, ledBlue] ++ calls ++ [ledGreen], answers)

def reconnect : List Bool → Option (Bool × List WiFiCall × List Bool)
  | [] => none
  | true :: answers => some (true, [ledGreen], answers)
  | false :: answers => (InitWiFi answers).map fun (calls, answers) => (true, calls, answers)

/-- The failed poll number `n` of a wait, counted from 0. -/
def failedPoll (n : Nat) : List WiFiCall :=
  .delay 500 :: if (n + 1) % 31 = 0 then [.disconnect, .delay 1, .begin] else []

def failedPolls (k : Nat) : List WiFiCall := (List.range k).flatMap failedPoll

/-- How long the calls take. -/
def waited (calls : List WiFiCall) : Nat :=
  (calls.map fun | .delay ms => ms | _ => 0).sum

def attempts (calls : List WiFiCall) : Nat := calls.count .begin

theorem failedPoll_add_period (n : Nat) : failedPoll (31 + n) = failedPoll n := by
  have hmod : (31 + n + 1) % 31 = (n + 1) % 31 := by omega
  rw [failedPoll, failedPoll, hmod]

/-- The counter is the number of failed polls up to whole rounds. -/
theorem waitForWiFi_replicate (k : Nat) (answers : List Bool) {cntr : Nat} (h : cntr ≤ 30) :
    waitForWiFi (List.replicate k false ++ true :: answers) cntr =
      some ((List.range k).flatMap (fun n => failedPoll (cntr + n)), answers) := by
  induction k generalizing cntr with
  | zero => rfl
  | succ k ih =>
    rw [List.replicate_succ, List.cons_append, waitForWiFi, List.range_succ_eq_map, List.flatMap_cons,
      List.flatMap_map]
    by_cases hlast : cntr = 30
    · subst hlast
      have hpolls (n : Nat) : failedPoll (30 + n.succ) = failedPoll (0 + n) := by
        rw [← failedPoll_add_period (0 + n), Nat.zero_add]
        congr 1
        omega
      simp only [hpolls]
      rw [if_pos (by decide), if_pos (by decide), ih (Nat.zero_le 30)]
      rfl
    · have hcntr : ¬ 30 < cntr + 1 := by omega
      have hpoll : failedPoll cntr = [.delay 500] := by
        rw [failedPoll, if_neg (by omega)]
      have hpolls (n : Nat) : failedPoll (cntr + n.succ) = failedPoll (cntr + 1 + n) := by
        congr 1
        omega
      simp only [hpolls, Nat.add_zero, hpoll]
      rw [if_neg hcntr, if_neg hcntr, ih (by omega)]
      rfl

/-- The loop is left at the first connected poll. -/
theorem waitForWiFi_some {answers rest : List Bool} {cntr : Nat} {calls : List WiFiCall}
    (h : waitForWiFi answers cntr = some (calls, rest)) :
    ∃ k, answers = List.replicate k false ++ true :: rest := by
  induction answers generalizing cntr calls with
  | nil => cases h
  | cons a answers ih =>
    cases a with
    | true =>
      obtain ⟨-, rfl⟩ := Prod.mk.inj (Option.some.inj h)
      exact ⟨0, rfl⟩
    | false =>
      rw [waitForWiFi, Option.map_eq_some_iff] at h
      obtain ⟨⟨calls', rest'⟩, hwait, heq⟩ := h
      obtain ⟨-, rfl⟩ := Prod.mk.inj heq
      obtain ⟨k, rfl⟩ := ih hwait
      exact ⟨k + 1, rfl⟩

theorem waited_append (calls calls' : List WiFiCall) :
    waited (calls ++ calls') = waited calls + waited calls' := by
  rw [waited, List.map_append, List.sum_append, waited, waited]

theorem failedPolls_cost (k : Nat) :
    waited (failedPolls k) = 500 * k + k / 31 ∧ attempts (failedPolls k) = k / 31 := by
  induction k with
  | zero => exact ⟨rfl, rfl⟩
  | succ k ih =>
    obtain ⟨hwaited, hattempts⟩ := ih
    have hsucc : failedPolls (k+1) = failedPolls k ++ failedPoll k := by
      rw [failedPolls, List.range_succ, List.flatMap_append, List.flatMap_singleton, failedPolls]
    rw [hsucc, waited_append, hwaited, attempts, List.count_append, ← attempts, hattempts, failedPoll]
    by_cases hround : (k + 1) % 31 = 0
    · rw [if_pos hround]
      constructor
      · change 500 * k + k / 31 + 501 = _
        omega
      · change k / 31 + 1 = _
        omega
    · rw [if_neg hround]
      constructor
      · change 500 * k + k / 31 + 500 = _
        omega
      · change k / 31 + 0 = _
        omega

/-- The calls of a `reconnect` that finds the driver connected at its poll number `k`. -/
def reconnectCalls : Nat → List WiFiCall
  | 0 => [ledGreen]
  | k + 1 => [.disconnect, .begin, ledBlue] ++ failedPolls k ++ [ledGreen]

theorem reconnect_replicate (k : Nat) (rest : List Bool) :
    reconnect (List.replicate k false ++ true :: rest) = some (true, reconnectCalls k, rest) := by
  cases k with
  | zero => rfl
  | succ k =>
    have hwait := waitForWiFi_replicate k rest (Nat.zero_le 30)
    simp only [Nat.zero_add] at hwait
    rw [List.replicate_succ, List.cons_append, reconnect, InitWiFi, hwait]
    rfl

/-- Every returning call has seen a first success. -/
theorem reconnect_some {answers rest : List Bool} {connected : Bool} {calls : List WiFiCall}
    (h : reconnect answers = some (connected, calls, rest)) :
    ∃ k, answers = List.replicate k false ++ true :: rest := by
  cases answers with
  | nil => cases h
  | cons a answers =>
    cases a with
    | true =>
      obtain ⟨-, heq⟩ := Prod.mk.inj (Option.some.inj h)
      obtain ⟨-, rfl⟩ := Prod.mk.inj heq
      exact ⟨0, rfl⟩
    | false =>
      rw [reconnect, InitWiFi, Option.map_map, Option.map_eq_some_iff] at h
      obtain ⟨⟨calls', rest'⟩, hwait, heq⟩ := h
      obtain ⟨-, heq⟩ := Prod.mk.inj heq
      obtain ⟨-, rfl⟩ := Prod.mk.inj heq
      obtain ⟨k, rfl⟩ := waitForWiFi_some hwait
      exact ⟨k + 1, rfl⟩

theorem reconnectCalls_cost (k : Nat) :
    attempts (reconnectCalls k) = (k + 30) / 31 ∧
      waited (reconnectCalls k) = 500 * (k - 1) + (k - 1) / 31 := by
  cases k with
  | zero => exact ⟨rfl, rfl⟩
  | succ k =>
    obtain ⟨hwaited, hattempts⟩ := failedPolls_cost k
    rw [reconnectCalls, attempts, List.count_append, List.count_append, ← attempts, ← attempts,
      hattempts, waited_append, waited_append, hwaited]
    constructor
    · change 1 + k / 31 + 0 = _
      omega
    · change 0 + (500 * k + k / 31) + 0 = _
      omega

/-- `reconnect` returns exactly when the driver connects, and never false: whatever the driver
answers, it has polled up to the first success, shown blue meanwhile and green at the end, and started
the connection once for every 31 failed polls. -/
theorem reconnect_iff (answers rest : List Bool) (connected : Bool) (calls : List WiFiCall) :
    reconnect answers = some (connected, calls, rest) ↔
      connected = true ∧ ∃ k, answers = List.replicate k false ++ true :: rest ∧
        calls = reconnectCalls k ∧ attempts calls = (k + 30) / 31 ∧
        waited calls = 500 * (k - 1) + (k - 1) / 31 := by
  constructor
  · intro h
    obtain ⟨k, rfl⟩ := reconnect_some h
    rw [reconnect_replicate, Option.some.injEq] at h
    obtain ⟨rfl, heq⟩ := Prod.mk.inj h
    obtain ⟨rfl, -⟩ := Prod.mk.inj heq
    obtain ⟨hattempts, hwaited⟩ := reconnectCalls_cost k
    exact ⟨rfl, k, rfl, rfl, hattempts, hwaited⟩
  · rintro ⟨rfl, k, rfl, rfl, -, -⟩
    exact reconnect_replicate k rest

end EspNowGateway.Gateway
