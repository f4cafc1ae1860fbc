import EspNowGateway.Radio.ReceiveTasks
import Mathlib.Data.List.Chain

/-! The queue handle behind the two start-up flags. The flags record the answers of ESP-NOW
only: a `radioQ` that could not be created goes unnoticed once the callback is registered. -/
namespace EspNowGateway.Radio
open ByteLayout QueueHeap RadioState PartialRun

variable {tw : Nat}

/-- The steps of a start-up that can fail. -/
inductive StartStep where
  | espNowInit
  | addPeer
  | queueCreate
  | registerCb
  deriving DecidableEq, Repr

/-- One such step as a call took it. -/
structure Attempt where
  step : StartStep
  ok : Bool
  deriving DecidableEq, Repr

def Failed (attempts : List Attempt) (x : StartStep) : Prop := ⟨x, false⟩ ∈ attempts

def Tried (attempts : List Attempt) (x : StartStep) : Prop := ∃ ok, ⟨x, ok⟩ ∈ attempts

@[simp] theorem failed_nil (x : StartStep) : ¬ Failed [] x := List.not_mem_nil

@[simp] theorem failed_cons (y : StartStep) (ok : Bool) (as : List Attempt) (x : StartStep) :
    Failed (⟨y, ok⟩ :: as) x ↔ x = y ∧ ok = false ∨ Failed as x := by
  rw [Failed, List.mem_cons, Attempt.mk.injEq, eq_comm (b := ok)]
  rfl

@[simp] theorem failed_append (as bs : List Attempt) (x : StartStep) :
    Failed (as ++ bs) x ↔ Failed as x ∨ Failed bs x := List.mem_append

@[simp] theorem tried_cons (y : StartStep) (ok : Bool) (as : List Attempt) (x : StartStep) :
    Tried (⟨y, ok⟩ :: as) x ↔ x = y ∨ Tried as x := by
  simp only [Tried, List.mem_cons, Attempt.mk.injEq, exists_or, exists_and_left, exists_eq, and_true]

@[simp] theorem tried_append (as bs : List Attempt) (x : StartStep) :
    Tried (as ++ bs) x ↔ Tried as x ∨ Tried bs x := by
  simp only [Tried, List.mem_append, exists_or]

/-- A finished call of `receivePacket`: what it attempted, and what it returned. -/
structure Call where
  attempts : List Attempt
  returnsTrue : Bool
  deriving Repr

/-- The next call attempts what this one failed in. -/
def Retried (c next : Call) : Prop := ∀ x, Failed c.attempts x → Tried next.attempts x

/-- `esp_now_add_peer` answers that the peer is there. -/
def AddPeerStatus.added : AddPeerStatus → Bool
  | .ok => true
  | .exist => true
  | _ => false

namespace RadioState

theorem initRadio_eq (o : InitOutcome) (r : EspRadio tw) :
    r.initRadio o = (r.wasRadioInit || (o.espNowInit && o.addPeer.added)) := by
  obtain ⟨init, status⟩ := o
  rw [initRadio]
  cases r.wasRadioInit <;> cases init <;> cases status <;> rfl

/-- The handle of a queue that a successful `xQueueCreate` has returned. -/
def Created {φ : Type} (r : RadioState φ) (radioQ : Option Handle) : Prop :=
  ∃ h q, radioQ = some h ∧ contents r.heap h = some q

end RadioState

namespace ReceiveTasks

/-- What the action attempts in the state `s`. -/
def attempts (s : ReceiveTasks tw) : Action → List Attempt
  | .enter o =>
    if s.radio.wasRadioInit then []
    else if o.espNowInit then [⟨.espNowInit, true⟩, ⟨.addPeer, o.addPeer.added⟩]
    else [⟨.espNowInit, false⟩]
  | .create ok => [⟨.queueCreate, ok⟩]
  | .register ok => [⟨.registerCb, ok⟩]
  | _ => []

/-- `OnDataRecv` is registered behind a queue. -/
def Backed (s : ReceiveTasks tw) : Action → Prop
  | .register true => s.radio.radioQ ≠ none
  | _ => True

/-- Just after an `xQueueCreate` that returned NULL, before the callback is registered. -/
structure Unbacked (s : ReceiveTasks tw) : Prop where
  main : s.main = .created
  radioQ : s.radio.radioQ = none
  cbRegistered : s.radio.cbRegistered = false
  started : s.radio.receiverWasStarted = false
  callback : s.callback = .outside
  accepted : s.accepted = []
  removed : s.removed = []
  returned : s.returned = []

/-- The invariant of runs in which `xQueueCreate` may fail. -/
def Safe (s : ReceiveTasks tw) : Prop := Inv s ∨ Unbacked s

private theorem unbacked_of_inv {s : ReceiveTasks tw} (hs : Inv s) (hpc : s.main = .starting) :
    Unbacked { s with radio := s.radio.createQueue false, main := .created } := by
  obtain ⟨hphase, hret⟩ := hs
  cases hphase with
  | before hreg hstart hcb hacc hrem hq hmain =>
    rw [hrem] at hret
    exact ⟨rfl, rfl, hreg, hstart, hcb, hacc, hrem, hret⟩
  | after k q hq hc hlen hacc hcb hmain => rcases hmain with ⟨hm, _⟩ | ⟨_, hm | hm⟩ <;> simp [hpc] at hm

private theorem inv_of_unbacked {s : ReceiveTasks tw} (h : Unbacked s) : Inv { s with
    radio := { s.radio.registerCb false with receiverWasStarted := false }
    main := .outside } := by
  refine ⟨.before ?_ rfl h.callback h.accepted h.removed ?_ (Or.inl rfl), ?_⟩
  · simp only [registerCb, h.cbRegistered, Bool.or_false]
  · intro k hk
    rw [registerCb, h.radioQ] at hk
    cases hk
  · rw [h.removed, h.returned]
    rfl

/-- A step other than the registration without a queue keeps the handle safe. -/
theorem safe_step (s : ReceiveTasks tw) (a : Action) (t : ReceiveTasks tw) (hbacked : Backed s a)
    (hs : Safe s) (hstep : step s a = some t) : Safe t := by
  rcases hs with hs | hs
  · by_cases hcreate : QueueCreated a
    · exact Or.inl (inv_step s a t hcreate hs hstep)
    · obtain rfl : a = .create false := not_not.mp hcreate
      cases step_cases hstep with
      | create _ hpc => exact Or.inr (unbacked_of_inv hs hpc)
  · cases step_cases hstep with
    | enter o hpc => simp [hs.main] at hpc
    | create ok hpc => simp [hs.main] at hpc
    | registered hpc => exact absurd hs.radioQ hbacked
    | refused hpc => exact Or.inl (inv_of_unbacked hs)
    | setStarted hpc => simp [hs.main] at hpc
    | take hpc hf => simp [hs.main] at hpc
    | timeOut hpc => simp [hs.main] at hpc
    | arrive incomingData beyond hreg hcall => simp [hs.cbRegistered] at hreg
    | readHandle hcall => simp [hs.callback] at hcall
    | put hcall hput => simp [hs.callback] at hcall
    | drop hcall => simp [hs.callback] at hcall

/-- Both tasks use the handle of an existing queue. -/
structure HandleValid (s : ReceiveTasks tw) : Prop where
  receive : s.main = .waiting → s.radio.Created s.radio.radioQ
  send : ∀ k f, s.callback = .sending k f → s.radio.Created k

theorem Safe.handleValid {s : ReceiveTasks tw} (h : Safe s) : HandleValid s := by
  rcases h with ⟨hphase, _⟩ | h
  · cases hphase with
    | before hreg hstart hcb hacc hrem hq hmain =>
      constructor
      · intro hpc
        rcases hmain with hm | hm | ⟨hm, _⟩ <;> simp [hpc] at hm
      · intro k f hk
        rw [hcb] at hk
        cases hk
    | after k q hq hc hlen hacc hcb hmain =>
      exact ⟨fun _ => ⟨k, q, hq, hc⟩, fun j f hj => ⟨k, q, hcb j f hj, hc⟩⟩
  · constructor
    · intro hpc
      rw [h.main] at hpc
      cases hpc
    · intro k f hk
      rw [h.callback] at hk
      cases hk

/-- An action of the task that calls `receivePacket`. -/
def ofMain : Action → Bool
  | .enter _ => true
  | .create _ => true
  | .register _ => true
  | .setStarted => true
  | .take => true
  | .timeOut => true
  | _ => false

end ReceiveTasks

/-- A state of the tasks, with the attempts of the call that is going on and the calls before. -/
structure Watched (σ : Type) where
  tasks : σ
  current : List Attempt
  calls : List Call

namespace Watched
open ReceiveTasks

def start (tw : Nat) : Watched (ReceiveTasks tw) := ⟨.boot tw, [], []⟩

/-- A step of the tasks, written down. -/
def record (w : Watched (ReceiveTasks tw)) (a : Action) (t : ReceiveTasks tw) :
    Watched (ReceiveTasks tw) :=
  let current := w.current ++ attempts w.tasks a
  if ofMain a ∧ t.main = .outside then
    ⟨t, [], w.calls ++ [⟨current, w.tasks.returned.length < t.returned.length⟩]⟩
  else ⟨t, current, w.calls⟩

def step (w : Watched (ReceiveTasks tw)) (a : Action) : Option (Watched (ReceiveTasks tw)) :=
  (w.tasks.step a).map (w.record a)

@[simp] theorem record_tasks (w : Watched (ReceiveTasks tw)) (a : Action) (t : ReceiveTasks tw) :
    (w.record a t).tasks = t := by
  rw [record]
  split <;> rfl

/-- Watching changes nothing. -/
theorem run_tasks (w : Watched (ReceiveTasks tw)) (as : List Action) :
    (PartialRun.run step w as).map Watched.tasks = ReceiveTasks.run w.tasks as := by
  induction as generalizing w with
  | nil => rfl
  | cons a as ih =>
    rw [ReceiveTasks.run, run_cons, run_cons, step]
    cases w.tasks.step a with
    | none => rfl
    | some t =>
      have h := ih (w.record a t)
      rw [record_tasks] at h
      exact h

/-- What the failures of the last call still ask for, where the main task is now. -/
def Owed (main : MainPc) (init started : Bool) (current : List Attempt) (x : StartStep) : Prop :=
  match main with
  | .outside =>
    match x with
    | .espNowInit => init = false
    | .addPeer => init = false
    | .queueCreate => init = true ∧ started = false
    | .registerCb => init = true ∧ started = false
  | .starting => Tried current x ∨ x = .queueCreate ∨ x = .registerCb
  | .created => Tried current x ∨ x = .registerCb
  | .registered => Tried current x
  | .waiting => Tried current x

/-- The calls so far have been retried, and the current one is on its way to do so; only a queue
that was not created lets it go on after a failure. -/
structure Retries (main : MainPc) (init started : Bool) (radioQ : Option Handle)
    (current : List Attempt) (calls : List Call) : Prop where
  chain : calls.IsChain Retried
  refused : ∀ c ∈ calls, ∀ x, Failed c.attempts x → c.returnsTrue = false
  owed : ∀ c ∈ calls.getLast?, ∀ x, Failed c.attempts x → Owed main init started current x
  clean : ∀ x, Failed current x → x = .queueCreate ∧ main = .created ∧ radioQ = none
  up : main ≠ .outside → init = true

namespace Retries

variable {main : MainPc} {init started : Bool} {radioQ : Option Handle} {current : List Attempt}
  {calls : List Call}

/-- The end of a call. -/
theorem finish {init' started' : Bool} {radioQ' : Option Handle} {attempts : List Attempt}
    {returnsTrue : Bool} (h : Retries main init started radioQ current calls)
    (hrefused : ∀ x, Failed attempts x → returnsTrue = false)
    (hretried : ∀ c ∈ calls.getLast?, Retried c ⟨attempts, returnsTrue⟩)
    (howed : ∀ x, Failed attempts x → Owed .outside init' started' [] x) :
    Retries .outside init' started' radioQ' [] (calls ++ [⟨attempts, returnsTrue⟩]) := by
  constructor
  · refine h.chain.append (List.isChain_singleton _) fun c hc d hd => ?_
    obtain rfl := Option.some.inj hd
    exact hretried c hc
  · intro c hc x hx
    rcases List.mem_append.mp hc with hc | hc
    · exact h.refused c hc x hx
    · obtain rfl := List.mem_singleton.mp hc
      exact hrefused x hx
  · intro c hc x hx
    rw [List.getLast?_concat] at hc
    obtain rfl := Option.some.inj hc
    exact howed x hx
  · intro x hx
    cases hx
  · exact fun hne => absurd rfl hne

theorem no_failure (h : Retries main init started radioQ current calls) (hne : main ≠ .created)
    (x : StartStep) : ¬ Failed current x := fun hx => hne (h.clean x hx).2.1

/-- While the radio is down only its own two steps are owed. -/
theorem owed_down (h : Retries .outside false started radioQ current calls) {c : Call}
    (hc : c ∈ calls.getLast?) {x : StartStep} (hx : Failed c.attempts x) :
    x = .espNowInit ∨ x = .addPeer := by
  have howed := h.owed c hc x hx
  cases x <;> simp [Owed] at howed ⊢

/-- `initRadio` returns in front of `esp_now_add_peer`. -/
theorem enter_noInit (h : Retries .outside false started radioQ current calls)
    (hpeer : ∀ c ∈ calls.getLast?, ¬ Failed c.attempts .addPeer) :
    Retries .outside false started radioQ []
      (calls ++ [⟨current ++ [⟨.espNowInit, false⟩], false⟩]) := by
  have hnone := h.no_failure (by decide)
  refine h.finish (fun _ _ => rfl) (fun c hc x hx => ?_) fun x hx => ?_
  · rcases h.owed_down hc hx with rfl | rfl
    · simp
    · exact absurd hx (hpeer c hc)
  · obtain rfl : x = .espNowInit := by simpa [hnone] using hx
    rfl

theorem enter_noPeer (h : Retries .outside false started radioQ current calls) :
    Retries .outside false started radioQ []
      (calls ++ [⟨current ++ [⟨.espNowInit, true⟩, ⟨.addPeer, false⟩], false⟩]) := by
  have hnone := h.no_failure (by decide)
  refine h.finish (fun _ _ => rfl) (fun c hc x hx => ?_) fun x hx => ?_
  · rcases h.owed_down hc hx with rfl | rfl <;> simp
  · obtain rfl : x = .addPeer := by simpa [hnone] using hx
    rfl

/-- With the radio up, what is owed lies ahead. -/
theorem enter_up (h : Retries .outside init started radioQ current calls) {new : List Attempt}
    (hnew : new = if init then [] else [⟨.espNowInit, true⟩, ⟨.addPeer, true⟩]) :
    Retries (if started then .waiting else .starting) true started radioQ (current ++ new) calls := by
  have hnone := h.no_failure (by decide)
  refine ⟨h.chain, h.refused, fun c hc x hx => ?_, fun x hx => ?_, fun _ => rfl⟩
  · have howed := h.owed c hc x hx
    cases init <;> cases started <;> cases x <;> simp [Owed, hnew] at howed ⊢
  · cases init <;> simp [hnew, hnone] at hx

theorem create (h : Retries .starting init started radioQ current calls) {ok : Bool}
    {radioQ' : Option Handle} (hq : ok = false → radioQ' = none) :
    Retries .created init started radioQ' (current ++ [⟨.queueCreate, ok⟩]) calls := by
  have hnone := h.no_failure (by decide)
  refine ⟨h.chain, h.refused, fun c hc x hx => ?_, fun x hx => ?_, fun _ => h.up (by decide)⟩
  · rcases h.owed c hc x hx with htried | rfl | rfl <;> simp [Owed, *]
  · obtain ⟨rfl, hok⟩ : x = .queueCreate ∧ ok = false := by simpa [hnone] using hx
    exact ⟨rfl, rfl, hq hok⟩

/-- A call that has a queue has not failed so far. -/
theorem registered (h : Retries .created init started radioQ current calls) (hq : radioQ ≠ none) :
    Retries .registered init started radioQ (current ++ [⟨.registerCb, true⟩]) calls := by
  refine ⟨h.chain, h.refused, fun c hc x hx => ?_, fun x hx => ?_, fun _ => h.up (by decide)⟩
  · rcases h.owed c hc x hx with htried | rfl <;> simp [Owed, *]
  · have hfailed : Failed current x := by simpa using hx
    exact absurd (h.clean x hfailed).2.2 hq

theorem notRegistered (h : Retries .created init started radioQ current calls) :
    Retries .outside init false radioQ []
      (calls ++ [⟨current ++ [⟨.registerCb, false⟩], false⟩]) := by
  refine h.finish (fun _ _ => rfl) (fun c hc x hx => ?_) fun x hx => ?_
  · rcases h.owed c hc x hx with htried | rfl <;> simp [*]
  · have hx' : Failed current x ∨ x = .registerCb := by simpa using hx
    rcases hx' with hx' | rfl
    · obtain rfl := (h.clean x hx').1
      exact ⟨h.up (by decide), rfl⟩
    · exact ⟨h.up (by decide), rfl⟩

theorem setStarted (h : Retries .registered init started radioQ current calls) :
    Retries .waiting init true radioQ (current ++ []) calls := by
  have hnone := h.no_failure (by decide)
  rw [List.append_nil]
  exact ⟨h.chain, h.refused, h.owed, fun x hx => absurd hx (hnone x), fun _ => h.up (by decide)⟩

/-- A call that has come to the queue has nothing left to retry. -/
theorem received (h : Retries .waiting init started radioQ current calls) (returnsTrue : Bool) :
    Retries .outside init started radioQ [] (calls ++ [⟨current ++ [], returnsTrue⟩]) := by
  have hnone := h.no_failure (by decide)
  rw [List.append_nil]
  exact h.finish (fun x hx => absurd hx (hnone x)) (fun c hc x hx => h.owed c hc x hx)
    fun x hx => absurd hx (hnone x)

end Retries

/-- The step neither registers `OnDataRecv` without a queue, nor fails in `esp_now_init` right after
a call that failed in `esp_now_add_peer`. -/
structure Unhindered (w : Watched (ReceiveTasks tw)) (a : Action) : Prop where
  backed : Backed w.tasks a
  reinit : ∀ o, a = .enter o →
    (∃ c ∈ w.calls.getLast?, Failed c.attempts .addPeer) → o.espNowInit = true

/-- The invariant of the retries, over the state of the tasks. -/
def Good (w : Watched (ReceiveTasks tw)) : Prop :=
  Retries w.tasks.main w.tasks.radio.wasRadioInit w.tasks.radio.receiverWasStarted w.tasks.radio.radioQ
    w.current w.calls

private theorem good_enter {w : Watched (ReceiveTasks tw)} (h : Good w) (hpc : w.tasks.main = .outside)
    (o : InitOutcome)
    (hreinit : (∃ c ∈ w.calls.getLast?, Failed c.attempts .addPeer) → o.espNowInit = true) :
    Good (w.record (.enter o) (w.tasks.enter o)) := by
  obtain ⟨⟨⟨init, started, radioQ, packetID, heap, cb⟩, main, callback, accepted, removed,
    returned⟩, current, calls⟩ := w
  obtain rfl : main = .outside := hpc
  have hretries : Retries .outside init started radioQ current calls := h
  simp only [Good, record, attempts, ofMain, enter, initRadio_eq]
  cases init with
  | true =>
    have hup := hretries.enter_up rfl
    cases started <;> exact hup
  | false =>
    cases hinit : o.espNowInit with
    | false =>
      have hpeer (c : Call) (hc : c ∈ calls.getLast?) : ¬ Failed c.attempts .addPeer := by
        intro hx
        have hok : o.espNowInit = true := hreinit ⟨c, hc, hx⟩
        rw [hinit] at hok
        cases hok
      simpa [hinit] using hretries.enter_noInit hpeer
    | true =>
      cases hadded : o.addPeer.added with
      | false => simpa [hinit, hadded] using hretries.enter_noPeer
      | true =>
        have hup := hretries.enter_up rfl
        cases started <;> exact hup

theorem good_step {w : Watched (ReceiveTasks tw)} {a : Action} {t : ReceiveTasks tw}
    (ha : Unhindered w a) (h : Good w) (hstep : w.tasks.step a = some t) :
    Good (w.record a t) := by
  have hretries : Retries w.tasks.main _ _ _ w.current w.calls := h
  cases step_cases hstep with
  | enter o hpc => exact good_enter h hpc o (ha.reinit o rfl)
  | create ok hpc =>
    rw [hpc] at hretries
    cases ok with
    | false => exact hretries.create fun _ => rfl
    | true => exact hretries.create nofun
  | registered hpc =>
    rw [hpc] at hretries
    exact hretries.registered ha.backed
  | refused hpc =>
    rw [hpc] at hretries
    simpa [Good, record, attempts, ofMain, registerCb] using hretries.notRegistered
  | setStarted hpc =>
    rw [hpc] at hretries
    exact hretries.setStarted
  | @take hpc f radio hf =>
    rw [hpc] at hretries
    obtain ⟨_, _, _, _, rfl⟩ := queueReceive_ok hf
    exact hretries.received _
  | timeOut hpc =>
    rw [hpc] at hretries
    exact hretries.received _
  | arrive incomingData beyond hreg hcall => simpa [Good, record, attempts, ofMain] using hretries
  | readHandle hcall => simpa [Good, record, attempts, ofMain] using hretries
  | put hcall hput => simpa [Good, record, attempts, ofMain] using hretries
  | drop hcall => simpa [Good, record, attempts, ofMain] using hretries

/-- In every unhindered run the two tasks use valid handles only; a call with a failed step has
returned false, and the next one has attempted that step again. -/
theorem handle_valid_and_retried {acts : List Action} {w : Watched (ReceiveTasks tw)}
    (hrun : PartialRun.run step (start tw) acts = some w)
    (hunhindered : Along step Unhindered (start tw) acts) :
    HandleValid w.tasks ∧
      (∀ c ∈ w.calls, ∀ x, Failed c.attempts x → c.returnsTrue = false) ∧
      w.calls.IsChain Retried := by
  have hinv : Safe w.tasks ∧ Good w := by
    refine run_invariant_along step Unhindered (fun w => Safe w.tasks ∧ Good w) ?_
      ⟨Or.inl inv_boot, ?_⟩ hunhindered hrun
    · rintro v a v' ha ⟨hsafe, hgood⟩ hstep
      obtain ⟨t, ht, rfl⟩ := Option.map_eq_some_iff.mp hstep
      exact ⟨(record_tasks v a t).symm ▸ safe_step v.tasks a t ha.backed hsafe ht, good_step ha hgood ht⟩
    · exact ⟨List.isChain_nil, by simp [start], by simp [start], by simp [start], fun hne => absurd rfl hne⟩
  exact ⟨hinv.1.handleValid, hinv.2.refused, hinv.2.chain⟩

/-- A radio without its peer, a queue that could not be created in front of a refused
registration, then a good start. -/
def thirdStart : List Action :=
  [.enter ⟨true, .full⟩, .enter ⟨true, .ok⟩, .create false, .register false, .enter ⟨true, .ok⟩,
    .create true, .register true, .setStarted, .timeOut]

theorem handle_valid_and_retried_thirdStart : ∃ w : Watched (ReceiveTasks 4),
    PartialRun.run step (start 4) thirdStart = some w ∧ w.calls.length = 3 ∧
      w.calls.IsChain Retried := by
  have hok : Along step Unhindered (start 4) thirdStart := by
    refine ⟨⟨trivial, ?_⟩, ⟨trivial, ?_⟩, ⟨trivial, ?_⟩, ⟨trivial, ?_⟩, ⟨trivial, ?_⟩, ⟨trivial, ?_⟩,
      ⟨Option.some_ne_none _, ?_⟩, ⟨trivial, ?_⟩, ⟨trivial, ?_⟩, trivial⟩
    all_goals
      intro o ho _
      cases ho <;> rfl
  exact ⟨_, rfl, rfl, (handle_valid_and_retried rfl hok).2.2⟩

/-- Without memory for the queue the receiver starts all the same and waits at a null handle. -/
theorem null_queue_used : ¬ ∀ (acts : List Action) (w : Watched (ReceiveTasks 4)),
    PartialRun.run step (start 4) acts = some w →
      HandleValid w.tasks ∧
        (∀ c ∈ w.calls, ∀ x, Failed c.attempts x → c.returnsTrue = false) ∧
        w.calls.IsChain Retried := by
  intro hclaim
  obtain ⟨hvalid, _⟩ := hclaim [.enter ⟨true, .ok⟩, .create false, .register true, .setStarted] _ rfl
  obtain ⟨h, q, hnull, _⟩ := hvalid.receive rfl
  cases hnull

/-- `esp_now_init` fails right after a call that failed in `esp_now_add_peer`: `initRadio` returns
without a second attempt at the peer. -/
theorem peer_not_retried {w : Watched (ReceiveTasks tw)} {c : Call} {o : InitOutcome}
    (hc : c ∈ w.calls.getLast?) (hfailed : Failed c.attempts .addPeer) (hcurrent : w.current = [])
    (hdown : w.tasks.radio.wasRadioInit = false) (hinit : o.espNowInit = false) :
    ¬ (w.record (.enter o) (w.tasks.enter o)).calls.IsChain Retried := by
  have hcalls : (w.record (.enter o) (w.tasks.enter o)).calls =
      w.calls ++ [⟨[⟨.espNowInit, false⟩], false⟩] := by
    simp [record, attempts, ofMain, enter, initRadio_eq, hdown, hinit, hcurrent]
  rw [hcalls]
  intro hchain
  have hretried : Retried c ⟨[⟨.espNowInit, false⟩], false⟩ :=
    (List.isChain_append.mp hchain).2.2 c hc _ rfl
  simpa [Tried] using hretried .addPeer hfailed

end Watched
end EspNowGateway.Radio
